import Geodesy.Library.Comparator
import Mathlib.Data.List.Sort

/-!
# Stable sorting

`sorted cmp xs` is the stable sort of `xs` by a comparison function.  There is only one: elements
that tie keep their order (`filter_sorted`), so what is made of the sorted list depends on the order
of `xs` exactly as far as tied elements differ in it (`sorted_canonical_iff`).
-/

namespace StableSort

open Comparator

variable {α β : Type*} {cmp : α → α → ℤ}

/-- The stable sort. -/
def sorted (cmp : α → α → ℤ) (xs : List α) : List α := xs.insertionSort fun a b => cmp a b ≤ 0

lemma sorted_perm (cmp : α → α → ℤ) (xs : List α) : (sorted cmp xs).Perm xs :=
  List.perm_insertionSort _ xs

lemma pairwise_sorted (h : Contract cmp) (xs : List α) :
    (sorted cmp xs).Pairwise fun a b => cmp a b ≤ 0 := by
  have : Std.Total fun a b => cmp a b ≤ 0 := ⟨h.le_total⟩
  have : IsTrans α fun a b => cmp a b ≤ 0 := ⟨fun _ _ _ => h.trans⟩
  exact List.pairwise_insertionSort _ xs

/-- Elements that tie with `a` stay in their order. -/
lemma filter_sorted (h : Contract cmp) (a : α) (xs : List α) :
    (sorted cmp xs).filter (cmp a · = 0) = xs.filter (cmp a · = 0) := by
  have hties : (xs.filter (cmp a · = 0)).Pairwise fun b c => cmp b c ≤ 0 := by
    refine List.pairwise_of_forall_mem_list fun b hb c hc => ?_
    have hb' : cmp a b = 0 := by simpa using (List.mem_filter.mp hb).2
    have hc' : cmp a c = 0 := by simpa using (List.mem_filter.mp hc).2
    exact (h.tie_trans (h.zero_symm hb') hc').le
  have hsub : (xs.filter (cmp a · = 0)).Sublist (sorted cmp xs) :=
    List.sublist_insertionSort hties List.filter_sublist
  have hsub' := hsub.filter (cmp a · = 0)
  rw [List.filter_filter] at hsub'
  simp only [Bool.and_self] at hsub'
  exact (hsub'.eq_of_length ((sorted_perm cmp xs).filter _).length_eq.symm).symm

/-- In two orders of the same elements that are both sorted, the elements at a place tie. -/
lemma map_eq_of_ties (h : Contract cmp) {f : α → β} {xs : List α}
    (hf : ∀ x ∈ xs, ∀ y ∈ xs, cmp x y = 0 → f x = f y) {ys : List α} (hperm : xs.Perm ys)
    (hxs : xs.Pairwise fun a b => cmp a b ≤ 0) (hys : ys.Pairwise fun a b => cmp a b ≤ 0) :
    xs.map f = ys.map f := by
  induction xs generalizing ys with
  | nil => rw [hperm.nil_eq]
  | cons a xs ih =>
      obtain ⟨ps, qs, rfl⟩ := List.append_of_mem (hperm.subset List.mem_cons_self)
      obtain ⟨hmin, hxs⟩ := List.pairwise_cons.mp hxs
      have hrest : xs.Perm (ps ++ qs) := (hperm.trans List.perm_middle).cons_inv
      -- whatever comes before `a` in the other list ties with it
      have hps : ∀ p ∈ ps, f p = f a := by
        intro p hp
        have hmem : p ∈ xs := hrest.symm.subset (List.mem_append_left _ hp)
        have hle := (List.pairwise_append.mp hys).2.2 p hp a List.mem_cons_self
        exact hf p (List.mem_cons_of_mem _ hmem) a List.mem_cons_self
          (h.zero_of_le_of_le hle (hmin p hmem))
      have hmap : ps.map f = List.replicate ps.length (f a) :=
        List.eq_replicate_iff.mpr ⟨List.length_map _, by simpa using hps⟩
      have hys' : (ps ++ qs).Pairwise fun a b => cmp a b ≤ 0 :=
        hys.sublist ((List.sublist_cons_self a qs).append_left ps)
      have ih := ih (fun x hx y hy => hf x (List.mem_cons_of_mem _ hx) y
        (List.mem_cons_of_mem _ hy)) hrest hxs hys'
      rw [List.map_cons, ih, List.map_append, List.map_append, List.map_cons, hmap]
      calc f a :: (List.replicate ps.length (f a) ++ qs.map f)
          = List.replicate (ps.length + 1) (f a) ++ qs.map f := by
            rw [List.replicate_succ, List.cons_append]
        _ = List.replicate ps.length (f a) ++ f a :: qs.map f := by
            rw [List.replicate_succ', List.append_assoc, List.singleton_append]

/-- A sorted list is what comes before `a`, what ties with it, and what comes after it. -/
lemma eq_append_of_pairwise (h : Contract cmp) (a : α) {xs : List α}
    (hxs : xs.Pairwise fun b c => cmp b c ≤ 0) :
    xs = xs.filter (0 < cmp a ·) ++ (xs.filter (cmp a · = 0) ++ xs.filter (cmp a · < 0)) := by
  induction xs with
  | nil => rfl
  | cons b xs ih =>
      obtain ⟨hb, hxs⟩ := List.pairwise_cons.mp hxs
      have ih := ih hxs
      rcases lt_trichotomy (cmp a b) 0 with hlt | heq | hgt
      · have hall : ∀ c ∈ xs, cmp a c < 0 := fun c hc => h.lt_of_lt_of_le hlt (hb c hc)
        have h1 : (b :: xs).filter (0 < cmp a ·) = [] := by
          simpa [hlt.le] using fun c hc => (hall c hc).le
        have h2 : (b :: xs).filter (cmp a · = 0) = [] := by
          simpa [hlt.ne] using fun c hc => (hall c hc).ne
        have h3 : (b :: xs).filter (cmp a · < 0) = b :: xs := by simpa [hlt] using hall
        rw [h1, h2, h3]
        rfl
      · have hall : ∀ c ∈ xs, cmp a c ≤ 0 := fun c hc => h.trans heq.le (hb c hc)
        have h1 : xs.filter (0 < cmp a ·) = [] := by simpa using hall
        rw [h1] at ih
        simp only [List.filter_cons, heq, lt_irrefl, decide_false, decide_true,
          Bool.false_eq_true, if_false, if_true, h1]
        conv_lhs => rw [ih]
        rfl
      · simp only [List.filter_cons, hgt, hgt.ne', hgt.le.not_gt, decide_true, decide_false,
          Bool.false_eq_true, if_false, if_true, List.cons_append]
        conv_lhs => rw [ih]

/-- The first of the elements that tie with `a` is at a place that the order does not change. -/
lemma getElem?_sorted (h : Contract cmp) (a : α) (xs : List α) :
    (xs.filter (cmp a · = 0)) ≠ [] →
      (sorted cmp xs)[xs.countP (0 < cmp a ·)]? = (xs.filter (cmp a · = 0)).head? := by
  intro hne
  have hlength : ((sorted cmp xs).filter (0 < cmp a ·)).length = xs.countP (0 < cmp a ·) := by
    rw [List.countP_eq_length_filter]
    exact ((sorted_perm cmp xs).filter _).length_eq
  rw [eq_append_of_pairwise h a (pairwise_sorted h xs), ← hlength, filter_sorted h]
  rw [List.getElem?_append_right le_rfl, Nat.sub_self, ← List.head?_eq_getElem?,
    List.head?_append_of_ne_nil _ hne]

/-- Two elements of a list, in front. -/
lemma exists_perm_cons_cons {x y : α} {xs : List α} (hx : x ∈ xs) (hy : y ∈ xs) (hne : x ≠ y) :
    ∃ rest, xs.Perm (x :: y :: rest) := by
  obtain ⟨ps, qs, rfl⟩ := List.append_of_mem hx
  have hfront : (ps ++ x :: qs).Perm (x :: (ps ++ qs)) := List.perm_middle
  have hy' : y ∈ ps ++ qs := by
    rcases List.mem_cons.mp (hfront.subset hy) with heq | hmem
    · exact absurd heq.symm hne
    · exact hmem
  obtain ⟨ps', qs', heq⟩ := List.append_of_mem hy'
  refine ⟨ps' ++ qs', hfront.trans ?_⟩
  rw [heq]
  exact List.perm_middle.cons x

/-- **When a sorted list is canonical.**  What is made of the elements one by one is the same for
every order of the list if and only if it is the same for elements that tie. -/
theorem sorted_canonical_iff (h : Contract cmp) (f : α → β) (xs : List α) :
    (∀ ys, ys.Perm xs → (sorted cmp ys).map f = (sorted cmp xs).map f) ↔
      ∀ x ∈ xs, ∀ y ∈ xs, cmp x y = 0 → f x = f y := by
  constructor
  · intro hcanonical x hx y hy hxy
    by_contra hne
    have hne' : x ≠ y := by
      rintro rfl
      exact hne rfl
    obtain ⟨rest, hrest⟩ := exists_perm_cons_cons hx hy hne'
    have hswap : (y :: x :: rest).Perm (x :: y :: rest) := List.Perm.swap x y rest
    -- the two orders put `x` and `y` in the same place
    have hsame := (hcanonical _ hrest.symm).trans (hcanonical _ (hswap.trans hrest.symm)).symm
    have hplace := hswap.countP_eq (0 < cmp x ·)
    have hfst := getElem?_sorted h x (x :: y :: rest) (by simp [h.refl x])
    have hsnd := getElem?_sorted h x (y :: x :: rest) (by simp [hxy])
    rw [List.filter_cons_of_pos (by simpa using h.refl x), List.head?_cons] at hfst
    rw [List.filter_cons_of_pos (by simpa using hxy), List.head?_cons, hplace] at hsnd
    have hmap := congrArg (·[(x :: y :: rest).countP (0 < cmp x ·)]?) hsame
    simp only [List.getElem?_map, hfst, hsnd, Option.map_some, Option.some.injEq] at hmap
    exact hne hmap
  · intro hties ys hperm
    have hp := hperm.trans (sorted_perm cmp xs).symm
    refine map_eq_of_ties h ?_ ((sorted_perm cmp ys).trans hp) (pairwise_sorted h ys)
      (pairwise_sorted h xs)
    intro x hx y hy
    exact hties x (hperm.subset ((sorted_perm cmp ys).subset hx)) y
      (hperm.subset ((sorted_perm cmp ys).subset hy))

end StableSort
