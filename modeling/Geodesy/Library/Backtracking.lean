import Mathlib.Data.List.TakeDrop
import Mathlib.Data.List.TakeWhile

/-!
# Backtracking matchers

A matcher of a regular expression is followed by another one, `k`, that matches what is left.  Where
a quantifier can stop at several places, they are tried in turn until `k` succeeds: the shortest one
first for `lazyStar`, the longest one first for `greedyPlus`.  `find` is the search for the leftmost
match.  A quantifier also returns what it consumed, as a group.

For each of them a lemma says when it succeeds and with which group, in terms of how the input is
split.
-/

namespace Backtracking

variable {α β : Type*} {p : α → Bool} {k : List α → Option β} {s xs rest : List α} {b : β}

/-- One given symbol. -/
def literal [DecidableEq α] (c : α) (k : List α → Option β) : List α → Option β
  | [] => none
  | d :: s => if d = c then k s else none

/-- `p*?` -/
def lazyStar (p : α → Bool) (k : List α → Option β) : List α → Option (List α × β)
  | [] => (k []).map fun b => ([], b)
  | c :: s =>
    match k (c :: s) with
    | some b => some ([], b)
    | none => if p c then (lazyStar p k s).map fun m => (c :: m.1, m.2) else none

/-- `p*` -/
def greedyStar (p : α → Bool) (k : List α → Option β) : List α → Option (List α × β)
  | [] => (k []).map fun b => ([], b)
  | c :: s =>
    match if p c then greedyStar p k s else none with
    | some m => some (c :: m.1, m.2)
    | none => (k (c :: s)).map fun b => ([], b)

/-- `p+` -/
def greedyPlus (p : α → Bool) (k : List α → Option β) : List α → Option (List α × β)
  | [] => none
  | c :: s => if p c then (greedyStar p k s).map fun m => (c :: m.1, m.2) else none

/-- The match that starts leftmost. -/
def find (k : List α → Option β) : List α → Option β
  | [] => k []
  | c :: s =>
    match k (c :: s) with
    | some b => some b
    | none => find k s

/-- The rest does not match after fewer than `n` symbols. -/
def NoneBefore (k : List α → Option β) (s : List α) (n : ℕ) : Prop :=
  ∀ ys zs, s = ys ++ zs → ys.length < n → k zs = none

lemma noneBefore_zero : NoneBefore k s 0 := fun _ _ _ hlt => absurd hlt (Nat.not_lt_zero _)

lemma noneBefore_succ {c : α} {n : ℕ} :
    NoneBefore k (c :: s) (n + 1) ↔ k (c :: s) = none ∧ NoneBefore k s n := by
  constructor
  · intro h
    refine ⟨h [] (c :: s) rfl (Nat.succ_pos n), fun ys zs hsplit hlt => ?_⟩
    exact h (c :: ys) zs (by rw [hsplit]; rfl) (Nat.succ_lt_succ hlt)
  · rintro ⟨hhere, h⟩ ys zs hsplit hlt
    cases ys with
    | nil =>
        rw [List.nil_append] at hsplit
        exact hsplit ▸ hhere
    | cons d ys =>
        obtain ⟨-, hsplit⟩ := List.cons.inj hsplit
        exact h ys zs hsplit (Nat.lt_of_succ_lt_succ hlt)

lemma literal_eq_some_iff [DecidableEq α] {c : α} :
    literal c k s = some b ↔ ∃ rest, s = c :: rest ∧ k rest = some b := by
  cases s with
  | nil => simp [literal]
  | cons d s =>
      by_cases hd : d = c
      · subst hd
        simp [literal]
      · simp [literal, hd]

/-! ## The shortest one first -/

/-- What is consumed, and that it could not have been less. -/
lemma lazyStar_eq_some_iff :
    lazyStar p k s = some (xs, b) ↔ ∃ rest, s = xs ++ rest ∧ (∀ c ∈ xs, p c = true) ∧
      k rest = some b ∧ NoneBefore k s xs.length := by
  induction s generalizing xs with
  | nil =>
      constructor
      · intro h
        obtain ⟨b', hk, hb⟩ := Option.map_eq_some_iff.mp h
        obtain ⟨rfl, rfl⟩ := Prod.mk.inj hb
        exact ⟨[], rfl, by simp, hk, noneBefore_zero⟩
      · rintro ⟨rest, hs, -, hk, -⟩
        obtain ⟨rfl, rfl⟩ := List.append_eq_nil_iff.mp hs.symm
        simp [lazyStar, hk]
  | cons c s ih =>
      rw [lazyStar]
      rcases hhere : k (c :: s) with _ | b'
      · constructor
        · intro h
          simp only at h
          split_ifs at h with hc
          obtain ⟨⟨ys, b'⟩, hmatch, heq⟩ := Option.map_eq_some_iff.mp h
          obtain ⟨rfl, rfl⟩ := Prod.mk.inj heq
          obtain ⟨rest, hs, hys, hk, hnone⟩ := ih.mp hmatch
          exact ⟨rest, congrArg (c :: ·) hs, List.forall_mem_cons.mpr ⟨hc, hys⟩, hk,
            noneBefore_succ.mpr ⟨hhere, hnone⟩⟩
        · rintro ⟨rest, hs, hxs, hk, hnone⟩
          cases xs with
          | nil =>
              obtain rfl : c :: s = rest := hs
              rw [hhere] at hk
              cases hk
          | cons d xs =>
              obtain ⟨rfl, htail⟩ := List.cons.inj hs
              rw [List.forall_mem_cons] at hxs
              have hmatch := ih.mpr ⟨rest, htail, hxs.2, hk, (noneBefore_succ.mp hnone).2⟩
              simp [hxs.1, hmatch]
      · constructor
        · intro h
          obtain ⟨rfl, rfl⟩ := Prod.mk.inj (Option.some.inj h)
          exact ⟨c :: s, rfl, by simp, hhere, noneBefore_zero⟩
        · rintro ⟨rest, hs, -, hk, hnone⟩
          cases xs with
          | nil =>
              obtain rfl : c :: s = rest := hs
              rw [hhere] at hk
              rw [Option.some.inj hk]
          | cons d xs =>
              rw [(noneBefore_succ.mp hnone).1] at hhere
              cases hhere

/-- It succeeds when it can stop somewhere. -/
lemma exists_lazyStar (hxs : ∀ c ∈ xs, p c = true) (hk : k rest = some b) :
    ∃ m, lazyStar p k (xs ++ rest) = some m := by
  induction xs with
  | nil =>
      cases rest with
      | nil => exact ⟨([], b), by simp [lazyStar, hk]⟩
      | cons c rest => exact ⟨([], b), by simp [lazyStar, hk]⟩
  | cons c xs ih =>
      rw [List.forall_mem_cons] at hxs
      obtain ⟨m, hm⟩ := ih hxs.2
      rw [List.cons_append, lazyStar]
      rcases k (c :: (xs ++ rest)) with _ | b'
      · exact ⟨(c :: m.1, m.2), by simp [hxs.1, hm]⟩
      · exact ⟨([], b'), rfl⟩

/-! ## The longest one first -/

lemma exists_of_greedyStar (h : greedyStar p k s = some (xs, b)) :
    ∃ rest, s = xs ++ rest ∧ (∀ c ∈ xs, p c = true) ∧ k rest = some b := by
  induction s generalizing xs with
  | nil =>
      obtain ⟨b', hk, hb⟩ := Option.map_eq_some_iff.mp h
      obtain ⟨rfl, rfl⟩ := Prod.mk.inj hb
      exact ⟨[], rfl, by simp, hk⟩
  | cons c s ih =>
      rw [greedyStar] at h
      split at h
      case h_1 m hmatch =>
        split_ifs at hmatch with hc
        obtain ⟨rfl, rfl⟩ := Prod.mk.inj (Option.some.inj h)
        obtain ⟨rest, rfl, hxs, hk⟩ := ih hmatch
        exact ⟨rest, rfl, List.forall_mem_cons.mpr ⟨hc, hxs⟩, hk⟩
      case h_2 =>
        obtain ⟨b', hk, hb⟩ := Option.map_eq_some_iff.mp h
        obtain ⟨rfl, rfl⟩ := Prod.mk.inj hb
        exact ⟨c :: s, rfl, by simp, hk⟩

lemma greedyStar_of_longest (h : k (s.dropWhile p) = some b) :
    greedyStar p k s = some (s.takeWhile p, b) := by
  induction s with
  | nil => simpa [greedyStar] using h
  | cons c s ih =>
      by_cases hc : p c = true
      · rw [List.dropWhile_cons_of_pos hc] at h
        simp [greedyStar, hc, ih h]
      · rw [List.dropWhile_cons_of_neg hc] at h
        simp [greedyStar, hc, h]

/-- What is consumed. -/
lemma exists_of_greedyPlus (h : greedyPlus p k s = some (xs, b)) :
    ∃ rest, s = xs ++ rest ∧ xs ≠ [] ∧ (∀ c ∈ xs, p c = true) ∧ k rest = some b := by
  cases s with
  | nil => cases h
  | cons c s =>
      rw [greedyPlus] at h
      split_ifs at h with hc
      obtain ⟨⟨ys, b'⟩, hmatch, heq⟩ := Option.map_eq_some_iff.mp h
      obtain ⟨rfl, rfl⟩ := Prod.mk.inj heq
      obtain ⟨rest, rfl, hys, hk⟩ := exists_of_greedyStar hmatch
      exact ⟨rest, rfl, by simp, List.forall_mem_cons.mpr ⟨hc, hys⟩, hk⟩

/-- All that can be consumed is, when the rest can be matched then. -/
lemma greedyPlus_of_longest (hne : xs ≠ []) (hxs : ∀ c ∈ xs, p c = true)
    (hstop : ∀ c ∈ rest.head?, p c = false) (hk : k rest = some b) :
    greedyPlus p k (xs ++ rest) = some (xs, b) := by
  obtain ⟨c, xs, rfl⟩ := List.exists_cons_of_ne_nil hne
  rw [List.forall_mem_cons] at hxs
  have htake : (xs ++ rest).takeWhile p = xs ∧ (xs ++ rest).dropWhile p = rest := by
    rw [List.takeWhile_append_of_pos hxs.2, List.dropWhile_append_of_pos hxs.2]
    cases rest with
    | nil => simp
    | cons d rest => simp [hstop d (by simp)]
  have hmatch : greedyStar p k (xs ++ rest) = some (xs, b) := by
    rw [greedyStar_of_longest (by rw [htake.2]; exact hk), htake.1]
  simp [greedyPlus, hxs.1, hmatch]

/-! ## The search -/

/-- A match, and none further to the left. -/
lemma find_eq_some_iff :
    find k s = some b ↔
      ∃ before rest, s = before ++ rest ∧ k rest = some b ∧ NoneBefore k s before.length := by
  induction s with
  | nil =>
      constructor
      · exact fun h => ⟨[], [], rfl, h, noneBefore_zero⟩
      · rintro ⟨before, rest, hs, hk, -⟩
        obtain ⟨rfl, rfl⟩ := List.append_eq_nil_iff.mp hs.symm
        exact hk
  | cons c s ih =>
      rw [find]
      rcases hhere : k (c :: s) with _ | b'
      · constructor
        · intro h
          obtain ⟨before, rest, hs, hk, hnone⟩ := ih.mp h
          exact ⟨c :: before, rest, congrArg (c :: ·) hs, hk, noneBefore_succ.mpr ⟨hhere, hnone⟩⟩
        · rintro ⟨before, rest, hs, hk, hnone⟩
          cases before with
          | nil =>
              obtain rfl : c :: s = rest := hs
              rw [hhere] at hk
              cases hk
          | cons d before =>
              obtain ⟨rfl, htail⟩ := List.cons.inj hs
              exact ih.mpr ⟨before, rest, htail, hk, (noneBefore_succ.mp hnone).2⟩
      · constructor
        · exact fun h => ⟨[], c :: s, rfl, hhere.trans h, noneBefore_zero⟩
        · rintro ⟨before, rest, hs, hk, hnone⟩
          cases before with
          | nil =>
              obtain rfl : c :: s = rest := hs
              exact hhere.symm.trans hk
          | cons d before =>
              rw [(noneBefore_succ.mp hnone).1] at hhere
              cases hhere

end Backtracking
