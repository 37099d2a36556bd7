import Mathlib.Algebra.Order.Ring.Int
import Mathlib.Data.Int.Order.Basic
import Mathlib.Data.List.Perm.Basic

/-!
# Comparison functions

A comparison function returns an integer, of which only the sign counts.  `Contract` is what a sort
asks of it: comparing the other way round reverses the sign, and "not greater" is transitive.
`Consistent` adds that only equal elements compare as equal.

Both are kept by the usual constructions: comparing a component, putting the missing elements first
or last, and going on to the next comparison when the one before says "equal".
-/

namespace Comparator

variable {α β : Type*}

/-- A total preorder, as a comparison function. -/
structure Contract (cmp : α → α → ℤ) : Prop where
  lt_iff : ∀ a b, cmp a b < 0 ↔ 0 < cmp b a
  trans : ∀ {a b c}, cmp a b ≤ 0 → cmp b c ≤ 0 → cmp a c ≤ 0

/-- A total order, as a comparison function. -/
structure Consistent (cmp : α → α → ℤ) : Prop extends Contract cmp where
  eq_of_zero : ∀ a b, cmp a b = 0 → a = b

namespace Contract

variable {cmp : α → α → ℤ} (h : Contract cmp)
include h

lemma zero_symm {a b : α} (hab : cmp a b = 0) : cmp b a = 0 := by
  have h1 := h.lt_iff a b
  have h2 := h.lt_iff b a
  omega

lemma refl (a : α) : cmp a a = 0 := by
  have h1 := h.lt_iff a a
  omega

lemma sign_eq_neg_sign (a b : α) : (cmp a b).sign = -(cmp b a).sign := by
  have h1 := h.lt_iff a b
  have h2 := h.lt_iff b a
  rcases lt_trichotomy (cmp a b) 0 with hlt | heq | hgt
  · rw [Int.sign_eq_neg_one_of_neg hlt, Int.sign_eq_one_of_pos (h1.mp hlt)]
  · rw [heq, h.zero_symm heq]
    rfl
  · rw [Int.sign_eq_one_of_pos hgt, Int.sign_eq_neg_one_of_neg (h2.mpr hgt)]
    rfl

lemma le_total (a b : α) : cmp a b ≤ 0 ∨ cmp b a ≤ 0 := by
  have h1 := h.lt_iff a b
  omega

lemma zero_of_le_of_le {a b : α} (hab : cmp a b ≤ 0) (hba : cmp b a ≤ 0) : cmp a b = 0 := by
  have h1 := h.lt_iff a b
  omega

/-- Ties are transitive. -/
lemma tie_trans {a b c : α} (hab : cmp a b = 0) (hbc : cmp b c = 0) : cmp a c = 0 :=
  h.zero_of_le_of_le (h.trans hab.le hbc.le) (h.trans (h.zero_symm hbc).le (h.zero_symm hab).le)

lemma lt_of_lt_of_le {a b c : α} (hab : cmp a b < 0) (hbc : cmp b c ≤ 0) : cmp a c < 0 := by
  rw [h.lt_iff]
  by_contra hca
  have hba := h.trans hbc (not_lt.mp hca)
  have hpos := (h.lt_iff a b).mp hab
  omega

/-- Elements that tie compare alike with every other one. -/
lemma lt_of_tie_of_lt {a b c : α} (hab : cmp a b = 0) (hbc : cmp b c < 0) : cmp a c < 0 := by
  rw [h.lt_iff]
  by_contra hca
  have hcb := h.trans (not_lt.mp hca) hab.le
  have hpos := (h.lt_iff b c).mp hbc
  omega

lemma sign_eq_of_tie {a b : α} (hab : cmp a b = 0) (c : α) : (cmp a c).sign = (cmp b c).sign := by
  rcases lt_trichotomy (cmp b c) 0 with hlt | heq | hgt
  · rw [Int.sign_eq_neg_one_of_neg hlt, Int.sign_eq_neg_one_of_neg (h.lt_of_tie_of_lt hab hlt)]
  · rw [heq, h.tie_trans hab heq]
  · have hac : 0 < cmp a c := (h.lt_iff c a).mp <| by
      have hcb := (h.lt_iff c b).mpr hgt
      exact h.lt_of_lt_of_le hcb (h.zero_symm hab).le
    rw [Int.sign_eq_one_of_pos hgt, Int.sign_eq_one_of_pos hac]

/-- Comparing by a component. -/
lemma comap (f : β → α) : Contract fun x y => cmp (f x) (f y) :=
  ⟨fun x y => h.lt_iff (f x) (f y), fun hxy hyz => h.trans hxy hyz⟩

end Contract

/-- The comparison function of a linear order. -/
def natural [LinearOrder α] (a b : α) : ℤ := if a < b then -1 else if b < a then 1 else 0

lemma natural_nonpos_iff [LinearOrder α] {a b : α} : natural a b ≤ 0 ↔ a ≤ b := by
  rw [← not_lt (a := b)]
  unfold natural
  split_ifs with hab hba
  · simp [hab.le]
  · simp [hba]
  · simp [hba]

lemma natural_consistent [LinearOrder α] : Consistent (natural (α := α)) where
  lt_iff a b := by
    unfold natural
    split_ifs with hab hba hba
    · exact absurd hba hab.not_gt
    · simp
    · simp
    · simp
  trans := by
    intro a b c hab hbc
    rw [natural_nonpos_iff] at hab hbc ⊢
    exact hab.trans hbc
  eq_of_zero a b h := by
    unfold natural at h
    split_ifs at h with hab hba
    · cases h
    · exact le_antisymm (not_lt.mp hba) (not_lt.mp hab)

/-! ## Missing elements -/

/-- Nothing comes before everything else. -/
def nullFirst (cmp : α → α → ℤ) : Option α → Option α → ℤ
  | none, none => 0
  | none, some _ => -1
  | some _, none => 1
  | some a, some b => cmp a b

/-- Nothing comes after everything else. -/
def nullLast (cmp : α → α → ℤ) : Option α → Option α → ℤ
  | none, none => 0
  | none, some _ => 1
  | some _, none => -1
  | some a, some b => cmp a b

@[simp] lemma nullFirst_none_none (cmp : α → α → ℤ) : nullFirst cmp none none = 0 := rfl
@[simp] lemma nullFirst_none_some (cmp : α → α → ℤ) (a : α) : nullFirst cmp none a = -1 := rfl
@[simp] lemma nullFirst_some_none (cmp : α → α → ℤ) (a : α) : nullFirst cmp a none = 1 := rfl
@[simp] lemma nullFirst_some_some (cmp : α → α → ℤ) (a b : α) : nullFirst cmp a b = cmp a b := rfl
@[simp] lemma nullLast_none_none (cmp : α → α → ℤ) : nullLast cmp none none = 0 := rfl
@[simp] lemma nullLast_none_some (cmp : α → α → ℤ) (a : α) : nullLast cmp none a = 1 := rfl
@[simp] lemma nullLast_some_none (cmp : α → α → ℤ) (a : α) : nullLast cmp a none = -1 := rfl
@[simp] lemma nullLast_some_some (cmp : α → α → ℤ) (a b : α) : nullLast cmp a b = cmp a b := rfl

lemma Contract.nullFirst {cmp : α → α → ℤ} (h : Contract cmp) : Contract (nullFirst cmp) where
  lt_iff := by
    rintro (_ | a) (_ | b)
    · simp
    · simp
    · simp
    · exact h.lt_iff a b
  trans := by
    rintro (_ | a) (_ | b) (_ | c) hab hbc
    all_goals first | exact h.trans hab hbc | simp_all

lemma Contract.nullLast {cmp : α → α → ℤ} (h : Contract cmp) : Contract (nullLast cmp) where
  lt_iff := by
    rintro (_ | a) (_ | b)
    · simp
    · simp
    · simp
    · exact h.lt_iff a b
  trans := by
    rintro (_ | a) (_ | b) (_ | c) hab hbc
    all_goals first | exact h.trans hab hbc | simp_all

lemma Consistent.nullFirst {cmp : α → α → ℤ} (h : Consistent cmp) : Consistent (nullFirst cmp) where
  toContract := h.toContract.nullFirst
  eq_of_zero := by
    rintro (_ | a) (_ | b) hab
    · rfl
    · cases hab
    · cases hab
    · rw [h.eq_of_zero a b hab]

lemma Consistent.nullLast {cmp : α → α → ℤ} (h : Consistent cmp) : Consistent (nullLast cmp) where
  toContract := h.toContract.nullLast
  eq_of_zero := by
    rintro (_ | a) (_ | b) hab
    · rfl
    · cases hab
    · cases hab
    · rw [h.eq_of_zero a b hab]

lemma Consistent.zero_iff {cmp : α → α → ℤ} (h : Consistent cmp) (a b : α) :
    cmp a b = 0 ↔ a = b :=
  ⟨h.eq_of_zero a b, fun hab => hab ▸ h.refl a⟩

/-! ## One comparison after the other -/

/-- The second comparison decides when the first says "equal". -/
def thenBy (first second : α → α → ℤ) (a b : α) : ℤ :=
  if first a b ≠ 0 then first a b else second a b

lemma thenBy_eq_zero_iff {first second : α → α → ℤ} {a b : α} :
    thenBy first second a b = 0 ↔ first a b = 0 ∧ second a b = 0 := by
  unfold thenBy
  split_ifs with h <;> simp_all

lemma thenBy_lt_iff {first second : α → α → ℤ} {a b : α} :
    thenBy first second a b < 0 ↔ first a b < 0 ∨ first a b = 0 ∧ second a b < 0 := by
  unfold thenBy
  split_ifs with h
  · simp [h]
  · simp [not_not.mp h]

lemma Contract.thenBy {first second : α → α → ℤ} (h1 : Contract first) (h2 : Contract second) :
    Contract (thenBy first second) where
  lt_iff a b := by
    have ha := h1.lt_iff a b
    have hb := h1.lt_iff b a
    have hs := h2.lt_iff a b
    unfold Comparator.thenBy
    split_ifs <;> omega
  trans := by
    intro a b c hab hbc
    have hle : ∀ x y, Comparator.thenBy first second x y ≤ 0 ↔
        first x y < 0 ∨ first x y = 0 ∧ second x y ≤ 0 := by
      intro x y
      unfold Comparator.thenBy
      split_ifs <;> omega
    rw [hle] at hab hbc ⊢
    rcases hab with hab | ⟨hab, hab'⟩ <;> rcases hbc with hbc | ⟨hbc, hbc'⟩
    · exact Or.inl (h1.lt_of_lt_of_le hab hbc.le)
    · exact Or.inl (h1.lt_of_lt_of_le hab hbc.le)
    · exact Or.inl (h1.lt_of_tie_of_lt hab hbc)
    · exact Or.inr ⟨h1.tie_trans hab hbc, h2.trans hab' hbc'⟩

/-- A list of comparisons, of which the first that does not say "equal" decides. -/
def chain (cmps : List (α → α → ℤ)) (a b : α) : ℤ :=
  cmps.foldl (fun comparison cmp => if comparison ≠ 0 then comparison else cmp a b) 0

lemma foldl_comparison_of_ne {comparison : ℤ} (h : comparison ≠ 0) (cmps : List (α → α → ℤ))
    (a b : α) :
    cmps.foldl (fun comparison cmp => if comparison ≠ 0 then comparison else cmp a b) comparison
      = comparison := by
  induction cmps with
  | nil => rfl
  | cons cmp cmps ih => rw [List.foldl_cons, if_pos h, ih]

/-- A chain is its first comparison, then the rest. -/
lemma chain_cons (cmp : α → α → ℤ) (cmps : List (α → α → ℤ)) :
    chain (cmp :: cmps) = thenBy cmp (chain cmps) := by
  funext a b
  rw [chain, List.foldl_cons, if_neg (by simp), thenBy]
  split_ifs with h
  · exact foldl_comparison_of_ne h cmps a b
  · rw [not_not.mp h]
    rfl

lemma Contract.chain {cmps : List (α → α → ℤ)} (h : ∀ cmp ∈ cmps, Contract cmp) :
    Contract (chain cmps) := by
  induction cmps with
  | nil => exact ⟨fun _ _ => by simp [Comparator.chain], fun _ _ => by simp [Comparator.chain]⟩
  | cons cmp cmps ih =>
      rw [List.forall_mem_cons] at h
      rw [chain_cons]
      exact h.1.thenBy (ih h.2)

lemma chain_eq_zero_iff {cmps : List (α → α → ℤ)} {a b : α} :
    chain cmps a b = 0 ↔ ∀ cmp ∈ cmps, cmp a b = 0 := by
  induction cmps with
  | nil => simp [chain]
  | cons cmp cmps ih => rw [chain_cons, thenBy_eq_zero_iff, ih, List.forall_mem_cons]

end Comparator
