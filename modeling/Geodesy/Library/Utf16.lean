import Geodesy.Library.Comparator

/-!
# Strings as UTF-16 code units

The order of strings by their UTF-16 code units, as a comparison function: the difference of the
first code units that differ, or else of the lengths.  It is not the order by code points, since
surrogates are below the last part of the basic plane, but it is a total order
(`compareTo_consistent`).
-/

namespace Utf16

open Comparator

/-- The code units of a character: one, or a pair of surrogates. -/
def units (c : Char) : List ℕ :=
  if c.toNat < 0x10000 then [c.toNat]
  else [0xD800 + (c.toNat - 0x10000) / 0x400, 0xDC00 + (c.toNat - 0x10000) % 0x400]

/-- The code units of a string. -/
def codeUnits (s : String) : List ℕ := s.toList.flatMap units

/-- No character is a surrogate. -/
lemma toNat_range (c : Char) : c.toNat < 0xD800 ∨ 0xDFFF < c.toNat ∧ c.toNat < 0x110000 := c.valid

/-- The first code unit tells how many there are. -/
lemma units_append_inj {c d : Char} {xs ys : List ℕ} (h : units c ++ xs = units d ++ ys) :
    c = d ∧ xs = ys := by
  have hc := toNat_range c
  have hd := toNat_range d
  unfold units at h
  split_ifs at h with h1 h2 h2
  · simp only [List.singleton_append, List.cons.injEq] at h
    exact ⟨Char.toNat_inj.mp h.1, h.2⟩
  · simp only [List.cons_append, List.cons.injEq] at h
    omega
  · simp only [List.cons_append, List.cons.injEq] at h
    omega
  · simp only [List.cons_append, List.nil_append, List.cons.injEq] at h
    exact ⟨Char.toNat_inj.mp (by omega), h.2.2⟩

lemma units_ne_nil (c : Char) : units c ≠ [] := by
  unfold units
  split_ifs <;> simp

lemma flatMap_units_injective : ∀ {cs ds : List Char},
    cs.flatMap units = ds.flatMap units → cs = ds
  | [], [], _ => rfl
  | [], d :: ds, h => by
      rw [List.flatMap_nil, List.flatMap_cons] at h
      exact absurd (List.append_eq_nil_iff.mp h.symm).1 (units_ne_nil d)
  | c :: cs, [], h => by
      rw [List.flatMap_nil, List.flatMap_cons] at h
      exact absurd (List.append_eq_nil_iff.mp h).1 (units_ne_nil c)
  | c :: cs, d :: ds, h => by
      rw [List.flatMap_cons, List.flatMap_cons] at h
      obtain ⟨hcd, hrest⟩ := units_append_inj h
      rw [hcd, flatMap_units_injective hrest]

lemma codeUnits_injective : Function.Injective codeUnits :=
  fun _ _ h => String.toList_injective (flatMap_units_injective h)

/-- The difference at the first place where two lists differ, or of their lengths. -/
def difference : List ℕ → List ℕ → ℤ
  | a :: as, b :: bs => if a ≠ b then (a : ℤ) - b else difference as bs
  | as, bs => (as.length : ℤ) - bs.length

@[simp] lemma difference_nil_nil : difference [] [] = 0 := rfl

@[simp] lemma difference_nil_cons (b : ℕ) (bs : List ℕ) :
    difference [] (b :: bs) = -(bs.length + 1 : ℕ) := by
  simp [difference]

@[simp] lemma difference_cons_nil (a : ℕ) (as : List ℕ) :
    difference (a :: as) [] = (as.length + 1 : ℕ) := by
  simp [difference]

lemma difference_cons_cons (a b : ℕ) (as bs : List ℕ) :
    difference (a :: as) (b :: bs) = if a ≠ b then (a : ℤ) - b else difference as bs := rfl

lemma difference_swap : ∀ as bs : List ℕ, difference as bs = -difference bs as
  | [], [] => rfl
  | [], b :: bs => by simp
  | a :: as, [] => by simp
  | a :: as, b :: bs => by
      rw [difference_cons_cons, difference_cons_cons]
      split_ifs with hab hba hba
      · omega
      · exact absurd (not_not.mp hba).symm hab
      · exact absurd (not_not.mp hab).symm hba
      · exact difference_swap as bs

lemma difference_trans : ∀ {as bs cs : List ℕ},
    difference as bs ≤ 0 → difference bs cs ≤ 0 → difference as cs ≤ 0
  | [], _, [], _, _ => le_rfl
  | [], _, c :: cs, _, _ => by
      rw [difference_nil_cons]
      omega
  | a :: as, [], _, hab, _ => by
      rw [difference_cons_nil] at hab
      omega
  | a :: as, b :: bs, [], _, hbc => by
      rw [difference_cons_nil] at hbc
      omega
  | a :: as, b :: bs, c :: cs, hab, hbc => by
      rw [difference_cons_cons] at hab hbc ⊢
      split_ifs at hab hbc ⊢ with h1 h2 h3 h3 h2 h3 h3
      all_goals first | omega | exact difference_trans hab hbc

lemma eq_of_difference_eq_zero : ∀ {as bs : List ℕ}, difference as bs = 0 → as = bs
  | [], [], _ => rfl
  | [], b :: bs, h => by
      rw [difference_nil_cons] at h
      omega
  | a :: as, [], h => by
      rw [difference_cons_nil] at h
      omega
  | a :: as, b :: bs, h => by
      rw [difference_cons_cons] at h
      split_ifs at h with hab
      · omega
      · rw [not_not.mp hab, eq_of_difference_eq_zero h]

/-- Strings by their code units. -/
def compareTo (s t : String) : ℤ := difference (codeUnits s) (codeUnits t)

theorem compareTo_consistent : Consistent compareTo where
  lt_iff s t := by
    unfold compareTo
    rw [difference_swap]
    omega
  trans := difference_trans
  eq_of_zero _ _ h := codeUnits_injective (eq_of_difference_eq_zero h)

-- a character outside the basic plane comes before one at the end of the plane
example : compareTo "\uFFFD" "𝄞" = 10185 := by decide

end Utf16
