import Mathlib.Algebra.Order.Ring.Nat
import Mathlib.Tactic.Ring

/-!
# Numbers printed in a fixed width

`padded w n` is `n` in decimal, with zeros before it up to `w` characters.  A number that fits is
read back from exactly `w` digits, and these are the only ones it is read from
(`padded_ofDigitChars`).  Cutting the digits at a place is dividing by a power of ten:
`ofDigitChars_take` and `ofDigitChars_drop`.
-/

namespace Digits

open Nat (ofDigitChars)

/-- `n` in decimal, filled with zeros on the left up to `w` characters. -/
def padded (w n : ℕ) : List Char :=
  List.replicate (w - (Nat.toDigits 10 n).length) '0' ++ Nat.toDigits 10 n

lemma length_toDigits_le {w n : ℕ} (hw : 0 < w) : (Nat.toDigits 10 n).length ≤ w ↔ n < 10 ^ w :=
  Nat.length_toDigits_le_iff (by decide) hw

lemma length_padded {w n : ℕ} (hw : 0 < w) (hn : n < 10 ^ w) : (padded w n).length = w := by
  have h := (length_toDigits_le hw).mpr hn
  rw [padded, List.length_append, List.length_replicate]
  omega

@[simp] lemma ofDigitChars_padded (w n : ℕ) : ofDigitChars 10 (padded w n) 0 = n := by
  rw [padded, Nat.ofDigitChars_append, Nat.ofDigitChars_replicate_zero, Nat.mul_zero,
    Nat.ofDigitChars_ten_toDigits]

lemma isDigit_of_mem_padded {w n : ℕ} {c : Char} (hc : c ∈ padded w n) : c.isDigit = true := by
  rcases List.mem_append.mp hc with h | h
  · rw [List.eq_of_mem_replicate h]
    rfl
  · exact Nat.isDigit_of_mem_toDigits (by decide) (by decide) h

/-- The value of a digit is less than ten. -/
lemma toNat_sub_lt {c : Char} (hc : c.isDigit = true) : c.toNat - '0'.toNat < 10 := by
  have h : c.toNat ≤ 57 := by
    simp only [Char.isDigit, ge_iff_le, Bool.and_eq_true, decide_eq_true_eq] at hc
    exact hc.2
  have h0 : '0'.toNat = 48 := rfl
  omega

/-- A number of `w` digits is less than `10 ^ w`. -/
lemma ofDigitChars_lt : ∀ {cs : List Char}, (∀ c ∈ cs, c.isDigit = true) →
    ofDigitChars 10 cs 0 < 10 ^ cs.length
  | [], _ => by simp
  | c :: cs, h => by
      have hc := toNat_sub_lt (h c List.mem_cons_self)
      have ih := ofDigitChars_lt fun d hd => h d (List.mem_cons_of_mem c hd)
      rw [Nat.ofDigitChars_cons, Nat.ofDigitChars_eq_ofDigitChars_zero, List.length_cons, pow_succ,
        Nat.mul_zero, Nat.zero_add]
      generalize c.toNat - '0'.toNat = d at hc
      calc 10 ^ cs.length * d + ofDigitChars 10 cs 0
          < 10 ^ cs.length * d + 10 ^ cs.length := by omega
        _ = 10 ^ cs.length * (d + 1) := by ring
        _ ≤ 10 ^ cs.length * 10 := Nat.mul_le_mul_left _ (by omega)

/-- A digit is known by its value. -/
lemma eq_of_toNat_sub_eq {c d : Char} (hc : c.isDigit = true) (hd : d.isDigit = true)
    (h : c.toNat - '0'.toNat = d.toNat - '0'.toNat) : c = d := by
  have hle : ∀ {a : Char}, a.isDigit = true → '0'.toNat ≤ a.toNat := by
    intro a ha
    simp only [Char.isDigit, ge_iff_le, Bool.and_eq_true, decide_eq_true_eq] at ha
    exact ha.1
  have hc0 := hle hc
  have hd0 := hle hd
  exact Char.toNat_inj.mp (by omega)

/-- Digits of one length are known by their number. -/
lemma eq_of_ofDigitChars_eq : ∀ {cs ds : List Char}, (∀ c ∈ cs, c.isDigit = true) →
    (∀ d ∈ ds, d.isDigit = true) → cs.length = ds.length →
    ofDigitChars 10 cs 0 = ofDigitChars 10 ds 0 → cs = ds
  | [], [], _, _, _, _ => rfl
  | c :: cs, d :: ds, hcs, hds, hlength, h => by
      have hlength' : cs.length = ds.length := Nat.succ.inj hlength
      have hcs' := fun e he => hcs e (List.mem_cons_of_mem c he)
      have hds' := fun e he => hds e (List.mem_cons_of_mem d he)
      have hltc := ofDigitChars_lt hcs'
      have hltd := ofDigitChars_lt hds'
      rw [Nat.ofDigitChars_cons, Nat.ofDigitChars_eq_ofDigitChars_zero, Nat.ofDigitChars_cons,
        Nat.ofDigitChars_eq_ofDigitChars_zero (l := ds), hlength', Nat.mul_zero, Nat.zero_add,
        Nat.zero_add] at h
      rw [hlength'] at hltc
      -- quotient and remainder by the place of the first digit
      have hpos : 0 < 10 ^ ds.length := Nat.pow_pos (by decide)
      have hquotient := congrArg (· / 10 ^ ds.length) h
      have hremainder := congrArg (· % 10 ^ ds.length) h
      simp only [Nat.mul_add_div hpos, Nat.div_eq_of_lt hltc, Nat.div_eq_of_lt hltd,
        Nat.add_zero] at hquotient
      simp only [Nat.mul_add_mod, Nat.mod_eq_of_lt hltc, Nat.mod_eq_of_lt hltd] at hremainder
      rw [eq_of_toNat_sub_eq (hcs c List.mem_cons_self) (hds d List.mem_cons_self) hquotient,
        eq_of_ofDigitChars_eq hcs' hds' hlength' hremainder]

/-- Digits are their number, filled up to as many. -/
lemma padded_ofDigitChars {ds : List Char} (hne : ds ≠ []) (hds : ∀ d ∈ ds, d.isDigit = true) :
    padded ds.length (ofDigitChars 10 ds 0) = ds :=
  eq_of_ofDigitChars_eq (fun _ hc => isDigit_of_mem_padded hc) hds
    (length_padded (List.length_pos_iff.mpr hne) (ofDigitChars_lt hds)) (ofDigitChars_padded _ _)

/-- The digits before a place are the quotient, those from it on the remainder. -/
lemma ofDigitChars_append_eq {xs ys : List Char} :
    ofDigitChars 10 (xs ++ ys) 0 =
      10 ^ ys.length * ofDigitChars 10 xs 0 + ofDigitChars 10 ys 0 := by
  rw [Nat.ofDigitChars_append, Nat.ofDigitChars_eq_ofDigitChars_zero]

lemma ofDigitChars_take {cs : List Char} (h : ∀ c ∈ cs, c.isDigit = true) {i k : ℕ}
    (hi : i + k = cs.length) :
    ofDigitChars 10 (cs.take i) 0 = ofDigitChars 10 cs 0 / 10 ^ k := by
  have hlength : (cs.drop i).length = k := by rw [List.length_drop]; omega
  have hlt : ofDigitChars 10 (cs.drop i) 0 < 10 ^ k :=
    hlength ▸ ofDigitChars_lt fun c hc => h c (List.mem_of_mem_drop hc)
  conv_rhs => rw [← List.take_append_drop i cs]
  rw [ofDigitChars_append_eq, hlength, Nat.mul_add_div (Nat.pow_pos (by decide)),
    Nat.div_eq_of_lt hlt, Nat.add_zero]

lemma ofDigitChars_drop {cs : List Char} (h : ∀ c ∈ cs, c.isDigit = true) {i k : ℕ}
    (hi : i + k = cs.length) :
    ofDigitChars 10 (cs.drop i) 0 = ofDigitChars 10 cs 0 % 10 ^ k := by
  have hlength : (cs.drop i).length = k := by rw [List.length_drop]; omega
  have hlt : ofDigitChars 10 (cs.drop i) 0 < 10 ^ k :=
    hlength ▸ ofDigitChars_lt fun c hc => h c (List.mem_of_mem_drop hc)
  conv_rhs => rw [← List.take_append_drop i cs]
  rw [ofDigitChars_append_eq, hlength, Nat.mul_add_mod, Nat.mod_eq_of_lt hlt]

end Digits
