import Geodesy.Library.Digits
import Mathlib.Algebra.Order.Floor.Ring
import Mathlib.Data.Rat.Floor
import Mathlib.Tactic.Linarith
import Mathlib.Tactic.FieldSimp
import Mathlib.Tactic.Positivity

/-!
# Degrees, minutes and seconds in one number

`GMLGeoTools.dmsToDecmial` takes the digits of the integer part apart as text.  It is modelled with
rational numbers in place of doubles; a double beyond the range of `long` saturates in the cast, and
has too many digits either way.

`Dms` is a well-formed angle.  `Dms.encoded` is the number that stands for it and `Dms.value` the
angle in degrees; `dmsToDecmial_encoded` says that the text processing computes the one from the
other.
-/

namespace Geodesy.Support

open Digits
open Nat (ofDigitChars)

/-! ## The code -/

/-- The cast of a non-negative `double` to `long`. -/
def toLong (x : ℚ) : ℕ := min ⌊x⌋₊ (2 ^ 63 - 1)

/-- `Double.parseDouble` of a string of digits. -/
def parseDouble (cs : List Char) : ℚ := (ofDigitChars 10 cs 0 : ℕ)

/-- `String.substring`. -/
def substring (cs : List Char) (beginIndex endIndex : ℕ) : List Char :=
  (cs.take endIndex).drop beginIndex

/-- "Expecting length x of DMS significant part to be x <= 7", and the argument. -/
structure DmsException where
  dms : ℚ
  deriving DecidableEq, Repr

/-- `GMLGeoTools.dmsToDecmial`. -/
def dmsToDecmial (dms : ℚ) : Except DmsException ℚ :=
  let positiveSign := decide (dms ≥ 0)
  let significantPart := toLong |dms|
  let fractionPart := |dms| - significantPart
  let sigPartString := Nat.toDigits 10 significantPart
  let len := sigPartString.length
  if len > 7 then .error ⟨dms⟩
  else
    -- `String.format("%0wd", 0)` is `w` zeros
    let zeros := if len < 7 then padded (7 - len) 0 else []
    let formatted := zeros ++ sigPartString
    let degreesPart := substring formatted 0 3
    let minutesPart := substring formatted 3 5
    let secondsPart := substring formatted 5 7
    let seconds := parseDouble minutesPart * 60 + parseDouble secondsPart + fractionPart
    let minutes := seconds / 3600
    let decimal := parseDouble degreesPart + minutes
    .ok (if positiveSign then decimal else -decimal)

/-! ## What it computes -/

lemma toLong_eq {x : ℚ} (h : ⌊x⌋₊ < 10 ^ 7) : toLong x = ⌊x⌋₊ := Nat.min_eq_left (by omega)

/-- The cast keeps the number of digits at more than seven. -/
lemma toLong_lt_iff {x : ℚ} : toLong x < 10 ^ 7 ↔ ⌊x⌋₊ < 10 ^ 7 := by
  rw [toLong]
  omega

/-- Filling with zeros by the computed format gives seven digits in all. -/
lemma zeros_append {n : ℕ} (hn : n < 10 ^ 7) :
    (if (Nat.toDigits 10 n).length < 7 then padded (7 - (Nat.toDigits 10 n).length) 0 else [])
      ++ Nat.toDigits 10 n = padded 7 n := by
  have hle := (length_toDigits_le (w := 7) (by decide)).mpr hn
  by_cases h : (Nat.toDigits 10 n).length < 7
  · rw [if_pos h, padded, padded]
    obtain ⟨k, hk⟩ : ∃ k, 7 - (Nat.toDigits 10 n).length = k + 1 :=
      ⟨7 - (Nat.toDigits 10 n).length - 1, by omega⟩
    rw [hk, Nat.toDigits_zero, List.replicate_succ']
    rfl
  · rw [if_neg h, padded, show 7 - (Nat.toDigits 10 n).length = 0 by omega]
    rfl

/-- The three substrings are quotients and remainders. -/
lemma parseDouble_substring {n : ℕ} (hn : n < 10 ^ 7) :
    parseDouble (substring (padded 7 n) 0 3) = (n / 10000 : ℕ) ∧
    parseDouble (substring (padded 7 n) 3 5) = (n / 100 % 100 : ℕ) ∧
    parseDouble (substring (padded 7 n) 5 7) = (n % 100 : ℕ) := by
  have hlength := length_padded (w := 7) (by decide) hn
  have hdigits : ∀ c ∈ padded 7 n, c.isDigit = true := fun c hc => isDigit_of_mem_padded hc
  have hfive : ofDigitChars 10 ((padded 7 n).take 5) 0 = n / 100 := by
    rw [ofDigitChars_take hdigits (k := 2) (by omega), ofDigitChars_padded]
    rfl
  refine ⟨?_, ?_, ?_⟩
  · rw [parseDouble, substring, List.drop_zero, ofDigitChars_take hdigits (k := 4) (by omega),
      ofDigitChars_padded]
    rfl
  · rw [parseDouble, substring,
      ofDigitChars_drop (fun c hc => hdigits c (List.mem_of_mem_take hc)) (k := 2)
        (by rw [List.length_take]; omega), hfive]
    rfl
  · rw [parseDouble, substring, List.take_of_length_le (by omega),
      ofDigitChars_drop hdigits (k := 2) (by omega), ofDigitChars_padded]
    rfl

/-- The absolute value of the result when there are at most seven digits. -/
def magnitude (x : ℚ) : ℚ :=
  (⌊x⌋₊ / 10000 : ℕ) +
    ((⌊x⌋₊ / 100 % 100 : ℕ) * 60 + (⌊x⌋₊ % 100 : ℕ) + (x - ⌊x⌋₊)) / 3600

lemma dmsToDecmial_eq {x : ℚ} (h : ⌊|x|⌋₊ < 10 ^ 7) :
    dmsToDecmial x = .ok (if x ≥ 0 then magnitude |x| else -magnitude |x|) := by
  have hlen : ¬(Nat.toDigits 10 ⌊|x|⌋₊).length > 7 :=
    not_lt.mpr ((length_toDigits_le (by decide)).mpr h)
  obtain ⟨hd, hm, hs⟩ := parseDouble_substring h
  simp only [dmsToDecmial, toLong_eq h, if_neg hlen, zeros_append h, hd, hm, hs, decide_eq_true_eq,
    magnitude]

/-- It throws exactly if the integer part has more than seven digits. -/
lemma dmsToDecmial_error_iff (x : ℚ) :
    (∃ e, dmsToDecmial x = .error e) ↔ 7 < (Nat.toDigits 10 ⌊|x|⌋₊).length := by
  rw [← not_le, length_toDigits_le (by decide)]
  constructor
  · rintro ⟨e, herror⟩ h
    rw [dmsToDecmial_eq h] at herror
    cases herror
  · intro h
    have hlen : (Nat.toDigits 10 (toLong |x|)).length > 7 := by
      rw [gt_iff_lt, ← not_le, length_toDigits_le (by decide), toLong_lt_iff]
      exact h
    exact ⟨⟨x⟩, by simp only [dmsToDecmial, if_pos hlen]⟩

/-- It is odd. -/
lemma dmsToDecmial_neg {x y : ℚ} (h : dmsToDecmial x = .ok y) : dmsToDecmial (-x) = .ok (-y) := by
  have hlt : ⌊|x|⌋₊ < 10 ^ 7 := by
    by_contra hge
    obtain ⟨e, he⟩ := (dmsToDecmial_error_iff x).mpr (by
      rwa [← not_le, length_toDigits_le (by decide)])
    rw [h] at he
    cases he
  rw [dmsToDecmial_eq hlt, Except.ok.injEq] at h
  rw [dmsToDecmial_eq (by rwa [abs_neg]), abs_neg, ← h]
  rcases lt_trichotomy x 0 with hneg | rfl | hpos
  · rw [if_pos (by linarith), if_neg (by linarith), neg_neg]
  · simp [magnitude]
  · rw [if_neg (by linarith), if_pos hpos.le]

/-! ## Angles -/

/-- An angle in degrees, minutes, seconds and a fraction of a second, with a sign. -/
structure Dms where
  positive : Bool
  degrees : ℕ
  minutes : ℕ
  seconds : ℕ
  fraction : ℚ
  degrees_le : degrees ≤ 999
  minutes_le : minutes ≤ 59
  seconds_le : seconds ≤ 59
  fraction_nonneg : 0 ≤ fraction
  fraction_lt : fraction < 1

namespace Dms

/-- `1` or `-1`. -/
def sign (a : Dms) : ℚ := if a.positive then 1 else -1

/-- The digits `dddmmss` and the fraction. -/
def digits (a : Dms) : ℚ := 10000 * a.degrees + 100 * a.minutes + a.seconds + a.fraction

/-- The size of the angle in degrees. -/
def size (a : Dms) : ℚ := a.degrees + (60 * a.minutes + a.seconds + a.fraction) / 3600

/-- The number that stands for the angle. -/
def encoded (a : Dms) : ℚ := a.sign * a.digits

/-- The angle in degrees. -/
def value (a : Dms) : ℚ := a.sign * a.size

lemma digits_nonneg (a : Dms) : 0 ≤ a.digits := by
  have h := a.fraction_nonneg
  unfold digits
  positivity

lemma size_nonneg (a : Dms) : 0 ≤ a.size := by
  have h := a.fraction_nonneg
  unfold size
  positivity

/-- The integer part of the digits. -/
lemma floor_digits (a : Dms) :
    ⌊a.digits⌋₊ = 10000 * a.degrees + 100 * a.minutes + a.seconds := by
  rw [Nat.floor_eq_iff a.digits_nonneg]
  have h0 := a.fraction_nonneg
  have h1 := a.fraction_lt
  unfold digits
  push_cast
  constructor <;> linarith

lemma magnitude_digits (a : Dms) : magnitude a.digits = a.size := by
  have hm := a.minutes_le
  have hs := a.seconds_le
  have hdeg : (10000 * a.degrees + 100 * a.minutes + a.seconds) / 10000 = a.degrees := by omega
  have hmin : (10000 * a.degrees + 100 * a.minutes + a.seconds) / 100 % 100 = a.minutes := by
    omega
  have hsec : (10000 * a.degrees + 100 * a.minutes + a.seconds) % 100 = a.seconds := by omega
  rw [magnitude, floor_digits, hdeg, hmin, hsec, size, digits]
  push_cast
  ring

lemma abs_encoded (a : Dms) : |a.encoded| = a.digits := by
  have h := a.digits_nonneg
  unfold encoded sign
  split_ifs
  · rw [one_mul, abs_of_nonneg h]
  · rw [neg_one_mul, abs_neg, abs_of_nonneg h]

/-- The fields of an angle order both numbers that it has in the same way. -/
lemma size_lt_size {a b : Dms} (h : a.digits < b.digits) : a.size < b.size := by
  have ha := a.fraction_lt
  have ha' := a.fraction_nonneg
  have hb := b.fraction_lt
  have hb' := b.fraction_nonneg
  have := a.minutes_le
  have := a.seconds_le
  have := b.minutes_le
  have := b.seconds_le
  have hsize : ∀ c : Dms, c.size
      = ((3600 * c.degrees + 60 * c.minutes + c.seconds : ℕ) + c.fraction) / 3600 := by
    intro c
    rw [size]
    push_cast
    ring
  have hle := Nat.floor_le_floor h.le
  rw [floor_digits, floor_digits] at hle
  rw [hsize, hsize]
  refine div_lt_div_of_pos_right ?_ (by norm_num)
  rcases hle.lt_or_eq with hlt | heq
  · -- the seconds of the whole angle are apart by one at least
    have hseconds : 3600 * a.degrees + 60 * a.minutes + a.seconds + 1
        ≤ 3600 * b.degrees + 60 * b.minutes + b.seconds := by omega
    have hcast : ((3600 * a.degrees + 60 * a.minutes + a.seconds : ℕ) : ℚ) + 1
        ≤ (3600 * b.degrees + 60 * b.minutes + b.seconds : ℕ) := by exact_mod_cast hseconds
    linarith
  · -- the same whole seconds: the fractions decide
    obtain ⟨hd, hm, hs⟩ : a.degrees = b.degrees ∧ a.minutes = b.minutes ∧
        a.seconds = b.seconds := by omega
    rw [digits, digits, hd, hm, hs] at h
    rw [hd, hm, hs]
    linarith

/-- The angle of size zero. -/
def zero : Dms := ⟨true, 0, 0, 0, 0, by decide, by decide, by decide, le_rfl, by norm_num⟩

lemma digits_zero : zero.digits = 0 := by simp [zero, digits]

lemma size_zero : zero.size = 0 := by simp [zero, size]

/-- The size is determined by the digits. -/
lemma size_eq_size {a b : Dms} (h : a.digits = b.digits) : a.size = b.size := by
  rw [← magnitude_digits, ← magnitude_digits, h]

lemma size_pos {a : Dms} (h : 0 < a.digits) : 0 < a.size := by
  rw [← size_zero]
  exact size_lt_size (by rwa [digits_zero])

lemma encoded_of_positive {a : Dms} (h : a.positive = true) : a.encoded = a.digits := by
  simp [encoded, sign, h]

lemma encoded_of_negative {a : Dms} (h : a.positive = false) : a.encoded = -a.digits := by
  simp [encoded, sign, h]

lemma value_of_positive {a : Dms} (h : a.positive = true) : a.value = a.size := by
  simp [value, sign, h]

lemma value_of_negative {a : Dms} (h : a.positive = false) : a.value = -a.size := by
  simp [value, sign, h]

/-- Angles are ordered as the numbers that stand for them. -/
lemma value_lt_value {a b : Dms} (h : a.encoded < b.encoded) : a.value < b.value := by
  have ha := a.digits_nonneg
  have hb := b.digits_nonneg
  cases hpa : a.positive <;> cases hpb : b.positive
  · rw [encoded_of_negative hpa, encoded_of_negative hpb, neg_lt_neg_iff] at h
    rw [value_of_negative hpa, value_of_negative hpb]
    exact neg_lt_neg (size_lt_size h)
  · rw [encoded_of_negative hpa, encoded_of_positive hpb] at h
    rw [value_of_negative hpa, value_of_positive hpb]
    have hasize := a.size_nonneg
    have hbsize := b.size_nonneg
    -- one of the two is not zero, since their numbers differ
    rcases ha.lt_or_eq with hpos | hzero
    · linarith [size_pos hpos]
    · linarith [size_pos (show 0 < b.digits by linarith)]
  · rw [encoded_of_positive hpa, encoded_of_negative hpb] at h
    linarith
  · rw [encoded_of_positive hpa, encoded_of_positive hpb] at h
    rw [value_of_positive hpa, value_of_positive hpb]
    exact size_lt_size h

end Dms

/-- The text processing computes the angle. -/
lemma dmsToDecmial_encoded (a : Dms) : dmsToDecmial a.encoded = .ok a.value := by
  have := a.degrees_le
  have := a.minutes_le
  have := a.seconds_le
  have hlt : ⌊|a.encoded|⌋₊ < 10 ^ 7 := by
    rw [a.abs_encoded, a.floor_digits]
    omega
  rw [dmsToDecmial_eq hlt, a.abs_encoded, a.magnitude_digits, Except.ok.injEq]
  cases hp : a.positive with
  | true =>
      rw [Dms.encoded_of_positive hp, Dms.value_of_positive hp, if_pos a.digits_nonneg]
  | false =>
      rw [Dms.encoded_of_negative hp, Dms.value_of_negative hp]
      rcases a.digits_nonneg.lt_or_eq with hpos | hzero
      · rw [if_neg (by linarith)]
      · -- minus zero counts as positive
        have hsize : a.size = 0 := by
          rw [Dms.size_eq_size (hzero.symm.trans Dms.digits_zero.symm), Dms.size_zero]
        rw [hsize, neg_zero, ite_self]

/-- **Degree-minute-second conversion is exact.**  It gives the angle of every well-formed number,
throws exactly if the integer part has more than seven digits, is odd, and strictly increasing on
well-formed numbers. -/
theorem dmsToDecmial_spec :
    (∀ a : Dms, dmsToDecmial a.encoded = .ok a.value) ∧
    (∀ x, (∃ e, dmsToDecmial x = .error e) ↔ 7 < (Nat.toDigits 10 ⌊|x|⌋₊).length) ∧
    (∀ x y, dmsToDecmial x = .ok y → dmsToDecmial (-x) = .ok (-y)) ∧
    (∀ a b : Dms, a.encoded < b.encoded →
      ∃ u v, dmsToDecmial a.encoded = .ok u ∧ dmsToDecmial b.encoded = .ok v ∧ u < v) :=
  ⟨dmsToDecmial_encoded, dmsToDecmial_error_iff, fun _ _ => dmsToDecmial_neg,
    fun a b h => ⟨a.value, b.value, dmsToDecmial_encoded a, dmsToDecmial_encoded b,
      Dms.value_lt_value h⟩⟩

example : dmsToDecmial (-72754) = .ok (-(7 + (27 * 60 + 54) / 3600)) := by decide +kernel

end Geodesy.Support
