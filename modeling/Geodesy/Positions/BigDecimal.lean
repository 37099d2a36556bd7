import Mathlib.Algebra.Order.Ring.Int
import Mathlib.Data.List.Basic

/-!
# `java.math.BigDecimal` of a string

A sign, digits with at most one point among or around them, and an exponent.  There has to be a
digit, the exponent is an `int`, and so is the scale that comes out.  The file that the strings come
from is read as ISO 8859-1, which has no other digits than `0` to `9`.
-/

namespace Geodesy

/-- An unscaled value and the number of digits after the point. -/
structure BigDecimal where
  unscaledValue : ℤ
  scale : ℤ
  scale_ge : -2147483648 ≤ scale
  scale_lt : scale < 2147483648
  deriving DecidableEq, Repr

namespace BigDecimal

/-- What follows the `e`: an optional sign and digits, which make an `int`. -/
def parseExp (cs : List Char) : Option ℤ :=
  let (negexp, digits) :=
    match cs with
    | '-' :: cs => (true, cs)
    | '+' :: cs => (false, cs)
    | cs => (false, cs)
  if digits ≠ [] ∧ digits.all Char.isDigit = true then
    let exp : ℤ := Nat.ofDigitChars 10 digits 0
    let exp := if negexp then -exp else exp
    if -2147483648 ≤ exp ∧ exp < 2147483648 then some exp else none
  else none

/-- `new BigDecimal(String)`; a `NumberFormatException` is `none`. -/
def ofString (val : String) : Option BigDecimal :=
  let (isneg, cs) :=
    match val.toList with
    | '-' :: cs => (true, cs)
    | '+' :: cs => (false, cs)
    | cs => (false, cs)
  let integer := cs.takeWhile Char.isDigit
  let (fraction, rest) :=
    match cs.dropWhile Char.isDigit with
    | '.' :: cs => (cs.takeWhile Char.isDigit, cs.dropWhile Char.isDigit)
    | cs => ([], cs)
  let exponent : Option ℤ :=
    match rest with
    | [] => some 0
    | c :: cs => if c = 'e' ∨ c = 'E' then parseExp cs else none
  if integer ++ fraction = [] then none
  else
    match exponent with
    | none => none
    | some exp =>
      let digits : ℤ := Nat.ofDigitChars 10 (integer ++ fraction) 0
      let unscaledValue := if isneg then -digits else digits
      let scale : ℤ := fraction.length - exp
      if h : -2147483648 ≤ scale ∧ scale < 2147483648 then
        some ⟨unscaledValue, scale, h.1, h.2⟩
      else none

example : ofString "-.2050e-01" = some ⟨-2050, 5, by decide, by decide⟩ := by decide

end BigDecimal

end Geodesy
