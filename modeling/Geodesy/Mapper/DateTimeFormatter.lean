import Geodesy.Domain.EffectiveDates
import Geodesy.Library.Calendar
import Geodesy.Library.Digits

/-!
# Formats of dates and times

The part of `java.time.format.DateTimeFormatter` that the patterns of time positions use: strict
resolver style, and UTC as the zone that takes the place of a missing one.

Parsing has two phases.  The first reads the text from left to right, one element of the pattern
after the other, and all of it must be read; its result is a value for each field (`parseFields`).
The second puts the fields together and checks their ranges: a pattern with a year, a month and a
day gives a date, one with an hour a time (`resolve`).  Neither looks at the range of an offset,
which `OffsetDateTime` checks when it is made of the result.
-/

namespace Geodesy.Mapper

/-- `ChronoField`. -/
inductive ChronoField
  | year
  | monthOfYear
  | dayOfMonth
  | hourOfDay
  | minuteOfHour
  | secondOfMinute
  | nanoOfSecond
  | offsetSeconds
  deriving DecidableEq, Repr

/-- The three ways in which the patterns write an offset. -/
inductive OffsetPattern
  /-- `XXX`: `Z`, or hours and minutes with a colon. -/
  | hourColonMinute
  /-- `Z`: hours and minutes. -/
  | hourMinute
  /-- `X`: `Z`, or hours and perhaps minutes. -/
  | hourOptionalMinute
  deriving DecidableEq, Repr

/-- An element of a pattern. -/
inductive Element
  /-- `uuuu`: at least four digits, and a sign if there are more or if the year is negative. -/
  | year
  /-- Two digits. -/
  | twoDigits (field : ChronoField)
  /-- `SSS`: the milliseconds. -/
  | fraction
  | offset (pattern : OffsetPattern)
  | literal (c : Char)
  deriving DecidableEq, Repr

/-- `DateTimeFormatter.ofPattern`, for the letters that the patterns of time positions use. -/
def ofPattern : List Char → Option (List Element)
  | [] => some []
  | 'u' :: 'u' :: 'u' :: 'u' :: cs => (ofPattern cs).map (.year :: ·)
  | 'M' :: 'M' :: cs => (ofPattern cs).map (.twoDigits .monthOfYear :: ·)
  | 'd' :: 'd' :: cs => (ofPattern cs).map (.twoDigits .dayOfMonth :: ·)
  | 'H' :: 'H' :: cs => (ofPattern cs).map (.twoDigits .hourOfDay :: ·)
  | 'm' :: 'm' :: cs => (ofPattern cs).map (.twoDigits .minuteOfHour :: ·)
  | 's' :: 's' :: cs => (ofPattern cs).map (.twoDigits .secondOfMinute :: ·)
  | 'S' :: 'S' :: 'S' :: cs => (ofPattern cs).map (.fraction :: ·)
  | 'X' :: 'X' :: 'X' :: cs => (ofPattern cs).map (.offset .hourColonMinute :: ·)
  | 'X' :: cs => (ofPattern cs).map (.offset .hourOptionalMinute :: ·)
  | 'Z' :: cs => (ofPattern cs).map (.offset .hourMinute :: ·)
  | '\'' :: c :: '\'' :: cs => (ofPattern cs).map (.literal c :: ·)
  | c :: cs => if c.isAlpha then none else (ofPattern cs).map (.literal c :: ·)

/-! ## Reading the text -/

/-- The digits in front, at most so many. -/
def digits (max : ℕ) (cs : List Char) : List Char := (cs.take max).takeWhile Char.isDigit

/-- The number that digits stand for. -/
def number (ds : List Char) : ℕ := Nat.ofDigitChars 10 ds 0

/-- A number of exactly so many digits. -/
def parseFixed (width : ℕ) (cs : List Char) : Option (ℕ × List Char) :=
  if (digits width cs).length = width then some (number (digits width cs), cs.drop width) else none

/-- A year: a plus if and only if there are more than four digits, and no minus before zero. -/
def parseYear : List Char → Option (ℤ × List Char)
  | [] => none
  | c :: cs =>
    if c = '+' then
      let ds := digits 19 cs
      if ds.length ≤ 4 then none else some (number ds, cs.drop ds.length)
    else if c = '-' then
      let ds := digits 19 cs
      if ds.length < 4 ∨ number ds = 0 then none else some (-(number ds : ℤ), cs.drop ds.length)
    else
      let ds := digits 19 (c :: cs)
      if ds.length ≠ 4 then none else some (number ds, (c :: cs).drop ds.length)

/-- Two digits of an offset. -/
def parseOffsetNumber (cs : List Char) : Option (ℕ × List Char) :=
  (parseFixed 2 cs).filter (·.1 ≤ 59)

/-- The hours and the minutes of an offset, after the sign. -/
def parseHourMinute : OffsetPattern → List Char → Option (ℕ × List Char)
  | .hourColonMinute, cs => do
    let (hours, cs) ← parseOffsetNumber cs
    match cs with
    | ':' :: cs =>
      let (minutes, cs) ← parseOffsetNumber cs
      return (hours * 3600 + minutes * 60, cs)
    | _ => none
  | .hourMinute, cs => do
    let (hours, cs) ← parseOffsetNumber cs
    let (minutes, cs) ← parseOffsetNumber cs
    return (hours * 3600 + minutes * 60, cs)
  | .hourOptionalMinute, cs => do
    let (hours, cs) ← parseOffsetNumber cs
    match parseOffsetNumber cs with
    | some (minutes, cs) => return (hours * 3600 + minutes * 60, cs)
    | none => return (hours * 3600, cs)

/-- The text for an offset of zero. -/
def OffsetPattern.noOffsetText : OffsetPattern → List Char
  | hourMinute => ['+', '0', '0', '0', '0']
  | _ => ['Z']

/-- The seconds of an offset. -/
def parseOffset (pattern : OffsetPattern) (cs : List Char) : Option (ℤ × List Char) :=
  if pattern.noOffsetText <+: cs then some (0, cs.drop pattern.noOffsetText.length)
  else
    match cs with
    | '+' :: cs => (parseHourMinute pattern cs).map fun (seconds, cs) => (seconds, cs)
    | '-' :: cs => (parseHourMinute pattern cs).map fun (seconds, cs) => (-seconds, cs)
    | _ => none

/-- What an element reads: the value of a field, if it is one for a field, and the rest. -/
def Element.parse : Element → List Char → Option (List (ChronoField × ℤ) × List Char)
  | year, cs => (parseYear cs).map fun (y, cs) => ([(.year, y)], cs)
  | twoDigits field, cs => (parseFixed 2 cs).map fun (n, cs) => ([(field, n)], cs)
  | fraction, cs => (parseFixed 3 cs).map fun (n, cs) => ([(.nanoOfSecond, n * 1000000)], cs)
  | offset pattern, cs => (parseOffset pattern cs).map fun (s, cs) => ([(.offsetSeconds, s)], cs)
  | literal c, cs => if cs.head? = some c then some ([], cs.tail) else none

/-- The first phase: all of the text is read. -/
def parseFields : List Element → List Char → Option (List (ChronoField × ℤ))
  | [], [] => some []
  | [], _ => none
  | e :: es, cs => do
    let (values, cs) ← e.parse cs
    return values ++ (← parseFields es cs)

lemma parseFields_cons (e : Element) (es : List Element) (cs : List Char) :
    parseFields (e :: es) cs =
      (e.parse cs).bind fun r => (parseFields es r.2).map (r.1 ++ ·) := by
  rw [parseFields]
  rcases e.parse cs with _ | ⟨values, rest⟩
  · rfl
  · change ((parseFields es rest).bind fun r => some (values ++ r)) =
      (parseFields es rest).map (values ++ ·)
    cases parseFields es rest <;> rfl

/-! ## Putting the fields together -/

/-- The years of `LocalDate` and of `Year`. -/
def ValidYear (year : ℤ) : Prop := -999999999 ≤ year ∧ year ≤ 999999999

instance (year : ℤ) : Decidable (ValidYear year) := inferInstanceAs (Decidable (_ ∧ _))

/-- A time of day, to the nanosecond. -/
structure LocalTime where
  secondOfDay : ℤ
  nano : ℕ
  nano_lt : nano < 1000000000

/-- A text, as the second phase leaves it. -/
structure Resolved where
  fields : List (ChronoField × ℤ)
  /-- The days since 1970-01-01. -/
  date : Option ℤ
  time : Option LocalTime

/-- The date of the fields, if they have one.  The outer `none` is a `DateTimeException`. -/
def resolveDate (fields : List (ChronoField × ℤ)) : Option (Option ℤ) :=
  match fields.lookup .year, fields.lookup .monthOfYear, fields.lookup .dayOfMonth with
  | some y, some m, some d =>
    if ValidYear y ∧ Calendar.ValidDate y m d then some (some (Calendar.toEpochDay y m d)) else none
  | _, _, _ => some none

/-- The time of the fields, if they have one; what is missing after the hour is zero. -/
def resolveTime (fields : List (ChronoField × ℤ)) : Option (Option LocalTime) :=
  match fields.lookup .hourOfDay with
  | none => some none
  | some h =>
    let m := (fields.lookup .minuteOfHour).getD 0
    let s := (fields.lookup .secondOfMinute).getD 0
    let n := (fields.lookup .nanoOfSecond).getD 0
    if hvalid : (0 ≤ h ∧ h ≤ 23) ∧ (0 ≤ m ∧ m ≤ 59) ∧ (0 ≤ s ∧ s ≤ 59) ∧ 0 ≤ n ∧ n ≤ 999999999 then
      some (some ⟨h * 3600 + m * 60 + s, n.toNat, by omega⟩)
    else none

/-- Both phases. -/
def resolve (elements : List Element) (text : List Char) : Option Resolved := do
  let fields ← parseFields elements text
  let date ← resolveDate fields
  let time ← resolveTime fields
  return ⟨fields, date, time⟩

/-! ## The types that are made of it -/

/-- The start of a day in UTC. -/
def atStartOfDay (epochDay : ℤ) : Instant := Instant.ofEpochSecond (epochDay * 86400)

/-- `OffsetDateTime.from`, as an instant.  A zone is not an offset, so there must be one in the
text; `ZoneOffset` allows eighteen hours. -/
def Resolved.offsetDateTime (r : Resolved) : Option Instant := do
  let offset ← r.fields.lookup .offsetSeconds
  let date ← r.date
  let time ← r.time
  if offset.natAbs ≤ 64800 then
    some ⟨date * 86400 + time.secondOfDay - offset, time.nano, time.nano_lt⟩
  else none

/-- `LocalDate.from`, at the start of the day. -/
def Resolved.localDate (r : Resolved) : Option Instant := r.date.map atStartOfDay

/-- `YearMonth.from`, at the start of the first day. -/
def Resolved.yearMonth (r : Resolved) : Option Instant := do
  let y ← r.fields.lookup .year
  let m ← r.fields.lookup .monthOfYear
  if ValidYear y ∧ 1 ≤ m ∧ m ≤ 12 then some (atStartOfDay (Calendar.toEpochDay y m 1)) else none

/-- `Year.from`, at the start of the first day. -/
def Resolved.year (r : Resolved) : Option Instant := do
  let y ← r.fields.lookup .year
  if ValidYear y then some (atStartOfDay (Calendar.toEpochDay y 1 1)) else none

/-! ## Printing -/

/-- The date of an instant in UTC. -/
def localDateOf (i : Instant) : ℤ × ℤ × ℤ := Calendar.ofEpochDay (i.seconds / 86400)

/-- A field of an instant in UTC. -/
def getLong (i : Instant) : ChronoField → ℤ
  | .year => (localDateOf i).1
  | .monthOfYear => (localDateOf i).2.1
  | .dayOfMonth => (localDateOf i).2.2
  | .hourOfDay => i.seconds % 86400 / 3600
  | .minuteOfHour => i.seconds % 3600 / 60
  | .secondOfMinute => i.seconds % 60
  | .nanoOfSecond => i.nanos
  | .offsetSeconds => 0

/-- A year is printed with a plus if it has more than four digits. -/
def printYear (year : ℤ) : List Char :=
  if year < 0 then '-' :: Digits.padded 4 year.natAbs
  else if 10000 ≤ year then '+' :: Digits.padded 4 year.natAbs
  else Digits.padded 4 year.natAbs

/-- What an element prints; a fraction is cut off. -/
def Element.print (i : Instant) : Element → List Char
  | year => printYear (getLong i .year)
  | twoDigits field => Digits.padded 2 (getLong i field).toNat
  | fraction => Digits.padded 3 (i.nanos / 1000000)
  | offset pattern => pattern.noOffsetText
  | literal c => [c]

/-- `DateTimeFormatter.format` of an instant, in UTC.  `none` is the `DateTimeException` for an
instant that is not in a year of `LocalDate`. -/
def format (elements : List Element) (i : Instant) : Option (List Char) :=
  if ValidYear (getLong i .year) then some (elements.flatMap (·.print i)) else none

end Geodesy.Mapper
