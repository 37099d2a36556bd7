import Geodesy.Mapper.FormatRoundTrip

/-!
# Time positions

`InstantToTimePositionConverter` writes an instant with one pattern and reads seven.  With each
pattern it tries four types in turn, of which the first that can be made of the text decides
(`parsePattern`).  The type matters: of a text with a time but with an offset that `OffsetDateTime`
refuses, `LocalDate` still takes the date.

An instant is read back from what is written, without what is less than a millisecond
(`convertFrom_convertTo`), and effective dates from their `TimePeriodType`.
-/

namespace Geodesy.Mapper

/-- `TimeIndeterminateValueType`. -/
inductive TimeIndeterminateValueType
  | after
  | before
  | now
  | unknown
  deriving DecidableEq, Repr

/-- `TimePositionType`: a list of texts, of which the first counts, or no text and an indeterminate
position. -/
structure TimePositionType where
  value : List String
  indeterminatePosition : Option TimeIndeterminateValueType
  deriving DecidableEq, Repr

/-- What the converter throws. -/
inductive ConversionException
  | dateTime
  | runtime (message : String)
  deriving DecidableEq, Repr

namespace InstantToTimePositionConverter

/-- `defaultTimePositionPattern`. -/
def defaultTimePositionPattern : String := "uuuu-MM-dd'T'HH:mm:ss.SSSXXX"

/-- `timePositionPatterns`. -/
def timePositionPatterns : List String :=
  [defaultTimePositionPattern,
    "uuuu-MM-dd'T'HH:mm:ss.SSSZ",
    "uuuu-MM-dd'T'HH:mm:ssX",
    "uuuu-MM-ddX",
    "uuuu-MM-dd",
    "uuuu-MM",
    "uuuu"]

/-- The elements of a pattern. -/
def dateFormat (pattern : String) : List Element := (ofPattern pattern.toList).getD []

/-- `convertTo`. -/
def convertTo (date : Instant) : Except ConversionException TimePositionType :=
  match format (dateFormat defaultTimePositionPattern) date with
  | some text => .ok ⟨[String.ofList text], none⟩
  | none => .error .dateTime

/-- The four attempts with one pattern. -/
def parsePattern (dateString pattern : String) : Option Instant :=
  let parsed := resolve (dateFormat pattern) dateString.toList
  ((((parsed.bind Resolved.offsetDateTime).or
    (parsed.bind Resolved.localDate)).or
    (parsed.bind Resolved.yearMonth)).or
    (parsed.bind Resolved.year))

/-- `convertFrom`, with the patterns that it tries. -/
def convertFromWith (patterns : List String) (time : TimePositionType) :
    Except ConversionException (Option Instant) :=
  match time.value with
  | [] => .ok none
  | dateString :: _ =>
    match patterns.findSome? (parsePattern dateString) with
    | some date => .ok (some date)
    | none => .error (.runtime ("Failed to parse " ++ dateString ++
        " using the following patterns: " ++ ", ".intercalate patterns))

/-- `convertFrom`. -/
def convertFrom (time : TimePositionType) : Except ConversionException (Option Instant) :=
  convertFromWith timePositionPatterns time

end InstantToTimePositionConverter

open InstantToTimePositionConverter

/-- All the patterns are legal. -/
lemma isSome_ofPattern : ∀ pattern ∈ timePositionPatterns,
    (ofPattern pattern.toList).isSome = true := by decide

/-- The elements of the pattern that is written. -/
def defaultElements : List Element :=
  [.year, .literal '-', .twoDigits .monthOfYear, .literal '-', .twoDigits .dayOfMonth, .literal 'T',
    .twoDigits .hourOfDay, .literal ':', .twoDigits .minuteOfHour, .literal ':',
    .twoDigits .secondOfMinute, .literal '.', .fraction, .offset .hourColonMinute]

lemma dateFormat_default : dateFormat defaultTimePositionPattern = defaultElements := by decide

/-! ## Reading what is written -/

/-- `Instant.truncatedTo(ChronoUnit.MILLIS)`. -/
def truncatedToMillis (i : Instant) : Instant :=
  ⟨i.seconds, i.nanos / 1000000 * 1000000, lt_of_le_of_lt (Nat.div_mul_le_self _ _) i.nanos_lt⟩

/-- The year of an instant, in UTC. -/
def yearOf (i : Instant) : ℤ := getLong i .year

/-- What the default pattern says of an instant. -/
def defaultFields (i : Instant) : List (ChronoField × ℤ) :=
  [(.year, getLong i .year), (.monthOfYear, getLong i .monthOfYear),
    (.dayOfMonth, getLong i .dayOfMonth), (.hourOfDay, getLong i .hourOfDay),
    (.minuteOfHour, getLong i .minuteOfHour), (.secondOfMinute, getLong i .secondOfMinute),
    (.nanoOfSecond, (i.nanos / 1000000 : ℕ) * 1000000), (.offsetSeconds, 0)]

lemma resolveDate_defaultFields {i : Instant} (hi : ValidYear (yearOf i)) :
    resolveDate (defaultFields i) = some (some (i.seconds / 86400)) := by
  have hdate := Calendar.ofEpochDay_spec (i.seconds / 86400)
  have hresolve : resolveDate (defaultFields i) =
      if ValidYear (yearOf i) ∧
          Calendar.ValidDate (localDateOf i).1 (localDateOf i).2.1 (localDateOf i).2.2 then
        some (some (Calendar.toEpochDay (localDateOf i).1 (localDateOf i).2.1 (localDateOf i).2.2))
      else none := rfl
  rw [hresolve, if_pos ⟨hi, hdate.1⟩, localDateOf, hdate.2]

lemma resolveTime_defaultFields (i : Instant) :
    resolveTime (defaultFields i) =
      some (some ⟨i.seconds % 86400, (truncatedToMillis i).nanos,
        (truncatedToMillis i).nanos_lt⟩) := by
  have hnanos := i.nanos_lt
  have hvalid : (0 ≤ getLong i .hourOfDay ∧ getLong i .hourOfDay ≤ 23) ∧
      (0 ≤ getLong i .minuteOfHour ∧ getLong i .minuteOfHour ≤ 59) ∧
      (0 ≤ getLong i .secondOfMinute ∧ getLong i .secondOfMinute ≤ 59) ∧
      0 ≤ ((i.nanos / 1000000 : ℕ) : ℤ) * 1000000 ∧
        ((i.nanos / 1000000 : ℕ) : ℤ) * 1000000 ≤ 999999999 := by
    simp only [getLong]
    omega
  have hseconds : getLong i .hourOfDay * 3600 + getLong i .minuteOfHour * 60 +
      getLong i .secondOfMinute = i.seconds % 86400 := by
    simp only [getLong]
    omega
  refine (dif_pos hvalid).trans ?_
  congr 3

/-- The text that is written stands for the instant. -/
lemma resolve_format {i : Instant} (hi : ValidYear (yearOf i)) :
    (resolve defaultElements (defaultElements.flatMap (·.print i))).bind Resolved.offsetDateTime =
      some (truncatedToMillis i) := by
  have hfields : parseFields defaultElements (defaultElements.flatMap (·.print i)) =
      some (defaultFields i) := parseFields_print hi defaultElements (by decide)
  have hresolve : resolve defaultElements (defaultElements.flatMap (·.print i)) =
      some ⟨defaultFields i, some (i.seconds / 86400), some ⟨i.seconds % 86400,
        (truncatedToMillis i).nanos, (truncatedToMillis i).nanos_lt⟩⟩ := by
    rw [resolve, hfields, Option.bind_eq_bind, Option.bind_some, resolveDate_defaultFields hi,
      Option.bind_eq_bind, Option.bind_some, resolveTime_defaultFields]
    rfl
  have hseconds : i.seconds / 86400 * 86400 + i.seconds % 86400 - 0 = i.seconds := by omega
  rw [hresolve, Option.bind_some]
  change some (⟨i.seconds / 86400 * 86400 + i.seconds % 86400 - 0, _, _⟩ : Instant) = _
  congr 2

/-- **An instant is read back from its time position.** -/
lemma convertFrom_convertTo {i : Instant} (hi : ValidYear (yearOf i)) :
    ∃ time, convertTo i = .ok time ∧ convertFrom time = .ok (some (truncatedToMillis i)) := by
  have hformat : format (dateFormat defaultTimePositionPattern) i =
      some (defaultElements.flatMap (·.print i)) := by
    rw [dateFormat_default]
    exact if_pos hi
  have hparse : parsePattern (String.ofList (defaultElements.flatMap (·.print i)))
      defaultTimePositionPattern = some (truncatedToMillis i) := by
    simp only [parsePattern, dateFormat_default, String.toList_ofList, resolve_format hi,
      Option.some_or]
  have hfind : timePositionPatterns.findSome?
      (parsePattern (String.ofList (defaultElements.flatMap (·.print i)))) =
        some (truncatedToMillis i) := by
    rw [timePositionPatterns, List.findSome?_cons, hparse]
  have hto : convertTo i =
      .ok ⟨[String.ofList (defaultElements.flatMap (·.print i))], none⟩ := by
    unfold convertTo
    rw [hformat]
  refine ⟨_, hto, ?_⟩
  simp only [convertFrom, convertFromWith, hfind]

/-- An instant in a year that `LocalDate` does not have is not written. -/
lemma convertTo_error {i : Instant} (hi : ¬ValidYear (yearOf i)) :
    convertTo i = .error .dateTime := by
  have hformat : format (dateFormat defaultTimePositionPattern) i = none := if_neg hi
  unfold convertTo
  rw [hformat]

end Geodesy.Mapper
