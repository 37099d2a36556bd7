import Geodesy.Library.Matched
import Geodesy.Mapper.FormatRoundTrip
import Geodesy.Positions.PositionService

/-!
# `WeeklySolutionService`

The first line of a SINEX file says when the file was made and which time it covers.  A solution is
saved with these, and published.  A file that cannot be opened is an `IOException`, which is logged;
whatever else goes wrong is unchecked and undoes the transaction, also a time that cannot be parsed,
since `DateTimeParseException` is not the `ParseException` of the catch.
-/

namespace Geodesy

/-- The unchecked exceptions of `WeeklySolutionService.uploadSolution`. -/
inductive HeaderException
  /-- There is no first line, or no next token. -/
  | noSuchElement
  /-- A time without a colon. -/
  | stringIndexOutOfBounds
  | dateTimeParse
  deriving DecidableEq, Repr

namespace WeeklySolutionService

/-! ## Times -/

/-- The length of a year in days. -/
def lengthOfYear (year : ℤ) : ℤ := if Calendar.isLeapYear year then 366 else 365

/-- `LocalDate.ofYearDay`, at the start of the day in UTC. -/
def ofYearDay (year dayOfYear : ℤ) : Option Instant :=
  if 1 ≤ dayOfYear ∧ dayOfYear ≤ lengthOfYear year then
    some (Mapper.atStartOfDay (Calendar.toEpochDay year 1 1 + dayOfYear - 1))
  else none

/-- `GMLDateUtils.stringToDate` with the pattern `yy':'DDD`: two digits for a year from 2000 on, and
three for the day.  There is no offset, so it is `LocalDate.parse` that reads it. -/
def stringToDate (text : List Char) : Option Instant :=
  match Mapper.parseFixed 2 text with
  | some (yy, ':' :: text) =>
    match Mapper.parseFixed 3 text with
    | some (dayOfYear, []) => ofYearDay (2000 + yy) dayOfYear
    | _ => none
  | _ => none

/-- `s.substring(0, s.lastIndexOf(c))`. -/
def beforeLast (c : Char) (s : List Char) : Option (List Char) :=
  match s.reverse.dropWhile (· ≠ c) with
  | [] => none
  | _ :: before => some before.reverse

/-- `WeeklySolutionService.parseGpsEpoch`: the seconds are ignored. -/
def parseGpsEpoch (gpsEpoch : String) : Except HeaderException Instant :=
  match beforeLast ':' gpsEpoch.toList with
  | none => .error .stringIndexOutOfBounds
  | some dayAndYear =>
    match stringToDate dayAndYear with
    | none => .error .dateTimeParse
    | some time => .ok time

/-! ## The header -/

/-- `StringTokenizer.nextToken`. -/
def nextToken : List String → Except HeaderException (String × List String)
  | [] => .error .noSuchElement
  | token :: tokens => .ok (token, tokens)

/-- `WeeklySolutionService.drop`. -/
def drop (tokens : List String) : ℕ → Except HeaderException (List String)
  | 0 => .ok tokens
  | n + 1 => do
    let (_, tokens) ← nextToken tokens
    drop tokens n

/-- `Instant.plus` with a number of days. -/
def plusDays (i : Instant) (days : ℤ) : Instant := { i with seconds := i.seconds + 86400 * days }

/-- What `uploadSolution` reads of the first line: `asAt` and the epoch. -/
def readTokens (tokenizer : List String) : Except HeaderException (Instant × Instant) := do
  let tokens ← drop tokenizer 3
  let (token, tokens) ← nextToken tokens
  let asAt ← parseGpsEpoch token
  let tokens ← drop tokens 1
  let (token, tokens) ← nextToken tokens
  let firstObservation ← parseGpsEpoch token
  let (token, _) ← nextToken tokens
  let _lastObservation ← parseGpsEpoch token
  return (asAt, plusDays firstObservation 3)

/-- `scanner.nextLine()`, which is all that is read of a file that could be opened. -/
def readHeader : List String → Except HeaderException (Instant × Instant)
  | [] => .error .noSuchElement
  | firstLine :: _ => readTokens (PositionService.tokenizer firstLine)

/-- The solution that `uploadSolution` saves under the given key, if any.  A file that cannot be
opened is `none`. -/
def uploadSolution (openFile : String → Option (List String)) (sinexFileName : String) (id : ℕ) :
    Except HeaderException (Option WeeklySolution) :=
  match openFile sinexFileName with
  | none => .ok none
  | some lines => do
    let (asAt, epoch) ← readHeader lines
    return some ⟨id, some asAt, some epoch, some sinexFileName⟩

/-- A solution is saved under the key that the sequence gave. -/
lemma id_of_uploadSolution {openFile : String → Option (List String)} {sinexFileName : String}
    {id : ℕ} {solution : WeeklySolution}
    (h : uploadSolution openFile sinexFileName id = .ok (some solution)) : solution.id = id := by
  unfold uploadSolution at h
  split at h
  case h_1 => cases h
  case h_2 lines _ =>
    obtain ⟨header, -, h⟩ := Except.bind_eq_ok_iff.mp h
    rw [← Option.some.inj (Except.ok.inj h)]

/-! ## Which headers are read -/

/-- A time `YY:DOY:SECOD`, whatever stands for the seconds. -/
structure GpsEpoch (token : String) where
  yy : ℕ
  dayOfYear : ℕ
  seconds : List Char
  yy_lt : yy < 100
  dayOfYear_pos : 1 ≤ dayOfYear
  dayOfYear_le : (dayOfYear : ℤ) ≤ lengthOfYear (2000 + yy)
  no_colon : ':' ∉ seconds
  token_eq :
    token.toList = (Digits.padded 2 yy ++ ':' :: Digits.padded 3 dayOfYear) ++ ':' :: seconds

/-- The start of the day, in the years from 2000 to 2099. -/
def GpsEpoch.startOfDay {token : String} (g : GpsEpoch token) : Instant :=
  Mapper.atStartOfDay (Calendar.toEpochDay (2000 + g.yy) 1 1 + g.dayOfYear - 1)

lemma stringToDate_eq_some_iff {text : List Char} {t : Instant} :
    stringToDate text = some t ↔ ∃ yy dayOfYear : ℕ, yy < 100 ∧ 1 ≤ dayOfYear ∧
      (dayOfYear : ℤ) ≤ lengthOfYear (2000 + yy) ∧
      text = Digits.padded 2 yy ++ ':' :: Digits.padded 3 dayOfYear ∧
      Mapper.atStartOfDay (Calendar.toEpochDay (2000 + yy) 1 1 + dayOfYear - 1) = t := by
  constructor
  · intro h
    unfold stringToDate at h
    split at h
    case h_2 => cases h
    case h_1 yy rest hyy =>
      split at h
      case h_2 => cases h
      case h_1 dayOfYear hday =>
        obtain ⟨hlt, rfl⟩ := (Mapper.parseFixed_eq_some_iff (by decide)).mp hyy
        obtain ⟨-, rfl⟩ := (Mapper.parseFixed_eq_some_iff (by decide)).mp hday
        unfold ofYearDay at h
        split_ifs at h with hrange
        exact ⟨yy, dayOfYear, hlt, by exact_mod_cast hrange.1, hrange.2, by rw [List.append_nil],
          Option.some.inj h⟩
  · rintro ⟨yy, dayOfYear, hyy, hpos, hle, rfl, rfl⟩
    have hlt : dayOfYear < 10 ^ 3 := by
      unfold lengthOfYear at hle
      split at hle <;> omega
    have hday := Mapper.parseFixed_padded (w := 3) (by decide) hlt []
    rw [List.append_nil] at hday
    rw [stringToDate, Mapper.parseFixed_padded (by decide) hyy]
    simp only [hday, ofYearDay]
    rw [if_pos ⟨by exact_mod_cast hpos, hle⟩]

lemma beforeLast_eq_some_iff {c : Char} {s before : List Char} :
    beforeLast c s = some before ↔ ∃ after, c ∉ after ∧ s = before ++ c :: after := by
  constructor
  · intro h
    unfold beforeLast at h
    split at h
    case h_1 => cases h
    case h_2 d rest hdrop =>
      obtain rfl := Option.some.inj h
      have hd : d = c := by
        have hnot := List.head?_dropWhile_not (fun x => decide (x ≠ c)) s.reverse
        rw [hdrop] at hnot
        simpa using hnot
      refine ⟨(s.reverse.takeWhile (· ≠ c)).reverse, ?_, ?_⟩
      · intro hmem
        have hne := List.mem_takeWhile_imp (List.mem_reverse.mp hmem)
        simp at hne
      · have hsplit := List.takeWhile_append_dropWhile (p := fun x => decide (x ≠ c))
          (l := s.reverse)
        rw [hdrop, hd] at hsplit
        simpa using (congrArg List.reverse hsplit).symm
  · rintro ⟨after, hafter, rfl⟩
    have hdrop : (before ++ c :: after).reverse.dropWhile (· ≠ c) = c :: before.reverse := by
      rw [List.reverse_append, List.reverse_cons, List.append_assoc, List.dropWhile_append_of_pos]
      · simp
      · intro d hd
        have hne : d ≠ c := fun h => hafter (h ▸ List.mem_reverse.mp hd)
        simpa using hne
    rw [beforeLast, hdrop]
    exact congrArg some before.reverse_reverse

/-- A time is parsed as the start of its day. -/
lemma parseGpsEpoch_eq_ok_iff {token : String} {t : Instant} :
    parseGpsEpoch token = .ok t ↔ ∃ g : GpsEpoch token, g.startOfDay = t := by
  constructor
  · intro h
    unfold parseGpsEpoch at h
    split at h
    case h_1 => cases h
    case h_2 dayAndYear hday =>
      split at h
      case h_1 => cases h
      case h_2 time htime =>
        obtain rfl := Except.ok.inj h
        obtain ⟨seconds, hcolon, htoken⟩ := beforeLast_eq_some_iff.mp hday
        obtain ⟨yy, dayOfYear, hyy, hpos, hle, rfl, rfl⟩ := stringToDate_eq_some_iff.mp htime
        exact ⟨⟨yy, dayOfYear, seconds, hyy, hpos, hle, hcolon, htoken⟩, rfl⟩
  · rintro ⟨g, rfl⟩
    have hday := beforeLast_eq_some_iff.mpr ⟨g.seconds, g.no_colon, g.token_eq⟩
    have htime : stringToDate _ = some g.startOfDay := stringToDate_eq_some_iff.mpr
      ⟨g.yy, g.dayOfYear, g.yy_lt, g.dayOfYear_pos, g.dayOfYear_le, rfl, rfl⟩
    simp only [parseGpsEpoch, hday, htime]

/-- The token in a place, counted from zero. -/
def tokenAt (tokens : List String) (i : ℕ) : Except HeaderException String :=
  match tokens[i]? with
  | none => .error .noSuchElement
  | some token => .ok token

/-- Dropping tokens one by one leads to these three. -/
lemma readTokens_eq (tokens : List String) :
    readTokens tokens = do
      let asAt ← tokenAt tokens 3 >>= parseGpsEpoch
      let firstObservation ← tokenAt tokens 5 >>= parseGpsEpoch
      let _lastObservation ← tokenAt tokens 6 >>= parseGpsEpoch
      return (asAt, plusDays firstObservation 3) := by
  unfold readTokens tokenAt
  rcases tokens with _ | ⟨_, _ | ⟨_, _ | ⟨_, _ | ⟨made, _ | ⟨_, _ | ⟨first, _ | ⟨last, _⟩⟩⟩⟩⟩⟩⟩
  · rfl
  · rfl
  · rfl
  · rfl
  · cases h : parseGpsEpoch made <;> simp [drop, nextToken, h, bind, Except.bind]
  · rfl
  · rfl
  · rfl

/-- The first line has a time in the places of these three: when the file was made, and when the
first and the last observation was. -/
structure SinexHeader (lines : List String) where
  firstLine : String
  lines_head : lines.head? = some firstLine
  made : String
  first : String
  last : String
  made_eq : (PositionService.tokenizer firstLine)[3]? = some made
  first_eq : (PositionService.tokenizer firstLine)[5]? = some first
  last_eq : (PositionService.tokenizer firstLine)[6]? = some last
  asAt : GpsEpoch made
  firstObservation : GpsEpoch first
  lastObservation : GpsEpoch last

lemma tokenAt_eq_ok_iff {tokens : List String} {i : ℕ} {token : String} :
    tokenAt tokens i = .ok token ↔ tokens[i]? = some token := by
  unfold tokenAt
  cases tokens[i]? <;> simp

lemma readHeader_eq_ok_iff {lines : List String} {asAt epoch : Instant} :
    readHeader lines = .ok (asAt, epoch) ↔ ∃ header : SinexHeader lines,
      header.asAt.startOfDay = asAt ∧
      plusDays header.firstObservation.startOfDay 3 = epoch := by
  constructor
  · intro h
    cases lines with
    | nil => cases h
    | cons firstLine lines =>
        rw [readHeader, readTokens_eq] at h
        obtain ⟨asAt', hasAt, h⟩ := Except.bind_eq_ok_iff.mp h
        obtain ⟨first', hfirst, h⟩ := Except.bind_eq_ok_iff.mp h
        obtain ⟨last', hlast, h⟩ := Except.bind_eq_ok_iff.mp h
        obtain ⟨made, hmade, hasAt⟩ := Except.bind_eq_ok_iff.mp hasAt
        obtain ⟨first, hfirstAt, hfirst⟩ := Except.bind_eq_ok_iff.mp hfirst
        obtain ⟨last, hlastAt, hlast⟩ := Except.bind_eq_ok_iff.mp hlast
        rw [tokenAt_eq_ok_iff] at hmade hfirstAt hlastAt
        obtain ⟨gMade, rfl⟩ := parseGpsEpoch_eq_ok_iff.mp hasAt
        obtain ⟨gFirst, rfl⟩ := parseGpsEpoch_eq_ok_iff.mp hfirst
        obtain ⟨gLast, -⟩ := parseGpsEpoch_eq_ok_iff.mp hlast
        obtain ⟨rfl, rfl⟩ := Prod.mk.inj (Except.ok.inj h)
        exact ⟨⟨firstLine, rfl, made, first, last, hmade, hfirstAt, hlastAt, gMade, gFirst, gLast⟩,
          rfl, rfl⟩
  · rintro ⟨header, rfl, rfl⟩
    obtain ⟨rest, hlines⟩ := List.head?_eq_some_iff.mp header.lines_head
    have hmade := parseGpsEpoch_eq_ok_iff.mpr ⟨header.asAt, rfl⟩
    have hfirst := parseGpsEpoch_eq_ok_iff.mpr ⟨header.firstObservation, rfl⟩
    have hlast := parseGpsEpoch_eq_ok_iff.mpr ⟨header.lastObservation, rfl⟩
    simp only [hlines, readHeader, readTokens_eq, tokenAt, header.made_eq, header.first_eq,
      header.last_eq, bind, Except.bind, hmade, hfirst, hlast]
    rfl

lemma readHeader_eq_error_iff {lines : List String} :
    (∃ e, readHeader lines = .error e) ↔ IsEmpty (SinexHeader lines) := by
  constructor
  · rintro ⟨e, he⟩
    refine ⟨fun header => ?_⟩
    have hread := readHeader_eq_ok_iff.mpr ⟨header, rfl, rfl⟩
    rw [he] at hread
    cases hread
  · intro hempty
    rcases hread : readHeader lines with e | ⟨asAt, epoch⟩
    · exact ⟨e, rfl⟩
    · obtain ⟨header, -⟩ := readHeader_eq_ok_iff.mp hread
      exact hempty.elim header

/-- **Which files are accepted, and with which times.**  A solution is saved if and only if the file
can be opened and has such a first line; the epoch is three days after the first observation.  If it
has not, an unchecked exception is thrown, and a file that cannot be opened is passed over. -/
theorem uploadSolution_eq (openFile : String → Option (List String)) (sinexFileName : String)
    (id : ℕ) :
    (∀ solution, uploadSolution openFile sinexFileName id = .ok (some solution) ↔
      ∃ lines, openFile sinexFileName = some lines ∧ ∃ header : SinexHeader lines,
        solution = ⟨id, some header.asAt.startOfDay,
          some (plusDays header.firstObservation.startOfDay 3), some sinexFileName⟩) ∧
    ((∃ e, uploadSolution openFile sinexFileName id = .error e) ↔
      ∃ lines, openFile sinexFileName = some lines ∧ IsEmpty (SinexHeader lines)) ∧
    (uploadSolution openFile sinexFileName id = .ok none ↔ openFile sinexFileName = none) := by
  rcases hopen : openFile sinexFileName with _ | lines
  · simp [uploadSolution, hopen]
  · have hupload : uploadSolution openFile sinexFileName id = do
        let (asAt, epoch) ← readHeader lines
        return some ⟨id, some asAt, some epoch, some sinexFileName⟩ := by
      simp only [uploadSolution, hopen]
    rcases hread : readHeader lines with e | ⟨asAt, epoch⟩
    · have hempty : IsEmpty (SinexHeader lines) := readHeader_eq_error_iff.mp ⟨e, hread⟩
      rw [hread] at hupload
      rw [show uploadSolution openFile sinexFileName id = .error e from hupload]
      simp [hempty]
    · obtain ⟨header, rfl, rfl⟩ := readHeader_eq_ok_iff.mp hread
      rw [hread] at hupload
      have hnonempty : ¬IsEmpty (SinexHeader lines) := not_isEmpty_iff.mpr ⟨header⟩
      rw [show uploadSolution openFile sinexFileName id = .ok (some _) from hupload]
      refine ⟨fun solution => ⟨fun h => ?_, ?_⟩, by simpa using hnonempty, by simp⟩
      · exact ⟨lines, rfl, header, (Option.some.inj (Except.ok.inj h)).symm⟩
      · rintro ⟨lines', hlines, header', rfl⟩
        obtain rfl := Option.some.inj hlines
        have hread' := readHeader_eq_ok_iff.mpr ⟨header', rfl, rfl⟩
        rw [hread] at hread'
        obtain ⟨hasAt, hepoch⟩ := Prod.mk.inj (Except.ok.inj hread')
        rw [hasAt, hepoch]

/-- The line of the comment in the source. -/
example :
    uploadSolution (fun _ => some
        ["%=SNX 2.00 AUS 13:074:43829 IGS 01:014:00000 01:020:86370 P 00384 0 S"]) "aus.snx" 7 =
      .ok (some ⟨7, some (.ofEpochSecond 1363305600), some (.ofEpochSecond 979689600),
        some "aus.snx"⟩) := by
  decide +kernel

end WeeklySolutionService

end Geodesy
