import Geodesy.Event.HandlerTransaction
import Geodesy.Positions.BigDecimal

/-!
# `PositionService`

When a weekly solution is available, its SINEX file is read with one `Scanner`: up to the start of
the block of estimates, past a header, and then three lines at a time until the block ends.  The
first line of each three is read in the condition of the loop, the other two in its body.  A
position is saved for each three lines, from the first two of them.

Whatever goes wrong while the file is read is an unchecked exception, and undoes the transaction.
A file that cannot be opened is an `IOException`, which is logged, and then the event is handled.

The type `δ` is that of doubles, and `doubleValue` the conversion of `BigDecimal`.
-/

namespace Geodesy

variable {κ δ : Type*}

/-- The unchecked exceptions of `PositionService.handle`. -/
inductive SinexException
  /-- There is no next line, or no next token. -/
  | noSuchElement
  /-- A token is not a number. -/
  | numberFormat
  /-- There is no solution with the key, or it names no file. -/
  | nullPointer
  deriving DecidableEq, Repr

/-- `WeeklySolution`, a row of `WEEKLY_SOLUTION`. -/
structure WeeklySolution where
  id : ℕ
  asAt : Option Instant
  epoch : Option Instant
  sinexFile : Option String
  deriving DecidableEq, Repr

/-- `Position`, a row of `POSITION` without its key. -/
structure Position (δ : Type*) where
  fourCharacterId : String
  nodeId : Option ℕ
  datumEpsgCode : ℕ
  x : δ
  y : δ
  epoch : Option Instant
  asAt : Option Instant
  positionSourceId : ℕ
  deriving DecidableEq, Repr

namespace PositionService

/-! ## Lines and tokens -/

/-- `String.startsWith`. -/
def startsWith (line start : String) : Bool := start.toList.isPrefixOf line.toList

/-- The delimiters of `StringTokenizer` by default. -/
def isDelimiter (c : Char) : Bool :=
  c = ' ' ∨ c = '\t' ∨ c = '\n' ∨ c = '\r' ∨ c = '\x0c'

/-- `new StringTokenizer(line)`: the tokens still to come. -/
def tokenizer (line : String) : List String :=
  ((line.toList.splitOnP isDelimiter).filter (· ≠ [])).map String.ofList

/-- `StringTokenizer.nextToken`. -/
def nextToken : List String → Except SinexException (String × List String)
  | [] => .error .noSuchElement
  | token :: tokens => .ok (token, tokens)

/-- `PositionService.drop`. -/
def drop (tokens : List String) : ℕ → Except SinexException (List String)
  | 0 => .ok tokens
  | n + 1 => do
    let (_, tokens) ← nextToken tokens
    drop tokens n

/-- `PositionService.parseEstimatedValue`. -/
def parseEstimatedValue (line : String) : Except SinexException (String × BigDecimal) := do
  let tokens ← drop (tokenizer line) 2
  let (fourCharacterId, tokens) ← nextToken tokens
  let tokens ← drop tokens 5
  let (val, _) ← nextToken tokens
  match BigDecimal.ofString val with
  | none => .error .numberFormat
  | some value => return (fourCharacterId, value)

/-! ## The file -/

/-- `while (!scanner.nextLine().startsWith("+SOLUTION/ESTIMATE"));` -/
def skipToEstimates : List String → Except SinexException (List String)
  | [] => .error .noSuchElement
  | line :: scanner =>
    if startsWith line "+SOLUTION/ESTIMATE" then .ok scanner else skipToEstimates scanner

variable (doubleValue : BigDecimal → δ) (solution : WeeklySolution)

/-- The position that is saved for two lines. -/
def position (xLine yLine : String × BigDecimal) : Position δ where
  fourCharacterId := xLine.1
  nodeId := none
  datumEpsgCode := 5332
  x := doubleValue xLine.2
  y := doubleValue yLine.2
  epoch := solution.epoch
  asAt := solution.asAt
  positionSourceId := solution.id

/-- The loop over the block.  It returns the table of positions as the transaction sees it, and what
is thrown. -/
def saveEstimates : List String → List (Position δ) → List (Position δ) × Option SinexException
  | [], positions => (positions, some .noSuchElement)
  | line :: scanner, positions =>
    if startsWith line "-SOLUTION/ESTIMATE" then (positions, none)
    else
      match parseEstimatedValue line with
      | .error e => (positions, some e)
      | .ok xLine =>
        match scanner with
        | [] => (positions, some .noSuchElement)
        | line :: scanner =>
          match parseEstimatedValue line with
          | .error e => (positions, some e)
          | .ok yLine =>
            match scanner with
            | [] => (positions, some .noSuchElement)
            | line :: scanner =>
              match parseEstimatedValue line with
              | .error e => (positions, some e)
              | .ok _ =>
                saveEstimates scanner (positions ++ [position doubleValue solution xLine yLine])

/-- The body of the `try`, for a file that could be opened. -/
def readSolution (scanner : List String) (positions : List (Position δ)) :
    List (Position δ) × Option SinexException :=
  match skipToEstimates scanner with
  | .error e => (positions, some e)
  | .ok [] => (positions, some .noSuchElement)
  | .ok (_ :: scanner) => saveEstimates doubleValue solution scanner positions

/-! ## The handler -/

variable (solutions : ℕ → Option WeeklySolution) (openFile : String → Option (List String))
  (now : Instant) (weeklySolutionId : ℕ)

/-- `PositionService.handle`: the tables as its transaction sees them, the event in memory, and what
is thrown.  A file that cannot be opened is `none`. -/
def handle (tables : EventRepository κ × List (Position δ)) (event : Event κ) :
    (EventRepository κ × List (Position δ)) × Event κ × Option SinexException :=
  match solutions weeklySolutionId with
  | none => (tables, event, some .nullPointer)
  | some solution =>
    match solution.sinexFile with
    | none => (tables, event, some .nullPointer)
    | some sinex =>
      let (positions, thrown) :=
        match openFile sinex with
        | none => (tables.2, none)
        | some scanner => readSolution doubleValue solution scanner tables.2
      match thrown with
      | some e => ((tables.1, positions), event, some e)
      | none => ((tables.1.saveAndFlush (event.handled now), positions), event.handled now, none)

/-- The handler in its transaction, which an unchecked exception rolls back. -/
def transaction (tables : EventRepository κ × List (Position δ)) (event : Event κ) :
    Transaction.Ended (EventRepository κ × List (Position δ)) (Event κ) :=
  let (written, memory, thrown) :=
    handle doubleValue solutions openFile now weeklySolutionId tables event
  { database := if thrown.isNone then written else tables
    memory
    committed := thrown.isNone }

end PositionService

end Geodesy
