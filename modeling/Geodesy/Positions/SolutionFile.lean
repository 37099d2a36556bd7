import Geodesy.Positions.PositionService
import Mathlib.Algebra.Order.Field.Rat

/-!
# The files that `PositionService` reads

`SolutionFile lines` says that the lines are those of a solution: a block of estimates between its
markers, three lines for each position.  The reader accepts exactly these files, and saves a
position for each three lines (`handle_solutionFile`).  Of any other file nothing is left, however
many positions were saved before it turned out to be none.
-/

namespace Geodesy.PositionService

variable {κ δ : Type*}

/-! ## One line -/

/-- At least nine tokens, the ninth of which is a number. -/
def IsEstimate (line : String) : Prop :=
  9 ≤ (tokenizer line).length ∧
    ∀ val, (tokenizer line)[8]? = some val → (BigDecimal.ofString val).isSome = true

/-- The ninth token as a number. -/
def estimatedValue (line : String) : Option BigDecimal :=
  (tokenizer line)[8]?.bind BigDecimal.ofString

/-- Dropping tokens one by one leads to the third and to the ninth. -/
lemma parseEstimatedValue_eq (line : String) :
    parseEstimatedValue line =
      match (tokenizer line)[2]?, (tokenizer line)[8]? with
      | some station, some val =>
        match BigDecimal.ofString val with
        | none => .error .numberFormat
        | some value => .ok (station, value)
      | _, _ => .error .noSuchElement := by
  unfold parseEstimatedValue
  rcases tokenizer line with _ | ⟨_, _ | ⟨_, _ | ⟨_, _ | ⟨_, _ | ⟨_, _ | ⟨_, _ | ⟨_, _ | ⟨_, _ |
    ⟨_, _⟩⟩⟩⟩⟩⟩⟩⟩⟩ <;> rfl

/-- What a line is parsed into. -/
lemma parseEstimatedValue_eq_ok_iff (line : String) (p : String × BigDecimal) :
    parseEstimatedValue line = .ok p ↔
      (tokenizer line)[2]? = some p.1 ∧ estimatedValue line = some p.2 := by
  obtain ⟨station, value⟩ := p
  rw [parseEstimatedValue_eq, estimatedValue]
  rcases (tokenizer line)[2]? with _ | station' <;> rcases (tokenizer line)[8]? with _ | val
  · simp
  · simp
  · simp
  · rcases h : BigDecimal.ofString val with _ | value' <;> simp [h]

/-- The lines that are parsed are those of a block. -/
lemma isEstimate_iff (line : String) :
    IsEstimate line ↔ ∃ p, parseEstimatedValue line = .ok p := by
  constructor
  · rintro ⟨hlength, hvalue⟩
    have h2 := List.getElem?_eq_getElem (show 2 < (tokenizer line).length by omega)
    have h8 := List.getElem?_eq_getElem (show 8 < (tokenizer line).length by omega)
    obtain ⟨value, hval⟩ := Option.isSome_iff_exists.mp (hvalue _ h8)
    refine ⟨((tokenizer line)[2], value), ?_⟩
    rw [parseEstimatedValue_eq_ok_iff, estimatedValue, h8]
    exact ⟨h2, hval⟩
  · rintro ⟨p, hp⟩
    rw [parseEstimatedValue_eq_ok_iff] at hp
    obtain ⟨val, hval, hvalue⟩ := Option.bind_eq_some_iff.mp hp.2
    obtain ⟨hlt, -⟩ := List.getElem?_eq_some_iff.mp hval
    refine ⟨hlt, fun val' hval' => ?_⟩
    obtain rfl : val = val' := Option.some.inj (hval.symm.trans hval')
    exact Option.isSome_of_eq_some hvalue

/-! ## The block -/

/-- `3 * size` lines of estimates; the first line of no three ends the block. -/
structure IsBlock (size : ℕ) (block : List String) : Prop where
  length_eq : block.length = 3 * size
  estimate : ∀ line ∈ block, IsEstimate line
  not_stop : ∀ i < size, ∀ line ∈ block[3 * i]?, startsWith line "-SOLUTION/ESTIMATE" = false

lemma isBlock_zero {block : List String} : IsBlock 0 block ↔ block = [] := by
  constructor
  · intro h
    exact List.eq_nil_of_length_eq_zero h.length_eq
  · rintro rfl
    exact ⟨rfl, by simp, by simp⟩

lemma isBlock_succ {size : ℕ} {block : List String} :
    IsBlock (size + 1) block ↔ ∃ x y z block', block = x :: y :: z :: block' ∧
      startsWith x "-SOLUTION/ESTIMATE" = false ∧ IsEstimate x ∧ IsEstimate y ∧ IsEstimate z ∧
      IsBlock size block' := by
  constructor
  · rintro ⟨hlength, hestimate, hstop⟩
    match block, hlength with
    | x :: y :: z :: block', hlength =>
      refine ⟨x, y, z, block', rfl, hstop 0 (by omega) x rfl, hestimate x (by simp),
        hestimate y (by simp), hestimate z (by simp), ?_, ?_, ?_⟩
      · simp only [List.length_cons] at hlength
        omega
      · intro line hline
        exact hestimate line (by simp [hline])
      · intro i hi line hline
        exact hstop (i + 1) (by omega) line (by simpa [Nat.mul_add] using hline)
  · rintro ⟨x, y, z, block', rfl, hx, hex, hey, hez, hlength, hestimate, hstop⟩
    refine ⟨?_, ?_, ?_⟩
    · simp only [List.length_cons]
      omega
    · simp only [List.forall_mem_cons]
      exact ⟨hex, hey, hez, hestimate⟩
    · rintro (_ | i) hi line hline
      · obtain rfl : x = line := by simpa using hline
        exact hx
      · exact hstop i (by omega) line (by simpa [Nat.mul_add] using hline)

/-! ## The loop over the block -/

variable (doubleValue : BigDecimal → δ) (solution : WeeklySolution)

/-- The positions are those of the lines of a block: the `i`-th has the station and the value of
line `3 * i`, and the value of the line after it. -/
def PositionsOf (block : List String) (saved : List (Position δ)) : Prop :=
  block.length = 3 * saved.length ∧
    ∀ i < saved.length, ∃ xLine yLine station x y,
      block[3 * i]? = some xLine ∧ block[3 * i + 1]? = some yLine ∧
      (tokenizer xLine)[2]? = some station ∧ estimatedValue xLine = some x ∧
      estimatedValue yLine = some y ∧
      saved[i]? = some {
        fourCharacterId := station
        nodeId := none
        datumEpsgCode := 5332
        x := doubleValue x
        y := doubleValue y
        epoch := solution.epoch
        asAt := solution.asAt
        positionSourceId := solution.id }

lemma positionsOf_nil : PositionsOf doubleValue solution [] [] := ⟨rfl, by simp⟩

lemma PositionsOf.cons {x y z : String} {block : List String} {saved : List (Position δ)}
    {xLine yLine : String × BigDecimal} (hx : parseEstimatedValue x = .ok xLine)
    (hy : parseEstimatedValue y = .ok yLine) (h : PositionsOf doubleValue solution block saved) :
    PositionsOf doubleValue solution (x :: y :: z :: block)
      (position doubleValue solution xLine yLine :: saved) := by
  obtain ⟨hlength, hsaved⟩ := h
  rw [parseEstimatedValue_eq_ok_iff] at hx hy
  refine ⟨by simp only [List.length_cons]; omega, ?_⟩
  rintro (_ | i) hi
  · exact ⟨x, y, xLine.1, xLine.2, yLine.2, rfl, rfl, hx.1, hx.2, hy.2, rfl⟩
  · have := hsaved i (by simpa using hi)
    simpa [Nat.mul_add] using this

/-- The loop reads a block up to the line that ends it, and saves its positions. -/
lemma saveEstimates_of_isBlock {size : ℕ} {block : List String} (h : IsBlock size block)
    {stop : String} (hstop : startsWith stop "-SOLUTION/ESTIMATE" = true) (after : List String) :
    ∃ saved, PositionsOf doubleValue solution block saved ∧ saved.length = size ∧
      ∀ positions, saveEstimates doubleValue solution (block ++ stop :: after) positions
        = (positions ++ saved, none) := by
  induction size generalizing block with
  | zero =>
      obtain rfl := isBlock_zero.mp h
      refine ⟨[], positionsOf_nil doubleValue solution, rfl, fun positions => ?_⟩
      simp [saveEstimates, hstop]
  | succ size ih =>
      obtain ⟨x, y, z, block, rfl, hx, hex, hey, hez, h⟩ := isBlock_succ.mp h
      obtain ⟨saved, hsaved, hlength, ih⟩ := ih h
      obtain ⟨xLine, hxLine⟩ := (isEstimate_iff x).mp hex
      obtain ⟨yLine, hyLine⟩ := (isEstimate_iff y).mp hey
      obtain ⟨zLine, hzLine⟩ := (isEstimate_iff z).mp hez
      refine ⟨position doubleValue solution xLine yLine :: saved,
        hsaved.cons doubleValue solution hxLine hyLine, by rw [List.length_cons, hlength], ?_⟩
      intro positions
      simp only [List.cons_append, saveEstimates, hx, hxLine, hyLine, hzLine, ih,
        List.append_assoc, List.nil_append, Bool.false_eq_true, if_false]

/-- When the loop ends without an exception it read a block and the line that ends it. -/
lemma exists_isBlock_of_saveEstimates {scanner : List String} {positions : List (Position δ)}
    (h : (saveEstimates doubleValue solution scanner positions).2 = none) :
    ∃ size block stop after, scanner = block ++ stop :: after ∧ IsBlock size block ∧
      startsWith stop "-SOLUTION/ESTIMATE" = true := by
  fun_induction saveEstimates doubleValue solution scanner positions with
  | case1 | case3 | case4 | case5 | case6 | case7 => cases h
  | case2 line scanner positions hstop =>
      exact ⟨0, [], line, scanner, rfl, isBlock_zero.mpr rfl, hstop⟩
  | case8 x positions hx xLine hxLine y yLine hyLine z scanner zLine hzLine ih =>
      obtain ⟨size, block, stop, after, rfl, hblock, hstop⟩ := ih h
      refine ⟨size + 1, x :: y :: z :: block, stop, after, rfl, isBlock_succ.mpr ?_, hstop⟩
      exact ⟨x, y, z, block, rfl, by simpa using hx, (isEstimate_iff x).mpr ⟨xLine, hxLine⟩,
        (isEstimate_iff y).mpr ⟨yLine, hyLine⟩, (isEstimate_iff z).mpr ⟨zLine, hzLine⟩, hblock⟩

/-! ## The whole file -/

/-- The lines of a solution file: any lines before the block, its first line, a header, the block,
the line that ends it, and any lines after it. -/
structure SolutionFile (lines : List String) where
  before : List String
  start : String
  header : String
  size : ℕ
  block : List String
  stop : String
  after : List String
  lines_eq : lines = before ++ start :: header :: (block ++ stop :: after)
  not_start : ∀ line ∈ before, startsWith line "+SOLUTION/ESTIMATE" = false
  starts : startsWith start "+SOLUTION/ESTIMATE" = true
  isBlock : IsBlock size block
  stops : startsWith stop "-SOLUTION/ESTIMATE" = true

lemma skipToEstimates_eq {before : List String}
    (h : ∀ line ∈ before, startsWith line "+SOLUTION/ESTIMATE" = false) {start : String}
    (hstart : startsWith start "+SOLUTION/ESTIMATE" = true) (scanner : List String) :
    skipToEstimates (before ++ start :: scanner) = .ok scanner := by
  induction before with
  | nil => simp [skipToEstimates, hstart]
  | cons line before ih =>
      rw [List.forall_mem_cons] at h
      simp [skipToEstimates, h.1, ih h.2]

lemma exists_start_of_skipToEstimates {lines scanner : List String}
    (h : skipToEstimates lines = .ok scanner) :
    ∃ before start, lines = before ++ start :: scanner ∧
      (∀ line ∈ before, startsWith line "+SOLUTION/ESTIMATE" = false) ∧
      startsWith start "+SOLUTION/ESTIMATE" = true := by
  induction lines with
  | nil => cases h
  | cons line lines ih =>
      rw [skipToEstimates] at h
      by_cases hstart : startsWith line "+SOLUTION/ESTIMATE" = true
      · rw [if_pos hstart, Except.ok.injEq] at h
        exact ⟨[], line, by rw [h]; rfl, by simp, hstart⟩
      · rw [if_neg hstart] at h
        obtain ⟨before, start, hlines, hbefore, hs⟩ := ih h
        refine ⟨line :: before, start, by rw [hlines]; rfl, ?_, hs⟩
        exact List.forall_mem_cons.mpr ⟨by simpa using hstart, hbefore⟩

/-- A solution file is read to its end and its positions are saved. -/
lemma readSolution_of_solutionFile {lines : List String} (file : SolutionFile lines)
    (positions : List (Position δ)) :
    ∃ saved, PositionsOf doubleValue solution file.block saved ∧ saved.length = file.size ∧
      readSolution doubleValue solution lines positions = (positions ++ saved, none) := by
  obtain ⟨saved, hsaved, hlength, hread⟩ :=
    saveEstimates_of_isBlock doubleValue solution file.isBlock file.stops file.after
  refine ⟨saved, hsaved, hlength, ?_⟩
  rw [readSolution, file.lines_eq, skipToEstimates_eq file.not_start file.starts]
  exact hread positions

/-- What is read to its end is a solution file. -/
lemma solutionFile_of_readSolution {lines : List String} {positions : List (Position δ)}
    (h : (readSolution doubleValue solution lines positions).2 = none) :
    Nonempty (SolutionFile lines) := by
  rw [readSolution] at h
  rcases hskip : skipToEstimates lines with e | _ | ⟨header, scanner⟩
  · simp [hskip] at h
  · simp [hskip] at h
  · obtain ⟨before, start, hlines, hbefore, hstart⟩ := exists_start_of_skipToEstimates hskip
    simp only [hskip] at h
    obtain ⟨size, block, stop, after, rfl, hblock, hstop⟩ :=
      exists_isBlock_of_saveEstimates doubleValue solution h
    exact ⟨⟨before, start, header, size, block, stop, after, hlines, hbefore, hstart, hblock,
      hstop⟩⟩

section Handler

variable {solutions : ℕ → Option WeeklySolution} {openFile : String → Option (List String)}
  {weeklySolutionId : ℕ} {solution : WeeklySolution} {sinex : String} {lines : List String}

/-- What the handler does with a file that can be opened. -/
lemma handle_eq (hsolution : solutions weeklySolutionId = some solution)
    (hsinex : solution.sinexFile = some sinex) (hopen : openFile sinex = some lines)
    (now : Instant) (tables : EventRepository κ × List (Position δ)) (event : Event κ) :
    handle doubleValue solutions openFile now weeklySolutionId tables event =
      match readSolution doubleValue solution lines tables.2 with
      | (positions, some e) => ((tables.1, positions), event, some e)
      | (positions, none) =>
        ((tables.1.saveAndFlush (event.handled now), positions), event.handled now, none) := by
  simp only [handle, hsolution, hsinex, hopen]
  rcases readSolution doubleValue solution lines tables.2 with ⟨positions, _ | e⟩ <;> rfl

/-- **Solution estimates are read all or nothing.**  The handler returns normally if and only if the
file is a solution file.  Then it saved the positions of the block in the order of the file, and
marked the event as handled.  Otherwise it throws, and its transaction leaves the tables and the
event as they were. -/
theorem handle_solutionFile (hsolution : solutions weeklySolutionId = some solution)
    (hsinex : solution.sinexFile = some sinex) (hopen : openFile sinex = some lines)
    (now : Instant) (tables : EventRepository κ × List (Position δ)) (event : Event κ) :
    ((handle doubleValue solutions openFile now weeklySolutionId tables event).2.2 = none ↔
      Nonempty (SolutionFile lines)) ∧
    (∀ file : SolutionFile lines, ∃ saved,
      PositionsOf doubleValue solution file.block saved ∧ saved.length = file.size ∧
      transaction doubleValue solutions openFile now weeklySolutionId tables event =
        ⟨(tables.1.saveAndFlush (event.handled now), tables.2 ++ saved), event.handled now,
          true⟩) ∧
    (¬Nonempty (SolutionFile lines) →
      (∃ e, (handle doubleValue solutions openFile now weeklySolutionId tables event).2.2
        = some e) ∧
      transaction doubleValue solutions openFile now weeklySolutionId tables event =
        ⟨tables, event, false⟩) := by
  have hread : ∀ file : SolutionFile lines, ∃ saved,
      PositionsOf doubleValue solution file.block saved ∧ saved.length = file.size ∧
      readSolution doubleValue solution lines tables.2 = (tables.2 ++ saved, none) := fun file =>
    readSolution_of_solutionFile doubleValue solution file tables.2
  have hhandle := handle_eq doubleValue hsolution hsinex hopen now tables event
  refine ⟨⟨fun h => ?_, ?_⟩, fun file => ?_, fun hnot => ?_⟩
  · have hnone : (readSolution doubleValue solution lines tables.2).2 = none := by
      rw [hhandle] at h
      rcases hres : readSolution doubleValue solution lines tables.2 with ⟨positions, _ | e⟩
      · rfl
      · rw [hres] at h
        cases h
    exact solutionFile_of_readSolution doubleValue solution hnone
  · rintro ⟨file⟩
    obtain ⟨saved, -, -, hsaved⟩ := hread file
    rw [hhandle, hsaved]
  · obtain ⟨saved, hpositions, hlength, hsaved⟩ := hread file
    refine ⟨saved, hpositions, hlength, ?_⟩
    rw [transaction, hhandle, hsaved]
    rfl
  · rcases hres : readSolution doubleValue solution lines tables.2 with ⟨positions, _ | e⟩
    · exact absurd (solutionFile_of_readSolution doubleValue solution (by rw [hres])) hnot
    · rw [transaction, hhandle, hres]
      exact ⟨⟨e, rfl⟩, rfl⟩

end Handler

/-- A file with the block of one station. -/
def auckLines : List String :=
  ["%=SNX 2.02",
    "+SOLUTION/ESTIMATE",
    "*INDEX TYPE__ CODE PT SOLN _REF_EPOCH__ UNIT S __ESTIMATED VALUE____ _STD_DEV___",
    "     1 STAX   AUCK  A    1 14:001:43200 m    2 -.51056815E+07 .50E-03",
    "     2 STAY   AUCK  A    1 14:001:43200 m    2 0.461564e+06 .20E-03",
    "     3 STAZ   AUCK  A    1 14:001:43200 m    2 -.38E+07 .40E-03",
    "-SOLUTION/ESTIMATE"]

/-- The solution that the file belongs to. -/
def auckSolution : WeeklySolution := ⟨7, none, none, some "auck.snx"⟩

/-- A number that is a double. -/
def exactValue (value : BigDecimal) : ℚ := value.unscaledValue * (10 : ℚ) ^ (-value.scale)

/-- The position of one station is saved; without the last line nothing is. -/
theorem handle_solutionFile_auck :
    Nonempty (SolutionFile auckLines) ∧
    (transaction exactValue (fun _ => some auckSolution) (fun _ => some auckLines)
        (.ofEpochSecond 9) 7 (⟨[Event.raise 1 () "p"], 2⟩, []) (Event.raise 1 () "p")).database.2
      = [⟨"AUCK", none, 5332, -5105681.5, 461564, none, none, 7⟩] ∧
    transaction exactValue (fun _ => some auckSolution) (fun _ => some auckLines.dropLast)
        (.ofEpochSecond 9) 7 (⟨[Event.raise 1 () "p"], 2⟩, []) (Event.raise 1 () "p")
      = ⟨(⟨[Event.raise 1 () "p"], 2⟩, []), Event.raise 1 () "p", false⟩ := by
  have hwhole := @handle_solutionFile Unit ℚ exactValue (fun _ => some auckSolution)
    (fun _ => some auckLines) 7 auckSolution "auck.snx" auckLines rfl rfl rfl (.ofEpochSecond 9)
    (⟨[Event.raise 1 () "p"], 2⟩, []) (Event.raise 1 () "p")
  have hcut := @handle_solutionFile Unit ℚ exactValue (fun _ => some auckSolution)
    (fun _ => some auckLines.dropLast) 7 auckSolution "auck.snx" auckLines.dropLast rfl rfl rfl
    (.ofEpochSecond 9) (⟨[Event.raise 1 () "p"], 2⟩, []) (Event.raise 1 () "p")
  exact ⟨hwhole.1.mp (by decide +kernel), by decide +kernel,
    (hcut.2.2 (hcut.1.not.mp (by decide +kernel))).2⟩

end Geodesy.PositionService
