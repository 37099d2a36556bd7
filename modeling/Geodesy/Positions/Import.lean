import Geodesy.Event.Records
import Geodesy.Positions.SolutionFile
import Geodesy.Positions.WeeklySolutionService

/-!
# Weekly solutions on the event loop

A solution is uploaded by a request, and its positions are read later, by a handler in the loop.
Between the two there is only the record of an event: the process may stop at any moment, a handler
may throw, and other services publish and handle their own events meanwhile.

Each solution is announced to `PositionService` by one record, a record is handed over at most once,
and a handler saves a block of estimates whole or not at all.  So of each solution the table of
positions has one whole block of a file, or nothing (`positions_whole`).
-/

namespace Geodesy

open TransitionSystem AsynchronousEventPublisher

variable {κ δ : Type*}

/-- The events with `WeeklySolutionAvailable`; the payloads of the other services are those of
`κ`. -/
inductive PublishedEvent (κ : Type*)
  | weeklySolutionAvailable (weeklySolutionId : ℕ)
  | other (payload : κ)
  deriving DecidableEq, Repr

/-- The solution that is announced. -/
def PublishedEvent.weeklySolutionId : PublishedEvent κ → Option ℕ
  | weeklySolutionAvailable id => some id
  | other _ => none

/-- The name of the class, which its records have. -/
def PositionService.className : String := "class au.gov.ga.geodesy.domain.service.PositionService"

/-- `PositionService` as a subscriber. -/
def positionSubscriber : EventSubscriber (PublishedEvent κ) where
  className := PositionService.className
  canHandle event := event.weeklySolutionId.isSome

/-- The publisher, and the tables of solutions and of positions. -/
structure Solutions (κ δ : Type*) where
  deliveries : Deliveries (PublishedEvent κ)
  nextId : ℕ
  solutions : List WeeklySolution
  positions : List (Position δ)

/-- One step of the system. -/
inductive SolutionStep (κ : Type*)
  /-- A step of the publisher, or of another service. -/
  | delivery (a : DeliveryStep (PublishedEvent κ))
  /-- A request uploads the file; the sequence gives the key. -/
  | uploadSolution (openFile : String → Option (List String)) (sinexFileName : String) (id : ℕ)
  /-- The transaction of `PositionService.handle` ends. -/
  | handle (openFile : String → Option (List String)) (now : Instant) (stackTrace : String)

/-- Other services do not announce solutions, and are not `PositionService`.  What happens to it is
that the process stops, or that its transaction cannot be committed. -/
def DeliveryStep.ofOthers (loop : EventLoop (PublishedEvent κ)) :
    DeliveryStep (PublishedEvent κ) → Bool
  | .event (.publish payload _) | .save payload _ => payload.weeklySolutionId.isNone
  | .event (.handlerReturns _ payloads) =>
    (loop.delivers PositionService.className).isNone && payloads.all (·.weeklySolutionId.isNone)
  | _ => true

namespace Solutions

/-- Nothing stored, nothing published, and no process. -/
def init : Solutions κ δ := ⟨Deliveries.init, 0, [], []⟩

/-- `WeeklySolutionRepository.findOne`. -/
def findOne (s : Solutions κ δ) (id : ℕ) : Option WeeklySolution :=
  s.solutions.find? (·.id = id)

lemma mem_of_findOne {s : Solutions κ δ} {id : ℕ} {solution : WeeklySolution}
    (h : s.findOne id = some solution) : solution ∈ s.solutions ∧ solution.id = id :=
  ⟨List.mem_of_find?_eq_some h, by simpa using List.find?_some h⟩

/-- The tables that a handler writes to. -/
def tables (s : Solutions κ δ) : EventRepository (PublishedEvent κ) × List (Position δ) :=
  (s.deliveries.publisher.events, s.positions)

/-- What becomes of the transaction of the handler. -/
def ended (doubleValue : BigDecimal → δ) (s : Solutions κ δ)
    (openFile : String → Option (List String)) (now : Instant) (weeklySolutionId : ℕ)
    (e : Event (PublishedEvent κ)) :
    Transaction.Ended (EventRepository (PublishedEvent κ) × List (Position δ))
      (Event (PublishedEvent κ)) :=
  PositionService.transaction doubleValue s.findOne openFile now weeklySolutionId s.tables e

variable [DecidableEq κ]

/-- What a step does, if it is possible. -/
def run (doubleValue : BigDecimal → δ) (s : Solutions κ δ) :
    SolutionStep κ → Option (Solutions κ δ)
  | .delivery a =>
    if a.ofOthers s.deliveries.publisher.loop then
      (s.deliveries.run a).map fun deliveries => { s with deliveries }
    else none
  | .uploadSolution openFile sinexFileName id =>
    match WeeklySolutionService.uploadSolution openFile sinexFileName id with
    | .ok (some solution) =>
      if s.nextId ≤ id then
        (s.deliveries.run (.event (.publish (.weeklySolutionAvailable solution.id)
          s.deliveries.publisher.subscribers.length))).map fun deliveries =>
            { s with deliveries, nextId := id + 1, solutions := s.solutions ++ [solution] }
      else none
    | .ok none | .error _ => some s
  | .handle openFile now stackTrace =>
    match s.deliveries.publisher.loop.delivers PositionService.className with
    | some e =>
      match e.payload.weeklySolutionId with
      | some weeklySolutionId =>
        let ended := s.ended doubleValue openFile now weeklySolutionId e
        (s.deliveries.run (.event (if ended.committed then .handlerReturns (some now) []
          else .handlerThrows none stackTrace))).map fun deliveries =>
            { s with deliveries, positions := ended.database.2 }
      | none => none
    | none => none

/-- The step is possible and leads from the first state to the second. -/
def Takes (doubleValue : BigDecimal → δ) (s : Solutions κ δ) (a : SolutionStep κ)
    (s' : Solutions κ δ) : Prop :=
  s.run doubleValue a = some s'

end Solutions

/-! ## What is announced -/

/-- The solution that a record is to announce to `PositionService`. -/
def announces (a : PublishedEvent κ × String) : Option ℕ :=
  if a.2 = PositionService.className then a.1.weeklySolutionId else none

lemma announces_eq_some_iff {a : PublishedEvent κ × String} {id : ℕ} :
    announces a = some id ↔ a.2 = PositionService.className ∧ a.1.weeklySolutionId = some id := by
  unfold announces
  split <;> simp [*]

/-- The solutions that were announced, one for each record. -/
def EventRepository.announced (events : EventRepository (PublishedEvent κ)) : List ℕ :=
  events.records.filterMap fun r => announces r.address

/-- Subscribers of different classes: not two of them are `PositionService`. -/
lemma nodup_announces {addressed : List (PublishedEvent κ × String)}
    (h : (addressed.map (·.2)).Nodup) : (addressed.filterMap announces).Nodup := by
  rw [List.Nodup, List.pairwise_filterMap]
  refine (List.pairwise_map.mp h).imp ?_
  intro a a' hne id hid id' hid'
  exact absurd ((announces_eq_some_iff.mp hid).1.trans (announces_eq_some_iff.mp hid').1.symm) hne

/-- One event announces its own solution, to whomever. -/
lemma weeklySolutionId_of_mem_announces {subscribers : List (EventSubscriber (PublishedEvent κ))}
    {payload : PublishedEvent κ} {id : ℕ}
    (h : id ∈ (addressees subscribers payload).filterMap announces) :
    payload.weeklySolutionId = some id := by
  obtain ⟨a, ha, hannounces⟩ := List.mem_filterMap.mp h
  obtain ⟨s, -, rfl⟩ := List.mem_map.mp ha
  exact (announces_eq_some_iff.mp hannounces).2

/-- No other service announces a solution. -/
lemma announces_ofOthers {d : Deliveries (PublishedEvent κ)} {a : DeliveryStep (PublishedEvent κ)}
    (h : a.ofOthers d.publisher.loop = true) : (a.raises d).filterMap announces = [] := by
  have hnone : ∀ {subscribers : List (EventSubscriber (PublishedEvent κ))} {payload},
      payload.weeklySolutionId.isNone = true →
        ∀ id, id ∉ (addressees subscribers payload).filterMap announces := by
    intro subscribers payload hpayload id hid
    rw [weeklySolutionId_of_mem_announces hid] at hpayload
    cases hpayload
  rw [List.eq_nil_iff_forall_not_mem]
  intro id hid
  unfold DeliveryStep.ofOthers at h
  split at h
  case h_1 payload reached => exact hnone h id hid
  case h_2 payload i =>
    obtain ⟨a, ha, hannounces⟩ := List.mem_filterMap.mp hid
    simp only [DeliveryStep.raises, Option.mem_toList, Option.map_eq_some_iff] at ha
    obtain ⟨s, -, rfl⟩ := ha
    rw [(announces_eq_some_iff.mp hannounces).2] at h
    cases h
  case h_3 handledAt payloads =>
    rw [Bool.and_eq_true, List.all_eq_true] at h
    obtain ⟨a, ha, hannounces⟩ := List.mem_filterMap.mp hid
    obtain ⟨payload, hpayload, ha⟩ := List.mem_flatMap.mp ha
    exact hnone (h.2 payload hpayload) id (List.mem_filterMap.mpr ⟨a, ha, hannounces⟩)
  case h_4 hpublish hsave hreturns =>
    cases a with
    | save payload i => exact hsave payload i rfl
    | loopFails => simp [DeliveryStep.raises] at hid
    | event a =>
        cases a with
        | publish payload reached => exact hpublish payload reached rfl
        | handlerReturns handledAt payloads => exact hreturns handledAt payloads rfl
        | _ => simp [DeliveryStep.raises, EventStep.raises] at hid

/-! ## One transaction of the handler -/

section Transaction

variable (Reads : String → List String → Prop) (doubleValue : BigDecimal → δ)

/-- The positions are those of the block of one file that the solution's name stood for. -/
def IsImport (solution : WeeklySolution) (saved : List (Position δ)) : Prop :=
  ∃ sinex lines, solution.sinexFile = some sinex ∧ Reads sinex lines ∧
    ∃ file : PositionService.SolutionFile lines,
      PositionService.PositionsOf doubleValue solution file.block saved ∧ saved.length = file.size

variable {Reads doubleValue}

/-- The positions name their solution. -/
lemma IsImport.positionSourceId {solution : WeeklySolution} {saved : List (Position δ)}
    (h : IsImport Reads doubleValue solution saved) :
    ∀ p ∈ saved, p.positionSourceId = solution.id := by
  obtain ⟨_, _, _, _, _, hpositions, _⟩ := h
  intro p hp
  obtain ⟨i, hi, rfl⟩ := List.getElem_of_mem hp
  obtain ⟨_, _, _, _, _, -, -, -, -, -, hsaved⟩ := hpositions.2 i hi
  rw [List.getElem?_eq_getElem hi] at hsaved
  rw [Option.some.inj hsaved]

variable {s : Solutions κ δ} {openFile : String → Option (List String)}

/-- **All or nothing.**  The handler saves what is in a file of the solution, or no position. -/
lemma Solutions.ended_positions
    (hreads : ∀ sinex lines, openFile sinex = some lines → Reads sinex lines) (now : Instant)
    (weeklySolutionId : ℕ) (e : Event (PublishedEvent κ)) :
    (s.ended doubleValue openFile now weeklySolutionId e).database.2 = s.positions ∨
      ∃ solution saved, s.findOne weeklySolutionId = some solution ∧
        IsImport Reads doubleValue solution saved ∧
        (s.ended doubleValue openFile now weeklySolutionId e).database.2 =
          s.positions ++ saved := by
  unfold Solutions.ended PositionService.transaction
  rcases hsolution : s.findOne weeklySolutionId with _ | solution
  · simp [PositionService.handle, hsolution, tables]
  rcases hsinex : solution.sinexFile with _ | sinex
  · simp [PositionService.handle, hsolution, hsinex, tables]
  rcases hopen : openFile sinex with _ | lines
  · simp [PositionService.handle, hsolution, hsinex, hopen, tables]
  rw [PositionService.handle_eq doubleValue hsolution hsinex hopen]
  rcases hread : PositionService.readSolution doubleValue solution lines s.positions with
    ⟨positions, _ | exception⟩
  · obtain ⟨file⟩ := PositionService.solutionFile_of_readSolution doubleValue solution
      (congrArg Prod.snd hread)
    obtain ⟨saved, hpositions, hlength, hsaved⟩ :=
      PositionService.readSolution_of_solutionFile doubleValue solution file s.positions
    refine .inr ⟨solution, saved, rfl, ⟨sinex, lines, hsinex, hreads _ _ hopen, file, hpositions,
      hlength⟩, ?_⟩
    simp [tables, hsaved]
  · left
    simp [tables, hread]

/-- What the publisher's step does to the event is what the transaction did. -/
lemma Solutions.ended_event (now : Instant) (weeklySolutionId : ℕ)
    (e : Event (PublishedEvent κ)) :
    let ended := s.ended doubleValue openFile now weeklySolutionId e
    let handledAt := if ended.committed then some now else none
    ended.database.1 = handledRow handledAt e s.deliveries.publisher.events ∧
      ended.memory = handledEvent handledAt e := by
  unfold Solutions.ended PositionService.transaction PositionService.handle
  rcases s.findOne weeklySolutionId with _ | solution
  · exact ⟨rfl, rfl⟩
  rcases hsinex : solution.sinexFile with _ | sinex
  · simp only [hsinex]
    exact ⟨rfl, rfl⟩
  simp only [hsinex]
  rcases openFile sinex with _ | lines
  · exact ⟨rfl, rfl⟩
  rcases hread : PositionService.readSolution doubleValue solution lines s.tables.2 with
    ⟨positions, _ | exception⟩
  · simp only [hread]
    exact ⟨rfl, rfl⟩
  · simp only [hread]
    exact ⟨rfl, rfl⟩

end Transaction

/-! ## What every step keeps -/

namespace Solutions

/-- The positions of a solution. -/
def positionsOf (s : Solutions κ δ) (id : ℕ) : List (Position δ) :=
  s.positions.filter (·.positionSourceId = id)

variable (Reads : String → List String → Prop) (doubleValue : BigDecimal → δ)

/-- A solution is announced once, and its positions are there only when that record was handed
over. -/
structure Imported (s : Solutions κ δ) : Prop where
  once : s.deliveries.Once
  onRecord : s.deliveries.publisher.OnRecord
  allocated : Rows.Allocated (s.solutions.map (·.id)) s.nextId
  announced : Rows.Allocated s.deliveries.publisher.events.announced s.nextId
  read : ∀ p ∈ s.positions, (∃ solution ∈ s.solutions, p.positionSourceId = solution.id) ∧
    ∃ r ∈ s.deliveries.publisher.events.records, announces r.address = some p.positionSourceId ∧
      r.id ∈ s.deliveries.handed.map (·.1)
  whole : ∀ solution ∈ s.solutions, s.positionsOf solution.id = [] ∨
    IsImport Reads doubleValue solution (s.positionsOf solution.id)

lemma imported_init : Imported Reads doubleValue (init : Solutions κ δ) where
  once := Deliveries.once_init
  onRecord := PublisherState.onRecord_init
  allocated := Rows.allocated_nil 0
  announced := Rows.allocated_nil 0
  read := by simp [init]
  whole := by simp [init]

variable {Reads doubleValue} {s s' : Solutions κ δ}

/-- One record announces a solution. -/
lemma Imported.eq_of_announces (h : Imported Reads doubleValue s)
    {r r' : Record (PublishedEvent κ)} (hr : r ∈ s.deliveries.publisher.events.records)
    (hr' : r' ∈ s.deliveries.publisher.events.records) {id : ℕ}
    (hid : announces r.address = some id) (hid' : announces r'.address = some id) : r = r' := by
  have hpairwise := List.pairwise_filterMap.mp h.announced.nodup
  by_contra hne
  have hsymmetric : Std.Symm fun r r' : Record (PublishedEvent κ) =>
      ∀ id, announces r.address = some id → ∀ id', announces r'.address = some id' → id ≠ id' :=
    ⟨fun r r' hrel id hid id' hid' heq => hrel id' hid' id hid heq.symm⟩
  exact hpairwise.forall hr hr' hne id hid id hid' rfl

variable [DecidableEq κ]

/-- What a step of the publisher does to the records and to the calls. -/
lemma Imported.deliver (h : Imported Reads doubleValue s)
    (hclasses : s.deliveries.DistinctClasses) {a : DeliveryStep (PublishedEvent κ)}
    {d : Deliveries (PublishedEvent κ)} (hstep : Deliveries.Takes s.deliveries a d) :
    d.Once ∧ d.publisher.OnRecord ∧
      s.deliveries.publisher.events.records ⊆ d.publisher.events.records ∧
      d.publisher.events.announced =
        s.deliveries.publisher.events.announced ++ (a.raises s.deliveries).filterMap announces ∧
      s.deliveries.handed <+: d.handed := by
  obtain ⟨honRecord, ⟨new, hnew, hfor⟩, hhanded⟩ :=
    Deliveries.records_step h.onRecord h.once.coherent hstep
  refine ⟨h.once.step hclasses hstep, honRecord, ?_, ?_, hhanded⟩
  · rw [hnew]
    exact List.subset_append_left _ _
  · rw [EventRepository.announced, hnew, List.filterMap_append, ← hfor, List.filterMap_map]
    rfl

/-- A step that announces nothing. -/
lemma Imported.silent (h : Imported Reads doubleValue s)
    (hclasses : s.deliveries.DistinctClasses) {a : DeliveryStep (PublishedEvent κ)}
    {d : Deliveries (PublishedEvent κ)} (hstep : Deliveries.Takes s.deliveries a d)
    (hraises : (a.raises s.deliveries).filterMap announces = []) :
    Imported Reads doubleValue { s with deliveries := d } := by
  obtain ⟨honce, honRecord, hrecords, hannounced, hhanded⟩ := h.deliver hclasses hstep
  rw [hraises, List.append_nil] at hannounced
  refine ⟨honce, honRecord, h.allocated, hannounced ▸ h.announced, ?_, h.whole⟩
  intro p hp
  obtain ⟨hsolution, r, hr, hannounces, hr'⟩ := h.read p hp
  exact ⟨hsolution, r, hrecords hr, hannounces, List.map_subset _ hhanded.subset hr'⟩

/-- A solution with a new key is saved and announced. -/
lemma Imported.uploadSolution (h : Imported Reads doubleValue s)
    (hclasses : s.deliveries.DistinctClasses) {solution : WeeklySolution}
    (hid : s.nextId ≤ solution.id) {d : Deliveries (PublishedEvent κ)}
    (hstep : Deliveries.Takes s.deliveries (.event (.publish (.weeklySolutionAvailable solution.id)
      s.deliveries.publisher.subscribers.length)) d) :
    Imported Reads doubleValue ⟨d, solution.id + 1, s.solutions ++ [solution], s.positions⟩ := by
  obtain ⟨honce, honRecord, hrecords, hannounced, hhanded⟩ := h.deliver hclasses hstep
  simp only [DeliveryStep.raises, EventStep.raises, List.take_length] at hannounced
  have hnew : ∀ id ∈ (addressees s.deliveries.publisher.subscribers
      (.weeklySolutionAvailable solution.id)).filterMap announces, id = solution.id := by
    intro id hmem
    exact (Option.some.inj (weeklySolutionId_of_mem_announces hmem)).symm
  refine ⟨honce, honRecord, ?_, ?_, ?_, ?_⟩
  · rw [List.map_append]
    exact (h.allocated.mono hid).append_next
  · change Rows.Allocated d.publisher.events.announced (solution.id + 1)
    rw [hannounced]
    refine ⟨List.nodup_append'.mpr ⟨h.announced.nodup, nodup_announces ?_, ?_⟩, ?_⟩
    · rw [addressees, List.map_map]
      exact List.Nodup.sublist (List.filter_sublist.map _) hclasses
    · intro id hmem hmem'
      have hlt := h.announced.lt_next id hmem
      have heq := hnew id hmem'
      omega
    · intro id hmem
      rcases List.mem_append.mp hmem with hmem | hmem
      · have hlt := h.announced.lt_next id hmem
        omega
      · rw [hnew id hmem]
        exact Nat.lt_succ_self _
  · intro p hp
    obtain ⟨⟨q, hq, hpq⟩, r, hr, hannounces, hr'⟩ := h.read p hp
    exact ⟨⟨q, List.mem_append_left _ hq, hpq⟩, r, hrecords hr, hannounces,
      List.map_subset _ hhanded.subset hr'⟩
  · intro q hq
    rcases List.mem_append.mp hq with hq | hq
    · exact h.whole q hq
    · -- the key is new, and so no position has it
      obtain rfl := List.mem_singleton.mp hq
      left
      refine List.filter_eq_nil_iff.mpr fun p hp hpq => ?_
      obtain ⟨⟨q', hq', hpq'⟩, -⟩ := h.read p hp
      have hlt := h.allocated.lt_next _ (List.mem_map_of_mem hq')
      have heq : p.positionSourceId = q.id := by simpa using hpq
      omega

/-- The handler of the record ends, and with it the only call for the solution. -/
lemma Imported.handle (h : Imported Reads doubleValue s)
    (hclasses : s.deliveries.DistinctClasses) {openFile : String → Option (List String)}
    (hreads : ∀ sinex lines, openFile sinex = some lines → Reads sinex lines) {now : Instant}
    {e : Event (PublishedEvent κ)} {weeklySolutionId : ℕ} {a : EventStep (PublishedEvent κ)}
    {d : Deliveries (PublishedEvent κ)}
    (hdelivers : s.deliveries.publisher.loop.delivers PositionService.className = some e)
    (hpayload : e.payload.weeklySolutionId = some weeklySolutionId)
    (hraises : a.raises s.deliveries.publisher = [])
    (hcall : a.call s.deliveries.publisher = some (e.id, PositionService.className))
    (hstep : Deliveries.Takes s.deliveries (.event a) d) :
    Imported Reads doubleValue { s with
      deliveries := d
      positions := (s.ended doubleValue openFile now weeklySolutionId e).database.2 } := by
  have hsilent := h.silent hclasses hstep (by rw [DeliveryStep.raises, hraises]; rfl)
  obtain ⟨-, -, hrecords, -, -⟩ := h.deliver hclasses hstep
  have hhanded := Deliveries.handed_of_call hcall hstep
  have hended :
      (s.ended doubleValue openFile now weeklySolutionId e).database.2 = s.positions ∨ _ :=
    s.ended_positions hreads now weeklySolutionId e
  rcases hended with hsame | ⟨solution, saved, hsolution, himport, hsaved⟩
  · rw [hsame]
    exact hsilent
  obtain ⟨hrecord, hsubscriber, hnot⟩ := h.once.of_delivers h.onRecord hdelivers
  have hannounces : announces e.record.address = some weeklySolutionId :=
    announces_eq_some_iff.mpr ⟨hsubscriber, hpayload⟩
  obtain ⟨hmem, hid⟩ := mem_of_findOne hsolution
  -- another position of the solution would have been read in another call for the same record
  have hempty : s.positionsOf weeklySolutionId = [] := by
    refine List.filter_eq_nil_iff.mpr fun p hp hp' => ?_
    obtain ⟨-, r, hr, hr', hcalled⟩ := h.read p hp
    rw [of_decide_eq_true hp'] at hr'
    obtain rfl := h.eq_of_announces hr hrecord hr' hannounces
    exact hnot hcalled
  rw [hsaved]
  refine ⟨hsilent.once, hsilent.onRecord, hsilent.allocated, hsilent.announced, ?_, ?_⟩
  · intro p hp
    rcases List.mem_append.mp hp with hp | hp
    · exact hsilent.read p hp
    · have hsource := himport.positionSourceId p hp
      refine ⟨⟨solution, hmem, hsource⟩, e.record, hrecords hrecord, ?_, ?_⟩
      · rw [hannounces, hsource, hid]
      · change e.id ∈ d.handed.map (·.1)
        rw [hhanded]
        simp
  · intro q hq
    change List.filter _ (s.positions ++ saved) = [] ∨
      IsImport Reads doubleValue q (List.filter _ (s.positions ++ saved))
    rw [List.filter_append]
    by_cases hqid : q.id = solution.id
    · obtain rfl := h.allocated.eq_of_key hq hmem hqid
      have hall : saved.filter (fun p => p.positionSourceId = q.id) = saved :=
        List.filter_eq_self.mpr fun p hp => decide_eq_true (himport.positionSourceId p hp)
      rw [hall, hid]
      right
      rw [positionsOf] at hempty
      rw [hempty]
      exact himport
    · have hnone : saved.filter (fun p => p.positionSourceId = q.id) = [] := by
        refine List.filter_eq_nil_iff.mpr fun p hp hp' => hqid ?_
        rw [← himport.positionSourceId p hp, of_decide_eq_true hp']
      rw [hnone, List.append_nil]
      exact h.whole q hq

/-- Every step. -/
theorem Imported.step (h : Imported Reads doubleValue s) (hclasses : s.deliveries.DistinctClasses)
    {a : SolutionStep κ}
    (hreads : ∀ openFile now stackTrace, a = .handle openFile now stackTrace →
      ∀ sinex lines, openFile sinex = some lines → Reads sinex lines)
    (hstep : Takes doubleValue s a s') : Imported Reads doubleValue s' := by
  unfold Takes run at hstep
  cases a with
  | delivery a =>
      simp only at hstep
      split_ifs at hstep with hothers
      obtain ⟨d, hd, rfl⟩ := Option.map_eq_some_iff.mp hstep
      exact h.silent hclasses hd (announces_ofOthers hothers)
  | uploadSolution openFile sinexFileName id =>
      simp only at hstep
      split at hstep
      case h_1 solution hsolution =>
        split_ifs at hstep with hid
        obtain ⟨d, hd, rfl⟩ := Option.map_eq_some_iff.mp hstep
        obtain rfl := WeeklySolutionService.id_of_uploadSolution hsolution
        exact h.uploadSolution hclasses hid hd
      case h_2 | h_3 =>
        obtain rfl := Option.some.inj hstep
        exact h
  | handle openFile now stackTrace =>
      simp only at hstep
      split at hstep
      case h_2 => cases hstep
      case h_1 e hdelivers =>
        split at hstep
        case h_2 => cases hstep
        case h_1 weeklySolutionId hpayload =>
          obtain ⟨d, hd, rfl⟩ := Option.map_eq_some_iff.mp hstep
          obtain ⟨subscriber, subscribers, es, hloop, hclass⟩ :=
            EventLoop.exists_of_delivers hdelivers
          refine h.handle hclasses (hreads openFile now stackTrace rfl) hdelivers hpayload ?_ ?_ hd
          · split_ifs <;> rfl
          · split_ifs <;> simp [EventStep.call, hloop, hclass]

/-- **The positions of a solution are read once, and whole.**  Let requests upload solutions, the
loop poll and deliver, handlers throw and the process stop and start again in any order.  The
positions of a solution in the table are none, or those of the block of one file that was opened
under its name: each of them once, in the order of the file.  There are no other positions. -/
theorem positions_whole (doubleValue : BigDecimal → δ) (as : List (SolutionStep κ))
    (s : Solutions κ δ) (hrun : Run (Takes doubleValue) init as s)
    (hclasses : ∀ u, Visits (Takes doubleValue) init as u → u.deliveries.DistinctClasses) :
    (s.solutions.map (·.id)).Nodup ∧
      (∀ p ∈ s.positions, ∃ solution ∈ s.solutions, p.positionSourceId = solution.id) ∧
      ∀ solution ∈ s.solutions, s.positionsOf solution.id = [] ∨
        ∃ openFile now stackTrace sinex lines,
          SolutionStep.handle openFile now stackTrace ∈ as ∧
          solution.sinexFile = some sinex ∧ openFile sinex = some lines ∧
          ∃ file : PositionService.SolutionFile lines,
            PositionService.PositionsOf doubleValue solution file.block
              (s.positionsOf solution.id) ∧
            (s.positionsOf solution.id).length = file.size := by
  let Reads : String → List String → Prop := fun sinex lines => ∃ openFile now stackTrace,
    SolutionStep.handle openFile now stackTrace ∈ as ∧ openFile sinex = some lines
  have himported : Imported Reads doubleValue s := by
    refine hrun.invariant_of_passes (G := fun u a => u.deliveries.DistinctClasses ∧ a ∈ as) ?_ ?_
      (imported_init Reads doubleValue)
    · rintro u a v ⟨hdistinct, ha⟩ h hstep
      refine h.step hdistinct ?_ hstep
      rintro openFile now stackTrace rfl sinex lines hopen
      exact ⟨openFile, now, stackTrace, ha, hopen⟩
    · intro u a v hpass
      exact ⟨hclasses u hpass.visits.1, hpass.mem⟩
  refine ⟨himported.allocated.nodup, fun p hp => (himported.read p hp).1, fun q hq => ?_⟩
  rcases himported.whole q hq with hnone | himport
  · exact .inl hnone
  · obtain ⟨sinex, lines, hsinex, ⟨openFile, now, stackTrace, hmem, hopen⟩, file, hfile⟩ := himport
    exact .inr ⟨openFile, now, stackTrace, sinex, lines, hmem, hsinex, hopen, file, hfile⟩

/-- The block of one station, under the line that a solution is uploaded with. -/
def auckWeek : List String :=
  "%=SNX 2.02 AUS 14:050:43829 IGS 14:001:00000 14:007:86370 P 00003 0 S" ::
    PositionService.auckLines.tail

/-- The file is uploaded, and the loop polls. -/
def auckRun : List (SolutionStep Unit) :=
  [.delivery (.event (.subscribe positionSubscriber)), .delivery (.event .startEventLoop),
    .uploadSolution (fun _ => some auckWeek) "auck.snx" 7,
    .delivery (.event (.getPendingEvents
      [Event.raise 0 (.weeklySolutionAvailable 7) PositionService.className])),
    .delivery (.event (.published (.ofEpochSecond 1))),
    .handle (fun _ => some auckWeek) (.ofEpochSecond 2) "", .delivery (.event .saved)]

/-- The position of the station is there afterwards. -/
theorem positions_whole_auck :
    ∃ s, Run (Takes PositionService.exactValue) init auckRun s ∧
      s.positions = [⟨"AUCK", none, 5332, -5105681.5, 461564, some (.ofEpochSecond 1388793600),
        some (.ofEpochSecond 1392768000), 7⟩] ∧
      (s.solutions.map (·.id)).Nodup ∧
      (∀ p ∈ s.positions, ∃ solution ∈ s.solutions, p.positionSourceId = solution.id) ∧
      ∀ solution ∈ s.solutions, s.positionsOf solution.id = [] ∨
        ∃ openFile now stackTrace sinex lines,
          SolutionStep.handle openFile now stackTrace ∈ auckRun ∧
          solution.sinexFile = some sinex ∧ openFile sinex = some lines ∧
          ∃ file : PositionService.SolutionFile lines,
            PositionService.PositionsOf PositionService.exactValue solution file.block
              (s.positionsOf solution.id) ∧
            (s.positionsOf solution.id).length = file.size := by
  have hcomputed : (auckRun.foldlM (run PositionService.exactValue) init).any
      (fun s => decide (s.positions = [⟨"AUCK", none, 5332, -5105681.5, 461564,
        some (.ofEpochSecond 1388793600), some (.ofEpochSecond 1392768000), 7⟩])) = true := by
    decide +kernel
  have hdistinct : (auckRun.inits.all fun bs =>
      (bs.foldlM (run PositionService.exactValue) init).all fun s =>
        decide s.deliveries.DistinctClasses) = true := by
    decide +kernel
  obtain ⟨s, hrun, hpositions⟩ := exists_run_of_foldlM hcomputed
  refine ⟨s, hrun, of_decide_eq_true hpositions, ?_⟩
  refine positions_whole PositionService.exactValue auckRun s hrun fun u hvisits => ?_
  exact of_decide_eq_true (visits_of_foldlM hdistinct u hvisits)

end Solutions

end Geodesy
