import Geodesy.Event.AtMostOnce

/-!
# What never changes of a row

The loop and the handlers save the same rows again and again, but the key of a row, the class that
it names and its payload are those of the clone that `publish` saved.  `EventRepository.records`
lists these three; a step adds to the list what it publishes, and does nothing else to it
(`records_step`).
-/

namespace Geodesy

open TransitionSystem AsynchronousEventPublisher

variable {κ : Type*}

/-- The key, the subscriber and the payload of a row. -/
structure Record (κ : Type*) where
  id : ℕ
  subscriber : String
  payload : κ
  deriving DecidableEq, Repr

/-- The record of a row, or of an event that was loaded from it. -/
def Event.record (e : Event κ) : Record κ := ⟨e.id, e.subscriber, e.payload⟩

/-- What was published, and for whom. -/
def Record.address (r : Record κ) : κ × String := (r.payload, r.subscriber)

@[simp] lemma Event.record_published (now : Instant) (e : Event κ) :
    (e.published now).record = e.record := rfl

@[simp] lemma Event.record_handled (now : Instant) (e : Event κ) :
    (e.handled now).record = e.record := by
  unfold handled
  split <;> rfl

@[simp] lemma Event.record_setError (stackTrace : String) (e : Event κ) :
    (e.setError stackTrace).record = e.record := rfl

@[simp] lemma AsynchronousEventPublisher.record_handledEvent (handledAt : Option Instant)
    (e : Event κ) : (handledEvent handledAt e).record = e.record := by
  cases handledAt with
  | none => rfl
  | some now => exact e.record_handled now

namespace EventRepository

variable {events : EventRepository κ} {e : Event κ} {r s : Record κ}

/-- The records of the rows. -/
def records (events : EventRepository κ) : List (Record κ) := events.rows.map Event.record

/-- A key has one record. -/
lemma Sound.eq_of_record_id (h : events.Sound) (hr : r ∈ events.records) (hs : s ∈ events.records)
    (hid : r.id = s.id) : r = s := by
  obtain ⟨q, hq, rfl⟩ := List.mem_map.mp hr
  obtain ⟨p, hp, rfl⟩ := List.mem_map.mp hs
  rw [h.eq_of_id hq hp hid]

/-- Saving a loaded event again changes no record. -/
lemma Sound.records_saveAndFlush (h : events.Sound) (he : e.record ∈ events.records) :
    (events.saveAndFlush e).records = events.records := by
  rw [records, EventRepository.saveAndFlush, List.map_map]
  refine List.map_congr_left (Rows.replace_congr ?_)
  intro q hq hid
  exact h.eq_of_record_id (List.mem_map_of_mem hq) he hid

/-- `publish` adds the records of what it publishes. -/
lemma Saves.exists_records {events' : EventRepository κ} {published : List (κ × String)}
    (h : events.Saves published events') :
    ∃ new, events'.records = events.records ++ new ∧ new.map Record.address = published := by
  obtain ⟨new, hrows, hfor, -⟩ := h
  refine ⟨new.map Event.record, ?_, ?_⟩
  · rw [records, hrows, List.map_append]
    rfl
  · rw [List.map_map, ← hfor]
    rfl

end EventRepository

/-- The event that the loop is delivering to the subscriber of the class. -/
def EventLoop.delivers (loop : EventLoop κ) (className : String) : Option (Event κ) :=
  match loop with
  | delivering e (s :: _) _ => if s.className = className then some e else none
  | _ => none

lemma EventLoop.exists_of_delivers {loop : EventLoop κ} {className : String} {e : Event κ}
    (h : loop.delivers className = some e) :
    ∃ s subscribers es, loop = .delivering e (s :: subscribers) es ∧ s.className = className := by
  unfold delivers at h
  split at h
  case h_2 => cases h
  case h_1 e' s subscribers es =>
    split_ifs at h with hclass
    obtain rfl := Option.some.inj h
    exact ⟨s, subscribers, es, rfl, hclass⟩

/-- What a step publishes, and for whom. -/
def EventStep.raises (st : PublisherState κ) : EventStep κ → List (κ × String)
  | publish payload reached => addressees (st.subscribers.take reached) payload
  | handlerReturns _ payloads => payloads.flatMap (addressees st.subscribers)
  | _ => []

namespace PublisherState

variable {st st' : PublisherState κ}

/-- The event that is being delivered has a record. -/
def OnRecord (st : PublisherState κ) : Prop :=
  ∀ e, st.loop.current = some e → e.record ∈ st.events.records

lemma onRecord_init : OnRecord (init : PublisherState κ) := by
  simp [OnRecord, init, EventLoop.current]

/-- A loop that delivers nothing. -/
lemma onRecord_of_idle (h : st.loop.current = none) : st.OnRecord := by
  simp [OnRecord, h]

variable [DecidableEq κ] {a : EventStep κ}

/-- **The list of records only grows, by what is published.** -/
theorem records_step (h : st.OnRecord) (hcoherent : st.Coherent) (hstep : Takes st a st') :
    st'.OnRecord ∧ ∃ new, st'.events.records = st.events.records ++ new ∧
      new.map Record.address = a.raises st := by
  cases a with
  | subscribe s =>
      obtain rfl := Option.some.inj hstep
      exact ⟨h, [], by simp, rfl⟩
  | publish payload reached =>
      obtain rfl := Option.some.inj hstep
      obtain ⟨new, hnew, hfor⟩ :=
        (saves_publish (st.subscribers.take reached) st.events payload).exists_records
      refine ⟨fun e he => ?_, new, hnew, hfor⟩
      rw [hnew]
      exact List.mem_append_left _ (h e he)
  | getPendingEvents es =>
      obtain ⟨-, -, rfl⟩ := EventStep.run_getPendingEvents hstep
      exact ⟨onRecord_of_idle rfl, [], by simp, rfl⟩
  | published now =>
      obtain ⟨e, es, hloop, rfl⟩ := EventStep.run_published hstep
      obtain ⟨herow, -⟩ := hcoherent.waiting e (by simp [hloop, EventLoop.waiting])
      have he : e.record ∈ st.events.records := List.mem_map_of_mem herow
      have hsame := hcoherent.sound.records_saveAndFlush (e := e.published now) he
      refine ⟨fun q hq => ?_, [], by simpa using hsame, rfl⟩
      obtain rfl := Option.some.inj hq
      exact hsame ▸ he
  | handlerReturns handledAt payloads =>
      obtain ⟨e, s, subscribers, es, hloop, rfl⟩ := EventStep.run_handlerReturns hstep
      have he : e.record ∈ st.events.records := h e (by rw [hloop]; rfl)
      have hsame : (handledRow handledAt e st.events).records = st.events.records := by
        cases handledAt with
        | none => rfl
        | some now => exact hcoherent.sound.records_saveAndFlush (by simpa using he)
      obtain ⟨new, hnew, hfor⟩ :=
        (saves_publishAll st.subscribers payloads (handledRow handledAt e st.events)).exists_records
      rw [hsame] at hnew
      refine ⟨fun q hq => ?_, new, hnew, hfor⟩
      obtain rfl := Option.some.inj hq
      change _ ∈ (publishAll st.subscribers payloads (handledRow handledAt e st.events)).records
      rw [hnew, record_handledEvent]
      exact List.mem_append_left _ he
  | handlerThrows handledAt stackTrace =>
      obtain ⟨e, s, subscribers, es, hloop, rfl⟩ := EventStep.run_handlerThrows hstep
      refine ⟨fun q hq => ?_, [], by simp, rfl⟩
      obtain rfl := Option.some.inj hq
      simpa using h e (by rw [hloop]; rfl)
  | saved =>
      obtain ⟨e, es, hloop, rfl⟩ := EventStep.run_saved hstep
      have hsame := hcoherent.sound.records_saveAndFlush (h e (by rw [hloop]; rfl))
      exact ⟨onRecord_of_idle rfl, [], by simpa using hsame, rfl⟩
  | sleep =>
      obtain ⟨-, rfl⟩ := EventStep.run_sleep hstep
      exact ⟨onRecord_of_idle rfl, [], by simp, rfl⟩
  | stop =>
      obtain rfl := Option.some.inj hstep
      exact ⟨onRecord_of_idle rfl, [], by simp, rfl⟩
  | startEventLoop =>
      obtain ⟨-, rfl⟩ := EventStep.run_startEventLoop hstep
      exact ⟨onRecord_of_idle rfl, [], by simp, rfl⟩

end PublisherState

/-! ## With the calls that were made -/

/-- What a step publishes, and for whom. -/
def DeliveryStep.raises (d : Deliveries κ) : DeliveryStep κ → List (κ × String)
  | .event a => a.raises d.publisher
  | .save payload i => (d.publisher.subscribers[i]?.map fun s => (payload, s.className)).toList
  | .loopFails => []

namespace Deliveries

variable {d d' : Deliveries κ}

/-- The list of records only grows, and so does the list of calls. -/
theorem records_step [DecidableEq κ] {a : DeliveryStep κ} (h : d.publisher.OnRecord)
    (hcoherent : d.publisher.Coherent) (hstep : Takes d a d') :
    d'.publisher.OnRecord ∧
      (∃ new, d'.publisher.events.records = d.publisher.events.records ++ new ∧
        new.map Record.address = a.raises d) ∧
      d.handed <+: d'.handed := by
  unfold Takes run at hstep
  cases a with
  | event a =>
      obtain ⟨st, hst, rfl⟩ := Option.map_eq_some_iff.mp hstep
      obtain ⟨honRecord, hrecords⟩ := PublisherState.records_step h hcoherent hst
      exact ⟨honRecord, hrecords, List.prefix_append _ _⟩
  | save payload i =>
      simp only at hstep
      split at hstep
      · rename_i s hs
        split at hstep
        · obtain rfl := Option.some.inj hstep
          obtain ⟨new, hnew, hfor⟩ := (EventRepository.saves_save payload s.className
            d.publisher.events).exists_records
          refine ⟨fun e he => ?_, ⟨new, hnew, ?_⟩, List.prefix_rfl⟩
          · rw [hnew]
            exact List.mem_append_left _ (h e he)
          · simpa [DeliveryStep.raises, hs] using hfor
        · cases hstep
      · cases hstep
  | loopFails =>
      simp only at hstep
      split at hstep
      · cases hstep
      · cases hstep
      · obtain rfl := Option.some.inj hstep
        exact ⟨PublisherState.onRecord_of_idle rfl, ⟨[], by simp, rfl⟩, List.prefix_rfl⟩

/-- What is being delivered to a subscriber is on record for its class, and was not handed over
before. -/
lemma Once.of_delivers (h : d.Once) (honRecord : d.publisher.OnRecord) {className : String}
    {e : Event κ} (hdelivers : d.publisher.loop.delivers className = some e) :
    e.record ∈ d.publisher.events.records ∧ e.subscriber = className ∧
      e.id ∉ d.handed.map (·.1) := by
  obtain ⟨s, subscribers, es, hloop, hclass⟩ := EventLoop.exists_of_delivers hdelivers
  obtain ⟨-, hsubscriber, hnot⟩ := h.next e s subscribers es hloop
  exact ⟨honRecord e (by rw [hloop]; rfl), hsubscriber.symm.trans hclass, hnot⟩

/-- The end of a call is noted. -/
lemma handed_of_call [DecidableEq κ] {a : EventStep κ} {c : ℕ × String}
    (hcall : a.call d.publisher = some c) (hstep : Takes d (.event a) d') :
    d'.handed = d.handed ++ [c] := by
  obtain ⟨st, -, rfl⟩ := Option.map_eq_some_iff.mp hstep
  rw [hcall]
  rfl

end Deliveries

end Geodesy
