import Geodesy.Library.Outbox
import Geodesy.Pipeline.System

/-!
# The records of the event table as an outbox

A record that is not handled is a message for the subscriber whose class it names, about the station
that its payload names (`EventRepository.Outstanding`).  While no handler fails after it called
`handled`, the event that the loop is delivering says the same as its row
(`PublisherState.Matches`), so the last save of an iteration changes nothing of that, and the only
records that stop being outstanding are those whose handlers return.
-/

namespace Geodesy

open TransitionSystem AsynchronousEventPublisher

variable {κ K : Type*}

/-! ## Outstanding records -/

/-- The two say the same of the record, up to its publication and its error. -/
structure Event.SameRecord (r e : Event κ) : Prop where
  id : r.id = e.id
  payload : r.payload = e.payload
  subscriber : r.subscriber = e.subscriber
  timeHandled : r.timeHandled = e.timeHandled

namespace EventRepository

variable {events events' : EventRepository κ} {e : Event κ} {className : String}
  {about : κ → Option K} {id : ℕ} {k : K}

/-- The record with the key is for the subscriber of the class, about `k`, and not handled. -/
def Outstanding (events : EventRepository κ) (className : String) (about : κ → Option K) (id : ℕ)
    (k : K) : Prop :=
  ∃ r ∈ events.rows, r.id = id ∧ r.subscriber = className ∧ r.timeHandled = none ∧
    about r.payload = some k

lemma Outstanding.grows (h : events.Outstanding className about id k)
    (hgrows : events.Grows events') : events'.Outstanding className about id k := by
  obtain ⟨r, hr, hrecord⟩ := h
  exact ⟨r, hgrows.mem hr, hrecord⟩

/-- Saving an event leaves the other records. -/
lemma Outstanding.saveAndFlush_of_ne (h : events.Outstanding className about id k)
    (hne : id ≠ e.id) : (events.saveAndFlush e).Outstanding className about id k := by
  obtain ⟨r, hr, rfl, hrecord⟩ := h
  exact ⟨r, mem_saveAndFlush.mpr (.inl ⟨hr, hne⟩), rfl, hrecord⟩

/-- Saving an event that says the same as its row leaves all records outstanding that were. -/
lemma Outstanding.saveAndFlush (h : events.Outstanding className about id k)
    (hsound : events.Sound) (hrow : ∃ r ∈ events.rows, r.SameRecord e) :
    (events.saveAndFlush e).Outstanding className about id k := by
  by_cases hid : id = e.id
  · obtain ⟨q, hq, rfl, hclass, hunhandled, habout⟩ := h
    obtain ⟨r, hr, hsame⟩ := hrow
    obtain rfl := hsound.eq_of_id hq hr (hid.trans hsame.id.symm)
    refine ⟨e, mem_saveAndFlush.mpr (.inr ⟨rfl, q, hq, hid⟩), hid.symm, ?_, ?_, ?_⟩
    · rw [← hsame.subscriber, hclass]
    · rw [← hsame.timeHandled, hunhandled]
    · rw [← hsame.payload, habout]
  · exact h.saveAndFlush_of_ne hid

/-- A published event has a new record for each subscriber that can handle it. -/
lemma outstanding_publishAll (hsound : events.Sound) {subscribers : List (EventSubscriber κ)}
    {s : EventSubscriber κ} (hs : s ∈ subscribers) {payloads : List κ} {payload : κ}
    (hpayload : payload ∈ payloads) (hcan : s.canHandle payload = true)
    (habout : about payload = some k) :
    ∃ id, (publishAll subscribers payloads events).Outstanding s.className about id k ∧
      ∀ r ∈ events.rows, r.id ≠ id := by
  obtain ⟨new, hrows, hfor, hnew⟩ := saves_publishAll subscribers payloads events
  have haddressed : (payload, s.className) ∈ payloads.flatMap (addressees subscribers) := by
    refine List.mem_flatMap.mpr ⟨payload, hpayload, ?_⟩
    exact List.mem_map.mpr ⟨s, List.mem_filter.mpr ⟨hs, hcan⟩, rfl⟩
  rw [← hfor] at haddressed
  obtain ⟨r, hr, hrfor⟩ := List.mem_map.mp haddressed
  obtain ⟨rfl, hclass⟩ := Prod.mk.inj hrfor
  have hmem : r ∈ (publishAll subscribers payloads events).rows := by
    rw [hrows]
    exact List.mem_append_right _ hr
  refine ⟨r.id, ⟨r, hmem, rfl, hclass, (Event.isPending_iff.mp (hnew r hr)).1, habout⟩, ?_⟩
  -- the keys come from the sequence
  intro q hq hid
  have hnodup := (sound_foldl_publish hsound subscribers payloads).allocated.nodup
  change ((publishAll subscribers payloads events).rows.map (·.id)).Nodup at hnodup
  rw [hrows, List.map_append] at hnodup
  exact (List.nodup_append'.mp hnodup).2.2 (List.mem_map_of_mem hq)
    (hid ▸ List.mem_map_of_mem hr)

end EventRepository

/-! ## The event at hand and its row -/

namespace PublisherState

variable {st st' : PublisherState κ}

/-- The event being delivered says the same as its row, and the subscribers that are called for it
are of the class that it names. -/
structure Matches (st : PublisherState κ) : Prop where
  coherent : st.Coherent
  row : ∀ e, st.loop.current = some e → ∃ r ∈ st.events.rows, r.SameRecord e
  addressed : ∀ e subscribers es, st.loop = .delivering e subscribers es →
    ∀ s ∈ subscribers, s.className = e.subscriber

lemma matches_init : Matches (init : PublisherState κ) where
  coherent := coherent_init
  row := by simp [init, EventLoop.current]
  addressed := by simp [init]

/-- More records, with the loop where it was. -/
lemma Matches.grows (h : st.Matches) (hcoherent : st'.Coherent) (hloop : st'.loop = st.loop)
    (hgrows : st.events.Grows st'.events) : st'.Matches := by
  refine ⟨hcoherent, ?_, ?_⟩
  · rw [hloop]
    intro e he
    obtain ⟨r, hr, hsame⟩ := h.row e he
    exact ⟨r, hgrows.mem hr, hsame⟩
  · rw [hloop]
    exact h.addressed

/-- A loop that delivers nothing. -/
lemma Matches.idle (hcoherent : st'.Coherent) (hcurrent : st'.loop.current = none) :
    st'.Matches := by
  refine ⟨hcoherent, by simp [hcurrent], ?_⟩
  intro e subscribers es hloop
  rw [hloop] at hcurrent
  exact absurd hcurrent (by simp [EventLoop.current])

/-- The message that the loop has for the subscriber of the class. -/
def inHand (st : PublisherState κ) (className : String) (about : κ → Option K) : Option (ℕ × K) :=
  st.loop.current.bind fun e =>
    if e.subscriber = className then (about e.payload).map (e.id, ·) else none

lemma inHand_of_current {e : Event κ} (h : st.loop.current = some e) (className : String)
    (about : κ → Option K) : st.inHand className about =
      if e.subscriber = className then (about e.payload).map (e.id, ·) else none := by
  simp [inHand, h]

/-- The message at hand is the record of the event being delivered. -/
lemma inHand_eq_some {className : String} {about : κ → Option K} {id : ℕ} {k : K}
    (h : st.inHand className about = some (id, k)) :
    ∃ e, st.loop.current = some e ∧ e.id = id ∧ e.subscriber = className ∧
      about e.payload = some k := by
  obtain ⟨e, he, hin⟩ := Option.bind_eq_some_iff.mp h
  split at hin
  · rename_i hclass
    obtain ⟨k', hk', heq⟩ := Option.map_eq_some_iff.mp hin
    obtain ⟨rfl, rfl⟩ := Prod.mk.inj heq
    exact ⟨e, he, rfl, hclass, hk'⟩
  · cases hin

lemma handledEvent_payload (handledAt : Option Instant) (e : Event κ) :
    (handledEvent handledAt e).payload = e.payload := by
  cases handledAt with
  | none => rfl
  | some now =>
      unfold handledEvent Event.handled
      simp only
      split <;> rfl

variable [DecidableEq κ] {a : EventStep κ} {className : String} {about : κ → Option K} {id : ℕ}
  {k : K}

/-- A step of the loop keeps the event and its row the same. -/
lemma Matches.loopStep (h : st.Matches) (hstep : Takes st a st') (ha : a.ofLoop = true) :
    st'.Matches := by
  have hcoherent := h.coherent.step hstep
  cases a with
  | subscribe s =>
      obtain rfl := Option.some.inj hstep
      exact h.grows hcoherent rfl (.refl _)
  | publish payload reached => simp [EventStep.ofLoop] at ha
  | getPendingEvents es =>
      obtain ⟨-, -, rfl⟩ := EventStep.run_getPendingEvents hstep
      exact Matches.idle hcoherent rfl
  | published now =>
      obtain ⟨e, es, hloop, rfl⟩ := EventStep.run_published hstep
      obtain ⟨herow, -⟩ := h.coherent.waiting e (by simp [hloop, EventLoop.waiting])
      refine ⟨hcoherent, ?_, ?_⟩
      · intro q hq
        obtain rfl := Option.some.inj hq
        exact ⟨_, EventRepository.mem_saveAndFlush.mpr (.inr ⟨rfl, e, herow, rfl⟩), rfl, rfl, rfl,
          rfl⟩
      · intro q subscribers es' hdelivering s hs
        simp only [EventLoop.delivering.injEq] at hdelivering
        obtain ⟨rfl, rfl, -⟩ := hdelivering
        exact of_decide_eq_true (List.mem_filter.mp hs).2
  | handlerReturns handledAt payloads => simp [EventStep.ofLoop] at ha
  | handlerThrows handledAt stackTrace => simp [EventStep.ofLoop] at ha
  | saved =>
      obtain ⟨e, es, -, rfl⟩ := EventStep.run_saved hstep
      exact Matches.idle hcoherent rfl
  | sleep =>
      obtain ⟨-, rfl⟩ := EventStep.run_sleep hstep
      exact Matches.idle hcoherent rfl
  | stop =>
      obtain rfl := Option.some.inj hstep
      exact Matches.idle hcoherent rfl
  | startEventLoop =>
      obtain ⟨-, rfl⟩ := EventStep.run_startEventLoop hstep
      exact Matches.idle hcoherent rfl

/-- A step of the loop leaves all records outstanding that were. -/
lemma Matches.outstanding_loopStep (h : st.Matches) (hstep : Takes st a st') (ha : a.ofLoop = true)
    (hout : st.events.Outstanding className about id k) :
    st'.events.Outstanding className about id k := by
  cases a with
  | subscribe s =>
      obtain rfl := Option.some.inj hstep
      exact hout
  | publish payload reached => simp [EventStep.ofLoop] at ha
  | getPendingEvents es =>
      obtain ⟨-, -, rfl⟩ := EventStep.run_getPendingEvents hstep
      exact hout
  | published now =>
      obtain ⟨e, es, hloop, rfl⟩ := EventStep.run_published hstep
      obtain ⟨herow, -⟩ := h.coherent.waiting e (by simp [hloop, EventLoop.waiting])
      exact hout.saveAndFlush h.coherent.sound ⟨e, herow, rfl, rfl, rfl, rfl⟩
  | handlerReturns handledAt payloads => simp [EventStep.ofLoop] at ha
  | handlerThrows handledAt stackTrace => simp [EventStep.ofLoop] at ha
  | saved =>
      obtain ⟨e, es, hloop, rfl⟩ := EventStep.run_saved hstep
      exact hout.saveAndFlush h.coherent.sound (h.row e (by rw [hloop]; rfl))
  | sleep =>
      obtain ⟨-, rfl⟩ := EventStep.run_sleep hstep
      exact hout
  | stop =>
      obtain rfl := Option.some.inj hstep
      exact hout
  | startEventLoop =>
      obtain ⟨-, rfl⟩ := EventStep.run_startEventLoop hstep
      exact hout

/-- A step of the loop publishes the next event, or the loop has the event that it had or none. -/
lemma current_loopStep (hstep : Takes st a st') (ha : a.ofLoop = true) :
    (∃ now, a = .published now) ∨ st'.loop.current = none ∨
      st'.loop.current = st.loop.current := by
  cases a with
  | published now => exact .inl ⟨now, rfl⟩
  | publish payload reached => simp [EventStep.ofLoop] at ha
  | handlerReturns handledAt payloads => simp [EventStep.ofLoop] at ha
  | handlerThrows handledAt stackTrace => simp [EventStep.ofLoop] at ha
  | subscribe s =>
      obtain rfl := Option.some.inj hstep
      exact .inr (.inr rfl)
  | getPendingEvents es =>
      obtain ⟨-, -, rfl⟩ := EventStep.run_getPendingEvents hstep
      exact .inr (.inl rfl)
  | saved =>
      obtain ⟨e, es, -, rfl⟩ := EventStep.run_saved hstep
      exact .inr (.inl rfl)
  | sleep =>
      obtain ⟨-, rfl⟩ := EventStep.run_sleep hstep
      exact .inr (.inl rfl)
  | stop =>
      obtain rfl := Option.some.inj hstep
      exact .inr (.inl rfl)
  | startEventLoop =>
      obtain ⟨-, rfl⟩ := EventStep.run_startEventLoop hstep
      exact .inr (.inl rfl)

section Handlers

variable {e : Event κ} {s : EventSubscriber κ} {subscribers : List (EventSubscriber κ)}
  {es : List (Event κ)}

/-- A handler that returns after it called `handled` keeps the event and its row the same. -/
lemma Matches.handlerReturns (h : st.Matches) {now : Instant} {payloads : List κ}
    (hstep : Takes st (.handlerReturns (some now) payloads) st') : st'.Matches := by
  have hcoherent := h.coherent.step hstep
  obtain ⟨e, s, subscribers, es, hloop, rfl⟩ := EventStep.run_handlerReturns hstep
  obtain ⟨r, hr, hsame⟩ := h.row e (by rw [hloop]; rfl)
  refine ⟨hcoherent, ?_, ?_⟩
  · intro q hq
    obtain rfl := Option.some.inj hq
    refine ⟨e.handled now, (grows_foldl_publish _ _ _).mem ?_, rfl, rfl, rfl, rfl⟩
    exact EventRepository.mem_saveAndFlush.mpr (.inr ⟨rfl, r, hr, by simp [hsame.id]⟩)
  · intro q subscribers' es' hdelivering s' hs'
    simp only [EventLoop.delivering.injEq] at hdelivering
    obtain ⟨rfl, rfl, -⟩ := hdelivering
    rw [handledEvent_subscriber]
    exact h.addressed e _ es hloop s' (List.mem_cons_of_mem _ hs')

/-- It leaves all records outstanding that were, but for its own. -/
lemma Matches.outstanding_handlerReturns (h : st.Matches) {now : Instant} {payloads : List κ}
    (hstep : Takes st (.handlerReturns (some now) payloads) st')
    (hout : st.events.Outstanding className about id k)
    (hother : st.inHand className about ≠ some (id, k)) :
    st'.events.Outstanding className about id k := by
  obtain ⟨e, s, subscribers, es, hloop, rfl⟩ := EventStep.run_handlerReturns hstep
  have hcurrent : st.loop.current = some e := by rw [hloop]; rfl
  have hne : id ≠ e.id := by
    intro hid
    obtain ⟨q, hq, hqid, hclass, -, habout⟩ := hout
    obtain ⟨r, hr, hsame⟩ := h.row e hcurrent
    obtain rfl := h.coherent.sound.eq_of_id hq hr (hqid.trans (hid.trans hsame.id.symm))
    refine hother ?_
    rw [inHand_of_current hcurrent, ← hsame.subscriber, ← hsame.payload, if_pos hclass, habout, hid]
    rfl
  have hsaved : (st.events.saveAndFlush (e.handled now)).Outstanding className about id k :=
    hout.saveAndFlush_of_ne (by simpa using hne)
  exact hsaved.grows (grows_foldl_publish _ _ _)

lemma inHand_handlerReturns {handledAt : Option Instant} {payloads : List κ}
    (hstep : Takes st (.handlerReturns handledAt payloads) st') :
    st'.inHand className about = st.inHand className about := by
  obtain ⟨e, s, subscribers, es, hloop, rfl⟩ := EventStep.run_handlerReturns hstep
  simp [inHand, EventLoop.current, hloop, handledEvent_payload]

/-- A handler that throws leaves the records and the message at hand. -/
lemma inHand_handlerThrows {handledAt : Option Instant} {stackTrace : String}
    (hstep : Takes st (.handlerThrows handledAt stackTrace) st') :
    st'.events = st.events ∧ st'.inHand className about = st.inHand className about := by
  obtain ⟨e, s, subscribers, es, hloop, rfl⟩ := EventStep.run_handlerThrows hstep
  simp [inHand, EventLoop.current, hloop, handledEvent_payload, Event.setError]

/-- A handler that throws before it called `handled` keeps the event and its row the same. -/
lemma Matches.handlerThrows (h : st.Matches) {stackTrace : String}
    (hstep : Takes st (.handlerThrows none stackTrace) st') : st'.Matches := by
  have hcoherent := h.coherent.step hstep
  obtain ⟨e, s, subscribers, es, hloop, rfl⟩ := EventStep.run_handlerThrows hstep
  refine ⟨hcoherent, ?_, ?_⟩
  · intro q hq
    obtain rfl := Option.some.inj hq
    obtain ⟨r, hr, hsame⟩ := h.row e (by rw [hloop]; rfl)
    exact ⟨r, hr, hsame.id, hsame.payload, hsame.subscriber, hsame.timeHandled⟩
  · intro q subscribers' es' hdelivering s' hs'
    simp only [EventLoop.delivering.injEq] at hdelivering
    obtain ⟨rfl, rfl, -⟩ := hdelivering
    exact h.addressed e _ es hloop s' (List.mem_cons_of_mem _ hs')

end Handlers

end PublisherState

end Geodesy
