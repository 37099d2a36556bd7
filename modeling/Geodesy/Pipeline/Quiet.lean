import Geodesy.Event.Delivery
import Geodesy.Pipeline.Announced

/-!
# Two polls without a request

One poll of the event loop hands over all records that were pending when it began, and those that
are pending when it ends were raised by its handlers (`PublisherState.Drains`).  Only the handler of
a received log raises an event, a `SiteUpdated`, and the handler of a `SiteUpdated` raises none.  So
after two polls without a request nothing is pending, and what is out of date by then was lost.
-/

namespace Geodesy

open TransitionSystem AsynchronousEventPublisher

/-! ## One poll -/

namespace PublisherState

variable {κ : Type*} {st st' : PublisherState κ} {Q R : κ → Prop}

/-- In a poll that began with pending events in `Q`, and whose handlers raise events in `R`: what is
pending waits for its turn or was raised since. -/
structure Drains (Q R : κ → Prop) (st : PublisherState κ) : Prop where
  waiting : ∀ w ∈ st.loop.waiting, Q w.payload
  current : ∀ e, st.loop.current = some e → Q e.payload
  pending : ∀ r ∈ st.events.rows, r.isPending = true → r ∈ st.loop.waiting ∨ R r.payload

/-- A published event is saved: its row is not pending, and the other rows stay. -/
lemma Drains.pending_saveAndFlush {events : EventRepository κ} {e : Event κ}
    (he : e.timePublished ≠ none) {r : Event κ} (hr : r ∈ (events.saveAndFlush e).rows)
    (hpending : r.isPending = true) : r ∈ events.rows ∧ r.id ≠ e.id := by
  rcases EventRepository.mem_saveAndFlush.mp hr with hold | ⟨rfl, -⟩
  · exact hold
  · exact absurd (Event.isPending_iff.mp hpending).2.2 he

/-- What is published is in the new rows. -/
lemma mem_publishAll {subscribers : List (EventSubscriber κ)} {payloads : List κ}
    {events : EventRepository κ} {r : Event κ}
    (hr : r ∈ (publishAll subscribers payloads events).rows) :
    r ∈ events.rows ∨ r.payload ∈ payloads := by
  obtain ⟨new, hrows, hfor, -⟩ := saves_publishAll subscribers payloads events
  rw [hrows] at hr
  refine (List.mem_append.mp hr).imp_right fun hnew => ?_
  have hmem : (r.payload, r.subscriber) ∈ payloads.flatMap (addressees subscribers) := by
    rw [← hfor]
    exact List.mem_map_of_mem hnew
  obtain ⟨payload, hpayload, haddressed⟩ := List.mem_flatMap.mp hmem
  obtain ⟨s, -, heq⟩ := List.mem_map.mp haddressed
  obtain ⟨rfl, -⟩ := Prod.mk.inj heq
  exact hpayload

variable [DecidableEq κ]

/-- The next event is published. -/
lemma Drains.published (h : st.Drains Q R) {now : Instant}
    (hstep : Takes st (.published now) st') : st'.Drains Q R := by
  obtain ⟨e, es, hloop, rfl⟩ := EventStep.run_published hstep
  have hwaiting := h.waiting
  have hpending := h.pending
  simp only [hloop, EventLoop.waiting, List.mem_cons] at hwaiting hpending
  refine ⟨fun w hw => hwaiting w (.inr hw), ?_, ?_⟩
  · intro q hq
    obtain rfl := Option.some.inj hq
    exact hwaiting e (.inl rfl)
  · intro r hr hp
    obtain ⟨hold, hne⟩ := Drains.pending_saveAndFlush (by simp) hr hp
    refine (hpending r hold hp).imp_left fun hmem => hmem.resolve_left ?_
    rintro rfl
    exact hne rfl

/-- The iteration ends. -/
lemma Drains.saved (h : st.Drains Q R) (hcoherent : st.Coherent) (hstep : Takes st .saved st') :
    st'.Drains Q R := by
  obtain ⟨e, es, hloop, rfl⟩ := EventStep.run_saved hstep
  have hes : st.loop.waiting = es := by rw [hloop]; rfl
  refine ⟨hes ▸ h.waiting, by simp [EventLoop.current], ?_⟩
  intro r hr hp
  obtain ⟨-, hpublished, -⟩ := hcoherent.current e (by rw [hloop]; rfl)
  obtain ⟨hold, -⟩ := Drains.pending_saveAndFlush hpublished hr hp
  exact hes ▸ h.pending r hold hp

/-- A handler returns, having raised events in `R`. -/
lemma Drains.handlerReturns (h : st.Drains Q R) (hcoherent : st.Coherent) {now : Instant}
    {payloads : List κ} (hraised : ∀ payload ∈ payloads, R payload)
    (hstep : Takes st (.handlerReturns (some now) payloads) st') : st'.Drains Q R := by
  obtain ⟨e, s, subscribers, es, hloop, rfl⟩ := EventStep.run_handlerReturns hstep
  have hcurrent : st.loop.current = some e := by rw [hloop]; rfl
  have hes : st.loop.waiting = es := by rw [hloop]; rfl
  obtain ⟨-, hpublished, -⟩ := hcoherent.current e hcurrent
  refine ⟨hes ▸ h.waiting, ?_, ?_⟩
  · intro q hq
    obtain rfl := Option.some.inj hq
    rw [handledEvent_payload]
    exact h.current e hcurrent
  · intro r hr hp
    rcases mem_publishAll hr with hold | hnew
    · obtain ⟨hold, -⟩ := Drains.pending_saveAndFlush (by simpa using hpublished) hold hp
      exact hes ▸ h.pending r hold hp
    · exact .inr (hraised r.payload hnew)

/-- A handler throws. -/
lemma Drains.handlerThrows (h : st.Drains Q R) {handledAt : Option Instant} {stackTrace : String}
    (hstep : Takes st (.handlerThrows handledAt stackTrace) st') : st'.Drains Q R := by
  obtain ⟨e, s, subscribers, es, hloop, rfl⟩ := EventStep.run_handlerThrows hstep
  have hcurrent : st.loop.current = some e := by rw [hloop]; rfl
  have hes : st.loop.waiting = es := by rw [hloop]; rfl
  refine ⟨hes ▸ h.waiting, ?_, fun r hr hp => hes ▸ h.pending r hr hp⟩
  intro q hq
  obtain rfl := Option.some.inj hq
  simpa [Event.setError, handledEvent_payload] using h.current e hcurrent

end PublisherState

/-! ## The pipeline without requests -/

namespace Pipeline

variable {lib : ListUtils} {p p' : Pipeline} {Q R : DomainEvent → Prop}

/-- A run in two parts. -/
lemma OrderlyRun.exists_of_append {as bs : List PipelineStep} {q : Pipeline}
    (h : OrderlyRun lib p (as ++ bs) q) :
    ∃ p', OrderlyRun lib p as p' ∧ OrderlyRun lib p' bs q := by
  obtain ⟨p', hfirst, hsecond⟩ := h.1.exists_of_append
  refine ⟨p', ⟨hfirst, ?_⟩, hsecond, ?_⟩
  · rintro q a q' ⟨cs, hcs, hpass⟩
    exact h.2 q a q' ⟨cs, hcs.trans (List.prefix_append as bs), hpass⟩
  · rintro q a q' ⟨cs, hcs, hrun, hstep⟩
    refine h.2 q a q' ⟨as ++ cs, ?_, hfirst.append hrun, hstep⟩
    rw [List.append_assoc]
    exact (List.prefix_append_right_inj as).mpr hcs

/-- The first poll after the overtaken one hands over the second log. -/
def overtakenPoll : List PipelineStep :=
  [.event (.getPendingEvents
      [Event.raise 1 (.siteLogReceived ⟨"ADE1", ""⟩) corsSiteSubscriber.className,
        Event.raise 2 (.siteUpdated ⟨"ADE1"⟩) nodeSubscriber.className]),
    .event (.published (.ofEpochSecond 3)),
    .siteLogReceived .asListed .asStored SiteLog.clockless.reload (.ofEpochSecond 4), .event .saved,
    .event (.published (.ofEpochSecond 5)), .siteUpdated .chronological (.ofEpochSecond 6),
    .event .saved, .event .sleep]

end Pipeline

end Geodesy
