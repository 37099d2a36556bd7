import Geodesy.Domain.Store
import Geodesy.Event.Coherence

/-!
# No event is lost, as long as no delivery is abandoned

A row that was published and is not handled is safe only while the loop holds its event: once it
does not, `getPendingEvents` will not find the row again.  Such a row is *lost*, and `lost_iff` says
what a step does to the lost rows: it keeps them lost, and it adds the one it abandons.  What holds
along a run follows from that.
-/

namespace Geodesy

open TransitionSystem AsynchronousEventPublisher

variable {κ : Type*}

namespace PublisherState

variable {st st' : PublisherState κ} {a : EventStep κ} {id : ℕ}

/-- The record is in flight and the loop does not hold its event. -/
def Lost (st : PublisherState κ) (id : ℕ) : Prop :=
  st.events.InFlight id ∧ st.loop.current.map (·.id) ≠ some id

/-- A lost record is not picked up. -/
lemma Coherent.not_pickedUp (h : st.Coherent) (hlost : st.Lost id) : ¬ st.PickedUp id := by
  rintro (hpending | hcurrent)
  · obtain ⟨r, hr, rfl⟩ := List.mem_map.mp hpending
    have hr' := EventRepository.mem_getPendingEvents.mp hr
    exact h.sound.not_inFlight hr'.1 hr'.2 hlost.1
  · exact hlost.2 hcurrent

variable [DecidableEq κ]

/-- What is not lost is accounted for, and the other way round. -/
lemma Coherent.noEventLost_iff (h : st.Coherent) : st.NoEventLost ↔ ∀ id, ¬ st.Lost id := by
  constructor
  · rintro hkept id ⟨⟨r, hr, rfl, hunhandled, hpublished⟩, hcurrent⟩
    rcases hkept r hr with hhandled | hpending | hdelivered | hfailed
    · exact hhandled hunhandled
    · have hp := (EventRepository.mem_getPendingEvents.mp hpending).2
      exact hpublished (Event.isPending_iff.mp hp).2.2
    · exact hcurrent hdelivered
    · simp [Event.hasFailed, h.sound.retries r hr, Event.maxRetries] at hfailed
  · intro hkept r hr
    by_cases hhandled : r.timeHandled = none
    · right
      by_cases hpublished : r.timePublished = none
      · left
        rw [EventRepository.mem_getPendingEvents]
        exact ⟨hr, (h.sound.isPending_iff hr).mpr ⟨hhandled, hpublished⟩⟩
      · right; left
        by_contra hcurrent
        exact hkept r.id ⟨⟨r, hr, rfl, hhandled, hpublished⟩, hcurrent⟩
    · exact .inl hhandled

/-- **What a step loses.**  A lost record stays lost, and a step loses the one that it abandons and
no other. -/
theorem Coherent.lost_iff (h : st.Coherent) (hstep : Takes st a st') (id : ℕ) :
    st'.Lost id ↔ st.Lost id ∨ a.abandons st = some id := by
  cases a with
  | subscribe s =>
      obtain rfl := Option.some.inj hstep
      simp [Lost, EventStep.abandons]
  | publish payload reached =>
      obtain rfl := Option.some.inj hstep
      simp [Lost, EventStep.abandons, (grows_publish _ _ _).inFlight_iff]
  | getPendingEvents es =>
      obtain ⟨hloop, -, rfl⟩ := EventStep.run_getPendingEvents hstep
      simp [Lost, EventStep.abandons, hloop, EventLoop.current]
  | published now =>
      obtain ⟨e, es, hloop, rfl⟩ := EventStep.run_published hstep
      have he : e ∈ st.loop.waiting := by simp [hloop, EventLoop.waiting]
      obtain ⟨herow, hepending⟩ := h.waiting e he
      have hnot := h.sound.not_inFlight herow hepending
      by_cases hid : id = e.id
      · subst hid
        simp [Lost, EventStep.abandons, hloop, EventLoop.current, hnot]
      · have hrow :
            (st.events.saveAndFlush (e.published now)).InFlight id ↔ st.events.InFlight id :=
          EventRepository.inFlight_saveAndFlush_of_ne hid
        simp [Lost, EventStep.abandons, hloop, EventLoop.current, hrow, Ne.symm hid]
  | handlerReturns handledAt payloads =>
      obtain ⟨e, s, subscribers, es, hloop, rfl⟩ := EventStep.run_handlerReturns hstep
      -- a lost record is not the one being delivered, whose row alone the handler touches
      by_cases hid : id = e.id
      · simp [Lost, EventStep.abandons, hloop, EventLoop.current, hid]
      · have hrow : (handledRow handledAt e st.events).InFlight id ↔ st.events.InFlight id :=
          inFlight_handledRow handledAt hid
        simp [Lost, EventStep.abandons, hloop, EventLoop.current,
          (grows_foldl_publish _ _ _).inFlight_iff, hrow]
  | handlerThrows handledAt stackTrace =>
      obtain ⟨e, s, subscribers, es, hloop, rfl⟩ := EventStep.run_handlerThrows hstep
      simp [Lost, EventStep.abandons, hloop, EventLoop.current, Event.setError]
  | saved =>
      obtain ⟨e, es, hloop, rfl⟩ := EventStep.run_saved hstep
      obtain ⟨-, hpublished, r, hr, hrid, -⟩ := h.current e (by rw [hloop]; rfl)
      by_cases hid : id = e.id
      · subst hid
        have hrow : (st.events.saveAndFlush e).InFlight e.id ↔
            e.timeHandled = none ∧ e.timePublished ≠ none :=
          EventRepository.inFlight_saveAndFlush_self ⟨r, hr, hrid⟩
        simp [Lost, EventStep.abandons, hloop, EventLoop.current, hrow, hpublished]
      · have hrow : (st.events.saveAndFlush e).InFlight id ↔ st.events.InFlight id :=
          EventRepository.inFlight_saveAndFlush_of_ne hid
        simp [Lost, EventStep.abandons, hloop, EventLoop.current, hrow, Ne.symm hid]
  | sleep =>
      obtain ⟨hloop, rfl⟩ := EventStep.run_sleep hstep
      simp [Lost, EventStep.abandons, hloop, EventLoop.current]
  | stop =>
      obtain rfl := Option.some.inj hstep
      cases hloop : st.loop with
      | delivering e subscribers es =>
          have hrow := h.inFlight_current_iff (by rw [hloop]; rfl)
          by_cases hid : id = e.id
          · subst hid
            simp [Lost, EventStep.abandons, hloop, EventLoop.current, hrow]
          · simp [Lost, EventStep.abandons, hloop, EventLoop.current, Ne.symm hid]
      | _ => simp [Lost, EventStep.abandons, hloop, EventLoop.current]
  | startEventLoop =>
      obtain ⟨hloop, rfl⟩ := EventStep.run_startEventLoop hstep
      simp [Lost, EventStep.abandons, hloop, EventLoop.current]

/-- A lost record is lost for good. -/
lemma Coherent.lost_of_run {as : List (EventStep κ)} (h : st.Coherent) (hlost : st.Lost id)
    (hrun : Run Takes st as st') : st'.Lost id := by
  have hboth : st'.Coherent ∧ st'.Lost id := by
    refine hrun.always (I := fun st => st.Coherent ∧ st.Lost id) ?_ ⟨h, hlost⟩
    rintro s a t ⟨hs, hslost⟩ hstep
    exact ⟨hs.step hstep, (hs.lost_iff hstep id).mpr (.inl hslost)⟩
  exact hboth.2

/-- So it cannot be picked up any more. -/
lemma Coherent.not_canBePickedUp (h : st.Coherent) (hlost : st.Lost id) :
    ¬ st.CanBePickedUp id := by
  rintro ⟨as, st', hrun, hpicked⟩
  exact (h.run hrun).not_pickedUp (h.lost_of_run hlost hrun) hpicked

/-- While nothing is lost, a record that is not handled is pending or being delivered. -/
lemma Coherent.canBePickedUp_iff (h : st.Coherent) :
    (∀ r ∈ st.events.rows, r.retries < Event.maxRetries → r.timeHandled = none →
      st.CanBePickedUp r.id) ↔ st.NoEventLost := by
  rw [h.noEventLost_iff]
  constructor
  · rintro hpick id hlost
    obtain ⟨r, hr, rfl, hunhandled, -⟩ := hlost.1
    have hretries : r.retries < Event.maxRetries := by
      rw [h.sound.retries r hr]
      decide
    exact h.not_canBePickedUp hlost (hpick r hr hretries hunhandled)
  · intro hnone r hr _ hunhandled
    refine ⟨[], st, .nil st, ?_⟩
    by_cases hpublished : r.timePublished = none
    · left
      refine List.mem_map_of_mem (EventRepository.mem_getPendingEvents.mpr ⟨hr, ?_⟩)
      exact (h.sound.isPending_iff hr).mpr ⟨hunhandled, hpublished⟩
    · right
      by_contra hcurrent
      exact hnone r.id ⟨⟨r, hr, rfl, hunhandled, hpublished⟩, hcurrent⟩

/-- A step keeps every record accounted for unless it abandons one. -/
lemma Coherent.noEventLost_step (h : st.Coherent) (hnone : st.NoEventLost)
    (hstep : Takes st a st') : st'.NoEventLost ↔ ¬ (a.abandons st).isSome = true := by
  rw [(h.step hstep).noEventLost_iff]
  rw [h.noEventLost_iff] at hnone
  simp only [h.lost_iff hstep, hnone, false_or]
  cases a.abandons st <;> simp

end PublisherState

open PublisherState

variable [DecidableEq κ]

/-- **No event is lost exactly when none is abandoned.**  Along a run of the publisher, from an
empty table, every record is at all times handled, pending, being delivered or failed for good
exactly when no step abandons an event; and exactly then every record that is neither handled nor
out of retries can still be picked up. -/
theorem no_event_lost_iff (as : List (EventStep κ)) :
    ((∀ st, Visits Takes init as st → st.NoEventLost) ↔
        ∀ st a st', Passes Takes init as st a st' → a.abandons st = none) ∧
      ((∀ st, Visits Takes init as st → ∀ r ∈ st.events.rows,
          r.retries < Event.maxRetries → r.timeHandled = none → st.CanBePickedUp r.id) ↔
        ∀ st a st', Passes Takes init as st a st' → a.abandons st = none) := by
  have hinv : ∀ st : PublisherState κ, Visits Takes init as st → st.Coherent := by
    rintro st ⟨bs, -, hrun⟩
    exact coherent_init.run hrun
  have hsafe : (∀ st, Visits Takes init as st → st.NoEventLost) ↔
      ∀ st a st', Passes Takes init as st a st' → a.abandons st = none := by
    have hrule : (∀ st, Visits Takes init as st → st.NoEventLost) ↔
        ∀ st a st', Passes Takes init as st a st' → ¬ (a.abandons st).isSome = true :=
      visits_forall_iff (fun _ _ _ hs hstep => hs.step hstep)
        (fun _ _ _ hs hnone hstep => hs.noEventLost_step hnone hstep) coherent_init
        (by simp [NoEventLost, init]) as
    simpa using hrule
  refine ⟨hsafe, ?_⟩
  rw [← hsafe]
  exact forall₂_congr fun st hst => (hinv st hst).canBePickedUp_iff

/-- `CorsSiteService` as a subscriber. -/
def corsSiteSubscriber : EventSubscriber DomainEvent where
  className := "class au.gov.ga.geodesy.domain.service.CorsSiteService"
  canHandle
    | .siteLogReceived _ => true
    | .siteUpdated _ => false

/-- The event of an uploaded log, for `CorsSiteService`. -/
def siteLogReceivedEvent : Event DomainEvent :=
  Event.raise 0 (.siteLogReceived ⟨"ALIC", "log"⟩) corsSiteSubscriber.className

/-- A log is uploaded and its handler throws. -/
def handlerThrowsRun : List (EventStep DomainEvent) :=
  [.subscribe corsSiteSubscriber, .startEventLoop, .publish siteLogReceivedEvent.payload 1,
    .getPendingEvents [siteLogReceivedEvent], .published (.ofEpochSecond 1),
    .handlerThrows none "java.lang.NullPointerException", .saved]

/-- An event whose handler throws is neither handled nor failed for good, and no run picks it up
again. -/
theorem event_lost_handler_throws :
    ∃ st, Run Takes init handlerThrowsRun st ∧ ¬ st.NoEventLost ∧
      ∃ r ∈ st.events.rows, r.retries < Event.maxRetries ∧ r.timeHandled = none ∧
        ¬ st.CanBePickedUp r.id := by
  obtain ⟨st, hrun, hlost⟩ : ∃ st, Run Takes init handlerThrowsRun st ∧
      (decide (¬ st.NoEventLost)) = true :=
    exists_run_of_foldlM (by decide)
  have hlost' : ¬ st.NoEventLost := of_decide_eq_true hlost
  refine ⟨st, hrun, hlost', ?_⟩
  rw [← (coherent_init.run hrun).canBePickedUp_iff] at hlost'
  push Not at hlost'
  exact hlost'

end Geodesy
