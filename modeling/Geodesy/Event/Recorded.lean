import Geodesy.Event.HandlerTransaction

/-!
# What the records tell about the transactions

While the loop delivers an event, the event is marked as handled exactly when a transaction for it
committed or failed from `handled` on (`Recording`).  The last `saveAndFlush` of the iteration
stores the mark, so it misrecords the transactions of the second kind.  From then on nothing touches
the record.
-/

namespace Geodesy

open TransitionSystem AsynchronousEventPublisher

/-! ## Published records -/

namespace PublisherState

variable {κ : Type*} [DecidableEq κ] {st st' : PublisherState κ} {a : EventStep κ} {id : ℕ}

/-- **What a step does to the table.**  It adds new records, or saves the event that is being
delivered or is to be published next and then adds new ones. -/
lemma Coherent.table_step (h : st.Coherent) (hstep : Takes st a st') :
    st.events.Grows st'.events ∨ ∃ e, e.timePublished ≠ none ∧
      (st.loop.current.map (·.id) = some e.id ∨
        ∃ r ∈ st.events.rows, r.id = e.id ∧ r.timePublished = none) ∧
      (st.events.saveAndFlush e).Grows st'.events := by
  cases a with
  | subscribe s =>
      obtain rfl := Option.some.inj hstep
      exact .inl (.refl _)
  | publish payload reached =>
      obtain rfl := Option.some.inj hstep
      exact .inl (grows_publish _ _ _)
  | getPendingEvents es =>
      obtain ⟨-, -, rfl⟩ := EventStep.run_getPendingEvents hstep
      exact .inl (.refl _)
  | published now =>
      obtain ⟨e, es, hloop, rfl⟩ := EventStep.run_published hstep
      obtain ⟨herow, hepending⟩ := h.waiting e (by simp [hloop, EventLoop.waiting])
      have hunpublished := (Event.isPending_iff.mp hepending).2.2
      exact .inr ⟨e.published now, by simp, .inr ⟨e, herow, rfl, hunpublished⟩, .refl _⟩
  | handlerReturns handledAt payloads =>
      obtain ⟨e, s, subscribers, es, hloop, rfl⟩ := EventStep.run_handlerReturns hstep
      obtain ⟨-, hpublished, -⟩ := h.current e (by rw [hloop]; rfl)
      cases handledAt with
      | none => exact .inl (grows_foldl_publish _ _ _)
      | some now =>
          refine .inr ⟨e.handled now, by simpa using hpublished, .inl ?_, grows_foldl_publish _ _ _⟩
          rw [hloop]
          simp [EventLoop.current]
  | handlerThrows handledAt stackTrace =>
      obtain ⟨e, s, subscribers, es, -, rfl⟩ := EventStep.run_handlerThrows hstep
      exact .inl (.refl _)
  | saved =>
      obtain ⟨e, es, hloop, rfl⟩ := EventStep.run_saved hstep
      obtain ⟨-, hpublished, -⟩ := h.current e (by rw [hloop]; rfl)
      exact .inr ⟨e, hpublished, .inl (by rw [hloop]; rfl), .refl _⟩
  | sleep =>
      obtain ⟨-, rfl⟩ := EventStep.run_sleep hstep
      exact .inl (.refl _)
  | stop =>
      obtain rfl := Option.some.inj hstep
      exact .inl (.refl _)
  | startEventLoop =>
      obtain ⟨-, rfl⟩ := EventStep.run_startEventLoop hstep
      exact .inl (.refl _)

/-- A published record stays published. -/
lemma Coherent.published_step (h : st.Coherent) (hstep : Takes st a st')
    (hrow : ∃ r ∈ st.events.rows, r.id = id ∧ r.timePublished ≠ none) :
    ∃ r ∈ st'.events.rows, r.id = id ∧ r.timePublished ≠ none := by
  rcases h.table_step hstep with hgrows | ⟨e, hpublished, -, hgrows⟩
  · obtain ⟨r, hr, hrow⟩ := hrow
    exact ⟨r, hgrows.mem hr, hrow⟩
  · obtain ⟨r, hr, hrow⟩ := EventRepository.exists_published_saveAndFlush hpublished hrow
    exact ⟨r, hgrows.mem hr, hrow⟩

/-- Of the published records a step touches only the one that is being delivered. -/
lemma Coherent.sameRow_step (h : st.Coherent) (hstep : Takes st a st')
    (hrow : ∃ r ∈ st.events.rows, r.id = id ∧ r.timePublished ≠ none)
    (hcurrent : st.loop.current.map (·.id) ≠ some id) : st.events.SameRow st'.events id := by
  have hsound := (h.step hstep).sound
  obtain ⟨q, hq, hqid, hqpublished⟩ := hrow
  rcases h.table_step hstep with hgrows | ⟨e, -, htouched, hgrows⟩
  · exact hgrows.sameRow hsound ⟨q, hq, hqid⟩
  · have hne : id ≠ e.id := by
      rintro rfl
      rcases htouched with hdelivered | ⟨r, hr, hid, hunpublished⟩
      · exact hcurrent hdelivered
      · obtain rfl := h.sound.eq_of_id hq hr (hqid.trans hid.symm)
        exact hqpublished hunpublished
    have hsaved : st.events.SameRow (st.events.saveAndFlush e) id :=
      EventRepository.sameRow_saveAndFlush hne
    refine hsaved.trans (hgrows.sameRow hsound ?_)
    exact ⟨q, (hsaved q hqid).mpr hq, hqid⟩

end PublisherState

/-! ## The loop and the transactions -/

namespace EventStep

variable {κ : Type*} [DecidableEq κ] {st st' : PublisherState κ} {a : EventStep κ} {id : ℕ}

/-- Only the last save of an iteration ends it. -/
lemma finishes_eq_some (hstep : PublisherState.Takes st a st') (h : a.finishes st = some id) :
    ∃ e es, st.loop = .delivering e [] es ∧ e.id = id ∧
      st' = { st with events := st.events.saveAndFlush e, loop := .iterating es } := by
  cases a with
  | saved =>
      obtain ⟨e, es, hloop, rfl⟩ := run_saved hstep
      simp only [finishes, hloop, EventLoop.current, Option.map_some, Option.some.injEq] at h
      exact ⟨e, es, hloop, h, rfl⟩
  | _ => simp [finishes] at h

/-- Without a handler the loop delivers what it delivered, or nothing, or the next event. -/
lemma current_of_event (hstep : PublisherState.Takes st a st') (h : a.ofHandler = false) :
    st'.loop.current = none ∨ st'.loop.current = st.loop.current ∨
      ∃ now e es, st.loop = .iterating (e :: es) ∧ st'.loop.current = some (e.published now) := by
  cases a with
  | subscribe s =>
      obtain rfl := Option.some.inj hstep
      exact .inr (.inl rfl)
  | publish payload reached =>
      obtain rfl := Option.some.inj hstep
      exact .inr (.inl rfl)
  | getPendingEvents es =>
      obtain ⟨-, -, rfl⟩ := run_getPendingEvents hstep
      exact .inl rfl
  | published now =>
      obtain ⟨e, es, hloop, rfl⟩ := run_published hstep
      exact .inr (.inr ⟨now, e, es, hloop, rfl⟩)
  | handlerReturns handledAt payloads => simp [ofHandler] at h
  | handlerThrows handledAt stackTrace => simp [ofHandler] at h
  | saved =>
      obtain ⟨e, es, -, rfl⟩ := run_saved hstep
      exact .inl rfl
  | sleep =>
      obtain ⟨-, rfl⟩ := run_sleep hstep
      exact .inl rfl
  | stop =>
      obtain rfl := Option.some.inj hstep
      exact .inl rfl
  | startEventLoop =>
      obtain ⟨-, rfl⟩ := run_startEventLoop hstep
      exact .inl rfl

/-- After a handler's transaction the loop holds the same event, marked as handled when it was, when
the transaction committed and when it failed from `handled` on. -/
lemma current_ofTransaction {e : Event κ} {s : EventSubscriber κ}
    {subscribers : List (EventSubscriber κ)} {es : List (Event κ)} {handledCall : ℕ} {now : Instant}
    {payloads : List κ} {stackTrace : String} {failure : Option ℕ}
    (hloop : st.loop = .delivering e (s :: subscribers) es)
    (hstep : PublisherState.Takes st (ofTransaction handledCall now payloads stackTrace failure)
      st') :
    ∃ e', st'.loop.current = some e' ∧ e'.id = e.id ∧ (e'.timeHandled ≠ none ↔
      e.timeHandled ≠ none ∨ failure = none ∨ failure.any (handledCall ≤ ·) = true) := by
  have hhandled : (e.handled now).timeHandled ≠ none := by
    unfold Event.handled
    cases htime : e.timeHandled <;> simp [htime]
  cases failure with
  | none =>
      obtain ⟨e', s', subscribers', es', hloop', hst'⟩ := run_handlerReturns hstep
      rw [hloop] at hloop'
      obtain ⟨rfl, -, -⟩ := (EventLoop.delivering.injEq ..).mp hloop'
      refine ⟨handledEvent (some now) e, by rw [hst']; rfl, by simp, ?_⟩
      simp [handledEvent, hhandled]
  | some k =>
      obtain ⟨e', s', subscribers', es', hloop', hst'⟩ := run_handlerThrows hstep
      rw [hloop] at hloop'
      obtain ⟨rfl, -, -⟩ := (EventLoop.delivering.injEq ..).mp hloop'
      refine ⟨_, by rw [hst']; rfl, by simp [Event.setError], ?_⟩
      by_cases hk : handledCall ≤ k <;> simp [handledEvent, hk, Event.setError, hhandled]

end EventStep

namespace LoopState

variable {σ : Type*} {st st' : LoopState σ} {e : Event DomainEvent}

/-- The event being delivered is marked as handled exactly when a transaction for it committed or
failed from `handled` on, and what is over is published and out of the loop's hands. -/
structure Recording (st : LoopState σ) : Prop where
  coherent : st.publisher.Coherent
  attempts : ∀ t ∈ st.attempts,
    ∃ r ∈ st.publisher.events.rows, r.id = t.id ∧ r.timePublished ≠ none
  finished : ∀ id ∈ st.finished,
    (∃ r ∈ st.publisher.events.rows, r.id = id ∧ r.timePublished ≠ none) ∧
      st.publisher.loop.current.map (·.id) ≠ some id
  current : ∀ e, st.publisher.loop.current = some e →
    (e.timeHandled ≠ none ↔ st.Committed e.id ∨ st.FailedFromHandledOn e.id)

lemma recording_init (tables : σ) : (init tables).Recording where
  coherent := PublisherState.coherent_init
  attempts := by simp [init]
  finished := by simp [init]
  current := by simp [init, AsynchronousEventPublisher.init, EventLoop.current]

/-- A record that was never published has seen no transaction. -/
lemma Recording.not_attempted (h : st.Recording) (herow : e ∈ st.publisher.events.rows)
    (hpending : e.isPending = true) : ¬ st.Committed e.id ∧ ¬ st.FailedFromHandledOn e.id := by
  have hnone : ∀ t ∈ st.attempts, t.id ≠ e.id := by
    intro t ht hid
    obtain ⟨r, hr, hrid, hpublished⟩ := h.attempts t ht
    obtain rfl := h.coherent.sound.eq_of_id hr herow (hrid.trans hid)
    exact hpublished (Event.isPending_iff.mp hpending).2.2
  exact ⟨fun ⟨t, ht, hid, _⟩ => hnone t ht hid, fun ⟨t, ht, hid, _⟩ => hnone t ht hid⟩

/-- One more transaction. -/
lemma exists_attempt_append {p : HandlerAttempt → Bool} {t : HandlerAttempt} {id : ℕ} :
    (∃ a ∈ st.attempts ++ [t], a.id = id ∧ p a = true) ↔
      (∃ a ∈ st.attempts, a.id = id ∧ p a = true) ∨ (t.id = id ∧ p t = true) := by
  constructor
  · rintro ⟨a, ha, hid, hp⟩
    rcases List.mem_append.mp ha with ha | ha
    · exact .inl ⟨a, ha, hid, hp⟩
    · obtain rfl := List.mem_singleton.mp ha
      exact .inr ⟨hid, hp⟩
  · rintro (⟨a, ha, hid, hp⟩ | ⟨hid, hp⟩)
    · exact ⟨a, List.mem_append_left _ ha, hid, hp⟩
    · exact ⟨t, List.mem_append_right _ (List.mem_singleton_self t), hid, hp⟩

/-- A handler's transaction marks the event when it comes as far as `handled`. -/
lemma Recording.handle (h : st.Recording) {repositories : List (σ → σ)} {now : Instant}
    {failure : Option ℕ} {stackTrace : String}
    (hstep : Takes st (.handle repositories now failure stackTrace) st') : st'.Recording := by
  obtain ⟨e, s, subscribers, es, hloop, hattempts, hfinished, htakes⟩ := takes_of_handle hstep
  have hcurrent : st.publisher.loop.current = some e := by rw [hloop]; rfl
  obtain ⟨-, -, hrow⟩ := h.coherent.current e hcurrent
  have hmark := h.current e hcurrent
  obtain ⟨e', hcurrent', hid, hmarked⟩ := EventStep.current_ofTransaction hloop htakes
  refine ⟨h.coherent.step htakes, ?_, ?_, ?_⟩
  · intro t ht
    rw [hattempts] at ht
    refine h.coherent.published_step htakes ?_
    rcases List.mem_append.mp ht with ht | ht
    · exact h.attempts t ht
    · rw [List.mem_singleton.mp ht]
      exact hrow
  · intro id hfin
    rw [hfinished] at hfin
    obtain ⟨hpublished, hne⟩ := h.finished id hfin
    refine ⟨h.coherent.published_step htakes hpublished, ?_⟩
    rw [hcurrent', Option.map_some, hid]
    rwa [hcurrent, Option.map_some] at hne
  · intro q hq
    rw [hcurrent', Option.some.injEq] at hq
    subst hq
    rw [hmarked, hmark]
    unfold Committed FailedFromHandledOn
    rw [hattempts, hid, exists_attempt_append, exists_attempt_append]
    simp only [HandlerAttempt.committed, HandlerAttempt.failedFromHandledOn, true_and,
      Option.isNone_iff_eq_none]
    exact or_or_or_comm

/-- The other steps leave the transactions alone. -/
lemma Recording.event (h : st.Recording) {a : EventStep DomainEvent}
    (hstep : Takes st (.event a) st') : st'.Recording := by
  obtain ⟨hhandler, htakes, hattempts, hfinished⟩ := takes_of_event hstep
  have hcurrent := EventStep.current_of_event htakes hhandler
  refine ⟨h.coherent.step htakes, ?_, ?_, ?_⟩
  · intro t ht
    rw [hattempts] at ht
    exact h.coherent.published_step htakes (h.attempts t ht)
  · intro id hfin
    rw [hfinished, List.mem_append, Option.mem_toList] at hfin
    rcases hfin with hfin | hfin
    · obtain ⟨hpublished, hne⟩ := h.finished id hfin
      refine ⟨h.coherent.published_step htakes hpublished, ?_⟩
      rcases hcurrent with hnone | hsame | ⟨now, e, es, hloop, hnext⟩
      · simp [hnone]
      · rwa [hsame]
      · -- the next event was pending, and a record that is over is published
        obtain ⟨herow, hepending⟩ := h.coherent.waiting e (by simp [hloop, EventLoop.waiting])
        obtain ⟨r, hr, rfl, hrpublished⟩ := hpublished
        rw [hnext]
        intro heq
        obtain rfl := h.coherent.sound.eq_of_id hr herow (Option.some.inj heq).symm
        exact hrpublished (Event.isPending_iff.mp hepending).2.2
    · obtain ⟨e, es, hloop, rfl, hst'⟩ := EventStep.finishes_eq_some htakes hfin
      obtain ⟨-, -, hrow⟩ := h.coherent.current e (by rw [hloop]; rfl)
      refine ⟨h.coherent.published_step htakes hrow, ?_⟩
      rw [hst']
      simp [EventLoop.current]
  · intro q hq
    have hsame : ∀ id, (st'.Committed id ∨ st'.FailedFromHandledOn id) ↔
        (st.Committed id ∨ st.FailedFromHandledOn id) := by
      intro id
      rw [Committed, FailedFromHandledOn, hattempts]
      rfl
    rw [hsame]
    rcases hcurrent with hnone | hcurrent | ⟨now, e, es, hloop, hnext⟩
    · exact absurd (hnone.symm.trans hq) (by simp)
    · exact h.current q (hcurrent.symm.trans hq)
    · obtain ⟨herow, hepending⟩ := h.coherent.waiting e (by simp [hloop, EventLoop.waiting])
      obtain ⟨hcommitted, hfailed⟩ := h.not_attempted herow hepending
      rw [hnext, Option.some.injEq] at hq
      subst hq
      simp [(Event.isPending_iff.mp hepending).1, hcommitted, hfailed]

/-- Every step. -/
theorem Recording.step (h : st.Recording) {a : LoopStep σ} (hstep : Takes st a st') :
    st'.Recording := by
  cases a with
  | event a => exact h.event hstep
  | handle repositories now failure stackTrace => exact h.handle hstep

/-- No step changes what is recorded of the iterations that are over. -/
lemma Recording.truthful_before (h : st.Recording) (htrue : st.Truthful) {a : LoopStep σ}
    (hstep : Takes st a st') :
    ∀ r ∈ st'.publisher.events.rows, r.id ∈ st.finished →
      (r.timeHandled ≠ none ↔ st'.Committed r.id) := by
  intro r hr hfin
  obtain ⟨hpublished, hne⟩ := h.finished r.id hfin
  cases a with
  | event a =>
      obtain ⟨-, htakes, hattempts, -⟩ := takes_of_event hstep
      have hr' := (h.coherent.sameRow_step htakes hpublished hne r rfl).mp hr
      rw [htrue r hr' hfin, Committed, Committed, hattempts]
  | handle repositories now failure stackTrace =>
      obtain ⟨e, s, subscribers, es, hloop, hattempts, -, htakes⟩ := takes_of_handle hstep
      have hr' := (h.coherent.sameRow_step htakes hpublished hne r rfl).mp hr
      have hid : e.id ≠ r.id := by
        intro heq
        exact hne (by rw [hloop, ← heq]; rfl)
      rw [htrue r hr' hfin, Committed, Committed, hattempts, exists_attempt_append]
      simp [hid]

/-- At the end of an iteration, the records stay truthful if the event's is. -/
lemma Recording.truthful_finish (h : st.Recording) {a : EventStep DomainEvent}
    (hbefore : ∀ r ∈ st'.publisher.events.rows, r.id ∈ st.finished →
      (r.timeHandled ≠ none ↔ st'.Committed r.id))
    (hstep : Takes st (.event a) st') {id : ℕ} (hends : a.finishes st.publisher = some id) :
    ∃ e, st.publisher.loop.current = some e ∧ e.id = id ∧
      (st'.Truthful ↔ (e.timeHandled ≠ none ↔ st.Committed e.id)) := by
  obtain ⟨-, htakes, hattempts, hfinished⟩ := takes_of_event hstep
  obtain ⟨e, es, hloop, rfl, hst'⟩ := EventStep.finishes_eq_some htakes hends
  have hcurrent : st.publisher.loop.current = some e := by rw [hloop]; rfl
  refine ⟨e, hcurrent, rfl, ?_⟩
  obtain ⟨-, -, q, hq, hqid, -⟩ := h.coherent.current e hcurrent
  have herow : e ∈ st'.publisher.events.rows := by
    rw [hst']
    exact EventRepository.mem_saveAndFlush.mpr (.inr ⟨rfl, q, hq, hqid⟩)
  have honly : ∀ r ∈ st'.publisher.events.rows, r.id = e.id → r = e :=
    fun r hr hid => (h.coherent.step htakes).sound.eq_of_id hr herow hid
  have hsame : st'.Committed e.id ↔ st.Committed e.id := by
    rw [Committed, Committed, hattempts]
  rw [← hsame]
  constructor
  · intro hall
    exact hall e herow (by rw [hfinished, hends]; simp)
  · intro hlast r hr hfin
    rw [hfinished, hends, List.mem_append] at hfin
    rcases hfin with hfin | hfin
    · exact hbefore r hr hfin
    · rw [honly r hr (by simpa using hfin)]
      exact hlast

/-- A step leaves the records truthful unless it misrecords a transaction. -/
lemma Recording.truthful_step (h : st.Recording) (htrue : st.Truthful) {a : LoopStep σ}
    (hstep : Takes st a st') : st'.Truthful ↔ ¬ st.Misrecords a := by
  have hbefore := h.truthful_before htrue hstep
  cases a with
  | handle repositories now failure stackTrace =>
      obtain ⟨e, s, subscribers, es, -, -, hfinished, -⟩ := takes_of_handle hstep
      simpa [Misrecords, Truthful, hfinished] using hbefore
  | event a =>
      obtain ⟨-, -, -, hfinished⟩ := takes_of_event hstep
      cases hends : a.finishes st.publisher with
      | none =>
          rw [hends] at hfinished
          simpa [Misrecords, Truthful, hfinished, hends] using hbefore
      | some id =>
          obtain ⟨e, hcurrent, rfl, htruthful⟩ := h.truthful_finish hbefore hstep hends
          have hmark := h.current e hcurrent
          have hmis : st.Misrecords (.event a) ↔
              st.FailedFromHandledOn e.id ∧ ¬ st.Committed e.id := by
            simp [Misrecords, hends]
          rw [htruthful, hmis, hmark]
          constructor
          · rintro hiff ⟨hfailed, hnot⟩
            exact hnot (hiff.mp (.inr hfailed))
          · intro hgood
            refine ⟨fun hmarked => ?_, .inl⟩
            by_contra hnot
            exact hgood ⟨hmarked.resolve_left hnot, hnot⟩

end LoopState

open LoopState

/-- **An event is recorded as handled if and only if its effects are, as long as no transaction that
failed from `handled` on is saved.**  Along a run of the event loop, every record whose iteration
ended has a time of handling exactly when its handler's transaction committed, if and only if no
iteration ends with the last `saveAndFlush` after a transaction that failed in `handled`, in the
publish that follows or at the commit, none having committed. -/
theorem recorded_as_handled_iff {σ : Type*} (tables : σ) (as : List (LoopStep σ)) :
    (∀ st, Visits Takes (init tables) as st → st.Truthful) ↔
      ∀ st a st', Passes Takes (init tables) as st a st' → ¬ st.Misrecords a := by
  have htruthful : Truthful (init tables) := by simp [Truthful, LoopState.init]
  refine @visits_forall_iff _ _ Takes Recording Truthful Misrecords ?_ ?_ _
    (recording_init tables) htruthful as
  · exact fun st a st' h hstep => h.step hstep
  · exact fun st a st' h htrue hstep => h.truthful_step htrue hstep

/-- A log is uploaded, its handler saves a setup, marks the event as handled and publishes, and its
commit fails. -/
def commitFailsRun : List (LoopStep (List String)) :=
  [.event (.subscribe corsSiteSubscriber), .event .startEventLoop,
    .event (.publish siteLogReceivedEvent.payload 1),
    .event (.getPendingEvents [siteLogReceivedEvent]), .event (.published (.ofEpochSecond 1)),
    .handle [fun setups => "ALIC" :: setups] (.ofEpochSecond 2) (some 3)
      "org.springframework.transaction.UnexpectedRollbackException",
    .event .saved]

/-- When a handler's commit fails, its event is recorded as handled and its setup is not there. -/
theorem recorded_as_handled_commit_fails :
    ∃ st, Run Takes (init []) commitFailsRun st ∧ st.tables = [] ∧ ¬ st.Truthful ∧
      ∃ r ∈ st.publisher.events.rows,
        r.id ∈ st.finished ∧ r.timeHandled ≠ none ∧ ¬ st.Committed r.id := by
  obtain ⟨st, hrun, hlast⟩ : ∃ st, Run Takes (init []) commitFailsRun st ∧
      decide (st.tables = [] ∧ ∃ r ∈ st.publisher.events.rows, r.id ∈ st.finished ∧
        r.timeHandled ≠ none ∧ ¬ ∃ t ∈ st.attempts, t.id = r.id ∧ t.committed = true) = true :=
    exists_run_of_foldlM (by decide)
  obtain ⟨htables, r, hr, hfinished, hhandled, hnot⟩ := of_decide_eq_true hlast
  refine ⟨st, hrun, htables, ?_, r, hr, hfinished, hhandled, hnot⟩
  intro htruthful
  exact hnot ((htruthful r hr hfinished).mp hhandled)

end Geodesy
