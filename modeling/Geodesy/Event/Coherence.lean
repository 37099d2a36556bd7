import Geodesy.Event.Publisher

/-!
# The event loop and the rows agree

The loop works on events that it loaded some time ago.  `Coherent` says in what sense they are still
the rows: the events whose turn is to come are pending rows with different keys, and the row of the
event being delivered was published.  It also says that `retries` never leaves zero, since only
rows that were never published are loaded.  Every step keeps it.
-/

namespace Geodesy

open TransitionSystem

variable {κ : Type*}

/-! ## What publishing and handling do to the rows -/

namespace AsynchronousEventPublisher

open EventRepository

variable {events : EventRepository κ} {e : Event κ} {id : ℕ}

/-- `publish` only adds pending rows. -/
lemma grows_publish (subscribers : List (EventSubscriber κ)) (events : EventRepository κ)
    (payload : κ) : events.Grows (publish subscribers events payload) := by
  refine List.foldlRecOn subscribers _ (.refl events) ?_
  intro events' hgrows s _
  split
  · exact hgrows.trans (grows_save _ _ _)
  · exact hgrows

lemma sound_publish (h : events.Sound) (subscribers : List (EventSubscriber κ)) (payload : κ) :
    (publish subscribers events payload).Sound := by
  refine List.foldlRecOn subscribers _ h ?_
  intro events' hsound s _
  split
  · exact hsound.save _ _
  · exact hsound

lemma grows_foldl_publish (subscribers : List (EventSubscriber κ)) (payloads : List κ)
    (events : EventRepository κ) : events.Grows (payloads.foldl (publish subscribers) events) :=
  List.foldlRecOn payloads _ (.refl events) fun _ hgrows payload _ =>
    hgrows.trans (grows_publish subscribers _ payload)

lemma sound_foldl_publish (h : events.Sound) (subscribers : List (EventSubscriber κ))
    (payloads : List κ) : (payloads.foldl (publish subscribers) events).Sound :=
  List.foldlRecOn payloads _ h fun _ hsound payload _ => sound_publish hsound subscribers payload

@[simp] lemma handledEvent_id (handledAt : Option Instant) (e : Event κ) :
    (handledEvent handledAt e).id = e.id := by
  cases handledAt <;> simp [handledEvent]

@[simp] lemma handledEvent_subscriber (handledAt : Option Instant) (e : Event κ) :
    (handledEvent handledAt e).subscriber = e.subscriber := by
  cases handledAt <;> simp [handledEvent]

@[simp] lemma handledEvent_retries (handledAt : Option Instant) (e : Event κ) :
    (handledEvent handledAt e).retries = e.retries := by
  cases handledAt <;> simp [handledEvent]

@[simp] lemma handledEvent_timePublished (handledAt : Option Instant) (e : Event κ) :
    (handledEvent handledAt e).timePublished = e.timePublished := by
  cases handledAt <;> simp [handledEvent]

lemma sound_handledRow (h : events.Sound) (he : e.retries = 0) (handledAt : Option Instant) :
    (handledRow handledAt e events).Sound := by
  cases handledAt with
  | none => exact h
  | some now => exact h.saveAndFlush (by simpa using he)

/-- A handler touches the row of its event only. -/
lemma inFlight_handledRow (handledAt : Option Instant) (h : id ≠ e.id) :
    (handledRow handledAt e events).InFlight id ↔ events.InFlight id := by
  cases handledAt with
  | none => exact Iff.rfl
  | some now => exact inFlight_saveAndFlush_of_ne (by simpa using h)

lemma mem_handledRow (handledAt : Option Instant) {r : Event κ} (hr : r ∈ events.rows)
    (hne : r.id ≠ e.id) : r ∈ (handledRow handledAt e events).rows := by
  cases handledAt with
  | none => exact hr
  | some now => exact mem_saveAndFlush.mpr (.inl ⟨hr, by simpa using hne⟩)

/-- The row of a published event stays published. -/
lemma exists_published_handledRow (handledAt : Option Instant) (he : e.timePublished ≠ none)
    (hrow : ∃ r ∈ events.rows, r.id = e.id ∧ r.timePublished ≠ none) :
    ∃ r ∈ (handledRow handledAt e events).rows, r.id = e.id ∧ r.timePublished ≠ none := by
  cases handledAt with
  | none => exact hrow
  | some now => exact exists_published_saveAndFlush (by simpa using he) hrow

end AsynchronousEventPublisher

open AsynchronousEventPublisher

/-! ## The loop and the rows agree -/

namespace PublisherState

variable {st st' : PublisherState κ} {id : ℕ}

/-- The loop's events and the rows agree. -/
structure Coherent (st : PublisherState κ) : Prop where
  sound : st.events.Sound
  waiting : ∀ e ∈ st.loop.waiting, e ∈ st.events.rows ∧ e.isPending = true
  waiting_nodup : (st.loop.waiting.map (·.id)).Nodup
  current : ∀ e, st.loop.current = some e →
    e.retries = 0 ∧ e.timePublished ≠ none ∧
      ∃ r ∈ st.events.rows, r.id = e.id ∧ r.timePublished ≠ none

lemma coherent_init : Coherent (init : PublisherState κ) where
  sound := ⟨Rows.allocated_nil 0, by simp [init]⟩
  waiting := by simp [init, EventLoop.waiting]
  waiting_nodup := by simp [init, EventLoop.waiting]
  current := by simp [init, EventLoop.current]

/-- An event that is still to be published is not the one being delivered. -/
lemma Coherent.waiting_id_ne (h : st.Coherent) {e w : Event κ} (he : st.loop.current = some e)
    (hw : w ∈ st.loop.waiting) : w.id ≠ e.id := by
  intro hid
  obtain ⟨-, -, r, hr, hrid, hpublished⟩ := h.current e he
  obtain ⟨hwrow, hwpending⟩ := h.waiting w hw
  obtain rfl := h.sound.eq_of_id hr hwrow (hrid.trans hid.symm)
  exact hpublished (Event.isPending_iff.mp hwpending).2.2

/-- The row of the event being delivered is published, so it is in flight while it is not
handled. -/
lemma Coherent.inFlight_current_iff (h : st.Coherent) {e : Event κ}
    (he : st.loop.current = some e) :
    st.events.InFlight e.id ↔ ∃ r ∈ st.events.rows, r.id = e.id ∧ r.timeHandled = none := by
  obtain ⟨-, -, q, hq, hqid, hpublished⟩ := h.current e he
  constructor
  · rintro ⟨r, hr, hid, hunhandled, -⟩
    exact ⟨r, hr, hid, hunhandled⟩
  · rintro ⟨r, hr, hid, hunhandled⟩
    obtain rfl := h.sound.eq_of_id hr hq (hid.trans hqid.symm)
    exact ⟨r, hr, hid, hunhandled, hpublished⟩

/-- More rows and other subscribers leave the loop coherent. -/
lemma Coherent.grows (h : st.Coherent) (hloop : st'.loop = st.loop)
    (hgrows : st.events.Grows st'.events) (hsound : st'.events.Sound) : st'.Coherent := by
  refine ⟨hsound, ?_, ?_, ?_⟩
  · intro e he
    rw [hloop] at he
    exact ⟨hgrows.mem (h.waiting e he).1, (h.waiting e he).2⟩
  · rw [hloop]
    exact h.waiting_nodup
  · intro e he
    rw [hloop] at he
    obtain ⟨hretries, hpublished, r, hr, hrow⟩ := h.current e he
    exact ⟨hretries, hpublished, r, hgrows.mem hr, hrow⟩

/-- A loop that holds no event is coherent. -/
lemma Coherent.idle (h : st.Coherent) (hevents : st'.events = st.events)
    (hwaiting : st'.loop.waiting = []) (hcurrent : st'.loop.current = none) : st'.Coherent := by
  refine ⟨by rw [hevents]; exact h.sound, ?_, ?_, ?_⟩ <;> simp [hwaiting, hcurrent]

end PublisherState

/-! ## Steps -/

namespace EventStep

variable [DecidableEq κ] {st st' : PublisherState κ}

lemma run_getPendingEvents {es : List (Event κ)} (h : (getPendingEvents es).run st = some st') :
    st.loop = .sleeping ∧ es.Perm st.events.getPendingEvents ∧
      st' = { st with loop := .iterating es } := by
  simp only [run] at h
  split at h
  · rename_i hloop
    split at h
    · rename_i hperm
      exact ⟨hloop, hperm, (Option.some.inj h).symm⟩
    · exact absurd h (by simp)
  · exact absurd h (by simp)

lemma run_published {now : Instant} (h : (published now).run st = some st') :
    ∃ e es, st.loop = .iterating (e :: es) ∧
      st' = { st with
        events := st.events.saveAndFlush (e.published now)
        loop := .delivering (e.published now)
          (st.subscribers.filter fun s => s.className = e.subscriber) es } := by
  simp only [run] at h
  split at h
  · rename_i e es hloop
    exact ⟨e, es, hloop, (Option.some.inj h).symm⟩
  · exact absurd h (by simp)

lemma run_handlerReturns {handledAt : Option Instant} {payloads : List κ}
    (h : (handlerReturns handledAt payloads).run st = some st') :
    ∃ e s subscribers es, st.loop = .delivering e (s :: subscribers) es ∧
      st' = { st with
        events := payloads.foldl (AsynchronousEventPublisher.publish st.subscribers)
          (handledRow handledAt e st.events)
        loop := .delivering (handledEvent handledAt e) subscribers es } := by
  simp only [run] at h
  split at h
  · rename_i e s subscribers es hloop
    exact ⟨e, s, subscribers, es, hloop, (Option.some.inj h).symm⟩
  · exact absurd h (by simp)

lemma run_handlerThrows {handledAt : Option Instant} {stackTrace : String}
    (h : (handlerThrows handledAt stackTrace).run st = some st') :
    ∃ e s subscribers es, st.loop = .delivering e (s :: subscribers) es ∧
      st' = { st with
        loop := .delivering ((handledEvent handledAt e).setError stackTrace) subscribers es } := by
  simp only [run] at h
  split at h
  · rename_i e s subscribers es hloop
    exact ⟨e, s, subscribers, es, hloop, (Option.some.inj h).symm⟩
  · exact absurd h (by simp)

lemma run_saved (h : saved.run st = some st') :
    ∃ e es, st.loop = .delivering e [] es ∧
      st' = { st with events := st.events.saveAndFlush e, loop := .iterating es } := by
  simp only [run] at h
  split at h
  · rename_i e es hloop
    exact ⟨e, es, hloop, (Option.some.inj h).symm⟩
  · exact absurd h (by simp)

lemma run_sleep (h : sleep.run st = some st') :
    st.loop = .iterating [] ∧ st' = { st with loop := .sleeping } := by
  simp only [run] at h
  split at h
  · rename_i hloop
    exact ⟨hloop, (Option.some.inj h).symm⟩
  · exact absurd h (by simp)

lemma run_startEventLoop (h : startEventLoop.run st = some st') :
    st.loop = .stopped ∧ st' = { st with loop := .sleeping } := by
  simp only [run] at h
  split at h
  · rename_i hloop
    exact ⟨hloop, (Option.some.inj h).symm⟩
  · exact absurd h (by simp)

end EventStep

namespace PublisherState

variable {st st' : PublisherState κ} {a : EventStep κ} {id : ℕ}

/-- The pending events that are loaded agree with their rows. -/
lemma Coherent.load (h : st.Coherent) {es : List (Event κ)}
    (hperm : es.Perm st.events.getPendingEvents) :
    Coherent { st with loop := .iterating es } := by
  refine ⟨h.sound, ?_, ?_, by simp [EventLoop.current]⟩
  · intro e he
    exact EventRepository.mem_getPendingEvents.mp (hperm.subset he)
  · have hpending : (st.events.getPendingEvents.map (·.id)).Nodup :=
      h.sound.allocated.nodup.sublist (List.filter_sublist.map _)
    exact (hperm.map _).nodup_iff.mpr hpending

/-- The next event is published. -/
lemma Coherent.publishNext (h : st.Coherent) {e : Event κ} {es : List (Event κ)}
    (hloop : st.loop = .iterating (e :: es)) (now : Instant)
    (subscribers : List (EventSubscriber κ)) :
    Coherent { st with
      events := st.events.saveAndFlush (e.published now)
      loop := .delivering (e.published now) subscribers es } := by
  have hwaiting := h.waiting
  have hnodup := h.waiting_nodup
  rw [hloop] at hwaiting hnodup
  simp only [EventLoop.waiting, List.map_cons, List.nodup_cons] at hnodup
  obtain ⟨herow, hepending⟩ := hwaiting e (List.mem_cons_self)
  have hretries : (e.published now).retries = 0 := by
    rw [Event.published_retries (Event.isPending_iff.mp hepending).2.2]
    exact h.sound.retries e herow
  refine ⟨h.sound.saveAndFlush hretries, ?_, hnodup.2, ?_⟩
  · intro w hw
    obtain ⟨hwrow, hwpending⟩ := hwaiting w (List.mem_cons_of_mem _ hw)
    refine ⟨EventRepository.mem_saveAndFlush.mpr (.inl ⟨hwrow, fun hid => ?_⟩), hwpending⟩
    exact hnodup.1 (hid ▸ List.mem_map_of_mem hw)
  · intro e' he'
    obtain rfl := Option.some.inj he'
    refine ⟨hretries, by simp, e.published now, ?_, rfl, by simp⟩
    exact EventRepository.mem_saveAndFlush.mpr (.inr ⟨rfl, e, herow, rfl⟩)

/-- A handler works on the event and its row. -/
lemma Coherent.handle (h : st.Coherent) {e e' : Event κ} {es : List (Event κ)}
    {events' : EventRepository κ} {subscribers subscribers' : List (EventSubscriber κ)}
    (hloop : st.loop = .delivering e subscribers es) (hid : e'.id = e.id)
    (hretries : e'.retries = e.retries) (hpublished : e'.timePublished = e.timePublished)
    (hsound : events'.Sound)
    (hothers : ∀ r ∈ st.events.rows, r.id ≠ e.id → r ∈ events'.rows)
    (hrow : ∃ r ∈ events'.rows, r.id = e.id ∧ r.timePublished ≠ none) :
    Coherent { st with events := events', loop := .delivering e' subscribers' es } := by
  have hcurrent : st.loop.current = some e := by rw [hloop]; rfl
  have hes : st.loop.waiting = es := by rw [hloop]; rfl
  refine ⟨hsound, ?_, hes ▸ h.waiting_nodup, ?_⟩
  · intro w hw
    have hw' : w ∈ st.loop.waiting := hes ▸ hw
    obtain ⟨hwrow, hwpending⟩ := h.waiting w hw'
    exact ⟨hothers w hwrow (h.waiting_id_ne hcurrent hw'), hwpending⟩
  · intro q hq
    obtain rfl := Option.some.inj hq
    obtain ⟨hzero, hne, -⟩ := h.current e hcurrent
    rw [hretries, hpublished, hid]
    exact ⟨hzero, hne, hrow⟩

/-- The iteration ends with its event saved. -/
lemma Coherent.finish (h : st.Coherent) {e : Event κ} {es : List (Event κ)}
    {subscribers : List (EventSubscriber κ)} (hloop : st.loop = .delivering e subscribers es) :
    Coherent { st with events := st.events.saveAndFlush e, loop := .iterating es } := by
  have hcurrent : st.loop.current = some e := by rw [hloop]; rfl
  have hes : st.loop.waiting = es := by rw [hloop]; rfl
  refine ⟨h.sound.saveAndFlush (h.current e hcurrent).1, ?_, hes ▸ h.waiting_nodup,
    by simp [EventLoop.current]⟩
  intro w hw
  have hw' : w ∈ st.loop.waiting := hes ▸ hw
  obtain ⟨hwrow, hwpending⟩ := h.waiting w hw'
  exact ⟨EventRepository.mem_saveAndFlush.mpr (.inl ⟨hwrow, h.waiting_id_ne hcurrent hw'⟩),
    hwpending⟩

variable [DecidableEq κ]

/-- Every step keeps the loop's events and the rows in agreement. -/
theorem Coherent.step (h : st.Coherent) (hstep : Takes st a st') : st'.Coherent := by
  cases a with
  | subscribe s =>
      obtain rfl := Option.some.inj hstep
      exact h.grows rfl (.refl _) h.sound
  | publish payload reached =>
      obtain rfl := Option.some.inj hstep
      exact h.grows rfl (grows_publish _ _ _) (sound_publish h.sound _ _)
  | getPendingEvents es =>
      obtain ⟨-, hperm, rfl⟩ := EventStep.run_getPendingEvents hstep
      exact h.load hperm
  | published now =>
      obtain ⟨e, es, hloop, rfl⟩ := EventStep.run_published hstep
      exact h.publishNext hloop now _
  | handlerReturns handledAt payloads =>
      obtain ⟨e, s, subscribers, es, hloop, rfl⟩ := EventStep.run_handlerReturns hstep
      obtain ⟨hretries, hpublished, hrow⟩ := h.current e (by rw [hloop]; rfl)
      have hsound := sound_handledRow h.sound hretries handledAt
      have hhandled : Coherent { st with
          events := handledRow handledAt e st.events
          loop := .delivering (handledEvent handledAt e) subscribers es } :=
        h.handle hloop (by simp) (by simp) (by simp) hsound (fun r => mem_handledRow handledAt)
          (exists_published_handledRow handledAt hpublished hrow)
      exact hhandled.grows rfl (grows_foldl_publish _ _ _) (sound_foldl_publish hsound _ _)
  | handlerThrows handledAt stackTrace =>
      obtain ⟨e, s, subscribers, es, hloop, rfl⟩ := EventStep.run_handlerThrows hstep
      obtain ⟨-, -, hrow⟩ := h.current e (by rw [hloop]; rfl)
      exact h.handle hloop (by simp [Event.setError]) (by simp [Event.setError])
        (by simp [Event.setError]) h.sound (fun r hr _ => hr) hrow
  | saved =>
      obtain ⟨e, es, hloop, rfl⟩ := EventStep.run_saved hstep
      exact h.finish hloop
  | sleep =>
      obtain ⟨-, rfl⟩ := EventStep.run_sleep hstep
      exact h.idle rfl rfl rfl
  | stop =>
      obtain rfl := Option.some.inj hstep
      exact h.idle rfl rfl rfl
  | startEventLoop =>
      obtain ⟨-, rfl⟩ := EventStep.run_startEventLoop hstep
      exact h.idle rfl rfl rfl

/-- So does every run. -/
theorem Coherent.run {as : List (EventStep κ)} (h : st.Coherent) (hrun : Run Takes st as st') :
    st'.Coherent :=
  hrun.always (fun _ _ _ hs hstep => hs.step hstep) h

end PublisherState

end Geodesy
