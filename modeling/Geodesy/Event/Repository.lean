import Geodesy.Domain.EffectiveDates
import Geodesy.Library.Rows

/-!
# Events and their repository

An `Event` is a row of `DOMAIN_EVENT`.  What a subclass of `Event` adds is its payload, and the
payload type `κ` stands for the subclasses.  The publisher saves one event for each subscriber that
can handle it; the loop then publishes the row, and the handler marks it as handled.

A row is *in flight* when it was published and is not handled.  `getPendingEvents` asks for rows
that were never published, so a row in flight is not pending again (`InFlight` and the lemmas about
it), whatever its number of retries.
-/

namespace Geodesy

variable {κ : Type*}

/-- A row of `DOMAIN_EVENT`.  The column `RETRIES` is not nullable and starts at zero. -/
structure Event (κ : Type*) where
  id : ℕ
  payload : κ
  subscriber : String
  timeHandled : Option Instant
  timePublished : Option Instant
  retries : ℕ
  error : Option String
  deriving DecidableEq, Repr

namespace Event

/-- `Event.MAX_RETRIES`. -/
def maxRetries : ℕ := 3

/-- A clone of an event that was just raised, for a subscriber. -/
def raise (id : ℕ) (payload : κ) (subscriber : String) : Event κ :=
  { id, payload, subscriber, timeHandled := none, timePublished := none, retries := 0,
    error := none }

/-- `Event.published`: a second publication counts as a retry. -/
def published (now : Instant) (e : Event κ) : Event κ :=
  { e with
    retries := if e.timePublished.isSome then e.retries + 1 else e.retries
    timePublished := some now }

/-- `Event.handled`: the first time it was handled stays. -/
def handled (now : Instant) (e : Event κ) : Event κ :=
  if e.timeHandled.isNone then { e with timeHandled := some now } else e

/-- `Event.setError`. -/
def setError (error : String) (e : Event κ) : Event κ := { e with error := some error }

/-- `Event.hasFailed`. -/
def hasFailed (e : Event κ) : Bool := decide (e.retries = maxRetries)

/-- The condition of the query in `getPendingEvents`.  Its disjunct `e.retries is null` is that of
a column that is never null. -/
def isPending (e : Event κ) : Bool :=
  e.timeHandled.isNone && decide (e.retries < maxRetries) && e.timePublished.isNone

@[simp] lemma published_id (now : Instant) (e : Event κ) : (e.published now).id = e.id := rfl

@[simp] lemma published_timeHandled (now : Instant) (e : Event κ) :
    (e.published now).timeHandled = e.timeHandled := rfl

@[simp] lemma published_timePublished (now : Instant) (e : Event κ) :
    (e.published now).timePublished = some now := rfl

@[simp] lemma handled_id (now : Instant) (e : Event κ) : (e.handled now).id = e.id := by
  unfold handled
  split <;> rfl

@[simp] lemma handled_subscriber (now : Instant) (e : Event κ) :
    (e.handled now).subscriber = e.subscriber := by
  unfold handled
  split <;> rfl

@[simp] lemma handled_timePublished (now : Instant) (e : Event κ) :
    (e.handled now).timePublished = e.timePublished := by
  unfold handled
  split <;> rfl

@[simp] lemma handled_retries (now : Instant) (e : Event κ) :
    (e.handled now).retries = e.retries := by
  unfold handled
  split <;> rfl

/-- The first publication is not a retry. -/
lemma published_retries {now : Instant} {e : Event κ} (h : e.timePublished = none) :
    (e.published now).retries = e.retries := by
  simp [published, h]

lemma isPending_iff {e : Event κ} :
    e.isPending = true ↔
      e.timeHandled = none ∧ e.retries < maxRetries ∧ e.timePublished = none := by
  simp [isPending, and_assoc]

/-- An event that was just raised is pending. -/
lemma isPending_raise (id : ℕ) (payload : κ) (subscriber : String) :
    (raise id payload subscriber).isPending = true := rfl

end Event

/-- The table of events, with the sequence its keys come from. -/
structure EventRepository (κ : Type*) where
  rows : List (Event κ)
  nextId : ℕ
  deriving DecidableEq, Repr

namespace EventRepository

variable {events events' : EventRepository κ} {e : Event κ} {id : ℕ}

/-- `EventRepository.save` for an event without a key. -/
def save (payload : κ) (subscriber : String) (events : EventRepository κ) : EventRepository κ :=
  { rows := events.rows ++ [Event.raise events.nextId payload subscriber]
    nextId := events.nextId + 1 }

/-- `EventRepository.saveAndFlush` for an event that was loaded: its row takes the fields of the
event. -/
def saveAndFlush (e : Event κ) (events : EventRepository κ) : EventRepository κ :=
  { events with rows := events.rows.map fun r => if r.id = e.id then e else r }

/-- `EventRepository.getPendingEvents`. -/
def getPendingEvents (events : EventRepository κ) : List (Event κ) :=
  events.rows.filter (·.isPending)

/-- The row with the key was published and is not handled. -/
def InFlight (events : EventRepository κ) (id : ℕ) : Prop :=
  ∃ r ∈ events.rows, r.id = id ∧ r.timeHandled = none ∧ r.timePublished ≠ none

/-- Keys come from the sequence, and no row was ever retried. -/
structure Sound (events : EventRepository κ) : Prop where
  allocated : Rows.Allocated (events.rows.map (·.id)) events.nextId
  retries : ∀ r ∈ events.rows, r.retries = 0

lemma mem_getPendingEvents {r : Event κ} :
    r ∈ events.getPendingEvents ↔ r ∈ events.rows ∧ r.isPending = true := by
  simp [getPendingEvents]

/-- Rows with the same key are the same row. -/
lemma Sound.eq_of_id (h : events.Sound) {r s : Event κ} (hr : r ∈ events.rows)
    (hs : s ∈ events.rows) (hid : r.id = s.id) : r = s :=
  h.allocated.eq_of_key hr hs hid

/-- While no row was retried, a row that is not handled is either pending or in flight. -/
lemma Sound.isPending_iff (h : events.Sound) {r : Event κ} (hr : r ∈ events.rows) :
    r.isPending = true ↔ r.timeHandled = none ∧ r.timePublished = none := by
  rw [Event.isPending_iff, h.retries r hr]
  simp [Event.maxRetries]

/-- A pending row is not in flight. -/
lemma Sound.not_inFlight (h : events.Sound) (he : e ∈ events.rows) (hp : e.isPending = true) :
    ¬ events.InFlight e.id := by
  rintro ⟨r, hr, hid, -, hpublished⟩
  obtain rfl := h.eq_of_id hr he hid
  exact hpublished ((h.isPending_iff hr).mp hp).2

/-! ## Saving a loaded event -/

lemma map_id_saveAndFlush (e : Event κ) (events : EventRepository κ) :
    (events.saveAndFlush e).rows.map (·.id) = events.rows.map (·.id) := by
  simp only [saveAndFlush, List.map_map]
  exact List.map_congr_left (Rows.replace_congr fun _ _ hid => hid)

lemma mem_saveAndFlush {r : Event κ} :
    r ∈ (events.saveAndFlush e).rows ↔
      (r ∈ events.rows ∧ r.id ≠ e.id) ∨ (r = e ∧ ∃ q ∈ events.rows, q.id = e.id) := by
  simp only [saveAndFlush, List.mem_map]
  constructor
  · rintro ⟨q, hq, rfl⟩
    split
    · rename_i h
      exact .inr ⟨rfl, q, hq, h⟩
    · rename_i h
      exact .inl ⟨hq, h⟩
  · rintro (⟨hr, hne⟩ | ⟨rfl, q, hq, hid⟩)
    · exact ⟨r, hr, if_neg hne⟩
    · exact ⟨q, hq, if_pos hid⟩

lemma Sound.saveAndFlush (h : events.Sound) (he : e.retries = 0) :
    (events.saveAndFlush e).Sound := by
  refine ⟨by rw [map_id_saveAndFlush]; exact h.allocated, ?_⟩
  intro r hr
  rcases mem_saveAndFlush.mp hr with ⟨hr, -⟩ | ⟨rfl, -⟩
  · exact h.retries r hr
  · exact he

/-- Saving an event leaves the other rows in flight that were. -/
lemma inFlight_saveAndFlush_of_ne (h : id ≠ e.id) :
    (events.saveAndFlush e).InFlight id ↔ events.InFlight id := by
  constructor
  · rintro ⟨r, hr, rfl, hflight⟩
    rcases mem_saveAndFlush.mp hr with ⟨hr, -⟩ | ⟨rfl, -⟩
    · exact ⟨r, hr, rfl, hflight⟩
    · exact absurd rfl h
  · rintro ⟨r, hr, rfl, hflight⟩
    exact ⟨r, mem_saveAndFlush.mpr (.inl ⟨hr, h⟩), rfl, hflight⟩

/-- Its own row is in flight afterwards when the event is. -/
lemma inFlight_saveAndFlush_self (hrow : ∃ r ∈ events.rows, r.id = e.id) :
    (events.saveAndFlush e).InFlight e.id ↔ e.timeHandled = none ∧ e.timePublished ≠ none := by
  constructor
  · rintro ⟨r, hr, hid, hflight⟩
    rcases mem_saveAndFlush.mp hr with ⟨-, hne⟩ | ⟨rfl, -⟩
    · exact absurd hid hne
    · exact hflight
  · intro hflight
    exact ⟨e, mem_saveAndFlush.mpr (.inr ⟨rfl, hrow⟩), rfl, hflight⟩

/-- A published record stays published when a published event is saved. -/
lemma exists_published_saveAndFlush (he : e.timePublished ≠ none)
    (hrow : ∃ r ∈ events.rows, r.id = id ∧ r.timePublished ≠ none) :
    ∃ r ∈ (events.saveAndFlush e).rows, r.id = id ∧ r.timePublished ≠ none := by
  obtain ⟨r, hr, rfl, hpublished⟩ := hrow
  by_cases hid : r.id = e.id
  · exact ⟨e, mem_saveAndFlush.mpr (.inr ⟨rfl, r, hr, hid⟩), hid.symm, he⟩
  · exact ⟨r, mem_saveAndFlush.mpr (.inl ⟨hr, hid⟩), rfl, hpublished⟩

/-- The records with the key are the same in both. -/
def SameRow (events events' : EventRepository κ) (id : ℕ) : Prop :=
  ∀ r, r.id = id → (r ∈ events'.rows ↔ r ∈ events.rows)

lemma SameRow.refl (events : EventRepository κ) (id : ℕ) : events.SameRow events id :=
  fun _ _ => Iff.rfl

lemma SameRow.trans {events'' : EventRepository κ} (h : events.SameRow events' id)
    (h' : events'.SameRow events'' id) : events.SameRow events'' id :=
  fun r hid => (h' r hid).trans (h r hid)

/-- Saving an event leaves the other records. -/
lemma sameRow_saveAndFlush (h : id ≠ e.id) : events.SameRow (events.saveAndFlush e) id := by
  intro r hid
  rw [mem_saveAndFlush]
  constructor
  · rintro (⟨hr, -⟩ | ⟨rfl, -⟩)
    · exact hr
    · exact absurd hid.symm h
  · intro hr
    exact .inl ⟨hr, fun heq => h (hid.symm.trans heq)⟩

/-! ## Saving new events -/

/-- The second repository has the rows of the first and pending new ones. -/
def Grows (events events' : EventRepository κ) : Prop :=
  ∃ new, events'.rows = events.rows ++ new ∧ ∀ r ∈ new, r.isPending = true

lemma Grows.refl (events : EventRepository κ) : events.Grows events := ⟨[], by simp, by simp⟩

lemma Grows.trans {events'' : EventRepository κ} (h : events.Grows events')
    (h' : events'.Grows events'') : events.Grows events'' := by
  obtain ⟨new, hrows, hnew⟩ := h
  obtain ⟨new', hrows', hnew'⟩ := h'
  refine ⟨new ++ new', by rw [hrows', hrows, List.append_assoc], ?_⟩
  intro r hr
  rcases List.mem_append.mp hr with hr | hr
  · exact hnew r hr
  · exact hnew' r hr

lemma grows_save (payload : κ) (subscriber : String) (events : EventRepository κ) :
    events.Grows (events.save payload subscriber) := by
  refine ⟨_, rfl, ?_⟩
  intro r hr
  rw [List.mem_singleton.mp hr]
  exact Event.isPending_raise _ _ _

lemma Grows.mem (h : events.Grows events') {r : Event κ} (hr : r ∈ events.rows) :
    r ∈ events'.rows := by
  obtain ⟨new, hrows, -⟩ := h
  rw [hrows]
  exact List.mem_append_left _ hr

/-- New events are not in flight. -/
lemma Grows.inFlight_iff (h : events.Grows events') :
    events'.InFlight id ↔ events.InFlight id := by
  constructor
  · rintro ⟨r, hr, rfl, hunhandled, hpublished⟩
    obtain ⟨new, hrows, hnew⟩ := h
    rw [hrows] at hr
    rcases List.mem_append.mp hr with hr | hr
    · exact ⟨r, hr, rfl, hunhandled, hpublished⟩
    · exact absurd (Event.isPending_iff.mp (hnew r hr)).2.2 hpublished
  · rintro ⟨r, hr, rfl, hflight⟩
    exact ⟨r, h.mem hr, rfl, hflight⟩

/-- New events have new keys. -/
lemma Grows.sameRow (h : events.Grows events') (hsound : events'.Sound)
    (hrow : ∃ r ∈ events.rows, r.id = id) : events.SameRow events' id := by
  intro r hid
  constructor
  · intro hr
    obtain ⟨q, hq, hqid⟩ := hrow
    obtain rfl := hsound.eq_of_id hr (h.mem hq) (hid.trans hqid.symm)
    exact hq
  · exact fun hr => h.mem hr

lemma Sound.save (h : events.Sound) (payload : κ) (subscriber : String) :
    (events.save payload subscriber).Sound := by
  refine ⟨?_, fun r hr => ?_⟩
  · simp only [EventRepository.save, List.map_append, List.map_cons, List.map_nil]
    exact h.allocated.append_next
  · rcases List.mem_append.mp hr with hr | hr
    · exact h.retries r hr
    · rw [List.mem_singleton.mp hr]
      rfl

end EventRepository

end Geodesy
