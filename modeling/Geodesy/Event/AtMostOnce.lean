import Geodesy.Event.Delivery

/-!
# Each record is handed over at most once

A call of `publish` saves one record for each subscriber that can handle the event, and the loop
hands a record to the subscribers of the class it names.  `Deliveries` is the publisher with the
list of the calls of `handle` made so far; its steps are those of the publisher, the single saves of
a `publish` that other steps come in between of, and the loop's own queries and saves failing.

A record that was handed over is published, and it stays so, and only records that were never
published are loaded.  Since the loop publishes a record before it hands it over, it does so at most
once (`delivered_at_most_once`).
-/

namespace Geodesy

open TransitionSystem AsynchronousEventPublisher

variable {κ : Type*}

/-! ## What a call of `publish` saves -/

namespace AsynchronousEventPublisher

/-- `AsynchronousEventPublisher.publish`: the events one after the other. -/
def publishAll (subscribers : List (EventSubscriber κ)) (payloads : List κ)
    (events : EventRepository κ) : EventRepository κ :=
  payloads.foldl (publish subscribers) events

/-- The events and the subscribers that they are for. -/
def addressees (subscribers : List (EventSubscriber κ)) (payload : κ) : List (κ × String) :=
  (subscribers.filter (·.canHandle payload)).map fun s => (payload, s.className)

end AsynchronousEventPublisher

namespace EventRepository

variable {events events' events'' : EventRepository κ}

/-- The second repository is the first with new records, for the given events and subscribers, in
this order. -/
def Saves (events : EventRepository κ) (records : List (κ × String))
    (events' : EventRepository κ) : Prop :=
  ∃ new, events'.rows = events.rows ++ new ∧
    (new.map fun r => (r.payload, r.subscriber)) = records ∧ ∀ r ∈ new, r.isPending = true

lemma Saves.refl (events : EventRepository κ) : events.Saves [] events :=
  ⟨[], by simp, rfl, by simp⟩

lemma Saves.trans {records records' : List (κ × String)} (h : events.Saves records events')
    (h' : events'.Saves records' events'') : events.Saves (records ++ records') events'' := by
  obtain ⟨new, hrows, hfor, hnew⟩ := h
  obtain ⟨new', hrows', hfor', hnew'⟩ := h'
  refine ⟨new ++ new', by rw [hrows', hrows, List.append_assoc], by simp [hfor, hfor'], ?_⟩
  intro r hr
  rcases List.mem_append.mp hr with hr | hr
  · exact hnew r hr
  · exact hnew' r hr

lemma saves_save (payload : κ) (subscriber : String) (events : EventRepository κ) :
    events.Saves [(payload, subscriber)] (events.save payload subscriber) := by
  refine ⟨_, rfl, rfl, ?_⟩
  intro r hr
  rw [List.mem_singleton.mp hr]
  exact Event.isPending_raise _ _ _

end EventRepository

namespace AsynchronousEventPublisher

open EventRepository

/-- One event: a record for each of the subscribers that can handle it. -/
lemma saves_publish (subscribers : List (EventSubscriber κ)) (events : EventRepository κ)
    (payload : κ) :
    events.Saves (addressees subscribers payload) (publish subscribers events payload) := by
  induction subscribers generalizing events with
  | nil => exact .refl events
  | cons s subscribers ih =>
      by_cases hs : s.canHandle payload = true
      · have hadd : addressees (s :: subscribers) payload =
            [(payload, s.className)] ++ addressees subscribers payload := by
          simp [addressees, hs]
        have hpublish : publish (s :: subscribers) events payload =
            publish subscribers (events.save payload s.className) payload := by
          simp [publish, hs]
        rw [hadd, hpublish]
        exact (saves_save payload s.className events).trans (ih _)
      · have hadd : addressees (s :: subscribers) payload = addressees subscribers payload := by
          simp [addressees, hs]
        have hpublish : publish (s :: subscribers) events payload =
            publish subscribers events payload := by
          simp [publish, hs]
        rw [hadd, hpublish]
        exact ih events

/-- **What is saved.**  For each event one record for each of the subscribers that can handle it,
and nothing else. -/
theorem saves_publishAll (subscribers : List (EventSubscriber κ)) (payloads : List κ)
    (events : EventRepository κ) :
    events.Saves (payloads.flatMap (addressees subscribers))
      (publishAll subscribers payloads events) := by
  induction payloads generalizing events with
  | nil => exact .refl events
  | cons payload payloads ih =>
      rw [List.flatMap_cons]
      exact (saves_publish subscribers events payload).trans (ih _)

end AsynchronousEventPublisher

/-! ## What happens to a record -/

namespace EventRepository

variable {events events' events'' : EventRepository κ} {e : Event κ}

/-- Every record is still there, for the same subscriber, and published if it was. -/
def Keeps (events events' : EventRepository κ) : Prop :=
  ∀ r ∈ events.rows, ∃ r' ∈ events'.rows, r'.id = r.id ∧ r'.subscriber = r.subscriber ∧
    (r.timePublished ≠ none → r'.timePublished ≠ none)

lemma Keeps.refl (events : EventRepository κ) : events.Keeps events :=
  fun r hr => ⟨r, hr, rfl, rfl, id⟩

lemma Keeps.trans (h : events.Keeps events') (h' : events'.Keeps events'') :
    events.Keeps events'' := by
  intro r hr
  obtain ⟨r', hr', hid, hsubscriber, hpublished⟩ := h r hr
  obtain ⟨r'', hr'', hid', hsubscriber', hpublished'⟩ := h' r' hr'
  exact ⟨r'', hr'', hid'.trans hid, hsubscriber'.trans hsubscriber, hpublished' ∘ hpublished⟩

lemma Grows.keeps (h : events.Grows events') : events.Keeps events' :=
  fun r hr => ⟨r, h.mem hr, rfl, rfl, id⟩

/-- Saving a published event keeps its record when it is for the same subscriber. -/
lemma Sound.keeps_saveAndFlush (h : events.Sound) (hpublished : e.timePublished ≠ none)
    (hrow : ∃ q ∈ events.rows, q.id = e.id ∧ q.subscriber = e.subscriber) :
    events.Keeps (events.saveAndFlush e) := by
  intro r hr
  by_cases hid : r.id = e.id
  · obtain ⟨q, hq, hqid, hsubscriber⟩ := hrow
    obtain rfl := h.eq_of_id hq hr (hqid.trans hid.symm)
    exact ⟨e, mem_saveAndFlush.mpr (.inr ⟨rfl, q, hq, hqid⟩), hid.symm, hsubscriber.symm,
      fun _ => hpublished⟩
  · exact ⟨r, mem_saveAndFlush.mpr (.inl ⟨hr, hid⟩), rfl, rfl, id⟩

end EventRepository

/-! ## The publisher and the calls of `handle` -/

namespace EventStep

/-- The call of `handle` that a step ends: it returned, threw, or was cut off by the process
stopping.  The record and the class of the subscriber. -/
def call (st : PublisherState κ) : EventStep κ → Option (ℕ × String)
  | handlerReturns _ _ | handlerThrows _ _ | stop =>
    match st.loop with
    | .delivering e (s :: _) _ => some (e.id, s.className)
    | _ => none
  | _ => none

end EventStep

/-- The publisher, and the calls of `handle` so far. -/
structure Deliveries (κ : Type*) where
  publisher : PublisherState κ
  handed : List (ℕ × String)

/-- A step of the publisher, or of one of its calls of a repository. -/
inductive DeliveryStep (κ : Type*)
  | event (a : EventStep κ)
  /-- One `save` of a call of `publish`, for the subscriber at the index. -/
  | save (payload : κ) (i : ℕ)
  /-- A query or a save of the loop throws, which ends its thread. -/
  | loopFails

namespace Deliveries

/-- No event was ever published and the process is not running. -/
def init : Deliveries κ := ⟨AsynchronousEventPublisher.init, []⟩

/-- What a step does, if it is possible. -/
def run [DecidableEq κ] (d : Deliveries κ) : DeliveryStep κ → Option (Deliveries κ)
  | .event a => (a.run d.publisher).map fun st => ⟨st, d.handed ++ (a.call d.publisher).toList⟩
  | .save payload i =>
    match d.publisher.subscribers[i]? with
    | some s =>
      if s.canHandle payload then
        some { d with publisher := { d.publisher with
          events := d.publisher.events.save payload s.className } }
      else none
    | none => none
  | .loopFails =>
    match d.publisher.loop with
    | .stopped => none
    | .delivering _ (_ :: _) _ => none
    | _ => some { d with publisher := { d.publisher with loop := .stopped } }

/-- The step is possible and leads from the first state to the second. -/
def Takes [DecidableEq κ] (d : Deliveries κ) (a : DeliveryStep κ) (d' : Deliveries κ) : Prop :=
  d.run a = some d'

/-- The subscribers have pairwise different classes. -/
def DistinctClasses (d : Deliveries κ) : Prop :=
  (d.publisher.subscribers.map (·.className)).Nodup

instance (d : Deliveries κ) : Decidable d.DistinctClasses :=
  inferInstanceAs (Decidable (d.publisher.subscribers.map (·.className)).Nodup)

variable {d d' : Deliveries κ} {e : Event κ} {s : EventSubscriber κ} {es : List (Event κ)}
  {subscribers : List (EventSubscriber κ)}

/-- The record being delivered is for its subscriber and was not handed over yet; those that were
are published. -/
structure Once (d : Deliveries κ) : Prop where
  coherent : d.publisher.Coherent
  current : ∀ e, d.publisher.loop.current = some e →
    ∃ r ∈ d.publisher.events.rows, r.id = e.id ∧ r.subscriber = e.subscriber
  handed : ∀ c ∈ d.handed, ∃ r ∈ d.publisher.events.rows,
    r.id = c.1 ∧ r.subscriber = c.2 ∧ r.timePublished ≠ none
  nodup : (d.handed.map (·.1)).Nodup
  next : ∀ e s subscribers es, d.publisher.loop = .delivering e (s :: subscribers) es →
    subscribers = [] ∧ s.className = e.subscriber ∧ e.id ∉ d.handed.map (·.1)

lemma once_init : Once (init : Deliveries κ) where
  coherent := PublisherState.coherent_init
  current := by simp [init, AsynchronousEventPublisher.init, EventLoop.current]
  handed := by simp [init]
  nodup := by simp [init]
  next := by simp [init, AsynchronousEventPublisher.init]

/-- The record being delivered is one that its subscriber is handed for the first time. -/
lemma Once.handOver (h : d.Once) (hloop : d.publisher.loop = .delivering e (s :: subscribers) es) :
    (∀ c ∈ d.handed ++ [(e.id, s.className)], ∃ r ∈ d.publisher.events.rows,
        r.id = c.1 ∧ r.subscriber = c.2 ∧ r.timePublished ≠ none) ∧
      ((d.handed ++ [(e.id, s.className)]).map (·.1)).Nodup := by
  obtain ⟨-, hclass, hnot⟩ := h.next e s subscribers es hloop
  have hcurrent : d.publisher.loop.current = some e := by rw [hloop]; rfl
  constructor
  · intro c hc
    rcases List.mem_append.mp hc with hc | hc
    · exact h.handed c hc
    · obtain rfl := List.mem_singleton.mp hc
      obtain ⟨-, -, q, hq, hqid, hpublished⟩ := h.coherent.current e hcurrent
      obtain ⟨r, hr, hid, hsubscriber⟩ := h.current e hcurrent
      obtain rfl := h.coherent.sound.eq_of_id hr hq (hid.trans hqid.symm)
      exact ⟨r, hr, hid, hsubscriber.trans hclass.symm, hpublished⟩
  · rw [List.map_append]
    refine List.nodup_append'.mpr ⟨h.nodup, by simp, ?_⟩
    intro id hid hid'
    obtain rfl := List.mem_singleton.mp hid'
    exact hnot hid

/-- The publisher moves on to a state that keeps the records, with the calls made by now. -/
lemma once_of_keeps {st : PublisherState κ} {calls : List (ℕ × String)}
    (hcalls : ∀ c ∈ calls, ∃ r ∈ d.publisher.events.rows,
      r.id = c.1 ∧ r.subscriber = c.2 ∧ r.timePublished ≠ none)
    (hnodup : (calls.map (·.1)).Nodup) (hcoherent : st.Coherent)
    (hkeeps : d.publisher.events.Keeps st.events)
    (hcurrent : ∀ e, st.loop.current = some e →
      ∃ r ∈ st.events.rows, r.id = e.id ∧ r.subscriber = e.subscriber)
    (hnext : ∀ e s subscribers es, st.loop = .delivering e (s :: subscribers) es →
      subscribers = [] ∧ s.className = e.subscriber ∧ e.id ∉ calls.map (·.1)) :
    Once ⟨st, calls⟩ := by
  refine ⟨hcoherent, hcurrent, ?_, hnodup, hnext⟩
  intro c hc
  obtain ⟨r, hr, hid, hsubscriber, hpublished⟩ := hcalls c hc
  obtain ⟨r', hr', hid', hsubscriber', hpublished'⟩ := hkeeps r hr
  exact ⟨r', hr', hid'.trans hid, hsubscriber'.trans hsubscriber, hpublished' hpublished⟩

/-- Other records and subscribers, with the loop where it was. -/
lemma Once.sameLoop (h : d.Once) {st : PublisherState κ} (hcoherent : st.Coherent)
    (hkeeps : d.publisher.events.Keeps st.events) (hloop : st.loop = d.publisher.loop) :
    Once ⟨st, d.handed⟩ := by
  refine once_of_keeps h.handed h.nodup hcoherent hkeeps ?_ ?_
  · intro e he
    rw [hloop] at he
    obtain ⟨r, hr, hid, hsubscriber⟩ := h.current e he
    obtain ⟨r', hr', hid', hsubscriber', -⟩ := hkeeps r hr
    exact ⟨r', hr', hid'.trans hid, hsubscriber'.trans hsubscriber⟩
  · rw [hloop]
    exact h.next

/-- The loop delivers nothing. -/
lemma Once.idle (h : d.Once) {st : PublisherState κ} (hcoherent : st.Coherent)
    (hkeeps : d.publisher.events.Keeps st.events) (hloop : st.loop.current = none) :
    Once ⟨st, d.handed⟩ := by
  refine once_of_keeps h.handed h.nodup hcoherent hkeeps ?_ ?_
  · simp [hloop]
  · intro e s subscribers es hdelivering
    rw [hdelivering] at hloop
    exact absurd hloop (by simp [EventLoop.current])

/-- The handler is done with the record. -/
lemma Once.handle (h : d.Once) {st : PublisherState κ} {e' : Event κ}
    (hloop : d.publisher.loop = .delivering e (s :: subscribers) es) (hcoherent : st.Coherent)
    (hkeeps : d.publisher.events.Keeps st.events) (hid : e'.id = e.id)
    (hsubscriber : e'.subscriber = e.subscriber)
    (hloop' : st.loop = .delivering e' subscribers es) :
    Once ⟨st, d.handed ++ [(e.id, s.className)]⟩ := by
  obtain ⟨hcalls, hnodup⟩ := h.handOver hloop
  refine once_of_keeps hcalls hnodup hcoherent hkeeps ?_ ?_
  · intro q hq
    rw [hloop'] at hq
    obtain rfl := Option.some.inj hq
    obtain ⟨r, hr, hrid, hrsubscriber⟩ := h.current e (by rw [hloop]; rfl)
    obtain ⟨r', hr', hid', hsubscriber', -⟩ := hkeeps r hr
    exact ⟨r', hr', by rw [hid', hrid, hid], by rw [hsubscriber', hrsubscriber, hsubscriber]⟩
  · -- there was one subscriber, and it was called
    intro q s' subscribers' es' hdelivering
    obtain ⟨rfl, -, -⟩ := h.next e s subscribers es hloop
    rw [hloop'] at hdelivering
    exact absurd hdelivering (by simp)

/-- Of the subscribers at most one has the class that a record names. -/
lemma DistinctClasses.filter_class (h : d.DistinctClasses) {c : String}
    (hfilter : (d.publisher.subscribers.filter fun s => s.className = c) = s :: subscribers) :
    subscribers = [] ∧ s.className = c := by
  have hclass : ∀ t ∈ s :: subscribers, t.className = c := by
    intro t ht
    rw [← hfilter] at ht
    simpa using (List.mem_filter.mp ht).2
  have hnodup : ((s :: subscribers).map (·.className)).Nodup := by
    rw [← hfilter]
    exact List.Nodup.sublist (List.filter_sublist.map _) h
  refine ⟨?_, hclass s List.mem_cons_self⟩
  cases subscribers with
  | nil => rfl
  | cons t subscribers =>
      have hsame : t.className = s.className :=
        (hclass t (by simp)).trans (hclass s (by simp)).symm
      simp only [List.map_cons, List.nodup_cons, hsame, List.mem_cons, true_or, not_true,
        false_and] at hnodup

/-- The next record is published. -/
lemma Once.publishNext (h : d.Once) (hclasses : d.DistinctClasses)
    (hloop : d.publisher.loop = .iterating (e :: es)) (now : Instant) :
    Once ⟨{ d.publisher with
      events := d.publisher.events.saveAndFlush (e.published now)
      loop := .delivering (e.published now)
        (d.publisher.subscribers.filter fun s => s.className = e.subscriber) es }, d.handed⟩ := by
  obtain ⟨herow, hepending⟩ := h.coherent.waiting e (by simp [hloop, EventLoop.waiting])
  have hkeeps : d.publisher.events.Keeps (d.publisher.events.saveAndFlush (e.published now)) :=
    h.coherent.sound.keeps_saveAndFlush (by simp) ⟨e, herow, rfl, rfl⟩
  refine once_of_keeps h.handed h.nodup (h.coherent.publishNext hloop now _) hkeeps ?_ ?_
  · intro q hq
    obtain rfl := Option.some.inj hq
    exact ⟨_, EventRepository.mem_saveAndFlush.mpr (.inr ⟨rfl, e, herow, rfl⟩), rfl, rfl⟩
  · intro q s subscribers es' hdelivering
    simp only [EventLoop.delivering.injEq] at hdelivering
    obtain ⟨rfl, hfilter, -⟩ := hdelivering
    obtain ⟨hnil, hclass⟩ := hclasses.filter_class hfilter
    refine ⟨hnil, hclass, ?_⟩
    -- what was handed over is published, and this record was pending
    intro hmem
    obtain ⟨c, hc, hcid⟩ := List.mem_map.mp hmem
    obtain ⟨r, hr, hid, -, hpublished⟩ := h.handed c hc
    obtain rfl := h.coherent.sound.eq_of_id hr herow (hid.trans hcid)
    exact hpublished (Event.isPending_iff.mp hepending).2.2

/-- What the handler saves keeps the records. -/
lemma Once.keeps_handledRow (h : d.Once) (hcurrent : d.publisher.loop.current = some e)
    (handledAt : Option Instant) :
    d.publisher.events.Keeps (handledRow handledAt e d.publisher.events) := by
  cases handledAt with
  | none => exact .refl _
  | some now =>
      obtain ⟨-, hpublished, -⟩ := h.coherent.current e hcurrent
      refine h.coherent.sound.keeps_saveAndFlush (by simpa using hpublished) ?_
      obtain ⟨r, hr, hid, hsubscriber⟩ := h.current e hcurrent
      exact ⟨r, hr, by simpa using hid, by simpa using hsubscriber⟩

variable [DecidableEq κ]

/-- Every step of the publisher. -/
lemma Once.event (h : d.Once) (hclasses : d.DistinctClasses) {a : EventStep κ}
    {st : PublisherState κ} (hstep : PublisherState.Takes d.publisher a st) :
    Once ⟨st, d.handed ++ (a.call d.publisher).toList⟩ := by
  have hcoherent := h.coherent.step hstep
  cases a with
  | subscribe s =>
      obtain rfl := Option.some.inj hstep
      simpa [EventStep.call] using h.sameLoop hcoherent (.refl _) rfl
  | publish payload reached =>
      obtain rfl := Option.some.inj hstep
      simpa [EventStep.call] using h.sameLoop hcoherent (grows_publish _ _ _).keeps rfl
  | getPendingEvents es =>
      obtain ⟨-, -, rfl⟩ := EventStep.run_getPendingEvents hstep
      simpa [EventStep.call] using h.idle hcoherent (.refl _) rfl
  | published now =>
      obtain ⟨e, es, hloop, rfl⟩ := EventStep.run_published hstep
      simpa [EventStep.call] using h.publishNext hclasses hloop now
  | handlerReturns handledAt payloads =>
      obtain ⟨e, s, subscribers, es, hloop, rfl⟩ := EventStep.run_handlerReturns hstep
      have hkeeps := h.keeps_handledRow (by rw [hloop]; rfl) handledAt
      simpa [EventStep.call, hloop] using h.handle hloop hcoherent
        (hkeeps.trans (grows_foldl_publish _ _ _).keeps) (by simp) (by simp) rfl
  | handlerThrows handledAt stackTrace =>
      obtain ⟨e, s, subscribers, es, hloop, rfl⟩ := EventStep.run_handlerThrows hstep
      simpa [EventStep.call, hloop] using h.handle hloop hcoherent (.refl _)
        (by simp [Event.setError]) (by simp [Event.setError]) rfl
  | saved =>
      obtain ⟨e, es, hloop, rfl⟩ := EventStep.run_saved hstep
      have hcurrent : d.publisher.loop.current = some e := by rw [hloop]; rfl
      obtain ⟨-, hpublished, -⟩ := h.coherent.current e hcurrent
      have hkeeps := h.coherent.sound.keeps_saveAndFlush hpublished (h.current e hcurrent)
      simpa [EventStep.call] using h.idle hcoherent hkeeps rfl
  | sleep =>
      obtain ⟨-, rfl⟩ := EventStep.run_sleep hstep
      simpa [EventStep.call] using h.idle hcoherent (.refl _) rfl
  | stop =>
      obtain rfl := Option.some.inj hstep
      cases hloop : d.publisher.loop with
      | delivering e subscribers es =>
          cases subscribers with
          | nil => simpa [EventStep.call, hloop] using h.idle hcoherent (.refl _) rfl
          | cons s subscribers =>
              obtain ⟨hcalls, hnodup⟩ := h.handOver hloop
              have honce := once_of_keeps hcalls hnodup hcoherent (.refl _)
                (by simp [EventLoop.current]) (by simp)
              simpa [EventStep.call, hloop] using honce
      | _ => simpa [EventStep.call, hloop] using h.idle hcoherent (.refl _) rfl
  | startEventLoop =>
      obtain ⟨-, rfl⟩ := EventStep.run_startEventLoop hstep
      simpa [EventStep.call] using h.idle hcoherent (.refl _) rfl

/-- Every step. -/
theorem Once.step (h : d.Once) (hclasses : d.DistinctClasses) {a : DeliveryStep κ}
    (hstep : Takes d a d') : d'.Once := by
  unfold Takes run at hstep
  cases a with
  | event a =>
      obtain ⟨st, hst, rfl⟩ := Option.map_eq_some_iff.mp hstep
      exact h.event hclasses hst
  | save payload i =>
      simp only at hstep
      split at hstep
      · rename_i s _
        split at hstep
        · obtain rfl := Option.some.inj hstep
          have hgrows := EventRepository.grows_save payload s.className d.publisher.events
          have hsound := h.coherent.sound.save payload s.className
          exact h.sameLoop (h.coherent.grows rfl hgrows hsound) hgrows.keeps rfl
        · exact absurd hstep (by simp)
      · exact absurd hstep (by simp)
  | loopFails =>
      simp only at hstep
      split at hstep
      · exact absurd hstep (by simp)
      · exact absurd hstep (by simp)
      · obtain rfl := Option.some.inj hstep
        exact h.idle (h.coherent.idle rfl rfl rfl) (.refl _) rfl

end Deliveries

open Deliveries

/-- **Every record is delivered at most once, to its subscriber.**  In every run of one event loop
whose subscribers always have pairwise different classes, a call of `publish` that returns saves
exactly one record for each event and each subscriber that can handle it, naming the class of the
subscriber, and no record is passed to `handle` twice or to a subscriber whose class it does not
name. -/
theorem delivered_at_most_once [DecidableEq κ] (as : List (DeliveryStep κ)) (d : Deliveries κ)
    (hrun : Run Takes init as d) (hclasses : ∀ d', Visits Takes init as d' → d'.DistinctClasses) :
    (∀ payloads, ∃ new,
        (publishAll d.publisher.subscribers payloads d.publisher.events).rows =
          d.publisher.events.rows ++ new ∧
        (new.map fun r => (r.payload, r.subscriber)) =
          payloads.flatMap (addressees d.publisher.subscribers) ∧
        (∀ r ∈ new, r.isPending = true) ∧
        ((publishAll d.publisher.subscribers payloads d.publisher.events).rows.map (·.id)).Nodup) ∧
      (d.handed.map (·.1)).Nodup ∧
      ∀ c ∈ d.handed, ∃ r ∈ d.publisher.events.rows, r.id = c.1 ∧ r.subscriber = c.2 := by
  have honce : d.Once :=
    hrun.invariant_of_visits (fun _ _ _ hdistinct h hstep => h.step hdistinct hstep) hclasses
      once_init
  refine ⟨?_, honce.nodup, ?_⟩
  · intro payloads
    obtain ⟨new, hrows, hfor, hnew⟩ :=
      saves_publishAll d.publisher.subscribers payloads d.publisher.events
    have hsound := sound_foldl_publish honce.coherent.sound d.publisher.subscribers payloads
    exact ⟨new, hrows, hfor, hnew, hsound.allocated.nodup⟩
  · intro c hc
    obtain ⟨r, hr, hid, hsubscriber, -⟩ := honce.handed c hc
    exact ⟨r, hr, hid, hsubscriber⟩

/-- `NodeService` as a subscriber. -/
def nodeSubscriber : EventSubscriber DomainEvent where
  className := "class au.gov.ga.geodesy.domain.service.NodeService"
  canHandle
    | .siteLogReceived _ => false
    | .siteUpdated _ => true

/-- A log is uploaded and handled, and the update of its site is published. -/
def handedOverRun : List (DeliveryStep DomainEvent) :=
  [.event (.subscribe corsSiteSubscriber), .event (.subscribe nodeSubscriber),
    .event .startEventLoop, .save siteLogReceivedEvent.payload 0,
    .event (.getPendingEvents [siteLogReceivedEvent]), .event (.published (.ofEpochSecond 1)),
    .event (.handlerReturns (some (.ofEpochSecond 2)) [.siteUpdated ⟨"ALIC"⟩]), .event .saved]

/-- In a run with both services the record of an uploaded log is handed over once. -/
theorem delivered_once_handed_over : ∃ d, Run Takes init handedOverRun d ∧
    (∀ payloads, ∃ new,
        (publishAll d.publisher.subscribers payloads d.publisher.events).rows =
          d.publisher.events.rows ++ new ∧
        (new.map fun r => (r.payload, r.subscriber)) =
          payloads.flatMap (addressees d.publisher.subscribers) ∧
        (∀ r ∈ new, r.isPending = true) ∧
        ((publishAll d.publisher.subscribers payloads d.publisher.events).rows.map (·.id)).Nodup) ∧
      (d.handed.map (·.1)).Nodup ∧
      ∀ c ∈ d.handed, ∃ r ∈ d.publisher.events.rows, r.id = c.1 ∧ r.subscriber = c.2 := by
  have hcomputed : (handedOverRun.foldlM Deliveries.run init).any
      (fun d => d.handed = [(0, corsSiteSubscriber.className)]) = true := by decide
  have hdistinct : (handedOverRun.inits.all fun bs =>
      (bs.foldlM Deliveries.run init).all fun d => decide d.DistinctClasses) = true := by decide
  obtain ⟨d, hrun, -⟩ := exists_run_of_foldlM hcomputed
  refine ⟨d, hrun, delivered_at_most_once handedOverRun d hrun ?_⟩
  intro d' hvisits
  exact of_decide_eq_true (visits_of_foldlM hdistinct d' hvisits)

end Geodesy
