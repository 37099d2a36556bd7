import Geodesy.Event.Repository
import Geodesy.Library.TransitionSystem

/-!
# The asynchronous event publisher

`AsynchronousEventPublisher` has one thread, the event loop: it loads the pending events, and for
each of them publishes the row, calls the subscribers it is meant for and saves it again.  Requests
publish events meanwhile, and so do the handlers.

An `EventStep` is what happens between two saves.  Each handler runs in its own transaction: what it
saved is there when it returns and is gone when it throws, but the loaded event is a Java object and
keeps the time that `handled` gave it.  The loop can stop anywhere, and with it the process: the
rows stay, the subscribers and the loaded events do not.
-/

namespace Geodesy

variable {κ : Type*}

/-- An `EventSubscriber` with the name of its class, which rows refer to it by. -/
structure EventSubscriber (κ : Type*) where
  className : String
  canHandle : κ → Bool

/-- Where the event loop is. -/
inductive EventLoop (κ : Type*)
  /-- No thread is running. -/
  | stopped
  /-- `Thread.sleep(3000)`. -/
  | sleeping
  /-- Between two iterations of the `for`, with the events still to be published. -/
  | iterating (es : List (Event κ))
  /-- Inside an iteration, with the subscribers that are still to handle the event. -/
  | delivering (e : Event κ) (subscribers : List (EventSubscriber κ)) (es : List (Event κ))

namespace EventLoop

/-- The event that is being delivered. -/
def current : EventLoop κ → Option (Event κ)
  | delivering e _ _ => some e
  | _ => none

/-- The loaded events whose turn is still to come. -/
def waiting : EventLoop κ → List (Event κ)
  | iterating es => es
  | delivering _ _ es => es
  | _ => []

end EventLoop

/-- The table of events, and in memory the subscribers and the loop. -/
structure PublisherState (κ : Type*) where
  events : EventRepository κ
  subscribers : List (EventSubscriber κ)
  loop : EventLoop κ

namespace AsynchronousEventPublisher

/-- No event was ever published and the process is not running. -/
def init : PublisherState κ := ⟨⟨[], 0⟩, [], .stopped⟩

/-- `AsynchronousEventPublisher.publish` for one event: a row for each of the subscribers that can
handle it. -/
def publish (subscribers : List (EventSubscriber κ)) (events : EventRepository κ) (payload : κ) :
    EventRepository κ :=
  subscribers.foldl
    (fun events s => if s.canHandle payload then events.save payload s.className else events) events

/-- `AsynchronousEventPublisher.handled` when a handler called it, on the event. -/
def handledEvent (handledAt : Option Instant) (e : Event κ) : Event κ :=
  match handledAt with
  | some now => e.handled now
  | none => e

/-- `AsynchronousEventPublisher.handled` when a handler called it, on the repository. -/
def handledRow (handledAt : Option Instant) (e : Event κ) (events : EventRepository κ) :
    EventRepository κ :=
  match handledAt with
  | some now => events.saveAndFlush (e.handled now)
  | none => events

end AsynchronousEventPublisher

open AsynchronousEventPublisher

/-- One step of the publisher. -/
inductive EventStep (κ : Type*)
  /-- `subscribe`. -/
  | subscribe (s : EventSubscriber κ)
  /-- A call of `publish` that got through the first `reached` subscribers. -/
  | publish (payload : κ) (reached : ℕ)
  /-- `getPendingEvents`, with the rows in the order in which the query lists them. -/
  | getPendingEvents (es : List (Event κ))
  /-- The next iteration: `published` and the first `saveAndFlush`. -/
  | published (now : Instant)
  /-- A handler that called `handled` at the time, or never, and `publish` for the events. -/
  | handlerReturns (handledAt : Option Instant) (payloads : List κ)
  /-- A handler that throws, its transaction rolled back. -/
  | handlerThrows (handledAt : Option Instant) (stackTrace : String)
  /-- The last `saveAndFlush` of the iteration. -/
  | saved
  /-- The end of the `for`. -/
  | sleep
  /-- The process stops. -/
  | stop
  /-- `startEventLoop`. -/
  | startEventLoop

/-- What a step does, if it is possible. -/
def EventStep.run [DecidableEq κ] (st : PublisherState κ) :
    EventStep κ → Option (PublisherState κ)
  | subscribe s => some { st with subscribers := st.subscribers ++ [s] }
  | publish payload reached =>
    some { st with
      events := AsynchronousEventPublisher.publish (st.subscribers.take reached) st.events payload }
  | getPendingEvents es =>
    match st.loop with
    | .sleeping =>
      if es.Perm st.events.getPendingEvents then some { st with loop := .iterating es } else none
    | _ => none
  | published now =>
    match st.loop with
    | .iterating (e :: es) =>
      some { st with
        events := st.events.saveAndFlush (e.published now)
        loop := .delivering (e.published now)
          (st.subscribers.filter fun s => s.className = e.subscriber) es }
    | _ => none
  | handlerReturns handledAt payloads =>
    match st.loop with
    | .delivering e (_ :: subscribers) es =>
      some { st with
        events := payloads.foldl (AsynchronousEventPublisher.publish st.subscribers)
          (handledRow handledAt e st.events)
        loop := .delivering (handledEvent handledAt e) subscribers es }
    | _ => none
  | handlerThrows handledAt stackTrace =>
    match st.loop with
    | .delivering e (_ :: subscribers) es =>
      some { st with
        loop := .delivering ((handledEvent handledAt e).setError stackTrace) subscribers es }
    | _ => none
  | saved =>
    match st.loop with
    | .delivering e [] es =>
      some { st with events := st.events.saveAndFlush e, loop := .iterating es }
    | _ => none
  | sleep =>
    match st.loop with
    | .iterating [] => some { st with loop := .sleeping }
    | _ => none
  | stop => some { st with subscribers := [], loop := .stopped }
  | startEventLoop =>
    match st.loop with
    | .stopped => some { st with loop := .sleeping }
    | _ => none

namespace PublisherState

/-- The step is possible and leads from the first state to the second. -/
def Takes [DecidableEq κ] (st : PublisherState κ) (a : EventStep κ) (st' : PublisherState κ) :
    Prop :=
  a.run st = some st'

/-- A record is accounted for: it is handled, pending, being delivered or failed for good. -/
def Accounts [DecidableEq κ] (st : PublisherState κ) (r : Event κ) : Prop :=
  r.timeHandled ≠ none ∨ r ∈ st.events.getPendingEvents ∨
    st.loop.current.map (·.id) = some r.id ∨ r.hasFailed = true

/-- Every record is accounted for. -/
def NoEventLost [DecidableEq κ] (st : PublisherState κ) : Prop :=
  ∀ r ∈ st.events.rows, st.Accounts r

instance [DecidableEq κ] (st : PublisherState κ) : Decidable st.NoEventLost :=
  inferInstanceAs (Decidable (∀ r ∈ st.events.rows,
    r.timeHandled ≠ none ∨ r ∈ st.events.getPendingEvents ∨
      st.loop.current.map (·.id) = some r.id ∨ r.hasFailed = true))

/-- The loop has the record, or would load it. -/
def PickedUp (st : PublisherState κ) (id : ℕ) : Prop :=
  id ∈ st.events.getPendingEvents.map (·.id) ∨ st.loop.current.map (·.id) = some id

/-- The record is picked up, now or at the end of some run from here. -/
def CanBePickedUp [DecidableEq κ] (st : PublisherState κ) (id : ℕ) : Prop :=
  ∃ as st', TransitionSystem.Run Takes st as st' ∧ st'.PickedUp id

end PublisherState

/-- The record that a step gives up on: the last save of an iteration whose event was not handled,
or the process stopping while it delivers an event whose row is not handled. -/
def EventStep.abandons (st : PublisherState κ) : EventStep κ → Option ℕ
  | saved =>
    match st.loop with
    | .delivering e [] _ => if e.timeHandled.isNone then some e.id else none
    | _ => none
  | stop =>
    match st.loop with
    | .delivering e _ _ =>
      if st.events.rows.any fun r => r.id = e.id && r.timeHandled.isNone then some e.id else none
    | _ => none
  | _ => none

end Geodesy
