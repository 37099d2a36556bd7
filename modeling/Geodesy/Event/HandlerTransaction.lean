import Geodesy.Event.Delivery
import Geodesy.Library.Transaction

/-!
# Handlers in their transactions

A handler of `SiteLogReceived` or `SiteUpdated` makes its repository calls, then
`EventPublisher.handled` and for `CorsSiteService` a `publish`.  Its transaction may fail at any of
these calls, or at the commit.  `handled` marks the very event that the loop holds and saves again
when the iteration ends, so a transaction that fails from `handled` on is undone in the database and
not in that event.

`LoopState` is the publisher with the tables that the handlers write, the transactions that ended
and the records whose iteration ended.  A transaction is one of the steps `handlerReturns` and
`handlerThrows` of the publisher (`takes_of_handle`).
-/

namespace Geodesy

open TransitionSystem AsynchronousEventPublisher Transaction

variable {κ σ : Type*}

/-! ## The calls of a handler -/

/-- A call that a handler makes in its transaction. -/
inductive HandlerCall (κ σ : Type*)
  /-- A call of a repository other than that of the events, or of the notification port. -/
  | repository (write : σ → σ)
  /-- `EventPublisher.handled` for the event that is being handled. -/
  | handled (now : Instant)
  /-- `EventPublisher.publish`. -/
  | publish (payload : κ)

/-- What a call does to the event and to the database. -/
def HandlerCall.toCall (subscribers : List (EventSubscriber κ)) :
    HandlerCall κ σ → Call (EventRepository κ × σ) (Event κ)
  | repository write => .ofWrite fun d => (d.1, write d.2)
  | handled now => ⟨Event.handled now, fun e d => (d.1.saveAndFlush e, d.2)⟩
  | publish payload =>
    .ofWrite fun d => (AsynchronousEventPublisher.publish subscribers d.1 payload, d.2)

/-- The calls of a handler: its repositories, `handled`, and then `publish` for some events. -/
def handlerCalls (repositories : List (σ → σ)) (now : Instant) (payloads : List κ) :
    List (HandlerCall κ σ) :=
  repositories.map .repository ++ .handled now :: payloads.map .publish

/-- `CorsSiteService.handle`. -/
def CorsSiteService.handlerPublishes (e : SiteLogReceived) : List DomainEvent :=
  [.siteUpdated ⟨e.fourCharacterId⟩]

/-- `NodeService.handle`. -/
def NodeService.handlerPublishes (_ : SiteUpdated) : List DomainEvent := []

/-- `EventNotificationService.handle`. -/
def EventNotificationService.handlerPublishes (_ : SiteLogReceived) : List DomainEvent := []

/-- What the handler of the subscriber with the given class publishes.  The only other subscriber of
`SiteLogReceived` is a notification service. -/
def handlerPublishes (className : String) : DomainEvent → List DomainEvent
  | .siteLogReceived e =>
    if className = corsSiteSubscriber.className then CorsSiteService.handlerPublishes e
    else EventNotificationService.handlerPublishes e
  | .siteUpdated e => NodeService.handlerPublishes e

section Calls

variable (subscribers : List (EventSubscriber κ)) (repositories : List (σ → σ)) (now : Instant)
  (payloads : List κ) (events : EventRepository κ) (tables : σ) (e : Event κ)

/-- The calls of a handler with what they do. -/
def handlerTransaction : List (Call (EventRepository κ × σ) (Event κ)) :=
  (handlerCalls repositories now payloads).map (·.toCall subscribers)

/-- A handler whose transaction commits marked its event, saved it and then published. -/
lemma perform_handler_committed :
    perform (handlerTransaction subscribers repositories now payloads) none (events, tables) e =
      ⟨(payloads.foldl (AsynchronousEventPublisher.publish subscribers)
          (events.saveAndFlush (e.handled now)),
        repositories.foldl (fun d write => write d) tables), e.handled now, true⟩ := by
  have hrepositories : ∀ (ws : List (σ → σ)) (d : EventRepository κ × σ),
      ws.foldl (fun d write => ((d.1, write d.2) : EventRepository κ × σ)) d =
        (d.1, ws.foldl (fun d write => write d) d.2) := by
    intro ws
    induction ws with
    | nil => intro d; rfl
    | cons w ws ih => intro d; exact ih _
  have hpublish : ∀ (ps : List κ) (d : EventRepository κ × σ),
      ps.foldl (fun d p => ((AsynchronousEventPublisher.publish subscribers d.1 p, d.2) :
        EventRepository κ × σ)) d =
        (ps.foldl (AsynchronousEventPublisher.publish subscribers) d.1, d.2) := by
    intro ps
    induction ps with
    | nil => intro d; rfl
    | cons p ps ih => intro d; exact ih _
  rw [perform_committed]
  simp only [handlerTransaction, handlerCalls, List.map_append, List.map_cons, List.map_map,
    Function.comp_def, HandlerCall.toCall]
  rw [Call.writeAll_append, Call.rememberAll_append, Call.writeAll_cons, Call.rememberAll_cons,
    Call.writeAll_ofWrite, Call.rememberAll_ofWrite, Call.writeAll_ofWrite,
    Call.rememberAll_ofWrite, hrepositories, hpublish]

/-- A handler whose transaction fails leaves the database alone; it marked its event when it came
as far as the call of `handled`. -/
lemma perform_handler_failed (k : ℕ) :
    perform (handlerTransaction subscribers repositories now payloads) (some k) (events, tables) e =
      ⟨(events, tables), if repositories.length ≤ k then e.handled now else e, false⟩ := by
  rw [perform_failed]
  simp only [handlerTransaction, handlerCalls, List.map_append, List.map_cons, List.map_map,
    Function.comp_def, HandlerCall.toCall]
  rw [List.take_append, List.length_map, Call.rememberAll_append, ← List.map_take,
    Call.rememberAll_ofWrite]
  split
  · rename_i hle
    obtain ⟨j, rfl⟩ := Nat.exists_eq_add_of_le hle
    have hj : repositories.length + j + 1 - repositories.length = j + 1 := by omega
    rw [hj, List.take_succ_cons, Call.rememberAll_cons, ← List.map_take, Call.rememberAll_ofWrite]
  · rename_i hlt
    have hzero : k + 1 - repositories.length = 0 := by omega
    rw [hzero, List.take_zero, Call.rememberAll_nil]

end Calls

/-! ## The event loop with its transactions -/

/-- A handler's transaction that is over: its record, the number of calls before `handled`, and the
call it failed at. -/
structure HandlerAttempt where
  id : ℕ
  handledCall : ℕ
  failure : Option ℕ
  deriving DecidableEq, Repr

namespace HandlerAttempt

/-- It committed. -/
def committed (t : HandlerAttempt) : Bool := t.failure.isNone

/-- It failed in `handled` or later: at its flush, in the publish that follows or at the commit. -/
def failedFromHandledOn (t : HandlerAttempt) : Bool := t.failure.any (t.handledCall ≤ ·)

end HandlerAttempt

/-- The publisher, the tables that the handlers write, the transactions that are over and the
records whose iteration ended with the last `saveAndFlush`. -/
structure LoopState (σ : Type*) where
  publisher : PublisherState DomainEvent
  tables : σ
  attempts : List HandlerAttempt
  finished : List ℕ

/-- A step of the publisher that is not a handler's, or a handler's transaction. -/
inductive LoopStep (σ : Type*)
  | event (a : EventStep DomainEvent)
  | handle (repositories : List (σ → σ)) (now : Instant) (failure : Option ℕ) (stackTrace : String)

/-- A step of a handler. -/
def EventStep.ofHandler : EventStep κ → Bool
  | handlerReturns _ _ | handlerThrows _ _ => true
  | _ => false

/-- The record whose iteration a step ends with its last `saveAndFlush`. -/
def EventStep.finishes (st : PublisherState κ) : EventStep κ → Option ℕ
  | saved => st.loop.current.map (·.id)
  | _ => none

/-- What a handler's transaction is for the publisher: it commits and the handler returns, or it
fails and the handler throws, having called `handled` or not. -/
def EventStep.ofTransaction (handledCall : ℕ) (now : Instant) (payloads : List κ)
    (stackTrace : String) : Option ℕ → EventStep κ
  | none => handlerReturns (some now) payloads
  | some k => handlerThrows (if handledCall ≤ k then some now else none) stackTrace

namespace LoopState

/-- Nothing happened yet. -/
def init (tables : σ) : LoopState σ := ⟨AsynchronousEventPublisher.init, tables, [], []⟩

/-- What a step does, if it is possible. -/
def run (st : LoopState σ) : LoopStep σ → Option (LoopState σ)
  | .event a =>
    if a.ofHandler then none
    else (a.run st.publisher).map fun publisher =>
      { st with publisher, finished := st.finished ++ (a.finishes st.publisher).toList }
  | .handle repositories now failure stackTrace =>
    match st.publisher.loop with
    | .delivering e (s :: subscribers) es =>
      let ended := perform (handlerTransaction st.publisher.subscribers repositories now
        (handlerPublishes s.className e.payload)) failure (st.publisher.events, st.tables) e
      some { st with
        publisher := { st.publisher with
          events := ended.database.1
          loop := .delivering (if ended.committed then ended.memory
            else ended.memory.setError stackTrace) subscribers es }
        tables := ended.database.2
        attempts := st.attempts ++ [⟨e.id, repositories.length, failure⟩] }
    | _ => none

/-- The step is possible and leads from the first state to the second. -/
def Takes (st : LoopState σ) (a : LoopStep σ) (st' : LoopState σ) : Prop := st.run a = some st'

/-- A transaction for the record committed. -/
def Committed (st : LoopState σ) (id : ℕ) : Prop :=
  ∃ t ∈ st.attempts, t.id = id ∧ t.committed = true

/-- A transaction for the record failed from `handled` on. -/
def FailedFromHandledOn (st : LoopState σ) (id : ℕ) : Prop :=
  ∃ t ∈ st.attempts, t.id = id ∧ t.failedFromHandledOn = true

/-- The records whose iteration ended are recorded as handled if and only if their handler's
transaction committed. -/
def Truthful (st : LoopState σ) : Prop :=
  ∀ r ∈ st.publisher.events.rows, r.id ∈ st.finished →
    (r.timeHandled ≠ none ↔ st.Committed r.id)

/-- The step ends the iteration of a record whose handler's transaction failed from `handled` on,
and for which none committed. -/
def Misrecords (st : LoopState σ) (a : LoopStep σ) : Prop :=
  ∃ id, (match a with | .event b => b.finishes st.publisher | .handle .. => none) = some id ∧
    st.FailedFromHandledOn id ∧ ¬ st.Committed id

variable {st st' : LoopState σ}

/-- A handler's transaction, seen from the publisher: the handler returns or throws. -/
lemma takes_of_handle {repositories : List (σ → σ)} {now : Instant} {failure : Option ℕ}
    {stackTrace : String} (h : Takes st (.handle repositories now failure stackTrace) st') :
    ∃ e s subscribers es, st.publisher.loop = .delivering e (s :: subscribers) es ∧
      st'.attempts = st.attempts ++ [⟨e.id, repositories.length, failure⟩] ∧
      st'.finished = st.finished ∧
      PublisherState.Takes st.publisher
        (.ofTransaction repositories.length now (handlerPublishes s.className e.payload) stackTrace
          failure) st'.publisher := by
  unfold Takes run at h
  simp only at h
  split at h
  · rename_i e s subscribers es hloop
    refine ⟨e, s, subscribers, es, hloop, ?_⟩
    cases failure with
    | none =>
        rw [perform_handler_committed] at h
        obtain rfl := Option.some.inj h
        refine ⟨rfl, rfl, ?_⟩
        simp [PublisherState.Takes, EventStep.ofTransaction, EventStep.run, hloop, handledEvent,
          handledRow]
    | some k =>
        rw [perform_handler_failed] at h
        obtain rfl := Option.some.inj h
        refine ⟨rfl, rfl, ?_⟩
        by_cases hk : repositories.length ≤ k <;>
          simp [PublisherState.Takes, EventStep.ofTransaction, EventStep.run, hloop, handledEvent,
            hk]
  · exact absurd h (by simp)

/-- The other steps are the publisher's own. -/
lemma takes_of_event {a : EventStep DomainEvent} (h : Takes st (.event a) st') :
    a.ofHandler = false ∧ PublisherState.Takes st.publisher a st'.publisher ∧
      st'.attempts = st.attempts ∧
      st'.finished = st.finished ++ (a.finishes st.publisher).toList := by
  unfold Takes run at h
  simp only at h
  split at h
  · exact absurd h (by simp)
  · rename_i hhandler
    obtain ⟨publisher, hrun, rfl⟩ := Option.map_eq_some_iff.mp h
    exact ⟨by simpa using hhandler, hrun, rfl, rfl⟩

end LoopState

end Geodesy
