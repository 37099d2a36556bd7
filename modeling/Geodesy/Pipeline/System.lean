import Geodesy.Event.AtMostOnce
import Geodesy.Event.HandlerTransaction
import Geodesy.Service.System

/-!
# The services on the event loop

A `World` takes its steps one after the other, with the events already in place.  A `Pipeline` is
the system as it runs: uploads come from requests at any time, the event table says what is still to
be handled, and the handlers run one by one in the loop.  What a service publishes is what its step
adds to the list `published` of the store.

A handler commits at one moment, but it reads the site log before that, in several queries (the item
sets are fetched one by one), and under read committed isolation an upload may come in between.  So
while no log of the station was uploaded since the loop took the event, the handler works on the
stored log; from then on the log it works on is any log of the station (`Pipeline.MaySee`).  The
other tables that the handlers read are written by handlers only.

An upload is one step here: uploads of one station do not overlap.  Where the first two uploads of a
station do, two logs of it stay stored, and the query for the log throws from then on.
-/

namespace Geodesy

open TransitionSystem AsynchronousEventPublisher

/-- `SiteLogReceivedNotificationService` as a subscriber. -/
def siteLogReceivedNotificationSubscriber : EventSubscriber DomainEvent where
  className := "class au.gov.ga.geodesy.domain.service.SiteLogReceivedNotificationService"
  canHandle
    | .siteLogReceived _ => true
    | .siteUpdated _ => false

/-- The station whose log the event is about. -/
def DomainEvent.receivedStation : DomainEvent → Option String
  | siteLogReceived e => some e.fourCharacterId
  | siteUpdated _ => none

/-- The station whose update the event is about. -/
def DomainEvent.updatedStation : DomainEvent → Option String
  | siteLogReceived _ => none
  | siteUpdated e => some e.fourCharacterId

/-- A step that the event loop or the process takes by itself. -/
def EventStep.ofLoop {κ : Type*} : EventStep κ → Bool
  | publish _ _ | handlerReturns _ _ | handlerThrows _ _ => false
  | _ => true

namespace World

/-- The world with other site logs. -/
def withLogs (w : World) (siteLogs : List SiteLog) : World :=
  { w with store := { w.store with siteLogs } }

end World

/-- The events that were published between two states of the store. -/
def Store.raised (st st' : Store) : List DomainEvent := st'.published.drop st.published.length

/-- The publisher and the tables of the services, and whether a log of the station whose event is
being delivered was uploaded since the loop took the event. -/
structure Pipeline where
  publisher : PublisherState DomainEvent
  world : World
  overtaken : Bool

/-- One step of the system. -/
inductive PipelineStep
  /-- A step of the loop or of the process. -/
  | event (a : EventStep DomainEvent)
  /-- A request uploads a log. -/
  | upload (siteLog : SiteLog)
  /-- The transaction of `CorsSiteService.handle` commits, having read the given log. -/
  | siteLogReceived (load : LoadOrder) (rows : RowOrder) (seen : SiteLog) (now : Instant)
  /-- The transaction of `NodeService.handle` commits. -/
  | siteUpdated (rows : RowOrder) (now : Instant)
  /-- `SiteLogReceivedNotificationService.handle` returns. -/
  | notified (now : Instant)
  /-- A handler throws and is rolled back. -/
  | throws (handledAt : Option Instant) (stackTrace : String)

namespace Pipeline

/-- Nothing stored, nothing published, and no process. -/
def init : Pipeline := ⟨AsynchronousEventPublisher.init, World.init, false⟩

/-- The event that the loop is delivering to the subscriber of the class. -/
def delivers (p : Pipeline) (className : String) : Option DomainEvent :=
  match p.publisher.loop with
  | .delivering e (s :: _) _ => if s.className = className then some e.payload else none
  | _ => none

/-- The log that a handler works on: the stored one, or any log of the station once the event was
overtaken. -/
def MaySee (p : Pipeline) (id : String) (seen : SiteLog) : Prop :=
  p.world.store.siteLogs.filter (·.fourCharacterId = id) = [seen] ∨
    p.overtaken = true ∧ seen.fourCharacterId = id ∧ seen.reload = seen

instance (p : Pipeline) (id : String) (seen : SiteLog) : Decidable (p.MaySee id seen) :=
  inferInstanceAs (Decidable (_ ∨ _))

/-- The handler's transaction commits and leaves the world. -/
def commit (p : Pipeline) (w : World) (now : Instant) : Option Pipeline :=
  ((EventStep.handlerReturns (some now) (p.world.store.raised w.store)).run p.publisher).map
    fun publisher => { p with publisher, world := w }

/-- What a step does, if it is possible.  An upload is one step: two of one station never
overlap. -/
def run (lib : ListUtils) (p : Pipeline) : PipelineStep → Option Pipeline
  | .event a =>
    if a.ofLoop then
      (a.run p.publisher).map fun publisher =>
        { p with
          publisher
          overtaken := match a with
            | .published _ => false
            | _ => p.overtaken }
    else none
  | .upload siteLog =>
    match CorsSiteLogService.upload siteLog p.world.store with
    | .ok st => some
      { publisher := { p.publisher with
          events := publishAll p.publisher.subscribers (p.world.store.raised st)
            p.publisher.events }
        world := p.world.after (.upload siteLog) st
        overtaken := p.overtaken ||
          decide (p.publisher.loop.current.bind (·.payload.receivedStation)
            = some siteLog.fourCharacterId) }
    | .error _ => none
  | .siteLogReceived load rows seen now =>
    match p.delivers corsSiteSubscriber.className with
    | some (.siteLogReceived e) =>
      if p.MaySee e.fourCharacterId seen then
        let w := p.world.withLogs [seen]
        match CorsSiteService.handle lib load rows e w.store with
        | .ok st =>
          p.commit ((w.after (.siteLogReceived load rows e) st).withLogs p.world.store.siteLogs) now
        | .error _ => none
      else none
    | _ => none
  | .siteUpdated rows now =>
    match p.delivers nodeSubscriber.className with
    | some (.siteUpdated e) =>
      match NodeService.handle rows e p.world.store with
      | .ok st => p.commit (p.world.after (.siteUpdated rows e) st) now
      | .error _ => none
    | _ => none
  | .notified now =>
    match p.delivers siteLogReceivedNotificationSubscriber.className with
    | some _ => p.commit p.world now
    | none => none
  | .throws handledAt stackTrace =>
    ((EventStep.handlerThrows handledAt stackTrace).run p.publisher).map fun publisher =>
      { p with publisher }

/-- The step is possible and leads from the first state to the second. -/
def Takes (lib : ListUtils) (p : Pipeline) (a : PipelineStep) (p' : Pipeline) : Prop :=
  p.run lib a = some p'

end Pipeline

end Geodesy
