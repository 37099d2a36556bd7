import Geodesy.Event.Publisher
import Geodesy.Networks.Store
import Mathlib.Data.Fintype.Basic

/-!
# Adding sites to networks

`CorsSiteEndpoint.addToNetwork` loads a site, lets it handle the command, publishes the event that
comes of it and saves the site.  Requests take these steps in any order among each other.  The
events are published in a transaction of their own, before the site is saved, and the save is
refused when the site was changed since it was loaded.

What is stored of a period without dates is read back as no period at all (`reload`).
-/

namespace Geodesy.Networks

/-- `AddCorsSiteToNetwork`. -/
structure AddCorsSiteToNetwork where
  networkId : ℕ
  period : EffectiveDates
  deriving DecidableEq, Repr

/-- `CorsSiteAddedToNetwork`. -/
structure CorsSiteAddedToNetwork where
  siteId : ℕ
  networkId : ℕ
  period : Option EffectiveDates
  deriving DecidableEq, Repr

/-- The tenancy as its row reads back. -/
def NetworkTenancy.reload (t : NetworkTenancy) : NetworkTenancy :=
  { t with period := EffectiveDates.reload t.period }

/-- The event as its row reads back. -/
def CorsSiteAddedToNetwork.reload (e : CorsSiteAddedToNetwork) : CorsSiteAddedToNetwork :=
  { e with period := EffectiveDates.reload e.period }

/-- The tenancy that the event is about. -/
def CorsSiteAddedToNetwork.tenancy (e : CorsSiteAddedToNetwork) : NetworkTenancy :=
  ⟨e.networkId, e.period⟩

/-- `CorsSite.handle(AddCorsSiteToNetwork)`. -/
def CorsSite.handle (site : CorsSite) (command : AddCorsSiteToNetwork) :
    CorsSite × Option CorsSiteAddedToNetwork :=
  let tenancy : NetworkTenancy := ⟨command.networkId, some command.period⟩
  if !site.networkTenancies.any (tenancy.equals ·) then
    ({ site with networkTenancies := site.networkTenancies ++ [tenancy] },
      some ⟨site.id, command.networkId, some command.period⟩)
  else (site, none)

/-- A request, its dates parsed. -/
structure Request where
  siteId : ℕ
  networkId : ℕ
  effectiveFrom : Option Instant
  effectiveTo : Option Instant
  deriving DecidableEq, Repr

namespace Request

/-- The command of the request. -/
def command (q : Request) : AddCorsSiteToNetwork :=
  ⟨q.networkId, ⟨q.effectiveFrom, q.effectiveTo⟩⟩

/-- The event that the request would raise. -/
def event (q : Request) : CorsSiteAddedToNetwork := ⟨q.siteId, q.networkId, some q.command.period⟩

end Request

/-- How far a request has come, with its copy of the site and the event that was raised. -/
inductive Progress
  | pending
  | loaded (site : Option CorsSite)
  | handled (site : CorsSite) (event : Option CorsSiteAddedToNetwork)
  | published (site : CorsSite) (event : Option CorsSiteAddedToNetwork)
  | ok (event : Option CorsSiteAddedToNetwork)
  | refused (event : Option CorsSiteAddedToNetwork)
  | badRequest
  | failed
  deriving DecidableEq, Repr

/-- The sites by key, the events, and the requests. -/
structure AddState (ρ : Type*) where
  sites : ℕ → Option CorsSite
  events : EventRepository CorsSiteAddedToNetwork
  progress : ρ → Progress

/-- The steps of a request. -/
inductive AddStep (ρ : Type*)
  | load (r : ρ)
  | handle (r : ρ)
  | publish (r : ρ)
  | save (r : ρ)
  deriving DecidableEq, Repr

/-- What the requests work with: the networks that exist and the subscribers. -/
structure Setting (ρ : Type*) where
  requests : ρ → Request
  networkExists : ℕ → Bool
  subscribers : List (EventSubscriber CorsSiteAddedToNetwork)

/-- How many subscribers accept the event, and so how many rows a call of `publish` stores. -/
def Setting.accepting {ρ : Type*} (w : Setting ρ) (e : CorsSiteAddedToNetwork) : ℕ :=
  w.subscribers.countP (·.canHandle e)

namespace AddState

variable {ρ : Type*} [DecidableEq ρ]

/-- The request has come so far. -/
def set (st : AddState ρ) (r : ρ) (p : Progress) : AddState ρ :=
  { st with progress := Function.update st.progress r p }

/-- The row of a site that was saved over `stored`: the version counts the changes of the
tenancies. -/
def savedRow (stored copy : CorsSite) : CorsSite :=
  { copy with
    version :=
      if copy.networkTenancies = stored.networkTenancies then stored.version
      else stored.version + 1
    networkTenancies := copy.networkTenancies.map (·.reload) }

/-- One step of one of the requests. -/
def run (w : Setting ρ) (st : AddState ρ) : AddStep ρ → Option (AddState ρ)
  | .load r =>
    match st.progress r with
    | .pending => some (st.set r (.loaded (st.sites (w.requests r).siteId)))
    | _ => none
  | .handle r =>
    match st.progress r with
    | .loaded site =>
      if !w.networkExists (w.requests r).networkId then some (st.set r .badRequest)
      else
        match site with
        -- a null site
        | none => some (st.set r .failed)
        | some site =>
          let (site, event) := site.handle (w.requests r).command
          some (st.set r (.handled site event))
    | _ => none
  | .publish r =>
    match st.progress r with
    | .handled site event =>
      some { st.set r (.published site event) with
        events := event.elim st.events
          (AsynchronousEventPublisher.publish w.subscribers st.events) }
    | _ => none
  | .save r =>
    match st.progress r with
    | .published site event =>
      match st.sites site.id with
      | none => none
      | some stored =>
        if site.version = stored.version then
          some { st.set r (.ok event) with
            sites := Function.update st.sites site.id (some (savedRow stored site)) }
        else some (st.set r (.refused event))
    | _ => none

/-- The step relation. -/
def Takes (w : Setting ρ) (st : AddState ρ) (a : AddStep ρ) (st' : AddState ρ) : Prop :=
  st.run w a = some st'

end AddState

end Geodesy.Networks
