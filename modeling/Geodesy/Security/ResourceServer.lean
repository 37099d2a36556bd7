import Geodesy.Networks.Sites
import Geodesy.Security.Authorities
import Geodesy.Service.System

/-!
# The resource server

A request passes two gates.  `ResourceServerConfig` lists patterns of methods and paths, and the
first one that matches says who may pass; the endpoint behind it may then ask `EndpointSecurity`.
The requests that get through and the handlers of the event loop change the tables one after the
other (`Server.Takes`).

Spring's `AntPathRequestMatcher` is a parameter: it is enough that a pattern without wildcards
matches no other path than itself.  Resources that Spring Data exports have no code here.  They
read under the safe methods, and a `POST` to `/newCorsSiteRequests` or to `/userRegistrations`
creates a row of that table; of every other write nothing is assumed, it may leave any tables at
all (`Server.Serves`).
-/

namespace Geodesy.Security

open Networks

/-! ## `ResourceServerConfig` -/

/-- `org.springframework.http.HttpMethod`. -/
inductive HttpMethod
  | GET
  | HEAD
  | POST
  | PUT
  | PATCH
  | DELETE
  | OPTIONS
  | TRACE
  deriving DecidableEq, Repr

/-- The methods that only read. -/
def HttpMethod.isSafe : HttpMethod → Bool
  | GET | HEAD | OPTIONS | TRACE => true
  | _ => false

/-- Who may pass. -/
inductive Access
  | hasAuthority (authority : String)
  | authenticated
  | permitAll
  | denyAll
  deriving DecidableEq, Repr

/-- Whether a caller passes, who may be anonymous. -/
def Access.admits (caller : Option Authentication) : Access → Bool
  | hasAuthority authority => caller.any (Security.hasAuthority · authority)
  | authenticated => caller.isSome
  | permitAll => true
  | denyAll => false

/-- An `antMatchers` line. -/
structure Rule where
  method : HttpMethod
  antPattern : String
  access : Access
  deriving DecidableEq, Repr

/-- Spring's matcher of paths, as the firewall normalises them. -/
structure AntPathRequestMatcher where
  matchesPath : String → String → Bool
  literal : ∀ antPattern path, (∀ c ∈ antPattern.toList, c ∉ ['*', '?', '\x7b', '\x7d']) →
    matchesPath antPattern path = true → path = antPattern

/-- A star stands for one segment of the path, and two stars for all that are left. -/
def segmentsMatch : List String → List String → Bool
  | ["**"], _ => true
  | [], [] => true
  | p :: ps, s :: ss => (p = "*" || p = s) && segmentsMatch ps ss
  | _, _ => false

/-- The segments of a pattern or path. -/
def segments (path : String) : List String := (path.toList.splitOn '/').map String.ofList

/-- A matcher that goes by segments. -/
def AntPathRequestMatcher.ofSegments : AntPathRequestMatcher where
  matchesPath antPattern path :=
    if '*' ∈ antPattern.toList then segmentsMatch (segments antPattern) (segments path)
    else path = antPattern
  literal antPattern path hliteral hmatches := by
    have hstar : '*' ∉ antPattern.toList := fun hmem => hliteral '*' hmem (by simp)
    simpa [hstar] using hmatches

namespace ResourceServerConfig

/-- `ResourceServerConfig.configure(HttpSecurity)`. -/
def rules : List Rule :=
  [⟨.POST, "/corsNetworks", .hasAuthority "superuser"⟩,
    ⟨.PUT, "/corsNetworks/**", .hasAuthority "superuser"⟩,
    ⟨.PATCH, "/corsNetworks/**", .hasAuthority "superuser"⟩,
    ⟨.DELETE, "/corsNetworks/**", .hasAuthority "superuser"⟩,
    ⟨.PATCH, "/corsSites/**", .hasAuthority "superuser"⟩,
    ⟨.PUT, "/corsSites/*/addToNetwork", .hasAuthority "superuser"⟩,
    ⟨.POST, "/newCorsSiteRequests", .authenticated⟩,
    ⟨.POST, "/siteLogs/upload", .authenticated⟩,
    ⟨.GET, "/siteLogs/isAuthorisedToUpload", .authenticated⟩,
    ⟨.POST, "/siteLogs/validate", .permitAll⟩,
    ⟨.POST, "/userRegistrations", .permitAll⟩,
    ⟨.GET, "/**", .permitAll⟩,
    ⟨.OPTIONS, "/**", .permitAll⟩,
    ⟨.POST, "/**", .denyAll⟩,
    ⟨.PUT, "/**", .denyAll⟩,
    ⟨.PATCH, "/**", .denyAll⟩,
    ⟨.DELETE, "/**", .denyAll⟩]

/-- What holds for requests that no line matches. -/
def anyRequest : Access := .denyAll

/-- The first line that matches decides. -/
def permits (ant : AntPathRequestMatcher) (caller : Option Authentication) (method : HttpMethod)
    (path : String) : Bool :=
  match rules.find? fun r => r.method = method && ant.matchesPath r.antPattern path with
  | some r => r.access.admits caller
  | none => anyRequest.admits caller

end ResourceServerConfig

/-! ## The endpoints -/

/-- The tables: those of the services, and the networks with the sites in them. -/
structure Server where
  world : World
  networks : NetworkStore

/-- Why an endpoint gives up. -/
inductive RequestException
  | invalidSiteLog
  | accessDenied (message : String)
  | networkNotFound (message : String)
  | thrown (e : JavaException)
  deriving DecidableEq, Repr

/-- `EndpointSecurity.assertAuthorityToEditSiteLog`. -/
def assertAuthorityToEditSiteLog (java : CaseMapping) (now : Instant) (st : NetworkStore)
    (auth : Authentication) (fourCharId : String) : Except RequestException Unit :=
  match hasAuthorityToEditSiteLog java now st auth fourCharId with
  | .error e => .error (.thrown e)
  | .ok true => .ok ()
  | .ok false => .error (.accessDenied ("Cannot edit site " ++ fourCharId))

namespace Server

/-- `CorsSiteLogService.upload`, called from an endpoint. -/
def upload (siteLog : SiteLog) (s : Server) : Except RequestException Server :=
  match CorsSiteLogService.upload siteLog s.world.store with
  | .error e => .error (.thrown e)
  | .ok store => .ok { s with world := s.world.after (.upload siteLog) store }

/-- `SiteLogEndpoint.secureUploadGeodesyMLSiteLog`; the reader returns a log or throws. -/
def secureUploadGeodesyMLSiteLog (java : CaseMapping) (now : Instant)
    (caller : Option Authentication) (siteLog : Option SiteLog) (s : Server) :
    Except RequestException Server := do
  let some auth := caller | throw (.accessDenied "Access is denied")
  let some siteLog := siteLog | throw .invalidSiteLog
  assertAuthorityToEditSiteLog java now s.networks auth siteLog.fourCharacterId
  s.upload siteLog

/-- `SiteLogEndpoint.uploadSopacSiteLog`, which asks for no authority. -/
def uploadSopacSiteLog (siteLog : Option SiteLog) (s : Server) :
    Except RequestException Server := do
  let some siteLog := siteLog | throw .invalidSiteLog
  s.upload siteLog

/-- `CorsSiteEndpoint.addToNetwork`. -/
def addToNetwork (q : Networks.Request) (s : Server) : Except RequestException Server :=
  if !s.networks.corsNetworks.any (·.id = q.networkId) then
    .error (.networkNotFound "Network not found")
  else if !s.networks.corsSites.any (·.id = q.siteId) then .error (.thrown .nullPointer)
  else .ok { s with networks := s.networks.addToNetwork q }

end Server

/-- A request, by the endpoint that it is for.  The last one is for a resource without an endpoint
here. -/
inductive Request
  | secureUploadGeodesyMLSiteLog (siteLog : Option SiteLog)
  | uploadSopacSiteLog (siteLog : Option SiteLog)
  | validateGeodesyMLSiteLog
  | isPermittedToUpload (fourCharId : String)
  | addToNetwork (request : Networks.Request)
  | uploadSolution (sinexFilename : String)
  | resource (method : HttpMethod) (path : String)

namespace Request

/-- The method, as the endpoint is mapped. -/
def method : Request → HttpMethod
  | secureUploadGeodesyMLSiteLog _ | uploadSopacSiteLog _ | validateGeodesyMLSiteLog => .POST
  | isPermittedToUpload _ => .GET
  | addToNetwork _ => .PUT
  | uploadSolution _ => .POST
  | resource method _ => method

/-- The path, as the endpoint is mapped. -/
def path : Request → String
  | secureUploadGeodesyMLSiteLog _ => "/siteLogs/upload"
  | uploadSopacSiteLog _ => "/siteLogs/sopac/upload"
  | validateGeodesyMLSiteLog => "/siteLogs/validate"
  | isPermittedToUpload _ => "/siteLogs/isAuthorisedToUpload"
  | addToNetwork q => "/corsSites/" ++ toString q.siteId ++ "/addToNetwork"
  | uploadSolution _ => "/solution/weekly/upload"
  | resource _ path => path

/-- The methods and paths of the endpoints, apart from those with a key in them. -/
def mapped : List (HttpMethod × String) :=
  [secureUploadGeodesyMLSiteLog none, uploadSopacSiteLog none, validateGeodesyMLSiteLog,
    isPermittedToUpload "", uploadSolution ""].map fun q => (q.method, q.path)

end Request

/-- The resources of which a `POST` creates a row that no other table refers to. -/
def createdResources : List String := ["/newCorsSiteRequests", "/userRegistrations"]

namespace Server

/-- What the endpoint of the request returns. -/
def endpoint (java : CaseMapping) (now : Instant) (caller : Option Authentication) :
    Request → Server → Except RequestException Server
  | .secureUploadGeodesyMLSiteLog siteLog, s =>
    s.secureUploadGeodesyMLSiteLog java now caller siteLog
  | .uploadSopacSiteLog siteLog, s => s.uploadSopacSiteLog siteLog
  | .addToNetwork q, s => s.addToNetwork q
  -- the others read, or write rows of other tables
  | _, s => .ok s

/-- What a request that passed may leave.  An endpoint that throws leaves the tables alone, and so
does a resource that only reads or creates its own row. -/
def Serves (java : CaseMapping) (now : Instant) (caller : Option Authentication) (s : Server)
    (q : Request) (s' : Server) : Prop :=
  match q with
  | .resource method path =>
    (method, path) ∉ Request.mapped ∧
      (method.isSafe = true ∨ (method = .POST ∧ path ∈ createdResources) → s' = s)
  | q =>
    match endpoint java now caller q s with
    | .ok served => s' = served
    | .error _ => s' = s

end Server

/-- One step: a request, or a handler in the event loop. -/
inductive ServerStep
  | request (now : Instant) (caller : Option Authentication) (q : Request)
  | siteLogReceived (key : ℕ) (load : LoadOrder) (rows : RowOrder) (e : SiteLogReceived)
  | siteUpdated (rows : RowOrder) (e : SiteUpdated)

/-- The step relation.  A request that may not pass leaves everything as it is, and so does a
handler that throws. -/
def Server.Takes (lib : ListUtils) (ant : AntPathRequestMatcher) (java : CaseMapping) (s : Server) :
    ServerStep → Server → Prop
  | .request now caller q, s' =>
    if ResourceServerConfig.permits ant caller q.method q.path then s.Serves java now caller q s'
    else s' = s
  | .siteLogReceived key load rows e, s' =>
    World.Takes lib s.world (.siteLogReceived load rows e) s'.world ∧
      ∃ log, s.world.readLog load e.fourCharacterId = some log ∧
        s'.networks = s.networks.saveCorsSite key e.fourCharacterId log
  | .siteUpdated rows e, s' =>
    World.Takes lib s.world (.siteUpdated rows e) s'.world ∧ s'.networks = s.networks

end Geodesy.Security
