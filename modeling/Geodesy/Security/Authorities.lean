import Geodesy.Networks.Store
import Mathlib.Data.List.DropRight

/-!
# From a token to authorities, and from authorities to a decision

Two components that share no code: `JwytConverter.extractAuthentication` turns the claim
`custom:sitelog` of an access token into a list of strings, and `EndpointSecurity` builds strings
from a site id and from network names and looks for them in that list.

Spring's converter is a parameter, with the one thing that the repository relies on: it grants the
strings of the `authorities` entry.  So is `String.toLowerCase`, whose tables are those of the
Unicode version at hand.
-/

namespace Geodesy.Security

open Networks

/-! ## Strings -/

/-- `String.toLowerCase`.  The prefix is in lower case and ends a word, so nothing in it changes and
what follows is mapped as if it stood alone. -/
structure CaseMapping where
  toLowerCase : String → String
  toLowerCase_network : ∀ name, toLowerCase ("network:" ++ name) = "network:" ++ toLowerCase name

/-- The mapping of the letters `A` to `Z`. -/
def CaseMapping.ascii : CaseMapping where
  toLowerCase s := String.ofList (s.toList.map Char.toLower)
  toLowerCase_network name := by
    rw [String.toList_append, List.map_append, String.ofList_append]
    rfl

/-- `String.length`: the number of UTF-16 code units, of which a supplementary character has two. -/
def length (s : String) : ℕ := s.toList.length + s.toList.countP fun c => 0x10000 ≤ c.val

/-- The pieces between the commas. -/
def pieces : List Char → List (List Char)
  | [] => [[]]
  | ',' :: cs => [] :: pieces cs
  | c :: cs =>
    match pieces cs with
    | [] => [[c]]
    | p :: ps => (c :: p) :: ps

/-- `String.split(",")`: the string itself if there is no comma in it, and otherwise the pieces
without the empty ones at the end. -/
def split (s : String) : List String :=
  if ',' ∈ s.toList then ((pieces s.toList).map String.ofList).rdropWhile (· = "") else [s]

/-! ## The token -/

/-- The entries of the token's map that the converter reads or writes. -/
structure TokenMap where
  /-- `custom:sitelog` -/
  sitelog : Option String
  /-- `cognito:username` -/
  cognitoUsername : Option String
  /-- `user_name` -/
  username : Option String
  authorities : Option (List String)

/-- `OAuth2Authentication`: the principal and the granted authorities. -/
structure Authentication where
  principal : Option String
  authorities : List String

/-- Spring's converter. -/
structure DefaultAccessTokenConverter where
  extractAuthentication : TokenMap → Authentication
  granted : ∀ map authorities, map.authorities = some authorities →
    ∀ a, a ∈ (extractAuthentication map).authorities ↔ a ∈ authorities

/-- `JwytConverter.extractAuthentication`. -/
def extractAuthentication (lib : DefaultAccessTokenConverter) (java : CaseMapping)
    (hmap : TokenMap) : Authentication :=
  let userMap := hmap
  let userMap :=
    match hmap.sitelog with
    | some sitelog =>
      if length sitelog > 2 then
        let authorityRoles := split sitelog
        let authorities :=
          if authorityRoles.any (· = "superuser") then ["superuser"]
          else authorityRoles.map fun p => "edit-" ++ java.toLowerCase p
        { userMap with authorities := some authorities }
      else userMap
    | none => userMap
  let userMap :=
    match hmap.cognitoUsername with
    | some subject =>
      if length subject > 2 then
        { userMap with username := some subject, cognitoUsername := none }
      else userMap
    | none => userMap
  lib.extractAuthentication userMap

/-! ## The checks -/

/-- `EndpointSecurity.hasAnyAuthority`. -/
def hasAnyAuthority (auth : Authentication) (authorities : List String) : Bool :=
  auth.authorities.any fun grantedAuthority => authorities.contains grantedAuthority

/-- `EndpointSecurity.hasAuthority`. -/
def hasAuthority (auth : Authentication) (authority : String) : Bool :=
  hasAnyAuthority auth [authority]

/-- The authority to edit the sites of the network of a tenancy.  A network that is not there is a
null whose name is asked for. -/
def networkEditAuthority (java : CaseMapping) (st : NetworkStore) (t : NetworkTenancy) :
    Except JavaException String :=
  match st.findOne t.corsNetworkId with
  | none => .error .nullPointer
  | some network => .ok ("edit-network:" ++ java.toLowerCase network.name)

/-- `EndpointSecurity.hasAuthorityToEditSiteLog`. -/
def hasAuthorityToEditSiteLog (java : CaseMapping) (now : Instant) (st : NetworkStore)
    (auth : Authentication) (fourCharId : String) : Except JavaException Bool := do
  if hasAuthority auth "superuser" then return true
  let siteEditAuthority := "edit-" ++ java.toLowerCase fourCharId
  if hasAuthority auth siteEditAuthority then return true
  let some site := st.findByFourCharacterId fourCharId | return false
  let networkEditAuthorities ←
    (site.networkTenancies.filter (·.inEffect now)).mapM (networkEditAuthority java st)
  return hasAnyAuthority auth networkEditAuthorities

end Geodesy.Security
