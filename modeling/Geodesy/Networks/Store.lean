import Geodesy.Domain.Store

/-!
# Networks and the sites in them

`CORS_SITE_NETWORK` and the rows of `CORS_SITE_IN_NETWORK`, which belong to their site and are
loaded with it.  A `CorsSite` here is the row of the site with its version and its tenancies.
-/

namespace Geodesy.Networks

open Rows

/-- `CorsNetwork`, without the columns that only describe it. -/
structure CorsNetwork where
  id : ℕ
  name : String
  deriving DecidableEq, Repr

/-- `NetworkTenancy`, without its own surrogate key, which nothing reads. -/
structure NetworkTenancy where
  corsNetworkId : ℕ
  period : Option EffectiveDates
  deriving DecidableEq, Repr

namespace NetworkTenancy

/-- `NetworkTenancy.equals`. -/
def equals (a b : NetworkTenancy) : Bool :=
  decide (a.corsNetworkId = b.corsNetworkId) && decide (a.period = b.period)

@[simp] lemma equals_iff (a b : NetworkTenancy) : a.equals b = true ↔ a = b := by
  obtain ⟨i, p⟩ := a
  obtain ⟨j, q⟩ := b
  simp [equals]

/-- `NetworkTenancy.inEffect`, at the time that `Instant.now()` returns. -/
def inEffect (t : NetworkTenancy) (now : Instant) : Bool :=
  match t.period with
  | none => true
  | some p => p.inRange (some now)

/-- The tenancy has begun, if it has a beginning, and has not ended, if it has an end. -/
def InForce (t : NetworkTenancy) (now : Instant) : Prop :=
  ∀ p ∈ t.period, (∀ f ∈ p.effectiveFrom, f ≤ now) ∧ ∀ e ∈ p.effectiveTo, now ≤ e

lemma inEffect_iff (t : NetworkTenancy) (now : Instant) :
    t.inEffect now = true ↔ t.InForce now := by
  obtain ⟨i, _ | p⟩ := t
  · simp [inEffect, InForce]
  · simp [inEffect, InForce, EffectiveDates.inRange_iff]

end NetworkTenancy

/-- `CorsSite` with the version that a save checks and with its tenancies. -/
structure CorsSite extends Geodesy.CorsSite where
  version : ℕ
  networkTenancies : List NetworkTenancy
  deriving DecidableEq, Repr

/-- The tables.  The unique columns and the foreign key of the tenancies are constraints of the
schema. -/
structure NetworkStore where
  corsNetworks : List CorsNetwork
  corsSites : List CorsSite
  networkIds : (corsNetworks.map (·.id)).Nodup
  siteIds : (corsSites.map (·.fourCharacterId)).Nodup
  networks_exist : ∀ site ∈ corsSites, ∀ t ∈ site.networkTenancies,
    ∃ n ∈ corsNetworks, n.id = t.corsNetworkId

namespace NetworkStore

/-- `CorsNetworkRepository.findOne`. -/
def findOne (st : NetworkStore) (id : ℕ) : Option CorsNetwork := st.corsNetworks.find? (·.id = id)

/-- `CorsSiteRepository.findByFourCharacterId`. -/
def findByFourCharacterId (st : NetworkStore) (id : String) : Option CorsSite :=
  st.corsSites.find? (·.fourCharacterId = id)

lemma findOne_eq {st : NetworkStore} {n : CorsNetwork} (hn : n ∈ st.corsNetworks) :
    st.findOne n.id = some n :=
  find?_eq_some_of_nodup st.networkIds hn

lemma findByFourCharacterId_eq {st : NetworkStore} {site : CorsSite} (hsite : site ∈ st.corsSites) :
    st.findByFourCharacterId site.fourCharacterId = some site :=
  find?_eq_some_of_nodup st.siteIds hsite

/-- Four character ids are unique. -/
lemma findByFourCharacterId_eq_some {st : NetworkStore} {id : String} {site : CorsSite} :
    st.findByFourCharacterId id = some site ↔ site ∈ st.corsSites ∧ site.fourCharacterId = id := by
  constructor
  · intro hfind
    exact ⟨List.mem_of_find?_eq_some hfind, by simpa using List.find?_some hfind⟩
  · rintro ⟨hsite, rfl⟩
    exact findByFourCharacterId_eq hsite

end NetworkStore

end Geodesy.Networks
