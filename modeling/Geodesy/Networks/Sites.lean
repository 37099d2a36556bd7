import Geodesy.Networks.AddToNetwork
import Geodesy.Service.CorsSiteService

/-!
# Sites with their tenancies

The two ways in which the code changes a site: `CorsSiteService.handle` copies the description of a
site log to it, and `CorsSiteEndpoint.addToNetwork`, here as one step, adds a tenancy.  Both leave
the four character ids unique and the networks of the tenancies in place (`NetworkStore.modifySite`
and `addSite` ask for no more), and `tenancies` says what they do to the networks of a station.
-/

namespace Geodesy.Networks

namespace CorsSite

/-- The site as it is saved after it handled the command. -/
def joined (site : CorsSite) (command : AddCorsSiteToNetwork) : CorsSite :=
  AddState.savedRow site (site.handle command).1

/-- A site that joins a network stays that of its station. -/
lemma fourCharacterId_joined (site : CorsSite) (command : AddCorsSiteToNetwork) :
    (site.joined command).fourCharacterId = site.fourCharacterId := by
  simp only [joined, AddState.savedRow, handle]
  split <;> rfl

/-- After it joined the site has the tenancy of the command, whether it had it before or not. -/
lemma mem_tenancies_handle (site : CorsSite) (command : AddCorsSiteToNetwork)
    (t : NetworkTenancy) : t ∈ (site.handle command).1.networkTenancies ↔
      t ∈ site.networkTenancies ∨ t = ⟨command.networkId, some command.period⟩ := by
  simp only [handle]
  split
  case isTrue => simp
  case isFalse h =>
    have hmem : ⟨command.networkId, some command.period⟩ ∈ site.networkTenancies := by
      simpa using h
    constructor
    · exact .inl
    · rintro (ht | rfl)
      · exact ht
      · exact hmem

/-- The site with the description of the log.  Its monument is a new one, so the version counts. -/
def describedBy (site : CorsSite) (siteLog : SiteLog) : CorsSite :=
  { site with
    toCorsSite := CorsSiteService.describe site.toCorsSite siteLog.siteIdentification
    version := site.version + 1 }

end CorsSite

namespace NetworkStore

variable (st : NetworkStore)

/-- The sites that satisfy `p` are changed. -/
def modifySite (p : CorsSite → Bool) (f : CorsSite → CorsSite)
    (hid : ∀ site, (f site).fourCharacterId = site.fourCharacterId)
    (hnetworks : ∀ site ∈ st.corsSites, ∀ t ∈ (f site).networkTenancies,
      ∃ n ∈ st.corsNetworks, n.id = t.corsNetworkId) :
    NetworkStore where
  corsNetworks := st.corsNetworks
  corsSites := st.corsSites.map fun site => if p site then f site else site
  networkIds := st.networkIds
  siteIds := by
    have hmap : (st.corsSites.map fun site => if p site then f site else site).map
        (fun site => site.fourCharacterId) = st.corsSites.map fun site => site.fourCharacterId := by
      rw [List.map_map]
      refine List.map_congr_left ?_
      intro site _
      simp only [Function.comp_apply]
      split_ifs
      · exact hid site
      · rfl
    rw [hmap]
    exact st.siteIds
  networks_exist := by
    intro site hsite t ht
    obtain ⟨r, hr, rfl⟩ := List.mem_map.mp hsite
    split_ifs at ht
    · exact hnetworks r hr t ht
    · exact st.networks_exist r hr t ht

/-- A site that is in no network is added. -/
def addSite (site : CorsSite) (hnew : st.findByFourCharacterId site.fourCharacterId = none)
    (hnone : site.networkTenancies = []) : NetworkStore where
  corsNetworks := st.corsNetworks
  corsSites := st.corsSites ++ [site]
  networkIds := st.networkIds
  siteIds := by
    rw [List.map_append, List.nodup_append]
    refine ⟨st.siteIds, List.nodup_singleton _, ?_⟩
    intro id hid id' hid'
    obtain ⟨r, hr, rfl⟩ := List.mem_map.mp hid
    obtain rfl := List.mem_singleton.mp hid'
    simpa using List.find?_eq_none.mp hnew r hr
  networks_exist := by
    intro r hr t ht
    rcases List.mem_append.mp hr with hr | hr
    · exact st.networks_exist r hr t ht
    · rw [List.mem_singleton.mp hr, hnone] at ht
      simp at ht

/-! ## What the code does -/

/-- The sites that `CorsSiteService.handle` saves: the one of the log, found or created under the
next key, with the description of the log. -/
def saveCorsSite (key : ℕ) (fourCharacterId : String) (siteLog : SiteLog) : NetworkStore :=
  match hfind : st.findByFourCharacterId fourCharacterId with
  | some _ =>
    st.modifySite (·.fourCharacterId = fourCharacterId)
      (·.describedBy siteLog) (fun _ => rfl) st.networks_exist
  | none =>
    st.addSite
      { CorsSiteService.describe ⟨key, fourCharacterId, none, none, none, ⟨none, none, none, none⟩⟩
          siteLog.siteIdentification with version := 0, networkTenancies := [] }
      hfind rfl

/-- `CorsSiteEndpoint.addToNetwork`, from the load to the save. -/
def addToNetwork (q : Request) : NetworkStore :=
  if hnetwork : ∃ n ∈ st.corsNetworks, n.id = q.networkId then
    st.modifySite (·.id = q.siteId) (·.joined q.command)
      (fun site => site.fourCharacterId_joined q.command)
      (by
        intro site hsite t ht
        obtain ⟨t', ht', rfl⟩ := List.mem_map.mp ht
        rcases (site.mem_tenancies_handle q.command t').mp ht' with ht' | rfl
        · exact st.networks_exist site hsite t' ht'
        · exact hnetwork)
  else st

/-! ## The networks of a station -/

/-- The tenancies of a station: none if there is no such site. -/
def tenancies (id : String) : List NetworkTenancy :=
  ((st.findByFourCharacterId id).map (·.networkTenancies)).getD []

variable {st}

/-- The site of a station, after sites were changed. -/
lemma findByFourCharacterId_modifySite {p : CorsSite → Bool} {f : CorsSite → CorsSite}
    (hid : ∀ site, (f site).fourCharacterId = site.fourCharacterId)
    (hnetworks : ∀ site ∈ st.corsSites, ∀ t ∈ (f site).networkTenancies,
      ∃ n ∈ st.corsNetworks, n.id = t.corsNetworkId) (id : String) :
    (st.modifySite p f hid hnetworks).findByFourCharacterId id =
      (st.findByFourCharacterId id).map fun site => if p site then f site else site := by
  have hsame : ((fun site : CorsSite => decide (site.fourCharacterId = id)) ∘
      fun site : CorsSite => if p site then f site else site) =
      fun site : CorsSite => decide (site.fourCharacterId = id) := by
    funext site
    simp only [Function.comp_apply]
    split_ifs
    · rw [hid site]
    · rfl
  simp only [findByFourCharacterId, modifySite, List.find?_map, hsame]

lemma findByFourCharacterId_addToNetwork {q : Request}
    (hnetwork : ∃ n ∈ st.corsNetworks, n.id = q.networkId) (id : String) :
    (st.addToNetwork q).findByFourCharacterId id =
      (st.findByFourCharacterId id).map fun site =>
        if site.id = q.siteId then site.joined q.command else site := by
  rw [addToNetwork, dif_pos hnetwork, findByFourCharacterId_modifySite]
  simp only [decide_eq_true_eq]

/-- Sites that are changed keep their networks if the change keeps their tenancies. -/
lemma tenancies_modifySite {p : CorsSite → Bool} {f : CorsSite → CorsSite}
    (hid : ∀ site, (f site).fourCharacterId = site.fourCharacterId)
    (hkept : ∀ site, (f site).networkTenancies = site.networkTenancies)
    (hnetworks : ∀ site ∈ st.corsSites, ∀ t ∈ (f site).networkTenancies,
      ∃ n ∈ st.corsNetworks, n.id = t.corsNetworkId) (id : String) :
    (st.modifySite p f hid hnetworks).tenancies id = st.tenancies id := by
  rw [tenancies, findByFourCharacterId_modifySite, tenancies]
  cases st.findByFourCharacterId id with
  | none => rfl
  | some site =>
      simp only [Option.map_some, Option.getD_some]
      split_ifs
      · exact hkept site
      · rfl

/-- A site that is added is in no network, as before. -/
lemma tenancies_addSite {site : CorsSite}
    (hnew : st.findByFourCharacterId site.fourCharacterId = none)
    (hnone : site.networkTenancies = []) (id : String) :
    (st.addSite site hnew hnone).tenancies id = st.tenancies id := by
  simp only [tenancies, findByFourCharacterId, addSite, List.find?_append]
  cases hfind : st.corsSites.find? (·.fourCharacterId = id) with
  | some r => rfl
  | none =>
      by_cases hid : site.fourCharacterId = id
      · simp [hid, hnone]
      · simp [hid]

/-- Describing a site keeps every station in the networks it is in. -/
lemma tenancies_saveCorsSite (key : ℕ) (fourCharacterId : String) (siteLog : SiteLog)
    (id : String) :
    (st.saveCorsSite key fourCharacterId siteLog).tenancies id = st.tenancies id := by
  unfold saveCorsSite
  split
  · exact tenancies_modifySite (f := (·.describedBy siteLog)) (fun _ => rfl) (fun _ => rfl) _ id
  · exact tenancies_addSite _ rfl id

lemma corsNetworks_saveCorsSite (key : ℕ) (fourCharacterId : String) (siteLog : SiteLog) :
    (st.saveCorsSite key fourCharacterId siteLog).corsNetworks = st.corsNetworks := by
  unfold saveCorsSite
  split <;> rfl

end NetworkStore

end Geodesy.Networks
