import Geodesy.Security.EditAuthority
import Geodesy.Security.Integrity

/-!
# What joining a network grants

`CorsSiteEndpoint.addToNetwork` is the one endpoint that changes who may edit a site log.  It grants
what it says and no more: the editors of the network may edit the station, while the period of the
tenancy lasts (`joining_grants_network_editors`).
-/

namespace Geodesy.Networks

/-- Reading a tenancy back does not change when it is in force. -/
lemma NetworkTenancy.inForce_reload (t : NetworkTenancy) (now : Instant) :
    t.reload.InForce now ↔ t.InForce now := by
  obtain ⟨id, _ | ⟨_ | f, _ | e⟩⟩ := t <;>
    simp [NetworkTenancy.reload, NetworkTenancy.InForce, EffectiveDates.reload]

/-- The station is in the network at the time. -/
def NetworkStore.InNetwork (st : NetworkStore) (now : Instant) (fourCharId : String)
    (networkId : ℕ) : Prop :=
  ∃ t ∈ st.tenancies fourCharId, t.InForce now ∧ t.corsNetworkId = networkId

/-- A site that joined is in the networks it was in and in the one it joined. -/
lemma CorsSite.exists_joined_iff (site : CorsSite) (command : AddCorsSiteToNetwork) (now : Instant)
    (networkId : ℕ) :
    (∃ t ∈ (site.joined command).networkTenancies, t.InForce now ∧ t.corsNetworkId = networkId) ↔
      (∃ t ∈ site.networkTenancies, t.InForce now ∧ t.corsNetworkId = networkId) ∨
        command.period.inRange (some now) = true ∧ networkId = command.networkId := by
  have hforce : (⟨command.networkId, some command.period⟩ : NetworkTenancy).InForce now ↔
      command.period.inRange (some now) = true := by
    rw [← NetworkTenancy.inEffect_iff]
    rfl
  have hstored : (∃ t ∈ (site.joined command).networkTenancies,
        t.InForce now ∧ t.corsNetworkId = networkId) ↔
      ∃ t ∈ (site.handle command).1.networkTenancies,
        t.InForce now ∧ t.corsNetworkId = networkId := by
    simp only [joined, AddState.savedRow, List.mem_map]
    constructor
    · rintro ⟨_, ⟨t, ht, rfl⟩, h⟩
      exact ⟨t, ht, (t.inForce_reload now).mp h.1, h.2⟩
    · rintro ⟨t, ht, h⟩
      exact ⟨t.reload, ⟨t, ht, rfl⟩, (t.inForce_reload now).mpr h.1, h.2⟩
  rw [hstored]
  simp only [site.mem_tenancies_handle, or_and_right, exists_or, exists_eq_left, hforce,
    eq_comm (a := networkId)]

/-- **Joining puts the station in the network for the period**, and no other station in any. -/
lemma NetworkStore.inNetwork_addToNetwork {st : NetworkStore} {q : Request}
    (hnetwork : ∃ n ∈ st.corsNetworks, n.id = q.networkId) (now : Instant) (fourCharId : String)
    (networkId : ℕ) : (st.addToNetwork q).InNetwork now fourCharId networkId ↔
      st.InNetwork now fourCharId networkId ∨
        (∃ site, st.findByFourCharacterId fourCharId = some site ∧ site.id = q.siteId) ∧
          q.command.period.inRange (some now) = true ∧ networkId = q.networkId := by
  simp only [InNetwork, tenancies, findByFourCharacterId_addToNetwork hnetwork]
  cases hfind : st.findByFourCharacterId fourCharId with
  | none => simp
  | some site =>
      simp only [Option.map_some, Option.getD_some, Option.some.injEq, exists_eq_left']
      by_cases hsite : site.id = q.siteId
      · rw [if_pos hsite, site.exists_joined_iff]
        simp [hsite, Request.command]
      · simp [hsite]

end Geodesy.Networks

namespace Geodesy.Security

open Networks

/-- Any of the authorities that the networks of a site ask for. -/
lemma hasAnyAuthority_wanted (java : CaseMapping) (now : Instant) {st : NetworkStore}
    (auth : Authentication) {site : Networks.CorsSite} (hsite : site ∈ st.corsSites) :
    hasAnyAuthority auth ((wanted java now st site).map Authority.name) = true ↔
      ∃ n ∈ st.corsNetworks, st.InNetwork now site.fourCharacterId n.id ∧
        hasAuthority auth ("edit-network:" ++ java.toLowerCase n.name) = true := by
  have hname : ∀ n : CorsNetwork, (Authority.edit ("network:" ++ java.toLowerCase n.name)).name =
      "edit-network:" ++ java.toLowerCase n.name := by
    intro n
    rw [Authority.name, ← String.append_assoc]
    rfl
  have htenancies : st.tenancies site.fourCharacterId = site.networkTenancies := by
    rw [NetworkStore.tenancies, NetworkStore.findByFourCharacterId_eq hsite]
    rfl
  have hany : hasAnyAuthority auth ((wanted java now st site).map Authority.name) = true ↔
      ∃ a ∈ wanted java now st site, hasAuthority auth a.name = true := by
    simp only [hasAuthority, hasAnyAuthority, List.any_eq_true, List.contains_iff_mem,
      List.mem_map, List.mem_singleton]
    constructor
    · rintro ⟨_, hs, a, ha, rfl⟩
      exact ⟨a, ha, _, hs, rfl⟩
    · rintro ⟨a, ha, _, hs, rfl⟩
      exact ⟨_, hs, a, ha, rfl⟩
  rw [hany]
  simp only [wanted, List.mem_flatMap, List.mem_filter, List.mem_map, Option.mem_toList,
    NetworkTenancy.inEffect_iff, NetworkStore.InNetwork, htenancies]
  constructor
  · rintro ⟨_, ⟨t, ⟨ht, hforce⟩, n, hn, rfl⟩, hauth⟩
    refine ⟨n, List.mem_of_find?_eq_some hn, ⟨t, ht, hforce, ?_⟩, hname n ▸ hauth⟩
    have hid : n.id = t.corsNetworkId := by simpa using List.find?_some hn
    exact hid.symm
  · rintro ⟨n, hn, ⟨t, ht, hforce, hid⟩, hauth⟩
    refine ⟨_, ⟨t, ⟨ht, hforce⟩, n, ?_, rfl⟩, (hname n).symm ▸ hauth⟩
    rw [hid]
    exact NetworkStore.findOne_eq hn

/-- **The decision, for any list of authorities.** -/
lemma hasAuthorityToEditSiteLog_iff (java : CaseMapping) (now : Instant) (st : NetworkStore)
    (auth : Authentication) (fourCharId : String) :
    hasAuthorityToEditSiteLog java now st auth fourCharId = .ok true ↔
      hasAuthority auth "superuser" = true ∨
        hasAuthority auth ("edit-" ++ java.toLowerCase fourCharId) = true ∨
        ∃ n ∈ st.corsNetworks, st.InNetwork now fourCharId n.id ∧
          hasAuthority auth ("edit-network:" ++ java.toLowerCase n.name) = true := by
  rw [hasAuthorityToEditSiteLog_eq, ← or_assoc]
  split_ifs with h
  · simp [h]
  · simp only [h, false_or]
    cases hfind : st.findByFourCharacterId fourCharId with
    | none =>
        simp [NetworkStore.InNetwork, NetworkStore.tenancies, hfind, hasAnyAuthority, pure,
          Except.pure, Except.map]
    | some site =>
        obtain ⟨hsite, rfl⟩ := NetworkStore.findByFourCharacterId_eq_some.mp hfind
        have htenancies : st.tenancies site.fourCharacterId = site.networkTenancies := by
          rw [NetworkStore.tenancies, hfind]
          rfl
        rw [htenancies, mapM_networkEditAuthority java now hsite,
          ← hasAnyAuthority_wanted java now auth hsite]
        simp [Except.map]

/-- A request to add a site that is served is for a network that exists. -/
lemma addToNetwork_spec {s s' : Server} {q : Networks.Request} (h : s.addToNetwork q = .ok s') :
    (∃ n ∈ s.networks.corsNetworks, n.id = q.networkId) ∧
      s' = { s with networks := s.networks.addToNetwork q } := by
  unfold Server.addToNetwork at h
  split_ifs at h with hnetwork hsite
  refine ⟨?_, (Except.ok.inj h).symm⟩
  simpa using hnetwork

/-- **Joining grants the editors of the network, and nobody else.**  After a site was added to a
network, a caller may edit a station if he could before, or if it is the station of that site, the
period lasts and he may edit the network. -/
theorem joining_grants_network_editors {s s' : Server} {q : Networks.Request}
    (hserved : s.addToNetwork q = .ok s') (java : CaseMapping) (now : Instant)
    (auth : Authentication) (fourCharId : String) :
    hasAuthorityToEditSiteLog java now s'.networks auth fourCharId = .ok true ↔
      hasAuthorityToEditSiteLog java now s.networks auth fourCharId = .ok true ∨
        (∃ site, s.networks.findByFourCharacterId fourCharId = some site ∧ site.id = q.siteId) ∧
          q.command.period.inRange (some now) = true ∧
          ∃ n ∈ s.networks.corsNetworks, n.id = q.networkId ∧
            hasAuthority auth ("edit-network:" ++ java.toLowerCase n.name) = true := by
  obtain ⟨hnetwork, rfl⟩ := addToNetwork_spec hserved
  have hnetworks : (s.networks.addToNetwork q).corsNetworks = s.networks.corsNetworks := by
    rw [NetworkStore.addToNetwork, dif_pos hnetwork]
    rfl
  simp only [hasAuthorityToEditSiteLog_iff, hnetworks, NetworkStore.inNetwork_addToNetwork hnetwork]
  constructor
  · rintro (hsuper | hsite | ⟨n, hn, hin | ⟨hjoins, hperiod, hid⟩, hauth⟩)
    · exact .inl (.inl hsuper)
    · exact .inl (.inr (.inl hsite))
    · exact .inl (.inr (.inr ⟨n, hn, hin, hauth⟩))
    · exact .inr ⟨hjoins, hperiod, n, hn, hid, hauth⟩
  · rintro ((hsuper | hsite | ⟨n, hn, hin, hauth⟩) | ⟨hjoins, hperiod, n, hn, hid, hauth⟩)
    · exact .inl hsuper
    · exact .inr (.inl hsite)
    · exact .inr (.inr ⟨n, hn, .inl hin, hauth⟩)
    · exact .inr (.inr ⟨n, hn, .inr ⟨hjoins, hperiod, hid⟩, hauth⟩)

/-- The site joins another network for a hundred seconds. -/
def joinRequest : Networks.Request :=
  ⟨2, 3, some (Instant.ofEpochSecond 100), some (Instant.ofEpochSecond 200)⟩

/-- A site in one network, and another network. -/
def auscope : NetworkStore where
  corsNetworks := [⟨1, "GeoNet"⟩, ⟨3, "AuScope"⟩]
  corsSites := geonet.corsSites
  networkIds := by decide
  siteIds := by decide
  networks_exist := by decide

/-- Nothing is uploaded yet. -/
def auscopeServer : Server := ⟨World.init, auscope⟩

/-- Somebody who may edit the sites of that network. -/
def auscopeEditor : Authentication := ⟨some "editor", ["edit-network:auscope"]⟩

/-- An editor of that network may edit the station in the period, and could not before. -/
theorem joining_grants_network_editors_auscope :
    hasAuthorityToEditSiteLog .ascii (.ofEpochSecond 150) auscopeServer.networks auscopeEditor
        "ADE1" = .ok false ∧
      ∃ s', auscopeServer.addToNetwork joinRequest = .ok s' ∧
        (hasAuthorityToEditSiteLog .ascii (.ofEpochSecond 150) s'.networks auscopeEditor "ADE1" =
            .ok true ↔
          hasAuthorityToEditSiteLog .ascii (.ofEpochSecond 150) auscopeServer.networks auscopeEditor
              "ADE1" = .ok true ∨
            (∃ site, auscopeServer.networks.findByFourCharacterId "ADE1" = some site ∧
              site.id = joinRequest.siteId) ∧
            joinRequest.command.period.inRange (some (.ofEpochSecond 150)) = true ∧
            ∃ n ∈ auscopeServer.networks.corsNetworks, n.id = joinRequest.networkId ∧
              hasAuthority auscopeEditor
                ("edit-network:" ++ CaseMapping.ascii.toLowerCase n.name) = true) := by
  have hserved : ∃ s', auscopeServer.addToNetwork joinRequest = .ok s' := ⟨_, rfl⟩
  obtain ⟨s', hserved⟩ := hserved
  exact ⟨by decide +kernel, s', hserved, joining_grants_network_editors hserved .ascii _ _ "ADE1"⟩

end Geodesy.Security
