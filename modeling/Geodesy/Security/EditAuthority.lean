import Geodesy.Security.Authorities

/-!
# Who may edit a site log

The strings that pass between the two components stand for an `Authority`: to do everything, or to
edit one subject.  `Authority.name` writes it down and is injective, so no two authorities can be
confused, whatever the ids and names.  Over authorities the token grants `granted`, the checks look
for authorities, and `edit_authority_iff` is left with comparing subjects in lower case.
-/

namespace Geodesy.Security

open Networks

/-! ## Authorities -/

/-- What the strings mean. -/
inductive Authority
  | superuser
  | edit (subject : String)
  deriving DecidableEq, Repr

namespace Authority

/-- How an authority is written. -/
def name : Authority → String
  | superuser => "superuser"
  | edit subject => "edit-" ++ subject

lemma name_superuser_ne_edit (s : String) : "superuser" ≠ "edit-" ++ s := by
  intro h
  have hchars := congrArg String.toList h
  simp [String.toList_append] at hchars

/-- **An authority can be read back from its name.** -/
lemma name_injective : Function.Injective name := by
  rintro (_ | s) (_ | t) h
  · rfl
  · exact absurd h (name_superuser_ne_edit t)
  · exact absurd h.symm (name_superuser_ne_edit s)
  · rw [(String.append_right_inj "edit-").mp h]

end Authority

open Authority

/-- The authorities that the roles of a claim stand for: a superuser needs no other. -/
def granted (java : CaseMapping) (roles : List String) : List Authority :=
  if "superuser" ∈ roles then [superuser] else roles.map fun r => edit (java.toLowerCase r)

lemma superuser_mem_granted {java : CaseMapping} {roles : List String} :
    superuser ∈ granted java roles ↔ "superuser" ∈ roles := by
  unfold granted
  split_ifs with h <;> simp [h]

/-- Apart from superusers, a subject may be edited when one of the roles is the subject in lower
case. -/
lemma edit_mem_granted {java : CaseMapping} {roles : List String} (hsuper : "superuser" ∉ roles)
    {subject : String} :
    edit subject ∈ granted java roles ↔ ∃ r ∈ roles, java.toLowerCase r = subject := by
  simp [granted, hsuper]

section Extract

variable {lib : DefaultAccessTokenConverter} {java : CaseMapping} {hmap : TokenMap}
  {claim : String}

/-- The authentication has the names of the authorities that are granted. -/
lemma mem_authorities_extractAuthentication (hclaim : hmap.sitelog = some claim)
    (hlength : 2 < length claim) (s : String) :
    s ∈ (extractAuthentication lib java hmap).authorities ↔
      s ∈ (granted java (split claim)).map name := by
  -- the entry that the converter is given, whatever the username
  have hnames : (if (split claim).any (· = "superuser") then ["superuser"]
      else (split claim).map fun p => "edit-" ++ java.toLowerCase p)
        = (granted java (split claim)).map name := by
    by_cases h : "superuser" ∈ split claim <;> simp [granted, h, name, Function.comp_def]
  simp only [extractAuthentication, hclaim, if_pos (show length claim > 2 from hlength)]
  rw [hnames]
  cases hmap.cognitoUsername with
  | none => exact lib.granted _ _ rfl s
  | some subject =>
      simp only
      split_ifs <;> exact lib.granted _ _ rfl s

variable (lib java)

/-- The check for any of several authorities. -/
lemma hasAnyAuthority_extract (hclaim : hmap.sitelog = some claim) (hlength : 2 < length claim)
    (wanted : List Authority) :
    hasAnyAuthority (extractAuthentication lib java hmap) (wanted.map name) = true ↔
      ∃ a ∈ wanted, a ∈ granted java (split claim) := by
  simp only [hasAnyAuthority, List.any_eq_true, List.contains_iff_mem,
    mem_authorities_extractAuthentication hclaim hlength]
  constructor
  · rintro ⟨s, hs, hwanted⟩
    obtain ⟨a, ha, rfl⟩ := List.mem_map.mp hwanted
    exact ⟨a, ha, (List.mem_map_of_injective name_injective).mp hs⟩
  · rintro ⟨a, hwanted, ha⟩
    exact ⟨a.name, List.mem_map_of_mem ha, List.mem_map_of_mem hwanted⟩

lemma hasAuthority_extract (hclaim : hmap.sitelog = some claim) (hlength : 2 < length claim)
    (a : Authority) :
    hasAuthority (extractAuthentication lib java hmap) a.name = true ↔
      a ∈ granted java (split claim) := by
  have hany := hasAnyAuthority_extract lib java hclaim hlength [a]
  simpa [hasAuthority] using hany

end Extract

/-! ## The authorities of a network -/

/-- The authorities that the tenancies in effect ask for. -/
def wanted (java : CaseMapping) (now : Instant) (st : NetworkStore) (site : Networks.CorsSite) :
    List Authority :=
  (site.networkTenancies.filter (·.inEffect now)).flatMap fun t =>
    (st.findOne t.corsNetworkId).toList.map fun n => edit ("network:" ++ java.toLowerCase n.name)

/-- Every network is found, so the list of strings is computed. -/
lemma mapM_networkEditAuthority (java : CaseMapping) (now : Instant) {st : NetworkStore}
    {site : Networks.CorsSite} (hsite : site ∈ st.corsSites) :
    (site.networkTenancies.filter (·.inEffect now)).mapM (networkEditAuthority java st)
      = .ok ((wanted java now st site).map name) := by
  have hexists : ∀ t ∈ site.networkTenancies.filter (·.inEffect now),
      ∃ n, st.findOne t.corsNetworkId = some n := by
    intro t ht
    obtain ⟨n, hn, hid⟩ := st.networks_exist site hsite t (List.mem_of_mem_filter ht)
    exact ⟨n, hid ▸ NetworkStore.findOne_eq hn⟩
  unfold wanted
  revert hexists
  generalize site.networkTenancies.filter (·.inEffect now) = tenancies
  intro hexists
  induction tenancies with
  | nil => rfl
  | cons t ts ih =>
      obtain ⟨n, hn⟩ := hexists t (by simp)
      have hrest := ih fun u hu => hexists u (List.mem_cons_of_mem _ hu)
      rw [List.mapM_cons, networkEditAuthority, hn]
      simp only [bind, Except.bind, pure, Except.pure, hrest]
      simp [hn, name, ← String.append_assoc]

/-- The site is in a network, in effect now, whose sites the roles may edit. -/
def EditsNetwork (java : CaseMapping) (now : Instant) (st : NetworkStore) (roles : List String)
    (site : Networks.CorsSite) : Prop :=
  ∃ t ∈ site.networkTenancies, t.InForce now ∧ ∃ n ∈ st.corsNetworks, n.id = t.corsNetworkId ∧
    ∃ r ∈ roles, java.toLowerCase r = java.toLowerCase ("network:" ++ n.name)

lemma exists_wanted_iff {java : CaseMapping} {now : Instant} {st : NetworkStore}
    {site : Networks.CorsSite} {roles : List String} (hsuper : "superuser" ∉ roles) :
    (∃ a ∈ wanted java now st site, a ∈ granted java roles) ↔
      EditsNetwork java now st roles site := by
  simp only [wanted, List.mem_flatMap, List.mem_filter, NetworkTenancy.inEffect_iff, List.mem_map,
    Option.mem_toList]
  constructor
  · rintro ⟨_, ⟨t, ⟨ht, hforce⟩, n, hn, rfl⟩, hgranted⟩
    obtain ⟨r, hr, hlower⟩ := (edit_mem_granted hsuper).mp hgranted
    have hid : n.id = t.corsNetworkId := by simpa using List.find?_some hn
    refine ⟨t, ht, hforce, n, List.mem_of_find?_eq_some hn, hid, r, hr, ?_⟩
    rw [hlower, java.toLowerCase_network]
  · rintro ⟨t, ht, hforce, n, hn, hid, r, hr, hlower⟩
    refine ⟨_, ⟨t, ⟨ht, hforce⟩, n, hid ▸ NetworkStore.findOne_eq hn, rfl⟩, ?_⟩
    exact (edit_mem_granted hsuper).mpr ⟨r, hr, hlower.trans (java.toLowerCase_network _)⟩

/-! ## The decision -/

/-- **Who may edit a site log, from the token to the decision.**  With the claim `custom:sitelog`
longer than two, the check does not throw, and it allows the edit exactly when one of the roles
listed in the claim is "superuser", is the site, or is "network:" and the name of a network that the
site, which has to exist, is in now; the last two ignoring case. -/
theorem edit_authority_iff (lib : DefaultAccessTokenConverter) (java : CaseMapping)
    (hmap : TokenMap) (claim : String) (hclaim : hmap.sitelog = some claim)
    (hlength : 2 < length claim) (st : NetworkStore) (now : Instant) (fourCharId : String) :
    ∃ allowed,
      hasAuthorityToEditSiteLog java now st (extractAuthentication lib java hmap) fourCharId
        = .ok allowed ∧
      (allowed = true ↔ "superuser" ∈ split claim ∨
        (∃ r ∈ split claim, java.toLowerCase r = java.toLowerCase fourCharId) ∨
        ∃ site ∈ st.corsSites, site.fourCharacterId = fourCharId ∧
          EditsNetwork java now st (split claim) site) := by
  have hcheck := hasAuthority_extract lib java hclaim hlength
  have hsuperuser : hasAuthority (extractAuthentication lib java hmap) "superuser" = true ↔
      "superuser" ∈ split claim := (hcheck superuser).trans superuser_mem_granted
  unfold hasAuthorityToEditSiteLog
  by_cases hsuper : "superuser" ∈ split claim
  · refine ⟨true, ?_, by simp [hsuper]⟩
    rw [if_pos (hsuperuser.mpr hsuper)]
    rfl
  · have hself : hasAuthority (extractAuthentication lib java hmap)
        ("edit-" ++ java.toLowerCase fourCharId) = true ↔
          ∃ r ∈ split claim, java.toLowerCase r = java.toLowerCase fourCharId :=
      (hcheck (edit (java.toLowerCase fourCharId))).trans (edit_mem_granted hsuper)
    rw [if_neg fun h => hsuper (hsuperuser.mp h)]
    simp only [hsuper, false_or]
    by_cases hrole : ∃ r ∈ split claim, java.toLowerCase r = java.toLowerCase fourCharId
    · refine ⟨true, ?_, by simp [hrole]⟩
      rw [if_pos (hself.mpr hrole)]
      rfl
    · rw [if_neg fun h => hrole (hself.mp h)]
      have hsite : (∃ site ∈ st.corsSites, site.fourCharacterId = fourCharId ∧
          EditsNetwork java now st (split claim) site) ↔
          ∃ site, st.findByFourCharacterId fourCharId = some site ∧
            EditsNetwork java now st (split claim) site := by
        simp only [NetworkStore.findByFourCharacterId_eq_some, and_assoc]
      rw [hsite]
      simp only [hrole, false_or]
      cases hfind : st.findByFourCharacterId fourCharId with
      | none => exact ⟨false, rfl, by simp⟩
      | some site =>
          refine ⟨hasAnyAuthority (extractAuthentication lib java hmap)
            ((wanted java now st site).map name), ?_, ?_⟩
          · have hmem := (NetworkStore.findByFourCharacterId_eq_some.mp hfind).1
            simp only [mapM_networkEditAuthority java now hmem, bind, Except.bind]
            rfl
          · rw [hasAnyAuthority_extract lib java hclaim hlength, exists_wanted_iff hsuper]
            simp

/-- The converter that grants the entry, or nothing. -/
def DefaultAccessTokenConverter.ofEntry : DefaultAccessTokenConverter where
  extractAuthentication map := ⟨map.username, map.authorities.getD []⟩
  granted map authorities h a := by simp [h]

/-- A site that is in a network from the tenth second on. -/
def geonet : NetworkStore where
  corsNetworks := [⟨1, "GeoNet"⟩]
  corsSites := [⟨⟨2, "ADE1", none, none, none, ⟨none, none, none, none⟩⟩, 0,
    [⟨1, some ⟨some (Instant.ofEpochSecond 10), none⟩⟩]⟩]
  networkIds := by decide
  siteIds := by decide
  networks_exist := by decide

/-- A token for another site and for the network. -/
def geonetToken : TokenMap := ⟨some "AUCK,network:geonet", some "editor", none, none⟩

example : hasAuthorityToEditSiteLog .ascii (Instant.ofEpochSecond 10) geonet
    (extractAuthentication .ofEntry .ascii geonetToken) "ADE1" = .ok true := by decide +kernel

/-- The token allows the edit once the site is in the network. -/
theorem edit_authority_iff_geonet :
    ∃ allowed,
      hasAuthorityToEditSiteLog .ascii (Instant.ofEpochSecond 10) geonet
          (extractAuthentication .ofEntry .ascii geonetToken) "ADE1" = .ok allowed ∧
      (allowed = true ↔ "superuser" ∈ split "AUCK,network:geonet" ∨
        (∃ r ∈ split "AUCK,network:geonet",
          CaseMapping.ascii.toLowerCase r = CaseMapping.ascii.toLowerCase "ADE1") ∨
        ∃ site ∈ geonet.corsSites, site.fourCharacterId = "ADE1" ∧
          EditsNetwork .ascii (Instant.ofEpochSecond 10) geonet (split "AUCK,network:geonet")
            site) :=
  edit_authority_iff .ofEntry .ascii geonetToken "AUCK,network:geonet" rfl (by decide) geonet
    (Instant.ofEpochSecond 10) "ADE1"

end Geodesy.Security
