import Geodesy.Pipeline.Frame
import Geodesy.Security.EditAuthority
import Geodesy.Security.ResourceServer

/-!
# Nobody changes what he may not

Whatever the requests and in whatever order they come, the stored log of a station changes only
under a caller who may edit it (`stored_log_changed_by_editor`): the rules let other writes through
for superusers alone, and the one upload that asks for no authority is denied to all.  Who may edit
it is for superusers to change: in a run without them every decision of `EndpointSecurity` stays as
it was (`no_escalation`), although anybody may upload a log of a station that nobody had before and
the event loop then creates its site.
-/

namespace Geodesy.Security

open Networks TransitionSystem

/-! ## The rules -/

/-- A caller with the authority of a superuser. -/
def isSuperuser (caller : Option Authentication) : Bool := caller.any (hasAuthority · "superuser")

/-- The paths to which everybody may post, or everybody with a token. -/
def openPaths : List String := createdResources ++ ["/siteLogs/upload", "/siteLogs/validate"]

/-- Every line is for superusers, or for nobody, or about reading, or about an open path. -/
lemma rules_spec : ∀ r ∈ ResourceServerConfig.rules,
    r.access = .hasAuthority "superuser" ∨ r.access = .denyAll ∨ r.method.isSafe = true ∨
      (r.method = .POST ∧ r.antPattern ∈ openPaths) := by
  simp [ResourceServerConfig.rules, openPaths, createdResources, HttpMethod.isSafe]

/-- The open paths have no wildcards. -/
lemma openPaths_literal :
    ∀ path ∈ openPaths, ∀ c ∈ path.toList, c ∉ ['*', '?', '\x7b', '\x7d'] := by
  simp [openPaths, createdResources]

/-- **Who is no superuser only reads or posts to an open path.** -/
theorem isSafe_or_open_of_permits {ant : AntPathRequestMatcher} {caller : Option Authentication}
    {method : HttpMethod} {path : String}
    (h : ResourceServerConfig.permits ant caller method path = true)
    (hcaller : isSuperuser caller = false) :
    method.isSafe = true ∨ (method = .POST ∧ path ∈ openPaths) := by
  unfold ResourceServerConfig.permits at h
  split at h
  case h_2 => simp [ResourceServerConfig.anyRequest, Access.admits] at h
  case h_1 r hfind =>
    obtain ⟨hmethod, hpath⟩ : r.method = method ∧ ant.matchesPath r.antPattern path = true := by
      simpa using List.find?_some hfind
    rcases rules_spec r (List.mem_of_find?_eq_some hfind) with hr | hr | hr | ⟨hr, hopen⟩
    · rw [hr] at h
      exact absurd h (by simpa [Access.admits, isSuperuser] using hcaller)
    · simp [hr, Access.admits] at h
    · exact .inl (hmethod ▸ hr)
    · have hliteral := ant.literal _ _ (openPaths_literal _ hopen) hpath
      exact .inr ⟨hmethod ▸ hr, hliteral ▸ hopen⟩

/-! ## What a step changes -/

/-- An upload keeps the logs of the other stations. -/
lemma findSiteLog_of_upload {l : SiteLog} {st st' : Store}
    (h : CorsSiteLogService.upload l st = .ok st') {id : String} (hid : id ≠ l.fourCharacterId) :
    st'.findSiteLog id = st.findSiteLog id := by
  have hfilter : ∀ r : SiteLog, (decide (r.fourCharacterId = id) &&
      decide (r.fourCharacterId ≠ l.fourCharacterId)) = decide (r.fourCharacterId = id) := by
    intro r
    by_cases hr : r.fourCharacterId = id
    · simp [hr, hid]
    · simp [hr]
  simp only [CorsSiteLogService.upload, CorsSiteLogService.delete, bind, Except.bind, pure,
    Except.pure] at h
  cases hfind : st.findSiteLog l.fourCharacterId with
  | error e => simp [hfind] at h
  | ok found =>
      cases found with
      | none =>
          simp only [hfind, Except.ok.injEq] at h
          subst h
          simp [Store.findSiteLog, List.filter_append, hid.symm]
      | some r =>
          simp only [hfind, Except.ok.injEq] at h
          subst h
          simp only [Store.findSiteLog, List.filter_append, List.filter_filter, hfilter]
          simp [hid.symm]

/-- An upload through an endpoint keeps the logs of the other stations, and the networks. -/
lemma serverUpload_spec {l : SiteLog} {s s' : Server} (h : s.upload l = .ok s') :
    (∀ id ≠ l.fourCharacterId,
      s'.world.store.findSiteLog id = s.world.store.findSiteLog id) ∧
      s'.networks = s.networks := by
  unfold Server.upload at h
  cases hupload : CorsSiteLogService.upload l s.world.store with
  | error e => simp [hupload] at h
  | ok st =>
      simp only [hupload, Except.ok.injEq] at h
      subst h
      exact ⟨fun id hid => findSiteLog_of_upload hupload hid, rfl⟩

/-- The handlers keep the logs. -/
lemma siteLogs_of_handle {lib : ListUtils} {load : LoadOrder} {rows : RowOrder}
    {e : SiteLogReceived} {st st' : Store}
    (h : CorsSiteService.handle lib load rows e st = .ok st') : st'.siteLogs = st.siteLogs := by
  have hframe := @CorsSiteService.handle_withLogs st st.siteLogs st.published lib load rows e rfl
  rw [st.withLogs_self, h] at hframe
  simp only [Except.map, Except.ok.injEq] at hframe
  have hlogs := congrArg Store.siteLogs hframe
  exact hlogs

/-- An upload that goes through was made by a caller who may edit the station of the log. -/
lemma secureUpload_spec {java : CaseMapping} {now : Instant} {caller : Option Authentication}
    {siteLog : Option SiteLog} {s s' : Server}
    (h : s.secureUploadGeodesyMLSiteLog java now caller siteLog = .ok s') :
    ∃ auth l, caller = some auth ∧ siteLog = some l ∧
      hasAuthorityToEditSiteLog java now s.networks auth l.fourCharacterId = .ok true ∧
      s.upload l = .ok s' := by
  cases caller with
  | none => cases h
  | some auth =>
      cases siteLog with
      | none => cases h
      | some l =>
          simp only [Server.secureUploadGeodesyMLSiteLog, assertAuthorityToEditSiteLog, bind,
            Except.bind] at h
          cases hedit : hasAuthorityToEditSiteLog java now s.networks auth l.fourCharacterId with
          | error e => simp [hedit] at h
          | ok allowed =>
              cases allowed with
              | false => simp [hedit] at h
              | true => exact ⟨auth, l, rfl, rfl, hedit, by simpa [hedit] using h⟩

/-- What is known of a request that passed, when it was not a superuser's. -/
lemma serves_spec {java : CaseMapping} {now : Instant} {caller : Option Authentication}
    {s s' : Server} {q : Request} {ant : AntPathRequestMatcher}
    (hpermits : ResourceServerConfig.permits ant caller q.method q.path = true)
    (hcaller : isSuperuser caller = false) (h : s.Serves java now caller q s') :
    s' = s ∨ ∃ auth l, caller = some auth ∧ q = .secureUploadGeodesyMLSiteLog (some l) ∧
      hasAuthorityToEditSiteLog java now s.networks auth l.fourCharacterId = .ok true ∧
      s.upload l = .ok s' := by
  have hopen := isSafe_or_open_of_permits hpermits hcaller
  cases q with
  | secureUploadGeodesyMLSiteLog siteLog =>
      simp only [Server.Serves, Server.endpoint] at h
      cases hserved : s.secureUploadGeodesyMLSiteLog java now caller siteLog with
      | error e => exact .inl (by simpa [hserved] using h)
      | ok served =>
          obtain rfl : s' = served := by simpa [hserved] using h
          obtain ⟨auth, l, hauth, hl, hedit, hupload⟩ := secureUpload_spec hserved
          exact .inr ⟨auth, l, hauth, hl ▸ rfl, hedit, hupload⟩
  | uploadSopacSiteLog siteLog =>
      -- this path is not open
      simp [Request.method, Request.path, openPaths, createdResources, HttpMethod.isSafe] at hopen
  | validateGeodesyMLSiteLog => exact .inl h
  | isPermittedToUpload fourCharId => exact .inl h
  | addToNetwork request => simp [Request.method, HttpMethod.isSafe] at hopen
  | uploadSolution sinexFilename => exact .inl h
  | resource method path =>
      obtain ⟨hmapped, hkept⟩ := h
      refine .inl (hkept (hopen.imp_right fun ⟨hmethod, hpath⟩ => ⟨hmethod, ?_⟩))
      simp only [Request.method, Request.path] at hmethod hpath
      rcases List.mem_append.mp hpath with hpath | hpath
      · exact hpath
      · subst hmethod
        refine absurd ?_ hmapped
        rcases List.mem_cons.mp hpath with rfl | hpath
        · decide
        · rw [List.mem_singleton.mp hpath]
          decide

/-! ## Who may edit -/

/-- The decision, in terms of the networks that the station is in. -/
lemma hasAuthorityToEditSiteLog_eq (java : CaseMapping) (now : Instant) (st : NetworkStore)
    (auth : Authentication) (fourCharId : String) :
    hasAuthorityToEditSiteLog java now st auth fourCharId =
      if hasAuthority auth "superuser" ∨ hasAuthority auth ("edit-" ++ java.toLowerCase fourCharId)
      then .ok true
      else (((st.tenancies fourCharId).filter (·.inEffect now)).mapM
        (networkEditAuthority java st)).map (hasAnyAuthority auth) := by
  unfold hasAuthorityToEditSiteLog NetworkStore.tenancies
  by_cases hsuper : hasAuthority auth "superuser" = true
  · simp [hsuper, pure, Except.pure]
  · by_cases hedit : hasAuthority auth ("edit-" ++ java.toLowerCase fourCharId) = true
    · simp [hsuper, hedit, pure, Except.pure]
    · simp only [hsuper, hedit, or_self, if_false, Bool.false_eq_true]
      cases st.findByFourCharacterId fourCharId with
      | none => simp [hasAnyAuthority, pure, Except.pure, Except.map]
      | some site =>
          simp only [bind, Except.bind, pure, Except.pure, Option.map_some, Option.getD_some]
          cases (site.networkTenancies.filter (·.inEffect now)).mapM
            (networkEditAuthority java st) <;> rfl

/-- The networks of two stores are the same, and so are the stations in them. -/
structure SameNetworks (st st' : NetworkStore) : Prop where
  corsNetworks : st'.corsNetworks = st.corsNetworks
  tenancies : ∀ id, st'.tenancies id = st.tenancies id

namespace SameNetworks

lemma refl (st : NetworkStore) : SameNetworks st st := ⟨rfl, fun _ => rfl⟩

lemma trans {st st' st'' : NetworkStore} (h : SameNetworks st st') (h' : SameNetworks st' st'') :
    SameNetworks st st'' :=
  ⟨h'.corsNetworks.trans h.corsNetworks, fun id => (h'.tenancies id).trans (h.tenancies id)⟩

/-- The same callers may edit the same stations. -/
lemma decision_eq {st st' : NetworkStore} (h : SameNetworks st st') (java : CaseMapping)
    (now : Instant) (auth : Authentication) (fourCharId : String) :
    hasAuthorityToEditSiteLog java now st' auth fourCharId =
      hasAuthorityToEditSiteLog java now st auth fourCharId := by
  have hnetwork : networkEditAuthority java st' = networkEditAuthority java st := by
    funext t
    simp only [networkEditAuthority, NetworkStore.findOne, h.corsNetworks]
  rw [hasAuthorityToEditSiteLog_eq, hasAuthorityToEditSiteLog_eq, h.tenancies, hnetwork]

end SameNetworks

/-! ## Runs -/

section Runs

variable {lib : ListUtils} {ant : AntPathRequestMatcher} {java : CaseMapping} {s s' : Server}
  {a : ServerStep} {as : List ServerStep}

/-- The step serves a caller who may edit the station at that time: a superuser, or one who uploads
a log of it. -/
def EditedBy (java : CaseMapping) (fourCharId : String) (s : Server) (a : ServerStep)
    (_ : Server) : Prop :=
  ∃ now auth q, a = .request now (some auth) q ∧
    hasAuthorityToEditSiteLog java now s.networks auth fourCharId = .ok true ∧
    (hasAuthority auth "superuser" = true ∨
      ∃ l, q = .secureUploadGeodesyMLSiteLog (some l) ∧ l.fourCharacterId = fourCharId)

/-- A superuser may edit everything. -/
lemma hasAuthorityToEditSiteLog_of_superuser {now : Instant} {st : NetworkStore}
    {auth : Authentication} (h : hasAuthority auth "superuser" = true) (fourCharId : String) :
    hasAuthorityToEditSiteLog java now st auth fourCharId = .ok true := by
  rw [hasAuthorityToEditSiteLog_eq, if_pos (.inl h)]

/-- A step that is not an editor's keeps the log of the station. -/
lemma findSiteLog_step (hstep : Server.Takes lib ant java s a s') {fourCharId : String}
    (hnot : ¬EditedBy java fourCharId s a s') :
    s'.world.store.findSiteLog fourCharId = s.world.store.findSiteLog fourCharId := by
  cases a with
  | request now caller q =>
      simp only [Server.Takes] at hstep
      split_ifs at hstep with hpermits
      · cases hsuper : isSuperuser caller with
        | true =>
            obtain ⟨auth, rfl, hauth⟩ := (Option.any_eq_true _ _).mp hsuper
            exact absurd ⟨now, auth, q, rfl,
              hasAuthorityToEditSiteLog_of_superuser hauth fourCharId, .inl hauth⟩ hnot
        | false =>
            rcases serves_spec hpermits hsuper hstep with rfl | ⟨auth, l, rfl, rfl, hedit, hupload⟩
            · rfl
            · by_cases hid : fourCharId = l.fourCharacterId
              · subst hid
                exact absurd ⟨now, auth, _, rfl, hedit, .inr ⟨l, rfl, rfl⟩⟩ hnot
              · exact (serverUpload_spec hupload).1 _ hid
      · rw [hstep]
  | siteLogReceived key load rows e =>
      obtain ⟨⟨st, hrun, hworld⟩, -⟩ := hstep
      have hlogs : s'.world.store.siteLogs = s.world.store.siteLogs := by
        rw [hworld]
        exact siteLogs_of_handle hrun
      simp only [Store.findSiteLog, hlogs]
  | siteUpdated rows e =>
      obtain ⟨⟨st, hrun, hworld⟩, -⟩ := hstep
      have hlogs : s'.world.store.siteLogs = s.world.store.siteLogs := by
        have hnodes := congrArg Store.siteLogs (nodeService_frame hrun).2
        rw [hworld]
        exact hnodes
      simp only [Store.findSiteLog, hlogs]

/-- The request is a superuser's. -/
def ServerStep.OfSuperuser : ServerStep → Prop
  | .request _ caller _ => isSuperuser caller = true
  | _ => False

instance : DecidablePred ServerStep.OfSuperuser
  | .request _ caller _ => inferInstanceAs (Decidable (isSuperuser caller = true))
  | .siteLogReceived _ _ _ _ => inferInstanceAs (Decidable False)
  | .siteUpdated _ _ => inferInstanceAs (Decidable False)

/-- A step that is not a superuser's keeps the networks and the stations in them. -/
lemma sameNetworks_step (hstep : Server.Takes lib ant java s a s') (hnot : ¬a.OfSuperuser) :
    SameNetworks s.networks s'.networks := by
  cases a with
  | request now caller q =>
      have hsuper : isSuperuser caller = false := by simpa [ServerStep.OfSuperuser] using hnot
      simp only [Server.Takes] at hstep
      split_ifs at hstep with hpermits
      · rcases serves_spec hpermits hsuper hstep with rfl | ⟨_, l, -, -, -, hupload⟩
        · exact .refl _
        · rw [(serverUpload_spec hupload).2]
          exact .refl _
      · rw [hstep]
        exact .refl _
  | siteLogReceived key load rows e =>
      obtain ⟨-, log, -, hnetworks⟩ := hstep
      rw [hnetworks]
      exact ⟨NetworkStore.corsNetworks_saveCorsSite key e.fourCharacterId log,
        NetworkStore.tenancies_saveCorsSite key e.fourCharacterId log⟩
  | siteUpdated rows e =>
      rw [hstep.2]
      exact .refl _

/-- Nor does a run without them. -/
lemma sameNetworks_run (hrun : Run (Server.Takes lib ant java) s as s')
    (hnot : ∀ a ∈ as, ¬a.OfSuperuser) : SameNetworks s.networks s'.networks := by
  refine hrun.invariant (P := fun a => ¬a.OfSuperuser)
    (I := fun t => SameNetworks s.networks t.networks) ?_ hnot (.refl _)
  intro t a u ha hsame hstep
  exact hsame.trans (sameNetworks_step hstep ha)

/-- **No escalation.**  Without a superuser's request nobody gains or loses the authority to edit a
station: at any time, every decision is the one that the networks of the start give. -/
theorem no_escalation (hrun : Run (Server.Takes lib ant java) s as s')
    (hnot : ∀ a ∈ as, ¬a.OfSuperuser) (now : Instant) (auth : Authentication)
    (fourCharId : String) :
    hasAuthorityToEditSiteLog java now s'.networks auth fourCharId =
      hasAuthorityToEditSiteLog java now s.networks auth fourCharId :=
  (sameNetworks_run hrun hnot).decision_eq java now auth fourCharId

/-- The caller with the token for the network. -/
def geonetEditor : Authentication := extractAuthentication .ofEntry .ascii geonetToken

/-- He uploads a log of the station that is in the network. -/
def geonetUpload : List ServerStep :=
  [.request (.ofEpochSecond 10) (some geonetEditor)
    (.secureUploadGeodesyMLSiteLog (some SiteLog.clockRemoved))]

lemma exists_run_geonetUpload (lib : ListUtils) :
    ∃ s', Run (Server.Takes lib .ofSegments .ascii) ⟨World.init, geonet⟩ geonetUpload s' ∧
      s'.world.store.siteLogs = [SiteLog.clockRemoved.reload] := by
  have hpermits : ResourceServerConfig.permits .ofSegments (some geonetEditor) .POST
      "/siteLogs/upload" = true := by decide +kernel
  have hserved : ((Server.secureUploadGeodesyMLSiteLog .ascii (.ofEpochSecond 10)
      (some geonetEditor) (some SiteLog.clockRemoved) ⟨World.init, geonet⟩).toOption.any
      fun s => s.world.store.siteLogs = [SiteLog.clockRemoved.reload]) = true := by decide +kernel
  obtain ⟨s', hs', hlogs⟩ := (Option.any_eq_true _ _).mp hserved
  have hok : Server.secureUploadGeodesyMLSiteLog .ascii (.ofEpochSecond 10) (some geonetEditor)
      (some SiteLog.clockRemoved) ⟨World.init, geonet⟩ = .ok s' := by
    cases hcall : Server.secureUploadGeodesyMLSiteLog .ascii (.ofEpochSecond 10)
      (some geonetEditor) (some SiteLog.clockRemoved) ⟨World.init, geonet⟩ with
    | error e => simp [hcall, Except.toOption] at hs'
    | ok t => simpa [hcall, Except.toOption] using hs'
  refine ⟨s', .single ?_, of_decide_eq_true hlogs⟩
  simp only [Server.Takes, Request.method, Request.path, if_pos hpermits, Server.Serves,
    Server.endpoint, hok]

/-- The decisions are the same after that upload. -/
theorem no_escalation_geonet :
    ∃ s', Run (Server.Takes .ofContains .ofSegments .ascii) ⟨World.init, geonet⟩ geonetUpload s' ∧
      ∀ now auth fourCharId, hasAuthorityToEditSiteLog .ascii now s'.networks auth fourCharId =
        hasAuthorityToEditSiteLog .ascii now geonet auth fourCharId := by
  obtain ⟨s', hrun, -⟩ := exists_run_geonetUpload .ofContains
  exact ⟨s', hrun, no_escalation hrun (by decide +kernel)⟩

/-- **The stored log of a station changes only under an editor.**  If it is another at the end of a
run, some request of the run was made by a caller who could edit the station at that time, and who
uploaded a log of it or was a superuser.  If no superuser made a request, the caller could edit it
by the networks of the start. -/
theorem stored_log_changed_by_editor (hrun : Run (Server.Takes lib ant java) s as s')
    {fourCharId : String} (hchanged : s'.world.store.findSiteLog fourCharId ≠
      s.world.store.findSiteLog fourCharId) :
    (∃ q a q', Passes (Server.Takes lib ant java) s as q a q' ∧
      EditedBy java fourCharId q a q') ∧
    ((∀ a ∈ as, ¬a.OfSuperuser) →
      ∃ now auth l, .request now (some auth) (.secureUploadGeodesyMLSiteLog (some l)) ∈ as ∧
        l.fourCharacterId = fourCharId ∧
        hasAuthorityToEditSiteLog java now s.networks auth fourCharId = .ok true) := by
  have hedited : ∃ q a q', Passes (Server.Takes lib ant java) s as q a q' ∧
      EditedBy java fourCharId q a q' := by
    refine hrun.exists_bad (R := fun t u => u.world.store.findSiteLog fourCharId =
      t.world.store.findSiteLog fourCharId) (fun _ => rfl) ?_ ?_ hchanged
    · intro t u v htu huv
      exact huv.trans htu
    · intro t a u hstep
      exact findSiteLog_step hstep
  refine ⟨hedited, ?_⟩
  intro hnot
  obtain ⟨q, a, q', hpass, now, auth, r, rfl, hedit, hwho⟩ := hedited
  obtain ⟨⟨bs, hbefore, hbs⟩, ha⟩ := hpass.reached hnot
  rcases hwho with hsuper | ⟨l, rfl, hl⟩
  · exact absurd hsuper ha
  · refine ⟨now, auth, l, hpass.mem, hl, ?_⟩
    rw [← (sameNetworks_run hbefore hbs).decision_eq]
    exact hedit

/-- The upload of a network's editor replaces the log. -/
theorem stored_log_changed_by_editor_geonet :
    ∃ s', Run (Server.Takes .ofContains .ofSegments .ascii) ⟨World.init, geonet⟩ geonetUpload s' ∧
      (∃ q a q', Passes (Server.Takes .ofContains .ofSegments .ascii) ⟨World.init, geonet⟩
          geonetUpload q a q' ∧ EditedBy .ascii "ADE1" q a q') ∧
      ((∀ a ∈ geonetUpload, ¬a.OfSuperuser) →
        ∃ now auth l, .request now (some auth) (.secureUploadGeodesyMLSiteLog (some l)) ∈
            geonetUpload ∧ l.fourCharacterId = "ADE1" ∧
          hasAuthorityToEditSiteLog .ascii now geonet auth "ADE1" = .ok true) := by
  obtain ⟨s', hrun, hlogs⟩ := exists_run_geonetUpload .ofContains
  refine ⟨s', hrun, stored_log_changed_by_editor hrun ?_⟩
  rw [Store.findSiteLog, hlogs]
  decide

end Runs

end Geodesy.Security
