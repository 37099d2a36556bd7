import Geodesy.Setups.Handle

/-!
# Whole runs: the setups follow the last log

`Tracks` is the invariant of every reachable world: the tables are in order, every setup belongs to
a site, and the valid setups of a site realise the plan of the log that was handled last
(`SetupsRealise`).  Each of the three steps keeps it.  Uploading and updating nodes leave the setups
alone; handling a log replaces the setups of one site by a realisation of the new plan.
-/

namespace Geodesy

open Rows

/-- The valid setups of the site realise the plan of the log, one setup for each planned one. -/
def SetupsRealise (st : Store) (siteId : ℕ) (l : SiteLog) : Prop :=
  ∃ N, ((st.findSetupsBySiteId siteId).map (·.setup)).Perm N ∧
    List.Forall₂ (Realises st siteId) N l.plan

/-- The invariant of reachable worlds. -/
structure Tracks (w : World) : Prop where
  tables : Tables w.store
  owned : ∀ r ∈ w.store.setups, ∃ id, w.store.siteId id = some r.setup.siteId
  unhandled : ∀ id, w.store.siteId id = none → w.lastLog id = none
  handled : ∀ id k, w.store.siteId id = some k →
    ∃ l, w.lastLog id = some l ∧ l.Accepted ∧ SetupsRealise w.store k l

/-! ## Planned setups differ -/

lemma map_effectiveFrom_setupPeriods (ds : List Instant) :
    (CorsSiteService.setupPeriods ds).map (·.effectiveFrom) = ds.map some := by
  rw [setupPeriods_eq, List.map_map]
  conv_rhs => rw [← map_fst_spans ds, List.map_map]
  rfl

/-- No two planned setups start together, so a realisation repeats no setup. -/
lemma Realises.nodup {st : Store} {k : ℕ} {N : List Setup} {l : SiteLog}
    (h : List.Forall₂ (Realises st k) N l.plan) : N.Nodup := by
  have hper : N.map (·.effectivePeriod) = l.periods :=
    (realises_map_period h).trans l.map_period_plan
  have hdates : (l.dates.map some).Nodup :=
    (l.pairwise_dates.imp ne_of_lt).map _ fun _ _ hne => by simpa using hne
  rw [← map_effectiveFrom_setupPeriods] at hdates
  have hperiods : l.periods.Nodup := List.Nodup.of_map _ hdates
  rw [← hper] at hperiods
  exact List.Nodup.of_map _ hperiods

lemma SetupsRealise.nodup {st : Store} {k : ℕ} {l : SiteLog} (h : SetupsRealise st k l) :
    ((st.findSetupsBySiteId k).map (·.setup)).Nodup := by
  obtain ⟨N, hperm, hreal⟩ := h
  exact hperm.nodup_iff.mpr (Realises.nodup hreal)

/-- A realisation survives what keeps the rows and the site's valid setups. -/
lemma SetupsRealise.mono {st st' : Store} {k : ℕ} {l : SiteLog} (h : SetupsRealise st k l)
    (hext : Extends st st')
    (hvalid : st'.findSetupsBySiteId k = st.findSetupsBySiteId k) : SetupsRealise st' k l := by
  obtain ⟨N, hperm, hreal⟩ := h
  exact ⟨N, hvalid ▸ hperm, hreal.imp fun _ _ hs => hs.mono hext⟩

/-! ## Steps that leave the setups alone -/

/-- An upload replaces the log of its site. -/
lemma upload_eq {st : Store} (h : (st.siteLogs.map (·.fourCharacterId)).Nodup) (l : SiteLog) :
    CorsSiteLogService.upload l st = .ok { st with
      siteLogs := st.siteLogs.filter (·.fourCharacterId ≠ l.fourCharacterId) ++ [l.reload]
      published := st.published ++ [.siteLogReceived ⟨l.fourCharacterId, l.siteLogText⟩] } := by
  have hdelete : CorsSiteLogService.delete l.fourCharacterId st = .ok { st with
      siteLogs := st.siteLogs.filter (·.fourCharacterId ≠ l.fourCharacterId) } := by
    rw [CorsSiteLogService.delete]
    rcases hfound : st.siteLogs.filter (·.fourCharacterId = l.fourCharacterId) with
      _ | ⟨a, _ | ⟨b, rest⟩⟩
    · have hself : st.siteLogs.filter (·.fourCharacterId ≠ l.fourCharacterId) = st.siteLogs := by
        simpa [List.filter_eq_nil_iff] using hfound
      have hread : st.findSiteLog l.fourCharacterId = .ok none := by
        simp [Store.findSiteLog, hfound]
      rw [hself, hread]
      rfl
    · have hread : st.findSiteLog l.fourCharacterId = .ok (some a) := by
        simp [Store.findSiteLog, hfound]
      rw [hread]
      rfl
    · have hsub := (List.filter_sublist (p := fun r : SiteLog =>
        decide (r.fourCharacterId = l.fourCharacterId)) (l := st.siteLogs)).map (·.fourCharacterId)
      have hmem : ∀ r ∈ a :: b :: rest, r.fourCharacterId = l.fourCharacterId := by
        intro r hr
        rw [← hfound] at hr
        simpa using List.of_mem_filter hr
      rw [hfound] at hsub
      have hnodup := h.sublist hsub
      simp [hmem a (by simp), hmem b (by simp)] at hnodup
  simp [CorsSiteLogService.upload, hdelete, bind, Except.bind, pure, Except.pure]

/-- After an upload the log is read back, and nothing else was stored. -/
lemma upload_inv {st st' : Store} (h : (st.siteLogs.map (·.fourCharacterId)).Nodup) {l : SiteLog}
    (hok : CorsSiteLogService.upload l st = .ok st') :
    st'.findSiteLog l.fourCharacterId = .ok (some l.reload) ∧
      st' = { st with siteLogs := st'.siteLogs, published := st'.published } := by
  rw [upload_eq h] at hok
  obtain rfl := Except.ok.inj hok
  refine ⟨?_, rfl⟩
  simp [Store.findSiteLog, List.filter_append]

lemma invalidateNodes_frame : ∀ {rows : List SetupRow} {st st' : Store},
    NodeService.invalidateNodes rows st = .ok st' → st' = { st with nodes := st'.nodes }
  | [], st, st', h => by
      obtain rfl : st = st' := Except.ok.inj h
      rfl
  | s :: rest, st, st', h => by
      rw [NodeService.invalidateNodes] at h
      cases hfind : st.findBySetupId s.id with
      | error x => simp [hfind, bind, Except.bind] at h
      | ok found =>
          cases found with
          | none =>
              simp only [hfind, bind, Except.bind] at h
              exact invalidateNodes_frame h
          | some n =>
              simp only [hfind, bind, Except.bind] at h
              have ih := invalidateNodes_frame h
              exact ih

lemma createNodes_frame {k : ℕ} : ∀ {rows : List SetupRow} {p : Option EffectiveDates}
    {st st' : Store}, NodeService.createNodes k rows p st = .ok st' →
      st.nextId ≤ st'.nextId ∧ st' = { st with nextId := st'.nextId, nodes := st'.nodes }
  | [], p, st, st', h => by
      obtain rfl : st = st' := Except.ok.inj h
      exact ⟨le_rfl, rfl⟩
  | s :: rest, p, st, st', h => by
      rw [NodeService.createNodes] at h
      simp only [bind, Except.bind] at h
      split at h
      · cases h
      split at h
      · obtain rfl : st = st' := Except.ok.inj h
        exact ⟨le_rfl, rfl⟩
      · exact createNodes_frame h
      · split at h
        · cases h
        split_ifs at h
        · split at h
          · cases h
          split at h
          · cases h
          split at h
          · exact createNodes_frame h
          · obtain ⟨hle, heq⟩ := createNodes_frame h
            exact ⟨(Nat.le_succ _).trans hle, heq⟩
        · exact createNodes_frame h

/-- Updating the nodes changes the nodes and the sequence, nothing else. -/
lemma nodeService_frame {rows : RowOrder} {e : SiteUpdated} {st st' : Store}
    (h : NodeService.handle rows e st = .ok st') :
    st.nextId ≤ st'.nextId ∧
      st' = { st with nextId := st'.nextId, nodes := st'.nodes, handled := st'.handled } := by
  rw [NodeService.handle] at h
  cases hsite : st.findCorsSite e.fourCharacterId with
  | none => simp [hsite, throw, throwThe, MonadExceptOf.throw] at h
  | some site =>
      simp only [hsite, bind, Except.bind] at h
      split at h
      · cases h
      · rename_i st₁ hinv
        split at h
        · cases h
        · rename_i st₂ hcreate
          obtain rfl := Except.ok.inj h
          have h₁ := invalidateNodes_frame hinv
          obtain ⟨hle, h₂⟩ := createNodes_frame hcreate
          rw [h₁] at hle h₂
          rw [h₂]
          exact ⟨hle, rfl⟩

/-! ## The steps keep the invariant -/

/-- What a step that does not touch the tables of the handler keeps. -/
lemma Tables.congr {st st' : Store} (h : Tables st) (hnext : st.nextId ≤ st'.nextId)
    (hequipment : st'.equipment = st.equipment)
    (hconfigurations : st'.configurations = st.configurations)
    (hsites : st'.corsSites = st.corsSites) (hsetups : st'.setups = st.setups)
    (hlogs : (st'.siteLogs.map (·.fourCharacterId)).Nodup) : Tables st' where
  registry := h.registry.congr hnext hequipment hconfigurations
  sites := ⟨hsites ▸ h.sites.keys.mono hnext, hsites ▸ h.sites.unique⟩
  setupKeys := hsetups ▸ h.setupKeys.mono hnext
  siteLogs := hlogs

/-- An upload leaves one log to each station. -/
lemma Tables.upload {st st' : Store} (h : Tables st) {l : SiteLog}
    (hok : CorsSiteLogService.upload l st = .ok st') : Tables st' := by
  rw [upload_eq h.siteLogs] at hok
  obtain rfl := Except.ok.inj hok
  refine h.congr le_rfl rfl rfl rfl rfl ?_
  simp only [List.map_append, List.map_cons, List.map_nil, SiteLog.fourCharacterId_reload]
  refine List.nodup_append'.mpr
    ⟨h.siteLogs.sublist ((List.filter_sublist (l := st.siteLogs)).map _),
      List.nodup_singleton _, ?_⟩
  intro id hid hid'
  obtain ⟨r, hr, rfl⟩ := List.mem_map.mp hid
  simp only [List.mem_singleton] at hid'
  exact absurd hid' (by simpa using List.of_mem_filter hr)

lemma Tracks.upload {w : World} (h : Tracks w) (l : SiteLog) {st : Store}
    (hok : CorsSiteLogService.upload l w.store = .ok st) :
    Tracks (w.after (.upload l) st) := by
  have htables := h.tables.upload hok
  rw [upload_eq h.tables.siteLogs] at hok
  obtain rfl := Except.ok.inj hok
  refine ⟨htables, h.owned, h.unhandled, ?_⟩
  intro id k hk
  obtain ⟨l', hl', hacc, hreal⟩ := h.handled id k hk
  exact ⟨l', hl', hacc, hreal.mono (Extends.of_eq le_rfl rfl rfl) rfl⟩

lemma Tracks.siteUpdated {w : World} (h : Tracks w) {rows : RowOrder} {e : SiteUpdated} {st : Store}
    (hok : NodeService.handle rows e w.store = .ok st) :
    Tracks (w.after (.siteUpdated rows e) st) := by
  obtain ⟨hle, hframe⟩ := nodeService_frame hok
  rw [hframe]
  refine ⟨h.tables.congr hle rfl rfl rfl rfl h.tables.siteLogs, h.owned, h.unhandled, ?_⟩
  intro id k hk
  obtain ⟨l', hl', hacc, hreal⟩ := h.handled id k hk
  exact ⟨l', hl', hacc, hreal.mono (Extends.of_eq hle rfl rfl) rfl⟩

section Handled

variable {load : LoadOrder} {e : SiteLogReceived} {st st' saved : Store} {l : SiteLog}
  {site : CorsSite} {N : List Setup}

lemma HandledBy.nextId_le (h : HandledBy load e st st' l site saved N) :
    st.nextId ≤ saved.nextId ∧ saved.nextId ≤ (placeAll l.placements saved).nextId ∧
      (placeAll l.placements saved).nextId ≤ st'.nextId := by
  refine ⟨h.siteSaved.nextId_le, (extends_placeAll _ _).nextId_le, ?_⟩
  rw [h.result]
  exact Nat.le_add_right _ _

lemma HandledBy.extends_saved (h : HandledBy load e st st' l site saved N) : Extends st saved :=
  Extends.of_eq h.siteSaved.nextId_le (by rw [h.siteSaved.frame]) (by rw [h.siteSaved.frame])

lemma HandledBy.extends_placed (h : HandledBy load e st st' l site saved N) :
    Extends (placeAll l.placements saved) st' :=
  Extends.of_eq h.nextId_le.2.2 (by rw [h.result]) (by rw [h.result])

/-- The rows of the two equipment tables stay. -/
lemma HandledBy.extends (h : HandledBy load e st st' l site saved N) : Extends st st' :=
  (h.extends_saved.trans (extends_placeAll _ _)).trans h.extends_placed

lemma HandledBy.setups_eq (h : HandledBy load e st st' l site saved N) :
    st'.setups = st.setups.map (·.supersede site.id N)
      ++ insertAll SetupRow.fresh (placeAll l.placements saved).nextId
          (st.freshSetups site.id N) := by
  rw [h.result]

lemma HandledBy.newSetups_siteId (h : HandledBy load e st st' l site saved N) :
    ∀ s ∈ N, s.siteId = site.id := realises_siteId h.realises

/-- Handling a log replaces setups and touches no node. -/
lemma HandledBy.nodes_eq (h : HandledBy load e st st' l site saved N) : st'.nodes = st.nodes := by
  rw [h.result, placeAll_frame, h.siteSaved.frame]

/-- The site table afterwards is the saved one. -/
lemma HandledBy.siteId_eq (h : HandledBy load e st st' l site saved N) (id : String) :
    st'.siteId id = saved.siteId id := by
  have hsites : st'.corsSites = saved.corsSites := by
    rw [h.result, placeAll_frame]
  simp only [Store.siteId, Store.findCorsSite, hsites]

/-- The setups of another site stay, whatever they are selected by. -/
lemma HandledBy.filter_other (h : HandledBy load e st st' l site saved N) {k : ℕ}
    (hk : k ≠ site.id) (p : SetupRow → Bool) :
    st'.setups.filter (fun r => decide (r.setup.siteId = k) && p r)
      = st.setups.filter fun r => decide (r.setup.siteId = k) && p r := by
  have hother := replaced_other h.setups_eq h.newSetups_siteId
  have hrestrict : ∀ st : Store, st.setups.filter (fun r => decide (r.setup.siteId = k) && p r) =
      (st.setups.filter (·.setup.siteId ≠ site.id)).filter fun r =>
        decide (r.setup.siteId = k) && p r := by
    intro st
    rw [List.filter_filter]
    refine List.filter_congr ?_
    intro r _
    by_cases hr : r.setup.siteId = k
    · simp [hr, hk]
    · simp [hr]
  rw [hrestrict st', hrestrict st, hother]

lemma HandledBy.findSetups_other (h : HandledBy load e st st' l site saved N) {k : ℕ}
    (hk : k ≠ site.id) : st'.findSetupsBySiteId k = st.findSetupsBySiteId k :=
  h.filter_other hk fun r => !r.invalidated

lemma HandledBy.findInvalidated_other (h : HandledBy load e st st' l site saved N) {k : ℕ}
    (hk : k ≠ site.id) : st'.findInvalidatedBySiteId k = st.findInvalidatedBySiteId k :=
  h.filter_other hk fun r => r.invalidated

/-- The registry while the items are placed. -/
lemma HandledBy.registry_placed (h : HandledBy load e st st' l site saved N) (ht : Tables st) :
    Registry (placeAll l.placements saved) :=
  (h.siteSaved.registry ht.registry).placeAll l.placements

/-- **The tables stay in order.** -/
lemma HandledBy.tables (h : HandledBy load e st st' l site saved N) (ht : Tables st) :
    Tables st' := by
  obtain ⟨hle₁, hle₂, hle₃⟩ := h.nextId_le
  have hsaved := h.siteSaved
  have hplaced := h.registry_placed ht
  have hframe := placeAll_frame l.placements saved
  refine ⟨?_, ?_, ?_, ?_⟩
  · exact hplaced.congr hle₃ (by rw [h.result]) (by rw [h.result])
  · have hsites : st'.corsSites = saved.corsSites := by
      rw [h.result, hframe]
    exact ⟨hsites ▸ hsaved.table.keys.mono (hle₂.trans hle₃), hsites ▸ hsaved.table.unique⟩
  · have hkeys := (ht.setupKeys.mono (hle₁.trans hle₂)).append_range
      (st.freshSetups site.id N).length
    rw [h.setups_eq, List.map_append, List.map_map, map_key_insertAll SetupRow.fresh_id]
    have hids : (fun r : SetupRow => r.id) ∘ SetupRow.supersede site.id N = fun r => r.id := by
      funext r
      simp
    rw [hids, h.result]
    exact hkeys
  · have hlogs : st'.siteLogs = st.siteLogs := by
      rw [h.result, hframe, hsaved.frame]
    exact hlogs ▸ ht.siteLogs

end Handled

/-- Every setup is at a site. -/
def Store.Owned (st : Store) : Prop := ∀ r ∈ st.setups, ∃ id, st.siteId id = some r.setup.siteId

section Sites

variable {load : LoadOrder} {e : SiteLogReceived} {st st' saved : Store} {l : SiteLog}
  {site : CorsSite} {N : List Setup}

/-- Before the call the valid setups of the site repeat no setup: where the site is new there are
none. -/
lemma HandledBy.nodup_valid (hby : HandledBy load e st st' l site saved N) (ht : Tables st)
    (howned : st.Owned) (hnodup : ∀ k, st.siteId e.fourCharacterId = some k →
      ((st.findSetupsBySiteId k).map (·.setup)).Nodup) :
    ((st.findSetupsBySiteId site.id).map (·.setup)).Nodup := by
  have hsaved := hby.siteSaved
  cases hfound : st.siteId e.fourCharacterId with
  | some k =>
      rw [(hsaved.found k hfound).1]
      exact hnodup k hfound
  | none =>
      have hnil : st.findSetupsBySiteId site.id = [] := by
        refine List.filter_eq_nil_iff.mpr ?_
        intro r hr
        obtain ⟨id, hid⟩ := howned r hr
        obtain ⟨owner, howner, hkey⟩ := Option.map_eq_some_iff.mp hid
        have hlt := ht.sites.keys.lt_next owner.id
          (List.mem_map_of_mem (List.mem_of_find?_eq_some howner))
        have hnew := hsaved.created hfound
        have hne : r.setup.siteId ≠ site.id := by omega
        simp [hne]
      simp [hnil]

/-- The site of the log is there afterwards. -/
lemma HandledBy.siteId_self (hby : HandledBy load e st st' l site saved N) :
    st'.siteId e.fourCharacterId = some site.id := by
  rw [hby.siteId_eq, hby.siteSaved.siteId_eq]

/-- The other sites stay. -/
lemma HandledBy.siteId_other (hby : HandledBy load e st st' l site saved N) {id : String}
    (hid : id ≠ e.fourCharacterId) : st'.siteId id = st.siteId id := by
  rw [hby.siteId_eq, hby.siteSaved.siteId_other id hid]

/-- Every setup is at a site afterwards. -/
lemma HandledBy.owned (hby : HandledBy load e st st' l site saved N) (howned : st.Owned) :
    st'.Owned := by
  intro r hr
  rw [hby.setups_eq] at hr
  rcases List.mem_append.mp hr with hr | hr
  · obtain ⟨q, hq, rfl⟩ := List.mem_map.mp hr
    obtain ⟨id, hid⟩ := howned q hq
    rw [SetupRow.supersede_setup]
    by_cases he : id = e.fourCharacterId
    · subst he
      exact ⟨_, hby.siteId_self.trans (congrArg some (hby.siteSaved.found _ hid).1)⟩
    · exact ⟨id, (hby.siteId_other he).trans hid⟩
  · obtain ⟨s, hs, i, -, -, rfl⟩ := mem_insertAll hr
    refine ⟨e.fourCharacterId, ?_⟩
    rw [SetupRow.fresh_setup, hby.newSetups_siteId s (List.mem_of_mem_filter hs)]
    exact hby.siteId_self

/-- The valid setups of the site realise the log. -/
lemma HandledBy.setupsRealise (hby : HandledBy load e st st' l site saved N)
    (hold : ((st.findSetupsBySiteId site.id).map (·.setup)).Nodup) :
    SetupsRealise st' site.id l :=
  ⟨N, replaced_perm hby.setups_eq hby.newSetups_siteId (Realises.nodup hby.realises) hold,
    hby.realises.imp fun _ _ hs => hs.mono hby.extends_placed⟩

end Sites

lemma HandledBy.nodup_old {w : World} {load : LoadOrder} {e : SiteLogReceived}
    {st' saved : Store} {l : SiteLog} {site : CorsSite} {N : List Setup} (h : Tracks w)
    (hby : HandledBy load e w.store st' l site saved N) :
    ((w.store.findSetupsBySiteId site.id).map (·.setup)).Nodup := by
  refine hby.nodup_valid h.tables h.owned fun k hk => ?_
  obtain ⟨l', -, -, hreal⟩ := h.handled _ k hk
  exact hreal.nodup

section After

variable {w : World} {load : LoadOrder} {e : SiteLogReceived} {st' saved : Store} {l : SiteLog}
  {site : CorsSite} {N : List Setup}

lemma HandledBy.lastLog_after (hby : HandledBy load e w.store st' l site saved N)
    (rows : RowOrder) : (w.after (.siteLogReceived load rows e) st').lastLog =
      Function.update w.lastLog e.fourCharacterId (some l) := by
  obtain ⟨log, hread, rfl⟩ := hby.read
  simp [World.after, World.readLog, hread]

/-- A site that is not there has no log that was handled. -/
lemma HandledBy.unhandled_after (hby : HandledBy load e w.store st' l site saved N)
    (rows : RowOrder) (h : ∀ id, w.store.siteId id = none → w.lastLog id = none) (id : String)
    (hid : st'.siteId id = none) :
    (w.after (.siteLogReceived load rows e) st').lastLog id = none := by
  rw [hby.lastLog_after]
  by_cases he : id = e.fourCharacterId
  · subst he
    simp [hby.siteId_self] at hid
  · rw [Function.update_of_ne he]
    exact h id ((hby.siteId_other he).symm.trans hid)

/-- What relates each site to its last log, and depends on its setups, holds after a log was handled
if it holds of the site of that log. -/
lemma HandledBy.handled_after {R : Store → ℕ → SiteLog → Prop}
    (hmono : ∀ {k l'}, R w.store k l' → Extends w.store st' →
      st'.findSetupsBySiteId k = w.store.findSetupsBySiteId k → R st' k l')
    (hby : HandledBy load e w.store st' l site saved N) (hself : R st' site.id l) (rows : RowOrder)
    (h : ∀ id k, w.store.siteId id = some k →
      ∃ l', w.lastLog id = some l' ∧ l'.Accepted ∧ R w.store k l') (id : String) (k : ℕ)
    (hk : st'.siteId id = some k) :
    ∃ l', (w.after (.siteLogReceived load rows e) st').lastLog id = some l' ∧ l'.Accepted ∧
      R st' k l' := by
  rw [hby.lastLog_after]
  by_cases he : id = e.fourCharacterId
  · subst he
    obtain rfl : site.id = k := Option.some.inj (hby.siteId_self.symm.trans hk)
    exact ⟨l, Function.update_self .., hby.accepted, hself⟩
  · rw [hby.siteId_other he] at hk
    obtain ⟨l', hl', hacc, hR⟩ := h id k hk
    have hne : k ≠ site.id := hby.siteSaved.ne_of_other he hk
    exact ⟨l', (Function.update_of_ne he ..).trans hl', hacc,
      hmono hR hby.extends (hby.findSetups_other hne)⟩

/-- **Handling a log keeps the invariant.** -/
lemma HandledBy.tracks (rows : RowOrder) (h : Tracks w)
    (hby : HandledBy load e w.store st' l site saved N) :
    Tracks (w.after (.siteLogReceived load rows e) st') where
  tables := hby.tables h.tables
  owned := hby.owned h.owned
  unhandled := hby.unhandled_after rows h.unhandled
  handled :=
    hby.handled_after SetupsRealise.mono (hby.setupsRealise (hby.nodup_old h)) rows h.handled

end After

/-- **Every step keeps the invariant.** -/
theorem tracks_step {lib : ListUtils} {w w' : World} {a : Step} (h : Tracks w)
    (hstep : World.Takes lib w a w') : Tracks w' := by
  obtain ⟨st, hok, rfl⟩ := hstep
  cases a with
  | upload l => exact h.upload l hok
  | siteLogReceived load rows e =>
      obtain ⟨l, site, saved, N, hby⟩ := handle_inv h.tables hok
      exact hby.tracks rows h
  | siteUpdated rows e => exact h.siteUpdated hok

lemma tracks_init : Tracks World.init where
  tables :=
    { registry := ⟨allocated_nil _, allocated_nil _, by simp [World.init, Store.empty],
        by simp [World.init, Store.empty], by simp [World.init, Store.empty]⟩
      sites := ⟨allocated_nil _, List.nodup_nil⟩
      setupKeys := allocated_nil _
      siteLogs := List.nodup_nil }
  owned := by simp [World.init, Store.empty]
  unhandled := fun _ _ => rfl
  handled := by simp [World.init, Store.empty, Store.siteId, Store.findCorsSite]

/-- **Every reachable world tracks its logs.** -/
theorem World.Reachable.tracks {lib : ListUtils} {P : Step → Prop} {w : World}
    (h : World.Reachable lib P w) : Tracks w :=
  h.invariant tracks_init fun _ _ _ _ hw hstep => tracks_step hw hstep

/-! ## What the logs of a run have in common -/

/-- The logs that the step uploads satisfy the predicate. -/
def Step.Uploads (Q : SiteLog → Prop) : Step → Prop
  | upload l => Q l
  | _ => True

/-- The stored logs and the logs handled last satisfy the predicate. -/
structure LogsSatisfy (Q : SiteLog → Prop) (w : World) : Prop where
  stored : ∀ l ∈ w.store.siteLogs, Q l
  last : ∀ id l, w.lastLog id = some l → Q l

/-- **What holds of every uploaded log holds of every log handled**, if reading a log back and
iterating over it in another order keep it. -/
theorem World.Reachable.logsSatisfy {lib : ListUtils} {Q : SiteLog → Prop}
    (hreload : ∀ l, Q l → Q l.reload) (hiterates : ∀ l l', l'.Iterates l → Q l → Q l') {w : World}
    (h : World.Reachable lib (Step.Uploads Q) w) : LogsSatisfy Q w := by
  have hinv : Tracks w ∧ LogsSatisfy Q w := by
    refine h.invariant (I := fun w => Tracks w ∧ LogsSatisfy Q w)
      ⟨tracks_init, by simp [World.init, Store.empty], by simp [World.init]⟩ ?_
    rintro w a w' ha ⟨htracks, hlogs⟩ hstep
    refine ⟨tracks_step htracks hstep, ?_⟩
    obtain ⟨st, hok, rfl⟩ := hstep
    cases a with
    | upload l =>
        simp only [Step.run, upload_eq htracks.tables.siteLogs] at hok
        obtain rfl := Except.ok.inj hok
        refine ⟨fun l' hl' => ?_, hlogs.last⟩
        rcases List.mem_append.mp hl' with hl' | hl'
        · exact hlogs.stored l' (List.mem_of_mem_filter hl')
        · rw [List.mem_singleton.mp hl']
          exact hreload l ha
    | siteLogReceived load rows e =>
        obtain ⟨l, site, saved, N, hby⟩ := handle_inv htracks.tables hok
        obtain ⟨log, hread, rfl⟩ := hby.read
        have hlog : Q (load.load log) := by
          refine hiterates log _ (load.load_iterates log) (hlogs.stored log ?_)
          rw [Store.findSiteLog] at hread
          split at hread
          · cases Except.ok.inj hread
          · next l hfound =>
              obtain rfl := Option.some.inj (Except.ok.inj hread)
              exact List.mem_of_mem_filter (hfound ▸ List.mem_singleton_self l)
          · cases hread
        refine ⟨fun l' hl' => hlogs.stored l' ?_, fun id l' hl' => ?_⟩
        · have hsame : st.siteLogs = w.store.siteLogs := by
            rw [hby.result, placeAll_frame, hby.siteSaved.frame]
          exact hsame ▸ hl'
        · by_cases hid : id = e.fourCharacterId
          · subst hid
            have hread' : w.readLog load e.fourCharacterId = some (load.load log) := by
              simp [World.readLog, hread]
            simp only [World.after, Function.update_self, hread'] at hl'
            exact Option.some.inj hl' ▸ hlog
          · simp only [World.after, Function.update_of_ne hid] at hl'
            exact hlogs.last id l' hl'
    | siteUpdated rows e =>
        obtain ⟨-, hframe⟩ := nodeService_frame hok
        refine ⟨fun l' hl' => hlogs.stored l' ?_, hlogs.last⟩
        rw [hframe] at hl'
        exact hl'
  exact hinv.2

end Geodesy
