import Geodesy.Pipeline.Quiet

/-!
# What the tables keep

No handler deletes a row.  Equipment and configurations are updated in place, setups and nodes are
invalidated, sites take the description of the next log; the columns that say what a row is about
never change (`Store.Archives`).  So an old setup can still be read with the equipment it had.

The keys that the rows refer by are keys of rows that fit (`Store.References`): an entry's
configuration is one of its equipment, of the same class and from the start of its period, and a
node is at the site of its setup.  A site is described as in the log that was handled last.
-/

namespace Geodesy

open TransitionSystem Rows CorsSiteService

/-! ## Nothing is lost -/

/-- What never changes of a site. -/
def CorsSite.columns (c : CorsSite) : ℕ × String := (c.id, c.fourCharacterId)

/-- What never changes of an equipment. -/
def Equipment.columns (e : Equipment) : ℕ × EquipmentClass × Option String × Option String :=
  (e.id, e.equipmentClass, e.type, e.serialNumber)

/-- What never changes of a configuration. -/
def EquipmentConfigurationRow.columns (c : EquipmentConfigurationRow) :
    ℕ × EquipmentClass × ℕ × Option Instant :=
  (c.id, c.config.details.equipmentClass, c.config.equipmentId, c.config.configurationTime)

/-- What never changes of a setup. -/
def SetupRow.columns (r : SetupRow) : ℕ × Setup := (r.id, r.setup)

/-- What never changes of a node. -/
def Node.columns (n : Node) : ℕ × ℕ × ℕ × Option EffectiveDates :=
  (n.id, n.siteId, n.setupId, n.effectivePeriod)

/-- Every row of the first store is a row of the second, and still invalidated if it was. -/
structure Store.Archives (st st' : Store) : Prop where
  corsSites : Evolves CorsSite.columns (fun _ => false) st.corsSites st'.corsSites
  equipment : Evolves Equipment.columns (fun _ => false) st.equipment st'.equipment
  configurations : Evolves EquipmentConfigurationRow.columns (fun _ => false) st.configurations
    st'.configurations
  setups : Evolves SetupRow.columns (·.invalidated) st.setups st'.setups
  nodes : Evolves Node.columns (·.invalidated) st.nodes st'.nodes

section Archives

variable {st st' st'' : Store}

lemma Store.Archives.refl (st : Store) : st.Archives st :=
  ⟨.refl _, .refl _, .refl _, .refl _, .refl _⟩

lemma Store.Archives.trans (h : st.Archives st') (h' : st'.Archives st'') : st.Archives st'' where
  corsSites := h.corsSites.trans h'.corsSites
  equipment := h.equipment.trans h'.equipment
  configurations := h.configurations.trans h'.configurations
  setups := h.setups.trans h'.setups
  nodes := h.nodes.trans h'.nodes

lemma Extends.evolves_equipment (h : Extends st st') :
    Evolves Equipment.columns (fun _ => false) st.equipment st'.equipment := by
  intro e he
  obtain ⟨e', he', hid, hclass, htype, hserial⟩ := h.equipment e he
  exact ⟨e', he', by simp [Equipment.columns, hid, hclass, htype, hserial], by simp⟩

lemma Extends.evolves_configurations (h : Extends st st') :
    Evolves EquipmentConfigurationRow.columns (fun _ => false) st.configurations
      st'.configurations := by
  intro c hc
  obtain ⟨c', hc', hid, hclass, hequipment, htime⟩ := h.configurations c hc
  exact ⟨c', hc', by simp [EquipmentConfigurationRow.columns, hid, hclass, hequipment, htime],
    by simp⟩

lemma NodesKept.evolves (h : NodesKept st st') :
    Evolves Node.columns (·.invalidated) st.nodes st'.nodes := by
  intro n hn
  obtain ⟨n', hn', hid, hsite, hsetup, hperiod, hinvalidated⟩ := h n hn
  exact ⟨n', hn', by simp [Node.columns, hid, hsite, hsetup, hperiod], hinvalidated⟩

/-- A site that was there is there after the site of a log was saved. -/
lemma SiteSaved.evolves {id : String} {site : CorsSite} (h : SiteSaved id site st st')
    (ht : SiteTable st) :
    Evolves CorsSite.columns (fun _ => false) st.corsSites st'.corsSites := by
  intro c hc
  have hbefore : st.siteId c.fourCharacterId = some c.id := by
    rw [Store.siteId, (findCorsSite_eq_some ht).mpr ⟨hc, rfl⟩]
    rfl
  have hafter : st'.siteId c.fourCharacterId = some c.id := by
    by_cases hid : c.fourCharacterId = id
    · rw [hid] at hbefore ⊢
      rw [h.siteId_eq, (h.found c.id hbefore).1]
    · rw [h.siteId_other _ hid, hbefore]
  obtain ⟨c', hfind, hkey⟩ := Option.map_eq_some_iff.mp hafter
  obtain ⟨hc', hcode⟩ := (findCorsSite_eq_some h.table).mp hfind
  exact ⟨c', hc', by simp [CorsSite.columns, hkey, hcode], by simp⟩

/-- Handling a log loses nothing. -/
lemma HandledBy.archives {load : LoadOrder} {e : SiteLogReceived} {saved : Store} {l : SiteLog}
    {site : CorsSite} {N : List Setup} (h : HandledBy load e st st' l site saved N)
    (ht : Tables st) : st.Archives st' where
  corsSites := by
    have hsites : st'.corsSites = saved.corsSites := by
      rw [h.result, placeAll_frame]
    exact hsites ▸ h.siteSaved.evolves ht.sites
  equipment := h.extends.evolves_equipment
  configurations := h.extends.evolves_configurations
  setups := by
    rw [h.setups_eq]
    refine evolves_map_append ?_ _
    intro r _
    refine ⟨by simp [SetupRow.columns], fun hinvalidated => ?_⟩
    rw [SetupRow.supersede_invalidated, hinvalidated, Bool.true_or]
  nodes := by
    have hnodes : st'.nodes = st.nodes := by
      rw [h.result, placeAll_frame, h.siteSaved.frame]
    exact hnodes ▸ .refl _

end Archives

/-- **No step loses a row.** -/
lemma archives_step {lib : ListUtils} {w w' : World} {a : Step} (h : TracksNodes w)
    (hstep : World.Takes lib w a w') : w.store.Archives w'.store := by
  have hnodes := (nodesKept_step h hstep).evolves
  obtain ⟨st, hok, rfl⟩ := hstep
  cases a with
  | upload l =>
      obtain ⟨-, hframe⟩ := upload_inv h.tables.siteLogs hok
      change w.store.Archives st
      rw [hframe]
      exact ⟨.refl _, .refl _, .refl _, .refl _, .refl _⟩
  | siteLogReceived load rows e =>
      obtain ⟨l, site, saved, N, hby⟩ := handle_inv h.tables hok
      exact hby.archives h.tables
  | siteUpdated rows e =>
      obtain ⟨-, hframe⟩ := nodeService_frame hok
      change w.store.Archives st
      rw [hframe] at hnodes ⊢
      exact ⟨.refl _, .refl _, .refl _, .refl _, hnodes⟩

/-! ## References -/

/-- The entry's equipment is there, with a configuration of its class from the start of the entry's
period. -/
def Store.Lists (st : Store) (u : EquipmentInUse) : Prop :=
  ∃ e ∈ st.equipment, ∃ c ∈ st.configurations, e.id = u.equipmentId ∧ c.id = u.configurationId ∧
    c.config.equipmentId = e.id ∧ c.config.details.equipmentClass = e.equipmentClass ∧
    c.config.configurationTime = EffectiveDates.getFrom u.period

/-- The keys that rows refer by are keys of rows that fit. -/
structure Store.References (st : Store) : Prop where
  site : ∀ r ∈ st.setups, ∃ c ∈ st.corsSites, c.id = r.setup.siteId
  inUse : ∀ r ∈ st.setups, ∀ u ∈ r.setup.equipmentInUse, st.Lists u
  equipment : ∀ c ∈ st.configurations, ∃ e ∈ st.equipment, e.id = c.config.equipmentId ∧
    e.equipmentClass = c.config.details.equipmentClass
  setup : ∀ n ∈ st.nodes, ∃ r ∈ st.setups, r.id = n.setupId ∧ r.setup.siteId = n.siteId

section References

variable {st st' : Store} {u : EquipmentInUse}

/-- An entry that represents an item refers to what was made of the item. -/
lemma Represents.lists {x : EquipmentLogItem} (h : Represents st u x) : st.Lists u := by
  obtain ⟨e, he, hid, hclass, -⟩ := h.equipment
  obtain ⟨c, hc, hcid, hcclass, hcequipment, htime⟩ := h.configuration
  refine ⟨e, he, c, hc, hid, hcid, hcequipment.trans hid.symm, hcclass.trans hclass.symm, ?_⟩
  rw [htime, h.period]
  rfl

/-- An entry goes on to refer to the same rows. -/
lemma Store.Lists.mono (h : st.Lists u) (hext : Extends st st') : st'.Lists u := by
  obtain ⟨e, he, c, hc, hid, hcid, hequipment, hclass, htime⟩ := h
  obtain ⟨e', he', hid', hclass', -⟩ := hext.equipment e he
  obtain ⟨c', hc', hcid', hcclass', hcequipment', htime'⟩ := hext.configurations c hc
  refine ⟨e', he', c', hc', hid'.trans hid, hcid'.trans hcid, ?_, ?_, htime'.trans htime⟩
  · rw [hcequipment', hequipment, hid']
  · rw [hcclass', hclass, hclass']

/-- The entries of a realised setup. -/
lemma Realises.lists {k : ℕ} {s : Setup} {p : PlannedSetup} (h : Realises st k s p) :
    ∀ u ∈ s.equipmentInUse, st.Lists u := by
  intro u hu
  obtain ⟨x, -, hrep⟩ := h.represents.exists_right hu
  exact hrep.lists

/-- The entries of all setups, after a log was handled. -/
lemma HandledBy.lists {load : LoadOrder} {e : SiteLogReceived} {saved : Store} {l : SiteLog}
    {site : CorsSite} {N : List Setup} (h : HandledBy load e st st' l site saved N)
    (hlists : ∀ r ∈ st.setups, ∀ u ∈ r.setup.equipmentInUse, st.Lists u) :
    ∀ r ∈ st'.setups, ∀ u ∈ r.setup.equipmentInUse, st'.Lists u := by
  intro r hr u hu
  rw [h.setups_eq] at hr
  rcases List.mem_append.mp hr with hr | hr
  · obtain ⟨q, hq, rfl⟩ := List.mem_map.mp hr
    rw [SetupRow.supersede_setup] at hu
    exact (hlists q hq u hu).mono h.extends
  · obtain ⟨s, hs, i, -, -, rfl⟩ := mem_insertAll hr
    obtain ⟨p, -, hreal⟩ := h.realises.exists_right (List.mem_of_mem_filter hs)
    exact (hreal.lists u hu).mono h.extends_placed

end References

/-- The entries of all setups refer to rows that fit, after every step. -/
lemma lists_step {lib : ListUtils} {w w' : World} {a : Step} (h : Tracks w)
    (hlists : ∀ r ∈ w.store.setups, ∀ u ∈ r.setup.equipmentInUse, w.store.Lists u)
    (hstep : World.Takes lib w a w') :
    ∀ r ∈ w'.store.setups, ∀ u ∈ r.setup.equipmentInUse, w'.store.Lists u := by
  obtain ⟨st, hok, rfl⟩ := hstep
  cases a with
  | upload l =>
      obtain ⟨-, hframe⟩ := upload_inv h.tables.siteLogs hok
      change ∀ r ∈ st.setups, ∀ u ∈ r.setup.equipmentInUse, st.Lists u
      rw [hframe]
      exact hlists
  | siteLogReceived load rows e =>
      obtain ⟨l, site, saved, N, hby⟩ := handle_inv h.tables hok
      exact hby.lists hlists
  | siteUpdated rows e =>
      obtain ⟨-, hframe⟩ := nodeService_frame hok
      change ∀ r ∈ st.setups, ∀ u ∈ r.setup.equipmentInUse, st.Lists u
      rw [hframe]
      exact hlists

/-- **The references hold in every reachable world.** -/
lemma World.Reachable.references {lib : ListUtils} {P : Step → Prop} {w : World}
    (h : World.Reachable lib P w) : w.store.References := by
  have htracks := h.tracksNodes
  have hlists : Tracks w ∧ ∀ r ∈ w.store.setups, ∀ u ∈ r.setup.equipmentInUse, w.store.Lists u := by
    refine h.invariant (I := fun w => Tracks w ∧ ∀ r ∈ w.store.setups,
      ∀ u ∈ r.setup.equipmentInUse, w.store.Lists u)
      ⟨tracks_init, by simp [World.init, Store.empty]⟩ ?_
    rintro w a w' - ⟨hw, hlists⟩ hstep
    exact ⟨tracks_step hw hstep, lists_step hw hlists hstep⟩
  refine ⟨?_, hlists.2, htracks.tables.registry.owner, ?_⟩
  · intro r hr
    obtain ⟨id, hid⟩ := htracks.owned r hr
    obtain ⟨c, hfind, hkey⟩ := Option.map_eq_some_iff.mp hid
    exact ⟨c, List.mem_of_find?_eq_some hfind, hkey⟩
  · intro n hn
    obtain ⟨r, hr, hbelongs⟩ := htracks.nodes.owner n hn
    exact ⟨r, hr, hbelongs.setupId, hbelongs.siteId⟩

/-! ## Descriptions -/

/-- Every site is described as in the log that was handled last. -/
def World.Described (w : World) : Prop :=
  ∀ c ∈ w.store.corsSites, ∃ l, w.lastLog c.fourCharacterId = some l ∧
    describe c l.siteIdentification = c

/-- The sites after one was saved: that one and the others. -/
lemma mem_corsSites_saveCorsSite {st : Store} (h : SiteTable st) {id : String} {l : SiteLog}
    {c : CorsSite} (hc : c ∈ (saveCorsSite id l st).2.corsSites) :
    (c.fourCharacterId = id ∧ describe c l.siteIdentification = c) ∨
      (c.fourCharacterId ≠ id ∧ c ∈ st.corsSites) := by
  cases hfind : st.findCorsSite id with
  | some old =>
      obtain ⟨hold, hcode⟩ := (findCorsSite_eq_some h).mp hfind
      simp only [saveCorsSite, hfind, List.mem_map] at hc
      obtain ⟨r, hr, rfl⟩ := hc
      split_ifs with hid
      · exact .inl ⟨hcode, rfl⟩
      · refine .inr ⟨fun hr' => hid ?_, hr⟩
        rw [(findCorsSite_eq_some h).mpr ⟨hr, hr'⟩] at hfind
        rw [Option.some.inj hfind]
        rfl
  | none =>
      have hnone : ∀ r ∈ st.corsSites, r.fourCharacterId ≠ id := by
        simpa [Store.findCorsSite] using hfind
      simp only [saveCorsSite, hfind, List.mem_append, List.mem_singleton] at hc
      rcases hc with hc | rfl
      · exact .inr ⟨hnone c hc, hc⟩
      · exact .inl ⟨rfl, rfl⟩

lemma described_step {lib : ListUtils} {w w' : World} {a : Step} (h : Tracks w)
    (hdescribed : w.Described) (hstep : World.Takes lib w a w') : w'.Described := by
  obtain ⟨st, hok, rfl⟩ := hstep
  cases a with
  | upload l =>
      obtain ⟨-, hframe⟩ := upload_inv h.tables.siteLogs hok
      change ∀ c ∈ st.corsSites, ∃ l, w.lastLog c.fourCharacterId = some l ∧
        describe c l.siteIdentification = c
      rw [hframe]
      exact hdescribed
  | siteLogReceived load rows e =>
      obtain ⟨l, site, saved, N, hby⟩ := handle_inv h.tables hok
      have hread : w.readLog load e.fourCharacterId = some l := by
        obtain ⟨log, hread, rfl⟩ := hby.read
        simp [World.readLog, hread]
      have hsaved : (saveCorsSite e.fourCharacterId l w.store).2 = saved :=
        congrArg Prod.snd hby.save_eq
      intro c hc
      change c ∈ st.corsSites at hc
      rw [hby.result, placeAll_frame] at hc
      simp only [← hsaved] at hc
      rcases mem_corsSites_saveCorsSite h.tables.sites hc with ⟨hid, hself⟩ | ⟨hid, hc⟩
      · refine ⟨l, ?_, hself⟩
        rw [hid]
        simp [World.after, hread]
      · simp only [World.after, Function.update_of_ne hid]
        exact hdescribed c hc
  | siteUpdated rows e =>
      obtain ⟨-, hframe⟩ := nodeService_frame hok
      change ∀ c ∈ st.corsSites, ∃ l, w.lastLog c.fourCharacterId = some l ∧
        describe c l.siteIdentification = c
      rw [hframe]
      exact hdescribed

/-- **Every site is described by its last log**, in every reachable world. -/
lemma World.Reachable.described {lib : ListUtils} {P : Step → Prop} {w : World}
    (h : World.Reachable lib P w) : w.Described := by
  have hinv : Tracks w ∧ w.Described := by
    refine h.invariant (I := fun w => Tracks w ∧ w.Described)
      ⟨tracks_init, by simp [World.Described, World.init, Store.empty]⟩ ?_
    rintro w a w' - ⟨hw, hdescribed⟩ hstep
    exact ⟨tracks_step hw hstep, described_step hw hdescribed hstep⟩
  exact hinv.2

/-! ## The pipeline -/

namespace Pipeline

variable {lib : ListUtils} {p p' : Pipeline}

/-- No step of the pipeline loses a row. -/
lemma archives_takes {a : PipelineStep} (h : p.Tracked) (hstep : Takes lib p a p') :
    p.world.store.Archives p'.world.store := by
  cases a with
  | event a =>
      obtain ⟨-, -, hw, -⟩ := takes_event hstep
      exact hw ▸ .refl _
  | upload l =>
      obtain ⟨htakes, -, -⟩ := takes_upload h.siteLogs_nodup hstep
      exact archives_step h.world htakes
  | siteLogReceived load rows seen now =>
      obtain ⟨e, w, -, -, htakes, hw, -, -⟩ := takes_siteLogReceived h.world hstep
      have hview : TracksNodes (p.world.withLogs [seen]) :=
        h.world.withLogs (List.nodup_singleton _)
      have hkept := archives_step hview htakes
      rw [hw]
      exact ⟨hkept.corsSites, hkept.equipment, hkept.configurations, hkept.setups, hkept.nodes⟩
  | siteUpdated rows now =>
      obtain ⟨e, -, htakes, -, -⟩ := takes_siteUpdated hstep
      exact archives_step h.world htakes
  | notified now =>
      obtain ⟨-, hw, -, -⟩ := takes_notified hstep
      exact hw ▸ .refl _
  | throws handledAt stackTrace =>
      obtain ⟨-, hw, -⟩ := takes_throws hstep
      exact hw ▸ .refl _

/-- **History is kept.**  However the run goes on, every site, equipment, configuration, setup and
node stays, with what it is about, and invalidated for good once it was.  No key of a setup or of an
equipment is ever given to another one. -/
theorem history_kept {as bs : List PipelineStep} (hrun : Run (Takes lib) Pipeline.init as p)
    (hmore : Run (Takes lib) p bs p') :
    p.world.store.Archives p'.world.store ∧
      (∀ r ∈ p.world.store.setups, ∀ r' ∈ p'.world.store.setups, r'.id = r.id →
        r'.setup = r.setup ∧ (r.invalidated = true → r'.invalidated = true)) ∧
      ∀ e ∈ p.world.store.equipment, ∀ e' ∈ p'.world.store.equipment, e'.id = e.id →
        e'.columns = e.columns := by
  have htracked : ∀ {q q' : Pipeline} {cs : List PipelineStep}, q.Tracked →
      Run (Takes lib) q cs q' → q'.Tracked := fun hq hcs =>
    hcs.always (fun _ _ _ hs hstep => hs.step hstep) hq
  have hp := htracked tracked_init hrun
  have htables := (htracked hp hmore).world.tables
  have hkept : p.world.store.Archives p'.world.store :=
    hmore.preorder (P := fun _ => True) (I := Tracked)
      (R := fun q q' => q.world.store.Archives q'.world.store)
      (fun _ => .refl _) (fun _ _ _ => .trans) (fun _ _ _ _ hs hstep => hs.step hstep)
      (fun _ _ _ _ hs hstep => archives_takes hs hstep) (fun _ _ => trivial) hp
  refine ⟨hkept, ?_, ?_⟩
  · intro r hr r' hr' hid
    obtain ⟨hcolumns, hinvalidated⟩ := hkept.setups.of_key
      (fun _ _ h => congrArg Prod.fst h) htables.setupKeys hr hr' hid
    exact ⟨congrArg Prod.snd hcolumns, hinvalidated⟩
  · intro e he e' he' hid
    exact (hkept.equipment.of_key (fun _ _ h => congrArg Prod.fst h)
      htables.registry.equipmentKeys he he' hid).1

/-- The setups of the overtaken log are still there when the next log replaced them. -/
theorem history_kept_overtaken :
    ∃ p p', Run (Takes .ofContains) Pipeline.init overtakenRun p ∧
      Run (Takes .ofContains) p ([.event .sleep] ++ overtakenPoll) p' ∧
      (∀ r ∈ p.world.store.setups, ∀ r' ∈ p'.world.store.setups, r'.id = r.id →
        r'.setup = r.setup ∧ (r.invalidated = true → r'.invalidated = true)) := by
  obtain ⟨p', hrun, -⟩ : ∃ p', Run (Takes .ofContains) Pipeline.init
      (overtakenRun ++ ([.event .sleep] ++ overtakenPoll)) p' ∧
      decide (p'.world.store.setups.any (·.invalidated) = true) = true :=
    exists_run_of_foldlM (by decide +kernel)
  obtain ⟨p, hfirst, hmore⟩ := hrun.exists_of_append
  exact ⟨p, p', hfirst, hmore, (history_kept hfirst hmore).2.1⟩

/-- **The references hold**, and every site is described as in the log that was handled last,
however the run went so far. -/
theorem references_hold {as : List PipelineStep} (hrun : Run (Takes lib) Pipeline.init as p) :
    p.world.store.References ∧ p.world.Described := by
  obtain ⟨v, hv, hagrees⟩ := exists_reachable hrun
  have hreferences := hv.references
  have hdescribed := hv.described
  rw [hagrees.store] at hreferences
  rw [World.Described, hagrees.store, hagrees.lastLog] at hdescribed
  exact ⟨⟨hreferences.site, hreferences.inUse, hreferences.equipment, hreferences.setup⟩,
    hdescribed⟩

/-- The setups of two logs and their nodes. -/
theorem references_hold_overtaken :
    ∃ p, Run (Takes .ofContains) Pipeline.init
        (overtakenRun ++ ([.event .sleep] ++ overtakenPoll)) p ∧
      p.world.store.References ∧ p.world.Described := by
  obtain ⟨p, hrun, -⟩ : ∃ p, Run (Takes .ofContains) Pipeline.init
      (overtakenRun ++ ([.event .sleep] ++ overtakenPoll)) p ∧
      decide (p.world.store.nodes ≠ []) = true :=
    exists_run_of_foldlM (by decide +kernel)
  exact ⟨p, hrun, references_hold hrun⟩

end Pipeline

end Geodesy
