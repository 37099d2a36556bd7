import Geodesy.Nodes.History

/-!
# Every complete setup is covered by a node

In ascending order the loop walks over the valid setups of a site exactly as over the plan of the
log that was handled last (`ReadsAs`), and its valid nodes afterwards are those of the setups that
were visited or had a node already (`validNodes_updateNodes`).  So what the plan says about visited
setups holds of nodes: `complete_setups_covered`.
-/

namespace Geodesy

open Rows NodeService

/-- The setup has a node. -/
def Store.hasNode (st : Store) (r : SetupRow) : Bool := decide (r.id ∈ st.nodes.map (·.setupId))

/-- At most one entry for a receiver, for an antenna and for a clock. -/
def Store.OneOfEach (st : Store) (s : Setup) : Prop :=
  ∀ c ∈ significantEquipment,
    (s.equipmentInUse.filter fun u => st.classOf u = some c).length ≤ 1

instance (st : Store) (s : Setup) : Decidable (st.OneOfEach s) :=
  inferInstanceAs (Decidable (∀ c ∈ significantEquipment, _))

/-- The setups that have a node after an update: those that had one and those visited. -/
def Store.noded (st : Store) (rows : List SetupRow) : List SetupRow :=
  rows.filter fun r => st.hasNode r || decide (r ∈ st.visitedSetups rows)

section ValidNodes

variable {st : Store} {k : ℕ} {rows : List SetupRow}

lemma mem_noded {r : SetupRow} :
    r ∈ st.noded rows ↔ r ∈ rows ∧ (st.hasNode r = true ∨ r ∈ st.visitedSetups rows) := by
  simp [Store.noded]

lemma mem_validNodes {n : Node} :
    n ∈ st.validNodes k ↔ n ∈ st.nodes ∧ n.siteId = k ∧ n.invalidated = false := by
  simp [Store.validNodes]

/-- A node of one of the site's valid setups is valid, and its period is the setup's. -/
lemma NodeTable.validNode (h : NodeTable st) {r : SetupRow} (hr : r ∈ st.findSetupsBySiteId k)
    {n : Node} (hn : n ∈ st.nodes) (hid : n.setupId = r.id) :
    n ∈ st.validNodes k ∧
      n.effectivePeriod = EffectiveDates.reload (some (st.nodePeriod r.setup)) := by
  obtain ⟨hmem, hsite, hvalid⟩ := mem_findSetupsBySiteId.mp hr
  obtain ⟨q, hq, hbelongs⟩ := h.owner n hn
  obtain rfl := List.inj_on_of_nodup_map h.setupKeys hq hmem (hbelongs.setupId.trans hid)
  refine ⟨mem_validNodes.mpr ⟨hn, hbelongs.siteId.symm.trans hsite, ?_⟩, hbelongs.period⟩
  cases hinv : n.invalidated with
  | false => rfl
  | true => rw [hbelongs.invalidated hinv] at hvalid; cases hvalid

/-- A setup that had a node or was visited has one afterwards. -/
lemma exists_node_updateNodes {r : SetupRow}
    (hr : st.hasNode r = true ∨ r ∈ st.visitedSetups rows) :
    ∃ n ∈ (st.updateNodes k rows).nodes, n.setupId = r.id := by
  by_cases hhas : r.id ∈ st.nodes.map (·.setupId)
  · obtain ⟨m, hm, hid⟩ := List.mem_map.mp hhas
    exact ⟨m.retire _, mem_nodes_updateNodes.mpr (Or.inl ⟨m, hm, rfl⟩), by simpa using hid⟩
  · have hvisited : r ∈ st.visitedSetups rows :=
      hr.resolve_left fun hn => hhas (of_decide_eq_true hn)
    have hwithout : r ∈ st.withoutNode (st.visitedSetups rows) :=
      List.mem_filter.mpr ⟨hvisited, decide_eq_true hhas⟩
    obtain ⟨i, -, hi⟩ := exists_mem_insertAll (Node.fresh k st) st.nextId hwithout
    exact ⟨_, mem_nodes_updateNodes.mpr (Or.inr hi), rfl⟩

/-- **The valid nodes of the site after the update**, as pairs of a setup and a period. -/
theorem validNodes_updateNodes (h : NodeTable st) (hrows : rows.Perm (st.findSetupsBySiteId k)) :
    (((st.updateNodes k rows).validNodes k).map fun n => (n.setupId, n.effectivePeriod)).Perm
      ((st.noded rows).map fun r =>
        (r.id, EffectiveDates.reload (some (st.nodePeriod r.setup)))) := by
  have h' := h.updateNodes hrows
  have hconsistent := nodesConsistent_updateNodes h hrows
  have hids : (rows.map (·.id)).Nodup :=
    (hrows.map _).nodup_iff.mpr (h.setupKeys.sublist (List.filter_sublist.map _))
  -- neither list has a setup twice
  have hleft : (((st.updateNodes k rows).validNodes k).map
      fun n => (n.setupId, n.effectivePeriod)).Nodup := by
    refine List.Nodup.of_map Prod.fst ?_
    rw [List.map_map]
    exact h'.unique.sublist (List.filter_sublist.map _)
  have hright : ((st.noded rows).map fun r =>
      (r.id, EffectiveDates.reload (some (st.nodePeriod r.setup)))).Nodup := by
    refine List.Nodup.of_map Prod.fst ?_
    rw [List.map_map]
    exact hids.sublist (List.filter_sublist.map _)
  -- a node of a listed setup is valid, and belongs to that setup
  have hnode : ∀ r ∈ rows, ∀ n ∈ (st.updateNodes k rows).nodes, n.setupId = r.id →
      n ∈ (st.updateNodes k rows).validNodes k ∧
        n.effectivePeriod = EffectiveDates.reload (some (st.nodePeriod r.setup)) :=
    fun r hr n hn hid => h'.validNode (hrows.subset hr) hn hid
  refine (List.perm_ext_iff_of_nodup hleft hright).mpr fun ⟨i, d⟩ => ⟨?_, ?_⟩
  · intro hmem
    obtain ⟨n, hn, heq⟩ := List.mem_map.mp hmem
    obtain ⟨rfl, rfl⟩ := Prod.mk.inj heq
    obtain ⟨hn, hsite, hvalid⟩ := mem_validNodes.mp hn
    obtain ⟨r, hr, hid, hrsite, hrvalid⟩ := hconsistent.current n hn hsite hvalid
    have hr' : r ∈ rows :=
      hrows.symm.subset (mem_findSetupsBySiteId.mpr ⟨hr, hrsite.trans hsite, hrvalid⟩)
    refine List.mem_map.mpr ⟨r, mem_noded.mpr ⟨hr', ?_⟩, Prod.ext hid ?_⟩
    · rcases mem_nodes_updateNodes.mp hn with ⟨m, hm, rfl⟩ | hn
      · refine Or.inl (decide_eq_true ?_)
        rw [hid, Node.retire_setupId]
        exact List.mem_map_of_mem hm
      · obtain ⟨q, hq, -, j, -, rfl⟩ := mem_freshNodes hn
        have hqr := (mem_findSetupsBySiteId.mp (hrows.subset (mem_visitedSetups hq).1)).1
        rw [List.inj_on_of_nodup_map h.setupKeys hr hqr hid]
        exact Or.inr hq
    · exact (hnode r hr' n hn hid.symm).2.symm
  · intro hmem
    obtain ⟨r, hr, heq⟩ := List.mem_map.mp hmem
    obtain ⟨rfl, rfl⟩ := Prod.mk.inj heq
    obtain ⟨hr, hnoded⟩ := mem_noded.mp hr
    obtain ⟨n, hn, hid⟩ := exists_node_updateNodes (k := k) hnoded
    obtain ⟨hvalid, hperiod⟩ := hnode r hr n hn hid
    exact List.mem_map.mpr ⟨n, hvalid, Prod.ext hid hperiod⟩

end ValidNodes

/-! ## The loop reads the plan -/

/-- The rows, in the order of the list, read as the plan of the log. -/
structure ReadsAs (st : Store) (l : SiteLog) (rows : List SetupRow) : Prop where
  plan : rows.map (fun r => l.planned r.setup.effectivePeriod) = l.plan
  visited : (st.visitedSetups rows).map (fun r => l.planned r.setup.effectivePeriod) = l.nodePlan
  complete : ∀ r ∈ rows,
    st.isComplete r.setup = (l.planned r.setup.effectivePeriod).complete
  nodePeriod : ∀ r ∈ rows,
    st.nodePeriod r.setup = (l.planned r.setup.effectivePeriod).nodePeriod

/-- In ascending order the valid setups of a site read as the plan they realise. -/
theorem readsAs_of_ascending {st : Store} {k : ℕ} {l : SiteLog} {rows : List SetupRow}
    (hreg : Registry st) (hreal : SetupsRealise st k l)
    (hrows : rows.Perm (st.findSetupsBySiteId k)) (hasc : rows.Pairwise RowOrder.StartsNoLater) :
    ReadsAs st l rows := by
  have hper : rows.map (·.setup.effectivePeriod) = l.periods :=
    map_period_eq_of_ascending (timeline_setupPeriods l.pairwise_dates)
      ((hrows.map _).trans (map_period_perm hreal)) hasc
  have hplan : rows.map (fun r => l.planned r.setup.effectivePeriod) = l.plan := by
    rw [SiteLog.plan_eq_map, ← hper, List.map_map]
    rfl
  -- a row realises the planned setup with its period
  have hplanned : ∀ r ∈ rows, Realises st k r.setup (l.planned r.setup.effectivePeriod) := by
    intro r hr
    obtain ⟨N, hperm, hN⟩ := hreal
    obtain ⟨p, hp, hrp⟩ := hN.exists_right (hperm.subset (List.mem_map_of_mem (hrows.subset hr)))
    have hpeq : p = l.planned r.setup.effectivePeriod := by
      rw [hrp.period_eq]
      exact (SiteLog.mem_plan.mp hp).2
    exact hpeq ▸ hrp
  have hcomplete := fun r hr => (hplanned r hr).isComplete_eq hreg
  have hnode := fun r hr => (hplanned r hr).nodePeriod_eq hreg
  refine ⟨hplan, ?_, hcomplete, hnode⟩
  have hwalk : Walk.visited PlannedSetup.complete PlannedSetup.hides none
        (rows.map fun r => l.planned r.setup.effectivePeriod)
      = (st.visitedSetups rows).map fun r => l.planned r.setup.effectivePeriod :=
    Walk.visited_map none (fun r hr => (hcomplete r hr).symm) fun t ht r _ => by
      rw [PlannedSetup.hides, ← hnode t (by simpa using ht)]
      rfl
  rw [hplan] at hwalk
  exact hwalk.symm

/-- The valid setups of the handled site read as the plan of its last log. -/
lemma TracksNodes.readsAs {w : World} (h : TracksNodes w) {id : String} {site : CorsSite}
    (hsite : w.store.findCorsSite id = some site) {rows : RowOrder} (hasc : rows.Ascending) :
    ∃ l, w.lastLog id = some l ∧
      ReadsAs w.store l (rows.arrange (w.store.findSetupsBySiteId site.id)) := by
  have hid : w.store.siteId id = some site.id := by simp [Store.siteId, hsite]
  obtain ⟨l, hl, -, hreal⟩ := h.handled id site.id hid
  exact ⟨l, hl, readsAs_of_ascending h.tables.registry hreal (rows.arrange_perm _) (hasc _)⟩

/-! ## Coverage -/

lemma wellDated_reload (l : SiteLog) (h : l.WellDated) : l.reload.WellDated := by
  intro x hx
  rw [SiteLog.equipmentLogItems_reload] at hx
  obtain ⟨y, hy, rfl⟩ := List.mem_map.mp hx
  simpa [EquipmentLogItem.WellDated, EquipmentLogItem.Placeable] using h y hy

lemma wellDated_iterates (l l' : SiteLog) (hl : l'.Iterates l) (h : l.WellDated) : l'.WellDated :=
  fun x hx => h x (hl.perm_equipmentLogItems.subset hx)

/-- An entry of the setup is for equipment of the class. -/
def Store.InUse (st : Store) (s : Setup) (c : EquipmentClass) : Prop :=
  ∃ u ∈ s.equipmentInUse, ∃ e ∈ st.equipment, e.id = u.equipmentId ∧ e.equipmentClass = c

/-- A setup with a receiver and an antenna in use is complete for the loop. -/
lemma isComplete_of_inUse {st : Store} (hreg : Registry st) {s : Setup}
    (hreceiver : st.InUse s .gnssReceiver) (hantenna : st.InUse s .gnssAntenna) :
    st.isComplete s = true := by
  have hsome : ∀ c, st.InUse s c → (st.firstInUse s c).isSome = true := by
    rintro c ⟨u, hu, e, he, hid, hclass⟩
    refine List.find?_isSome.mpr ⟨u, hu, ?_⟩
    have hfind := findEquipment_eq hreg he
    rw [hid] at hfind
    simp [Store.classOf, hfind, hclass]
  rw [Store.isComplete, hsome _ hreceiver, hsome _ hantenna]
  rfl

/-- **Every complete setup is covered by a node.**  In a run of well dated logs, after an update
that lists the setups in ascending order, each valid setup of the site with a receiver and an
antenna lies within the period of a valid node of the site. -/
theorem complete_setups_covered {lib : ListUtils} {w : World}
    (hw : World.Reachable lib (Step.Uploads SiteLog.WellDated) w) {rows : RowOrder}
    (hasc : rows.Ascending) {e : SiteUpdated} {st' : Store}
    (hok : NodeService.handle rows e w.store = .ok st') :
    ∃ site, w.store.findCorsSite e.fourCharacterId = some site ∧
      ∀ r ∈ st'.findSetupsBySiteId site.id,
        st'.InUse r.setup .gnssReceiver → st'.InUse r.setup .gnssAntenna →
        ∃ n ∈ st'.validNodes site.id, EffectiveDates.toPeriod (some r.setup.effectivePeriod)
          ≤ EffectiveDates.toPeriod n.effectivePeriod := by
  have htracks := hw.tracksNodes
  obtain ⟨site, hsite, rfl⟩ := nodeService_inv htracks.nodes.toNodeReady hok
  refine ⟨site, hsite, ?_⟩
  intro r hr hreceiver hantenna
  obtain ⟨l, hl, hreads⟩ := htracks.readsAs hsite hasc
  have hdated : l.WellDated :=
    (hw.logsSatisfy wellDated_reload wellDated_iterates).last _ l hl
  have hperm := rows.arrange_perm (w.store.findSetupsBySiteId site.id)
  have hr' : r ∈ rows.arrange (w.store.findSetupsBySiteId site.id) := hperm.symm.subset hr
  have hcomplete : w.store.isComplete r.setup = true :=
    isComplete_of_inUse htracks.tables.registry hreceiver hantenna
  -- in the plan the setup lies within the node of a visited one
  have hplanned : l.planned r.setup.effectivePeriod ∈ l.plan :=
    hreads.plan ▸ List.mem_map_of_mem hr'
  obtain ⟨t, ht, hle, -⟩ :=
    SiteLog.covered hdated hplanned ((hreads.complete r hr').symm.trans hcomplete)
  rw [← hreads.visited] at ht
  obtain ⟨q, hq, rfl⟩ := List.mem_map.mp ht
  have hq' := (mem_visitedSetups hq).1
  -- and so has a row with a node
  have hnode : (q.id, EffectiveDates.reload (some (w.store.nodePeriod q.setup))) ∈
      ((w.store.noded (rows.arrange (w.store.findSetupsBySiteId site.id))).map fun r =>
        (r.id, EffectiveDates.reload (some (w.store.nodePeriod r.setup)))) :=
    List.mem_map_of_mem (f := fun r : SetupRow =>
      (r.id, EffectiveDates.reload (some (w.store.nodePeriod r.setup))))
      (mem_noded.mpr ⟨hq', Or.inr hq⟩)
  obtain ⟨n, hn, hpair⟩ := List.mem_map.mp
    ((validNodes_updateNodes htracks.nodes hperm).symm.subset hnode)
  refine ⟨n, hn, ?_⟩
  rw [(Prod.mk.inj hpair).2, EffectiveDates.toPeriod_reload, hreads.nodePeriod q hq']
  exact hle

/-- With a clock for part of the time there are three setups, two of them complete, and two
nodes. -/
theorem complete_setups_covered_clock_removed :
    let w := World.performAll .ofContains (Step.received SiteLog.clockRemoved)
    let st' := (w.perform .ofContains (.siteUpdated .chronological ⟨"ADE1"⟩)).store
    (∃ site, w.store.findCorsSite "ADE1" = some site ∧ ∀ r ∈ st'.findSetupsBySiteId site.id,
      st'.InUse r.setup .gnssReceiver → st'.InUse r.setup .gnssAntenna →
      ∃ n ∈ st'.validNodes site.id, EffectiveDates.toPeriod (some r.setup.effectivePeriod)
        ≤ EffectiveDates.toPeriod n.effectivePeriod) ∧
    st'.setups.map (fun r => st'.isComplete r.setup) = [true, true, false] := by
  intro w st'
  have hdated : SiteLog.clockRemoved.WellDated := by decide
  have hreach : World.Reachable .ofContains (Step.Uploads SiteLog.WellDated) w :=
    World.reachable_performAll fun a ha =>
      (Step.forall_receivedAndUpdated.mpr ⟨hdated, trivial, trivial⟩) a (List.mem_append_left _ ha)
  have hok : ((Step.siteUpdated .chronological ⟨"ADE1"⟩).run .ofContains w.store).isOk = true := by
    decide +kernel
  have hhandle : NodeService.handle .chronological ⟨"ADE1"⟩ w.store = .ok st' :=
    World.run_eq_perform hok
  exact ⟨complete_setups_covered hreach RowOrder.chronological_ascending hhandle,
    by decide +kernel⟩

end Geodesy
