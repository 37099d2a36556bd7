import Geodesy.Nodes.Handle

/-!
# Whole runs: nodes and setups

`NodeTable` is the invariant that the node loop and the setup diff keep between them.  A node
belongs to one setup of its site, which is complete, carries the period computed from that setup,
and is invalidated only when the setup is; no setup has two nodes.  The period stays right because
equipment rows keep their key and class (`Extends`), so a setup reads the same in every later store.

The first part relates what the loop reads of a row to the plan of the log (`Realises`).
-/

namespace Geodesy

open Rows NodeService

/-! ## A row reads as its plan -/

/-- An entry that represents an item has equipment of the item's class. -/
lemma Represents.classOf {st : Store} (hreg : Registry st) {u : EquipmentInUse}
    {x : EquipmentLogItem} (h : Represents st u x) :
    (∃ e, st.findEquipment u.equipmentId = some e) ∧ st.classOf u = some x.equipmentClass := by
  obtain ⟨e, he, hid, hclass, -⟩ := h.equipment
  have hfind := findEquipment_eq hreg he
  rw [hid] at hfind
  exact ⟨⟨e, hfind⟩, by simp [Store.classOf, hfind, hclass]⟩

/-- The first entry of a class has the dates of the first item of the class. -/
lemma find?_represents {st : Store} (hreg : Registry st) (c : EquipmentClass)
    {us : List EquipmentInUse} {xs : List EquipmentLogItem}
    (h : List.Forall₂ (Represents st) us xs) :
    (us.find? fun u => st.classOf u = some c).map (·.period)
      = (xs.find? fun x => x.equipmentClass = c).map (·.effectiveDates) := by
  induction h with
  | nil => rfl
  | cons hu _ ih =>
      have hclass := (hu.classOf hreg).2
      simp only [List.find?_cons, hclass, Option.some.injEq]
      split
      · simp [hu.period]
      · exact ih

namespace Realises

variable {st : Store} {k : ℕ} {s : Setup} {p : PlannedSetup}

lemma furnished (h : Realises st k s p) (hreg : Registry st) : st.Furnished s := by
  have hall : ∀ {us : List EquipmentInUse} {xs : List EquipmentLogItem},
      List.Forall₂ (Represents st) us xs →
      ∀ u ∈ us, ∃ e, st.findEquipment u.equipmentId = some e := by
    intro us xs h
    induction h with
    | nil => simp
    | cons hu _ ih =>
        intro v hv
        rcases List.mem_cons.mp hv with rfl | hv
        · exact (hu.classOf hreg).1
        · exact ih v hv
  exact hall h.represents

lemma firstInUse_eq (h : Realises st k s p) (hreg : Registry st) (c : EquipmentClass) :
    (st.firstInUse s c).map (·.period) = (p.first c).map (·.effectiveDates) :=
  find?_represents hreg c h.represents

/-- The loop finds the setup complete exactly when the plan is. -/
lemma isComplete_eq (h : Realises st k s p) (hreg : Registry st) :
    st.isComplete s = p.complete := by
  have hsome : ∀ c, (st.firstInUse s c).isSome = (p.first c).isSome := by
    intro c
    have hdates := congrArg Option.isSome (h.firstInUse_eq hreg c)
    rwa [Option.isSome_map, Option.isSome_map] at hdates
  rw [Store.isComplete, PlannedSetup.complete, hsome, hsome]

/-- The loop computes the planned node period. -/
lemma nodePeriod_eq (h : Realises st k s p) (hreg : Registry st) :
    st.nodePeriod s = p.nodePeriod := by
  have hdates : ∀ c, (st.firstInUse s c).toList.map (·.period)
      = (p.first c).toList.map (·.effectiveDates) := by
    intro c
    rw [← Option.toList_map, ← Option.toList_map, h.firstInUse_eq hreg c]
  have hall : st.significantPeriods s = p.significantItems.map (·.effectiveDates) := by
    simp only [Store.significantPeriods, PlannedSetup.significantItems, List.map_flatMap, hdates]
  rw [Store.nodePeriod, PlannedSetup.nodePeriod, hall]

end Realises

/-! ## A setup reads the same later -/

section Later

variable {st st' : Store} {s : Setup}

lemma findEquipment_later (hreg' : Registry st') (hext : Extends st st') {i : ℕ} {e : Equipment}
    (h : st.findEquipment i = some e) :
    ∃ e', st'.findEquipment i = some e' ∧ e'.equipmentClass = e.equipmentClass := by
  have hid : e.id = i := by simpa using List.find?_some h
  obtain ⟨e', he', hid', hclass, -⟩ := hext.equipment e (List.mem_of_find?_eq_some h)
  refine ⟨e', ?_, hclass⟩
  rw [← hid, ← hid']
  exact findEquipment_eq hreg' he'

lemma Store.Furnished.later (h : st.Furnished s) (hreg' : Registry st') (hext : Extends st st') :
    st'.Furnished s := by
  intro u hu
  obtain ⟨e, he⟩ := h u hu
  obtain ⟨e', he', -⟩ := findEquipment_later hreg' hext he
  exact ⟨e', he'⟩

lemma Store.Furnished.firstInUse_later (h : st.Furnished s) (hreg' : Registry st')
    (hext : Extends st st') (c : EquipmentClass) : st'.firstInUse s c = st.firstInUse s c := by
  refine List.find?_congr ?_
  intro u hu
  obtain ⟨e, he⟩ := h u hu
  obtain ⟨e', he', hclass⟩ := findEquipment_later hreg' hext he
  simp [Store.classOf, he, he', hclass]

/-- Completeness and node period of a setup do not change. -/
lemma Store.Furnished.reads_later (h : st.Furnished s) (hreg' : Registry st')
    (hext : Extends st st') :
    st'.isComplete s = st.isComplete s ∧ st'.nodePeriod s = st.nodePeriod s := by
  have hfirst := h.firstInUse_later hreg' hext
  constructor
  · rw [Store.isComplete, Store.isComplete, hfirst, hfirst]
  · simp only [Store.nodePeriod, Store.significantPeriods, hfirst]

end Later

/-! ## The invariant -/

/-- The node belongs to the setup: it was computed from it, and is invalidated only with it. -/
structure Node.BelongsTo (st : Store) (n : Node) (r : SetupRow) : Prop where
  setupId : r.id = n.setupId
  siteId : r.setup.siteId = n.siteId
  complete : st.isComplete r.setup = true
  period : n.effectivePeriod = EffectiveDates.reload (some (st.nodePeriod r.setup))
  invalidated : n.invalidated = true → r.invalidated = true

/-- The node tables are in order and every node belongs to a setup. -/
structure NodeTable (st : Store) : Prop extends NodeReady st where
  owner : ∀ n ∈ st.nodes, ∃ r ∈ st.setups, n.BelongsTo st r

/-- What holds of the setups and the nodes in every reachable world. -/
structure TracksNodes (w : World) : Prop extends Tracks w where
  nodes : NodeTable w.store

/-- A step that leaves equipment, setups and nodes alone. -/
lemma NodeReady.congr {st st' : Store} (h : NodeReady st) (hnext : st.nextId ≤ st'.nextId)
    (hequipment : st'.equipment = st.equipment) (hsetups : st'.setups = st.setups)
    (hnodes : st'.nodes = st.nodes) : NodeReady st' := by
  refine ⟨hnodes ▸ h.nodeKeys.mono hnext, hnodes ▸ h.unique, hsetups ▸ h.setupKeys, ?_,
    hsetups ▸ h.started⟩
  intro r hr u hu
  simp only [Store.findEquipment, hequipment]
  exact h.furnished r (hsetups ▸ hr) u hu

lemma NodeTable.congr {st st' : Store} (h : NodeTable st) (hnext : st.nextId ≤ st'.nextId)
    (hequipment : st'.equipment = st.equipment) (hsetups : st'.setups = st.setups)
    (hnodes : st'.nodes = st.nodes) : NodeTable st' := by
  have hfind : st'.findEquipment = st.findEquipment := by
    funext i
    simp only [Store.findEquipment, hequipment]
  have hclass : st'.classOf = st.classOf := by
    funext u
    simp only [Store.classOf, hfind]
  have hfirst : st'.firstInUse = st.firstInUse := by
    funext s c
    simp only [Store.firstInUse, hclass]
  refine ⟨h.toNodeReady.congr hnext hequipment hsetups hnodes, ?_⟩
  intro n hn
  obtain ⟨r, hr, hbelongs⟩ := h.owner n (hnodes ▸ hn)
  refine ⟨r, hsetups ▸ hr, hbelongs.setupId, hbelongs.siteId, ?_, ?_, hbelongs.invalidated⟩
  · rw [← hbelongs.complete, Store.isComplete, Store.isComplete, hfirst]
  · rw [hbelongs.period]
    simp only [Store.nodePeriod, Store.significantPeriods, hfirst]

/-- A realised setup starts somewhere. -/
lemma Realises.started {st : Store} {k : ℕ} {s : Setup} {l : SiteLog} {p : PlannedSetup}
    (h : Realises st k s p) (hp : p ∈ l.plan) : s.effectivePeriod.effectiveFrom ≠ none := by
  obtain ⟨f, -, hf, -⟩ := SiteLog.exists_from hp
  rw [h.period_eq, hf]
  exact Option.some_ne_none f

section Handled

variable {load : LoadOrder} {e : SiteLogReceived} {st st' saved : Store} {l : SiteLog}
  {site : CorsSite} {N : List Setup}

lemma HandledBy.nodeReady (hby : HandledBy load e st st' l site saved N) (ht : Tables st)
    (h : NodeReady st) : NodeReady st' := by
  have ht' := hby.tables ht
  have hnodes := hby.nodes_eq
  have hnext : st.nextId ≤ st'.nextId := hby.extends.nextId_le
  have hnew : ∀ s ∈ N, st'.Furnished s ∧ s.effectivePeriod.effectiveFrom ≠ none := by
    intro s hs
    obtain ⟨p, hp, hreal⟩ := hby.realises.exists_right hs
    exact ⟨(hreal.mono hby.extends_placed).furnished ht'.registry, hreal.started hp⟩
  have hrows : ∀ r' ∈ st'.setups, (∃ r ∈ st.setups, r' = r.supersede site.id N) ∨
      r'.setup ∈ N := by
    intro r' hr'
    rw [hby.setups_eq] at hr'
    rcases List.mem_append.mp hr' with hr' | hr'
    · obtain ⟨r, hr, rfl⟩ := List.mem_map.mp hr'
      exact Or.inl ⟨r, hr, rfl⟩
    · obtain ⟨s, hs, i, -, -, rfl⟩ := mem_insertAll hr'
      exact Or.inr (List.mem_of_mem_filter hs)
  refine ⟨hnodes ▸ h.nodeKeys.mono hnext, hnodes ▸ h.unique, ht'.setupKeys.nodup, ?_, ?_⟩
  · intro r' hr'
    rcases hrows r' hr' with ⟨r, hr, rfl⟩ | hr'
    · rw [SetupRow.supersede_setup]
      exact (h.furnished r hr).later ht'.registry hby.extends
    · exact (hnew _ hr').1
  · intro r' hr'
    rcases hrows r' hr' with ⟨r, hr, rfl⟩ | hr'
    · rw [SetupRow.supersede_setup]
      exact h.started r hr
    · exact (hnew _ hr').2

/-- **Handling a log keeps the node tables in order.** -/
lemma HandledBy.nodeTable (hby : HandledBy load e st st' l site saved N) (ht : Tables st)
    (h : NodeTable st) : NodeTable st' := by
  refine ⟨hby.nodeReady ht h.toNodeReady, ?_⟩
  intro n hn
  obtain ⟨r, hr, hbelongs⟩ := h.owner n (hby.nodes_eq ▸ hn)
  obtain ⟨hcomplete, hperiod⟩ :=
    (h.furnished r hr).reads_later (hby.tables ht).registry hby.extends
  refine ⟨r.supersede site.id N, ?_, ⟨?_, ?_, ?_, ?_, ?_⟩⟩
  · rw [hby.setups_eq]
    exact List.mem_append_left _ (List.mem_map_of_mem hr)
  · rw [SetupRow.supersede_id, hbelongs.setupId]
  · rw [SetupRow.supersede_setup, hbelongs.siteId]
  · rw [SetupRow.supersede_setup, hcomplete, hbelongs.complete]
  · rw [SetupRow.supersede_setup, hperiod, hbelongs.period]
  · intro hinv
    rw [SetupRow.supersede_invalidated, hbelongs.invalidated hinv, Bool.true_or]

end Handled

section UpdateNodes

variable {st : Store} {k : ℕ} {rows : List SetupRow}

/-- The nodes afterwards: the old ones, some of them invalidated, and the new ones. -/
lemma mem_nodes_updateNodes {n : Node} :
    n ∈ (st.updateNodes k rows).nodes ↔
      (∃ m ∈ st.nodes, m.retire ((st.findInvalidatedBySiteId k).map (·.id)) = n) ∨
        n ∈ insertAll (Node.fresh k st) st.nextId (st.withoutNode (st.visitedSetups rows)) := by
  rw [← List.mem_map, ← List.mem_append]
  rfl

lemma mem_findInvalidatedBySiteId {r : SetupRow} :
    r ∈ st.findInvalidatedBySiteId k ↔
      r ∈ st.setups ∧ r.setup.siteId = k ∧ r.invalidated = true := by
  simp [Store.findInvalidatedBySiteId]

/-- A setup that the walk visits is listed and complete. -/
lemma mem_visitedSetups {r : SetupRow} (hr : r ∈ st.visitedSetups rows) :
    r ∈ rows ∧ st.isComplete r.setup = true :=
  ⟨(Walk.visited_sublist _ _).subset hr,
    @Walk.wanted_of_mem_visited _ (fun q : SetupRow => st.isComplete q.setup) _ _ _ _ hr⟩

/-- A new node is the node of a visited setup that had none. -/
lemma mem_freshNodes {n : Node}
    (hn : n ∈ insertAll (Node.fresh k st) st.nextId (st.withoutNode (st.visitedSetups rows))) :
    ∃ r ∈ st.visitedSetups rows, r.id ∉ st.nodes.map (·.setupId) ∧
      ∃ i, st.nextId ≤ i ∧ n = Node.fresh k st i r := by
  obtain ⟨r, hr, i, hi, -, rfl⟩ := mem_insertAll hn
  obtain ⟨hr, hnot⟩ := List.mem_filter.mp hr
  exact ⟨r, hr, by simpa using hnot, i, hi, rfl⟩

lemma NodeReady.updateNodes (h : NodeReady st)
    (hrows : rows.Perm (st.findSetupsBySiteId k)) : NodeReady (st.updateNodes k rows) := by
  have hnew : (st.withoutNode (st.visitedSetups rows)).Sublist rows :=
    List.filter_sublist.trans (Walk.visited_sublist _ _)
  have hids : (rows.map (·.id)).Nodup :=
    (hrows.map _).nodup_iff.mpr (h.setupKeys.sublist (List.filter_sublist.map _))
  have hnodes : (st.updateNodes k rows).nodes
      = st.nodes.map (Node.retire ((st.findInvalidatedBySiteId k).map (·.id)))
        ++ insertAll (Node.fresh k st) st.nextId (st.withoutNode (st.visitedSetups rows)) := rfl
  refine ⟨?_, ?_, h.setupKeys, h.furnished, h.started⟩
  · rw [hnodes, List.map_append, map_key_insertAll fun _ _ => rfl, List.map_map]
    have hkeys : (fun n : Node => n.id) ∘ Node.retire ((st.findInvalidatedBySiteId k).map (·.id))
        = fun n => n.id := by
      funext n
      simp
    rw [hkeys]
    exact h.nodeKeys.append_range _
  · rw [hnodes, List.map_append, map_insertAll (f := fun n : Node => n.setupId)
      (g := fun r : SetupRow => r.id) fun _ _ => rfl, List.map_map]
    have hsetupIds : (fun n : Node => n.setupId)
        ∘ Node.retire ((st.findInvalidatedBySiteId k).map (·.id)) = fun n => n.setupId := by
      funext n
      simp
    rw [hsetupIds]
    refine List.nodup_append'.mpr ⟨h.unique, hids.sublist (hnew.map _), ?_⟩
    intro i hi hi'
    obtain ⟨r, hr, rfl⟩ := List.mem_map.mp hi'
    have hnot := (List.mem_filter.mp hr).2
    exact absurd hi (by simpa using hnot)

/-- **Updating the nodes keeps the node tables in order.** -/
lemma NodeTable.updateNodes (h : NodeTable st)
    (hrows : rows.Perm (st.findSetupsBySiteId k)) : NodeTable (st.updateNodes k rows) := by
  have hvalid : ∀ r ∈ st.visitedSetups rows,
      r ∈ st.setups ∧ r.setup.siteId = k ∧ r.invalidated = false := fun r hr =>
    mem_findSetupsBySiteId.mp (hrows.subset (mem_visitedSetups hr).1)
  refine ⟨h.toNodeReady.updateNodes hrows, ?_⟩
  intro n hn
  rcases mem_nodes_updateNodes.mp hn with ⟨m, hm, rfl⟩ | hn
  · obtain ⟨r, hr, hbelongs⟩ := h.owner m hm
    refine ⟨r, hr, by simpa using hbelongs.setupId, by simpa using hbelongs.siteId,
      hbelongs.complete, (Node.retire_effectivePeriod _ m).trans hbelongs.period, fun hinv => ?_⟩
    rw [Node.retire_invalidated, Bool.or_eq_true, decide_eq_true_eq] at hinv
    rcases hinv with hinv | hinv
    · exact hbelongs.invalidated hinv
    · obtain ⟨q, hq, hqid⟩ := List.mem_map.mp hinv
      obtain ⟨hqmem, -, hqinv⟩ := mem_findInvalidatedBySiteId.mp hq
      rwa [List.inj_on_of_nodup_map h.setupKeys hr hqmem (hbelongs.setupId.trans hqid.symm)]
  · obtain ⟨r, hr, -, i, -, rfl⟩ := mem_freshNodes hn
    obtain ⟨hmem, hsite, -⟩ := hvalid r hr
    exact ⟨r, hmem, rfl, hsite, (mem_visitedSetups hr).2, rfl, by simp [Node.fresh]⟩

end UpdateNodes

/-- A node update that returns normally, as `Store.updateNodes`. -/
lemma nodeService_inv {rows : RowOrder} {e : SiteUpdated} {st st' : Store} (h : NodeReady st)
    (hok : NodeService.handle rows e st = .ok st') :
    ∃ site, st.findCorsSite e.fourCharacterId = some site ∧
      st' = { st.updateNodes site.id (rows.arrange (st.findSetupsBySiteId site.id)) with
        handled := st.handled ++ [.siteUpdated e] } := by
  cases hsite : st.findCorsSite e.fourCharacterId with
  | none =>
      rw [nodeService_of_none hsite] at hok
      cases hok
  | some site =>
      rw [nodeService_eq h hsite] at hok
      exact ⟨site, rfl, (Except.ok.inj hok).symm⟩

lemma NodeTable.nodeService {rows : RowOrder} {e : SiteUpdated} {st st' : Store} (h : NodeTable st)
    (hok : NodeService.handle rows e st = .ok st') : NodeTable st' := by
  obtain ⟨site, -, rfl⟩ := nodeService_inv h.toNodeReady hok
  exact (h.updateNodes (rows.arrange_perm _)).congr le_rfl rfl rfl rfl

/-- **Every step keeps the invariant.** -/
theorem tracksNodes_step {lib : ListUtils} {w w' : World} {a : Step} (h : TracksNodes w)
    (hstep : World.Takes lib w a w') : TracksNodes w' := by
  refine ⟨tracks_step h.toTracks hstep, ?_⟩
  obtain ⟨st, hok, rfl⟩ := hstep
  cases a with
  | upload l =>
      simp only [Step.run, upload_eq h.tables.siteLogs] at hok
      obtain rfl := Except.ok.inj hok
      exact h.nodes.congr le_rfl rfl rfl rfl
  | siteLogReceived load rows e =>
      obtain ⟨l, site, saved, N, hby⟩ := handle_inv h.tables hok
      exact hby.nodeTable h.tables h.nodes
  | siteUpdated rows e => exact h.nodes.nodeService hok

lemma nodeTable_empty : NodeTable Store.empty where
  nodeKeys := allocated_nil _
  unique := List.nodup_nil
  setupKeys := List.nodup_nil
  furnished := by simp [Store.empty]
  started := by simp [Store.empty]
  owner := by simp [Store.empty]

/-- **Every reachable world tracks its setups and nodes.** -/
theorem World.Reachable.tracksNodes {lib : ListUtils} {P : Step → Prop} {w : World}
    (h : World.Reachable lib P w) : TracksNodes w :=
  h.invariant ⟨tracks_init, nodeTable_empty⟩ fun _ _ _ _ hw hstep => tracksNodes_step hw hstep

/-! ## Nodes stay what they are -/

/-- Every node of the first store is a node of the second, for the same setup and period, and
invalidated if it was. -/
def NodesKept (st st' : Store) : Prop :=
  ∀ n ∈ st.nodes, ∃ n' ∈ st'.nodes, n'.id = n.id ∧ n'.siteId = n.siteId ∧ n'.setupId = n.setupId ∧
    n'.effectivePeriod = n.effectivePeriod ∧ (n.invalidated = true → n'.invalidated = true)

lemma NodesKept.refl (st : Store) : NodesKept st st :=
  fun n hn => ⟨n, hn, rfl, rfl, rfl, rfl, id⟩

lemma NodesKept.trans {st st' st'' : Store} (h : NodesKept st st') (h' : NodesKept st' st'') :
    NodesKept st st'' := by
  intro n hn
  obtain ⟨n', hn', h1, h2, h3, h4, h5⟩ := h n hn
  obtain ⟨n'', hn'', h1', h2', h3', h4', h5'⟩ := h' n' hn'
  exact ⟨n'', hn'', h1'.trans h1, h2'.trans h2, h3'.trans h3, h4'.trans h4, h5' ∘ h5⟩

/-- One step keeps the nodes. -/
lemma nodesKept_step {lib : ListUtils} {w w' : World} {a : Step} (h : TracksNodes w)
    (hstep : World.Takes lib w a w') : NodesKept w.store w'.store := by
  obtain ⟨st, hok, rfl⟩ := hstep
  cases a with
  | upload l =>
      simp only [Step.run, upload_eq h.tables.siteLogs] at hok
      obtain rfl := Except.ok.inj hok
      exact NodesKept.refl w.store
  | siteLogReceived load rows e =>
      obtain ⟨l, site, saved, N, hby⟩ := handle_inv h.tables hok
      have hnodes : st.nodes = w.store.nodes := by
        rw [hby.result, placeAll_frame, hby.siteSaved.frame]
      intro n hn
      exact ⟨n, hnodes ▸ hn, rfl, rfl, rfl, rfl, id⟩
  | siteUpdated rows e =>
      obtain ⟨site, -, rfl⟩ := nodeService_inv h.nodes.toNodeReady hok
      intro n hn
      refine ⟨n.retire _, mem_nodes_updateNodes.mpr (Or.inl ⟨n, hn, rfl⟩), by simp, by simp,
        by simp, by simp, fun hinv => ?_⟩
      rw [Node.retire_invalidated, hinv, Bool.true_or]

/-- **A whole run keeps the nodes.** -/
theorem nodesKept_run {lib : ListUtils} {w w' : World} {as : List Step} (h : TracksNodes w)
    (hrun : TransitionSystem.Run (World.Takes lib) w as w') : NodesKept w.store w'.store :=
  hrun.preorder (P := fun _ => True) (I := TracksNodes)
    (R := fun w w' => NodesKept w.store w'.store)
    (fun _ => NodesKept.refl _) (fun _ _ _ => NodesKept.trans)
    (fun _ _ _ _ hw hstep => tracksNodes_step hw hstep)
    (fun _ _ _ _ hw hstep => nodesKept_step hw hstep) (fun _ _ => trivial) h

/-! ## After a node update -/

/-- The nodes of a site agree with its setups. -/
structure NodesConsistent (st : Store) (siteId : ℕ) : Prop where
  /-- no setup has two nodes, so the query for the node of a setup is never ambiguous -/
  unique : (st.nodes.map (·.setupId)).Nodup
  unambiguous : ∀ id, ∃ n, st.findBySetupId id = .ok n
  /-- no two nodes share a key -/
  keys : (st.nodes.map (·.id)).Nodup
  /-- the nodes of the site's invalidated setups are invalidated -/
  retired : ∀ n ∈ st.nodes, ∀ r ∈ st.setups, r.id = n.setupId → r.setup.siteId = siteId →
    r.invalidated = true → n.invalidated = true
  /-- a valid node of the site refers to a valid setup of the site -/
  current : ∀ n ∈ st.nodes, n.siteId = siteId → n.invalidated = false →
    ∃ r ∈ st.setups, r.id = n.setupId ∧ r.setup.siteId = n.siteId ∧ r.invalidated = false

/-- Right after the update of a site the nodes of its invalidated setups are invalidated. -/
lemma retired_updateNodes {st : Store} {k : ℕ} {rows : List SetupRow} (h : NodeReady st)
    (hrows : rows.Perm (st.findSetupsBySiteId k)) {n : Node}
    (hn : n ∈ (st.updateNodes k rows).nodes) {r : SetupRow} (hr : r ∈ st.setups)
    (hid : r.id = n.setupId) (hsite : r.setup.siteId = k) (hinv : r.invalidated = true) :
    n.invalidated = true := by
  rcases mem_nodes_updateNodes.mp hn with ⟨m, hm, rfl⟩ | hn
  · have hmem : m.setupId ∈ (st.findInvalidatedBySiteId k).map (·.id) := by
      rw [Node.retire_setupId] at hid
      rw [← hid]
      exact List.mem_map_of_mem (mem_findInvalidatedBySiteId.mpr ⟨hr, hsite, hinv⟩)
    rw [Node.retire_invalidated, decide_eq_true hmem, Bool.or_true]
  · -- a new node is for a valid setup
    obtain ⟨q, hq, -, i, -, rfl⟩ := mem_freshNodes hn
    obtain ⟨hqmem, -, hvalid⟩ :=
      mem_findSetupsBySiteId.mp (hrows.subset (mem_visitedSetups hq).1)
    rw [List.inj_on_of_nodup_map h.setupKeys hr hqmem hid, hvalid] at hinv
    cases hinv

/-- Right after the update of a site's nodes they agree with its setups. -/
lemma nodesConsistent_updateNodes {st : Store} {k : ℕ} {rows : List SetupRow} (h : NodeTable st)
    (hrows : rows.Perm (st.findSetupsBySiteId k)) : NodesConsistent (st.updateNodes k rows) k := by
  have h' := h.updateNodes hrows
  have hretired : ∀ n ∈ (st.updateNodes k rows).nodes, ∀ r ∈ st.setups, r.id = n.setupId →
      r.setup.siteId = k → r.invalidated = true → n.invalidated = true :=
    fun _ hn _ hr => retired_updateNodes h.toNodeReady hrows hn hr
  refine ⟨h'.unique, fun id => ⟨_, findBySetupId_eq h'.unique id⟩, h'.nodeKeys.nodup, hretired, ?_⟩
  intro n hn hsite hvalid
  obtain ⟨r, hr, hbelongs⟩ := h'.owner n hn
  refine ⟨r, hr, hbelongs.setupId, hbelongs.siteId, ?_⟩
  cases hinv : r.invalidated with
  | false => rfl
  | true =>
      have := hretired n hn r hr hbelongs.setupId (hbelongs.siteId.trans hsite) hinv
      rw [hvalid] at this
      cases this

/-- **Nodes and setups agree after every node update**, in any run and for any row order; and no
node that existed at any earlier point of the run has changed its setup or its period or has become
valid again. -/
theorem nodes_agree_with_setups {lib : ListUtils} {w₀ w : World}
    (hw₀ : World.Reachable lib (fun _ => True) w₀) {as : List Step}
    (hrun : TransitionSystem.Run (World.Takes lib) w₀ as w) {rows : RowOrder} {e : SiteUpdated}
    {st' : Store} (hok : NodeService.handle rows e w.store = .ok st') :
    (∃ site, w.store.findCorsSite e.fourCharacterId = some site ∧ NodesConsistent st' site.id) ∧
      NodesKept w₀.store st' := by
  have hw : TracksNodes w :=
    hrun.invariant (P := fun _ => True) (fun _ _ _ _ h hstep => tracksNodes_step h hstep)
      (fun _ _ => trivial) hw₀.tracksNodes
  constructor
  · obtain ⟨site, hsite, rfl⟩ := nodeService_inv hw.nodes.toNodeReady hok
    have hconsistent := nodesConsistent_updateNodes hw.nodes (rows.arrange_perm
      (w.store.findSetupsBySiteId site.id))
    exact ⟨site, hsite, hconsistent.unique, hconsistent.unambiguous, hconsistent.keys,
      hconsistent.retired, hconsistent.current⟩
  · have hstep : World.Takes lib w (.siteUpdated rows e) (w.after (.siteUpdated rows e) st') :=
      ⟨st', hok, rfl⟩
    exact (nodesKept_run hw₀.tracksNodes hrun).trans (nodesKept_step hw hstep)

/-- The clock of the first log is gone from the second: both nodes are invalidated and kept, and
there is a new one. -/
theorem nodes_agree_with_setups_clock_dropped :
    let w₀ := World.performAll .ofContains (Step.receivedAndUpdated SiteLog.clockRemoved)
    let w := (Step.received SiteLog.clockless).foldl (World.perform .ofContains) w₀
    let st' := (w.perform .ofContains (.siteUpdated .asStored ⟨"ADE1"⟩)).store
    (∃ site, NodesConsistent st' site) ∧ NodesKept w₀.store st' ∧
      st'.nodes.map (fun n => (n.setupId, n.invalidated))
        = [(8, true), (9, true), (13, false)] := by
  intro w₀ w st'
  have hreach : World.Reachable .ofContains (fun _ => True) w₀ :=
    World.reachable_performAll fun _ _ => trivial
  have hrun :
      TransitionSystem.Run (World.Takes .ofContains) w₀ (Step.received SiteLog.clockless) w :=
    World.run_of_performs (by decide +kernel)
  have hok : ((Step.siteUpdated .asStored ⟨"ADE1"⟩).run .ofContains w.store).isOk = true := by
    decide +kernel
  have hhandle : NodeService.handle .asStored ⟨"ADE1"⟩ w.store = .ok st' := World.run_eq_perform hok
  obtain ⟨⟨site, -, hconsistent⟩, hkept⟩ := nodes_agree_with_setups hreach hrun hhandle
  exact ⟨⟨site.id, hconsistent⟩, hkept, by decide +kernel⟩

end Geodesy
