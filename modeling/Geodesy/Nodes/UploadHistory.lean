import Geodesy.Nodes.Coverage

/-!
# Nodes and the history of uploads

The nodes computed for a log in an empty store and those computed after other logs are the nodes of
the same plan, as long as the iteration orders cannot pick different items
(`PlannedSetup.OneOfEach`).  What may come on top are nodes that earlier logs left on setups which
the walk now passes over: `nodes_as_afresh_iff` says that there is no other difference.
-/

namespace Geodesy

open NodeService

/-! ## Two iteration orders of one log -/

/-- Where at most one element qualifies, the first that does not depend on the order. -/
lemma find?_eq_of_perm {α : Type*} {p : α → Bool} {xs ys : List α} (h : xs.Perm ys)
    (hone : (xs.filter p).length ≤ 1) : xs.find? p = ys.find? p := by
  have hperm := h.filter p
  rw [← List.head?_filter, ← List.head?_filter]
  rcases hx : xs.filter p with _ | ⟨a, _ | ⟨b, rest⟩⟩
  · rw [hx] at hperm
    rw [hperm.nil_eq]
  · rw [hx] at hperm
    rw [List.singleton_perm.mp hperm]
  · simp [hx] at hone

/-- At most one receiver, one antenna and one clock. -/
def PlannedSetup.OneOfEach (p : PlannedSetup) : Prop :=
  ∀ c ∈ significantEquipment, (p.items.filter fun x => x.equipmentClass = c).length ≤ 1

namespace PlannedSetup

variable {p q : PlannedSetup}

lemma OneOfEach.first_eq (hone : p.OneOfEach) (hperm : p.items.Perm q.items) {c : EquipmentClass}
    (hc : c ∈ significantEquipment) : q.first c = p.first c :=
  (find?_eq_of_perm hperm (hone c hc)).symm

lemma OneOfEach.complete_eq (hone : p.OneOfEach) (hperm : p.items.Perm q.items) :
    q.complete = p.complete := by
  rw [complete, complete, hone.first_eq hperm (by simp [significantEquipment]),
    hone.first_eq hperm (by simp [significantEquipment])]

lemma OneOfEach.nodePeriod_eq (hone : p.OneOfEach) (hperm : p.items.Perm q.items) :
    q.nodePeriod = p.nodePeriod := by
  have hitems : q.significantItems = p.significantItems := by
    refine List.flatMap_congr ?_
    intro c hc
    rw [hone.first_eq hperm hc]
  rw [nodePeriod, nodePeriod, hitems]

end PlannedSetup

/-- **The planned nodes do not depend on the iteration order.** -/
theorem SiteLog.Iterates.map_nodePeriod_nodePlan {l l' : SiteLog} (h : l'.Iterates l)
    (hone : ∀ p ∈ l.plan, p.OneOfEach) :
    l'.nodePlan.map (·.nodePeriod) = l.nodePlan.map (·.nodePeriod) := by
  have hperm : ∀ d, (l.planned d).items.Perm (l'.planned d).items := fun d =>
    (h.symm.perm_equipmentLogItems).filter _
  have honed : ∀ d ∈ l.periods, (l.planned d).OneOfEach := fun d hd =>
    hone _ (l.plan_eq_map ▸ List.mem_map_of_mem hd)
  have hcomplete := fun d hd => (honed d hd).complete_eq (hperm d)
  have hnode := fun d hd => (honed d hd).nodePeriod_eq (hperm d)
  -- both plans are images of the periods, and are walked as the periods are
  have hwalk : l.nodePlan = (Walk.visited (fun d => (l.planned d).complete)
      (fun c d => (l.planned c).hides (l.planned d)) none l.periods).map l.planned := by
    rw [SiteLog.nodePlan, SiteLog.plan_eq_map]
    exact Walk.visited_map none (fun _ _ => rfl) fun _ _ _ _ => rfl
  have hwalk' : l'.nodePlan = (Walk.visited (fun d => (l.planned d).complete)
      (fun c d => (l.planned c).hides (l.planned d)) none l.periods).map l'.planned := by
    rw [SiteLog.nodePlan, SiteLog.plan_eq_map, h.periods_eq]
    refine Walk.visited_map none hcomplete ?_
    intro c hc d _
    rw [PlannedSetup.hides, PlannedSetup.hides, hnode c (by simpa using hc)]
    rfl
  rw [hwalk, hwalk', List.map_map, List.map_map]
  exact List.map_congr_left fun d hd => hnode d ((Walk.visited_sublist _ _).subset hd)

/-! ## The nodes after an update -/

/-- The setups with a node that the walk passes over. -/
def Store.passedOver (st : Store) (rows : List SetupRow) : List SetupRow :=
  rows.filter fun r => st.hasNode r && decide (r ∉ st.visitedSetups rows)

/-- The periods of the valid nodes of a site. -/
def Store.nodePeriods (st : Store) (fourCharacterId : String) : List (Option EffectiveDates) :=
  (st.findCorsSite fourCharacterId).elim [] fun site =>
    (st.validNodes site.id).map (·.effectivePeriod)

lemma noded_perm {st : Store} {rows : List SetupRow} (hrows : rows.Nodup) :
    (st.noded rows).Perm (st.visitedSetups rows ++ st.passedOver rows) := by
  have hvisited : (st.visitedSetups rows).Nodup := hrows.sublist (Walk.visited_sublist _ _)
  have hnoded : (st.noded rows).Nodup := hrows.filter _
  have hright : (st.visitedSetups rows ++ st.passedOver rows).Nodup := by
    refine List.nodup_append'.mpr ⟨hvisited, hrows.filter _, ?_⟩
    intro r hr hr'
    have hnot := (List.mem_filter.mp hr').2
    simp [hr] at hnot
  refine (List.perm_ext_iff_of_nodup hnoded hright).mpr ?_
  intro r
  have hsub : r ∈ st.visitedSetups rows → r ∈ rows := fun h => (mem_visitedSetups h).1
  rw [mem_noded]
  simp only [Store.passedOver, List.mem_append, List.mem_filter, Bool.and_eq_true,
    decide_eq_true_eq]
  tauto

/-- **The periods of the valid nodes**: those that the plan calls for, and those of the setups
passed over. -/
lemma nodePeriods_updateNodes {st : Store} {k : ℕ} {rows : List SetupRow} {l : SiteLog}
    (h : NodeTable st) (hrows : rows.Perm (st.findSetupsBySiteId k)) (hreads : ReadsAs st l rows) :
    (((st.updateNodes k rows).validNodes k).map (·.effectivePeriod)).Perm
      (l.nodePlan.map (fun p => EffectiveDates.reload (some p.nodePeriod)) ++
        (st.passedOver rows).map fun r =>
          EffectiveDates.reload (some (st.nodePeriod r.setup))) := by
  have hids : (rows.map (·.id)).Nodup :=
    (hrows.map _).nodup_iff.mpr (h.setupKeys.sublist (List.filter_sublist.map _))
  have hnoded := (validNodes_updateNodes h hrows).map Prod.snd
  rw [List.map_map, List.map_map] at hnoded
  have hplan : l.nodePlan.map (fun p => EffectiveDates.reload (some p.nodePeriod))
      = (st.visitedSetups rows).map fun r =>
          EffectiveDates.reload (some (st.nodePeriod r.setup)) := by
    rw [← hreads.visited, List.map_map]
    refine List.map_congr_left ?_
    intro r hr
    rw [hreads.nodePeriod r (mem_visitedSetups hr).1]
    rfl
  rw [hplan, ← List.map_append]
  exact hnoded.trans ((noded_perm (List.Nodup.of_map _ hids)).map _)

/-! ## Two runs -/

/-- The log is uploaded and its setups are computed. -/
def World.Handles (lib : ListUtils) (l : SiteLog) (w w' : World) : Prop :=
  ∃ u load rows e, e.fourCharacterId = l.fourCharacterId ∧
    World.Takes lib w (.upload l) u ∧ World.Takes lib u (.siteLogReceived load rows e) w'

/-- Afterwards the log is the last one handled for its site, and no node has changed. -/
lemma World.Handles.spec {lib : ListUtils} {l : SiteLog} {w w' : World}
    (hw : World.Reachable lib (fun _ => True) w) (h : World.Handles lib l w w') :
    World.Reachable lib (fun _ => True) w' ∧
      (∃ l', w'.lastLog l.fourCharacterId = some l' ∧ l'.Iterates l.reload) ∧
      w'.store.nodes = w.store.nodes := by
  obtain ⟨u, load, rows, e, hid, hupload, hreceived⟩ := h
  have hu := hw.step (a := .upload l) trivial hupload
  refine ⟨hu.step trivial hreceived, ?_⟩
  obtain ⟨st, hok, rfl⟩ := hupload
  obtain ⟨hfound, hframe⟩ := upload_inv hw.tracks.tables.siteLogs hok
  obtain ⟨st', hok', rfl⟩ := hreceived
  obtain ⟨l', site, saved, N, hby⟩ := handle_inv hu.tracks.tables hok'
  obtain ⟨log, hread, rfl⟩ := hby.read
  have hlog : st.findSiteLog e.fourCharacterId = .ok (some log) := hread
  rw [hid, hfound] at hlog
  obtain rfl := Option.some.inj (Except.ok.inj hlog)
  refine ⟨⟨load.load l.reload, ?_, load.load_iterates _⟩, ?_⟩
  · simp [World.after, World.readLog, hid, hfound]
  · change st'.nodes = w.store.nodes
    rw [hby.result, placeAll_frame, hby.siteSaved.frame]
    change st.nodes = w.store.nodes
    rw [hframe]

lemma length_filter_represents {st : Store} (hreg : Registry st) (c : EquipmentClass)
    {us : List EquipmentInUse} {xs : List EquipmentLogItem}
    (h : List.Forall₂ (Represents st) us xs) :
    (us.filter fun u => st.classOf u = some c).length
      = (xs.filter fun x => x.equipmentClass = c).length := by
  induction h with
  | nil => rfl
  | cons hu _ ih =>
      have hclass := (hu.classOf hreg).2
      simp only [List.filter_cons, hclass, Option.some.injEq]
      split
      · rw [List.length_cons, List.length_cons, ih]
      · exact ih

/-- What holds of the entries holds of the plan. -/
lemma SetupsRealise.oneOfEach {st : Store} {k : ℕ} {l : SiteLog} (h : SetupsRealise st k l)
    (hreg : Registry st) (hone : ∀ r ∈ st.findSetupsBySiteId k, st.OneOfEach r.setup) :
    ∀ p ∈ l.plan, p.OneOfEach := by
  intro p hp c hc
  obtain ⟨N, hperm, hreal⟩ := h
  obtain ⟨s, hs, hsp⟩ := hreal.exists_left hp
  obtain ⟨r, hr, rfl⟩ := List.mem_map.mp (hperm.symm.subset hs)
  rw [← length_filter_represents hreg c hsp.represents]
  exact hone r hr c hc

/-- One run, whatever was there before. -/
lemma nodePeriods_of_handles {lib : ListUtils} {l : SiteLog} {w₀ w w' : World} {rows : RowOrder}
    (hw₀ : World.Reachable lib (fun _ => True) w₀) (h : World.Handles lib l w₀ w)
    (hasc : rows.Ascending) (hu : World.Takes lib w (.siteUpdated rows ⟨l.fourCharacterId⟩) w') :
    ∃ l' site, l'.Iterates l.reload ∧ w.store.findCorsSite l.fourCharacterId = some site ∧
      SetupsRealise w.store site.id l' ∧
      (w'.store.nodePeriods l.fourCharacterId).Perm
        (l'.nodePlan.map (fun p => EffectiveDates.reload (some p.nodePeriod)) ++
          (w.store.passedOver (rows.arrange (w.store.findSetupsBySiteId site.id))).map fun r =>
            EffectiveDates.reload (some (w.store.nodePeriod r.setup))) := by
  obtain ⟨hw, ⟨l', hl', hiterates⟩, -⟩ := h.spec hw₀
  have htracks := hw.tracksNodes
  obtain ⟨st', hok, rfl⟩ := hu
  obtain ⟨site, hsite, hst'⟩ := nodeService_inv htracks.nodes.toNodeReady hok
  obtain ⟨l₂, hl₂, hreads⟩ := htracks.readsAs hsite hasc
  obtain rfl := Option.some.inj (hl'.symm.trans hl₂)
  have hid : w.store.siteId l.fourCharacterId = some site.id := by
    simp [Store.siteId, hsite]
  obtain ⟨l₂, hl₂, -, hreal⟩ := htracks.handled _ _ hid
  obtain rfl := Option.some.inj (hl'.symm.trans hl₂)
  refine ⟨l', site, hiterates, hsite, hreal, ?_⟩
  have hperiods := nodePeriods_updateNodes htracks.nodes (rows.arrange_perm _) hreads
  have hfound : st'.findCorsSite l.fourCharacterId = some site := by
    rw [hst']
    exact hsite
  have hvalid : st'.validNodes site.id = (w.store.updateNodes site.id
      (rows.arrange (w.store.findSetupsBySiteId site.id))).validNodes site.id := by
    rw [hst']
    rfl
  change (st'.nodePeriods l.fourCharacterId).Perm _
  rw [Store.nodePeriods, hfound, Option.elim_some, hvalid]
  exact hperiods

/-- The walk over the setups of the site passes over no setup that has a node. -/
def PassesOverNoNode (st : Store) (rows : RowOrder) (fourCharacterId : String) : Prop :=
  ∀ site, st.findCorsSite fourCharacterId = some site →
    ∀ r ∈ st.findSetupsBySiteId site.id, st.hasNode r = true →
      r ∈ st.visitedSetups (rows.arrange (st.findSetupsBySiteId site.id))

/-- The world in which the log was handled, from a world in which its steps return normally. -/
lemma World.handles_performs {lib : ListUtils} {l : SiteLog} {w : World}
    (h : World.performs lib w (Step.received l) = true) :
    World.Handles lib l w ((Step.received l).foldl (World.perform lib) w) := by
  simp only [Step.received, World.performs, Bool.and_eq_true, and_true] at h
  exact ⟨_, _, _, _, rfl, World.takes_perform h.1, World.takes_perform h.2⟩

/-- **When the nodes are those of a fresh store.**  A log is handled in an empty store, and in a
store that any run has led to; both times its nodes are updated in ascending order, and in the
second store no valid setup of the site has two receivers, antennas or clocks.  The periods of the
valid nodes are then the same, with multiplicity, if and only if the second walk passes over no
setup that has a node. -/
theorem nodes_as_afresh_iff {lib : ListUtils} {l : SiteLog} {w₁ w₁' w₀ w w' : World}
    {rows₁ rows : RowOrder} (h₁ : World.Handles lib l World.init w₁) (hasc₁ : rows₁.Ascending)
    (hu₁ : World.Takes lib w₁ (.siteUpdated rows₁ ⟨l.fourCharacterId⟩) w₁')
    (hw₀ : World.Reachable lib (fun _ => True) w₀) (h : World.Handles lib l w₀ w)
    (hasc : rows.Ascending) (hu : World.Takes lib w (.siteUpdated rows ⟨l.fourCharacterId⟩) w')
    (hone : ∀ site ∈ w.store.findCorsSite l.fourCharacterId,
      ∀ r ∈ w.store.findSetupsBySiteId site.id, w.store.OneOfEach r.setup) :
    (w₁'.store.nodePeriods l.fourCharacterId).Perm (w'.store.nodePeriods l.fourCharacterId) ↔
      PassesOverNoNode w.store rows l.fourCharacterId := by
  obtain ⟨l₁, site₁, hl₁, -, -, hperiods₁⟩ :=
    nodePeriods_of_handles World.Reachable.init h₁ hasc₁ hu₁
  obtain ⟨l₂, site, hl₂, hsite, hreal, hperiods⟩ := nodePeriods_of_handles hw₀ h hasc hu
  have hperm := rows.arrange_perm (w.store.findSetupsBySiteId site.id)
  -- the empty store has no nodes to pass over
  have hnone : w₁.store.passedOver (rows₁.arrange (w₁.store.findSetupsBySiteId site₁.id)) = [] := by
    have hnodes := (h₁.spec World.Reachable.init).2.2
    refine List.filter_eq_nil_iff.mpr ?_
    intro r _
    simp [Store.hasNode, hnodes, World.init, Store.empty]
  rw [hnone, List.map_nil, List.append_nil] at hperiods₁
  -- and the plans call for the same nodes
  have hplan : l₁.nodePlan.map (fun p => EffectiveDates.reload (some p.nodePeriod))
      = l₂.nodePlan.map fun p => EffectiveDates.reload (some p.nodePeriod) := by
    have hone₂ := hreal.oneOfEach (h.spec hw₀).1.tracks.tables.registry (hone site hsite)
    have hnodes := (hl₁.trans hl₂.symm).map_nodePeriod_nodePlan hone₂
    simpa [Function.comp_def] using
      congrArg (List.map fun d => EffectiveDates.reload (some d)) hnodes
  rw [hplan] at hperiods₁
  have hempty : w.store.passedOver (rows.arrange (w.store.findSetupsBySiteId site.id)) = [] ↔
      PassesOverNoNode w.store rows l.fourCharacterId := by
    rw [Store.passedOver, List.filter_eq_nil_iff]
    constructor
    · intro hnone site' hsite' r hr hnode
      obtain rfl := Option.some.inj (hsite.symm.trans hsite')
      simpa [hnode] using hnone r (hperm.symm.subset hr)
    · intro hall r hr
      have hr' := hall site hsite r (hperm.subset hr)
      cases hnode : w.store.hasNode r with
      | false => simp
      | true => simp [hr' hnode]
  rw [← hempty]
  constructor
  · intro hsame
    have hlength := ((hperiods₁.symm.trans hsame).trans hperiods).length_eq
    rw [List.length_append, List.length_map, List.length_map] at hlength
    exact List.length_eq_zero_iff.mp (by omega)
  · intro hnil
    rw [hnil, List.map_nil, List.append_nil] at hperiods
    exact hperiods₁.trans hperiods.symm

/-- **The nodes do depend on the history.**  The first log leaves a node for the time of the second
clock.  The second log has no clock before it, so its only node spans the whole time, and the walk
passes over the setup with the clock, whose node stays valid. -/
theorem nodes_depend_on_history_clock_dropped :
    ∃ w₁ w₁' w₀ w w', World.Handles .ofContains SiteLog.clockAdded World.init w₁ ∧
      World.Takes .ofContains w₁ (.siteUpdated .chronological ⟨"ADE1"⟩) w₁' ∧
      TransitionSystem.Run (World.Takes .ofContains) World.init
        (Step.receivedAndUpdated SiteLog.clockReplaced) w₀ ∧
      World.Handles .ofContains SiteLog.clockAdded w₀ w ∧
      World.Takes .ofContains w (.siteUpdated .chronological ⟨"ADE1"⟩) w' ∧
      (∀ r ∈ w'.store.setups, w'.store.OneOfEach r.setup) ∧
      ¬(w₁'.store.nodePeriods "ADE1").Perm (w'.store.nodePeriods "ADE1") := by
  have h₁ : World.performs .ofContains World.init (Step.received SiteLog.clockAdded) = true := by
    decide +kernel
  have h₀ : World.performs .ofContains World.init (Step.receivedAndUpdated SiteLog.clockReplaced)
      = true := by
    decide +kernel
  refine ⟨_, _, _, _, _, World.handles_performs h₁, World.takes_perform ?_,
    World.run_of_performs h₀, World.handles_performs ?_, World.takes_perform ?_, ?_, ?_⟩ <;>
    decide +kernel

/-- Where the first log had no clock either, the condition is met and the nodes are the same. -/
theorem nodes_as_afresh_iff_clock_added :
    let w₀ := World.performAll .ofContains (Step.receivedAndUpdated SiteLog.clockless)
    let w := (Step.received SiteLog.clockAdded).foldl (World.perform .ofContains) w₀
    let w₁ := (Step.received SiteLog.clockAdded).foldl (World.perform .ofContains) World.init
    ((w₁.perform .ofContains (.siteUpdated .chronological ⟨"ADE1"⟩)).store.nodePeriods "ADE1").Perm
        ((w.perform .ofContains (.siteUpdated .chronological ⟨"ADE1"⟩)).store.nodePeriods "ADE1") ∧
      PassesOverNoNode w.store .chronological "ADE1" := by
  intro w₀ w w₁
  have h₁ : World.Handles .ofContains SiteLog.clockAdded World.init w₁ :=
    World.handles_performs (by decide +kernel)
  have hw₀ : World.Reachable .ofContains (fun _ => True) w₀ :=
    World.reachable_performAll fun _ _ => trivial
  have h : World.Handles .ofContains SiteLog.clockAdded w₀ w :=
    World.handles_performs (by decide +kernel)
  have hu₁ := World.takes_perform (w := w₁) (a := .siteUpdated .chronological ⟨"ADE1"⟩)
    (show ((Step.siteUpdated .chronological ⟨"ADE1"⟩).run .ofContains w₁.store).isOk = true by
      decide +kernel)
  have hu := World.takes_perform (w := w) (a := .siteUpdated .chronological ⟨"ADE1"⟩)
    (show ((Step.siteUpdated .chronological ⟨"ADE1"⟩).run .ofContains w.store).isOk = true by
      decide +kernel)
  have hiff := nodes_as_afresh_iff h₁ RowOrder.chronological_ascending hu₁ hw₀ h
    RowOrder.chronological_ascending hu (by decide +kernel)
  have hsame : ((w₁.perform .ofContains (.siteUpdated .chronological ⟨"ADE1"⟩)).store.nodePeriods
      "ADE1").Perm ((w.perform .ofContains
        (.siteUpdated .chronological ⟨"ADE1"⟩)).store.nodePeriods "ADE1") := by
    decide +kernel
  exact ⟨hsame, hiff.mp hsame⟩

end Geodesy
