import Geodesy.Nodes.Coverage
import Geodesy.Setups.Reupload

/-!
# Uploading the same log again

A log that was handled is uploaded again, and both services handle it.  No setup is invalidated and
nothing is created exactly when the log is `Repeatable`, in every run; and in a run whose node
updates list setups in ascending order, and the first receiver, antenna and clock of a setup always
first, the nodes that were updated since stay, too (`reupload_keeps_iff`).

The nodes of a site are `NodesUpToDate` from their update until the next log of the site is handled
(`World.ReachableListed.nodesUpToDate`).
-/

namespace Geodesy

open Rows NodeService EffectiveDates

/-! ## Nodes that are up to date -/

/-- Every setup that the walk visits has a node, and no node of an invalidated setup is valid. -/
structure NodesUpToDate (st : Store) (siteId : ℕ) (rows : List SetupRow) : Prop where
  visited : ∀ r ∈ st.visitedSetups rows, st.hasNode r = true
  retired : ∀ n ∈ st.nodes, n.setupId ∈ (st.findInvalidatedBySiteId siteId).map (·.id) →
    n.invalidated = true

section UpToDate

variable {st st' : Store} {k k' : ℕ} {rows rows' : List SetupRow}

/-- An update leaves nodes that are up to date as they are. -/
lemma NodesUpToDate.nodes_updateNodes (h : NodesUpToDate st k rows) :
    (st.updateNodes k rows).nodes = st.nodes := by
  have hnodes : (st.updateNodes k rows).nodes
      = st.nodes.map (Node.retire ((st.findInvalidatedBySiteId k).map (·.id)))
        ++ insertAll (Node.fresh k st) st.nextId (st.withoutNode (st.visitedSetups rows)) := rfl
  have hnone : st.withoutNode (st.visitedSetups rows) = [] := by
    refine List.filter_eq_nil_iff.mpr ?_
    intro r hr
    simpa [Store.hasNode] using h.visited r hr
  have hself : ∀ n ∈ st.nodes, n.retire ((st.findInvalidatedBySiteId k).map (·.id)) = n := by
    intro n hn
    rw [Node.retire]
    split_ifs with hid
    · have hinv := h.retired n hn hid
      cases n
      simp_all
    · rfl
  rw [hnodes, hnone]
  simp only [insertAll, List.append_nil]
  exact (List.map_congr_left hself).trans (List.map_id _)

/-- The walk reads the same in a later store. -/
lemma visitedSetups_later {st st' : Store} {rows : List SetupRow} (hreg' : Registry st')
    (hext : Extends st st') (hfurnished : ∀ r ∈ rows, st.Furnished r.setup) :
    st'.visitedSetups rows = st.visitedSetups rows := by
  refine Walk.visited_congr ?_ ?_
  · intro r hr
    exact ((hfurnished r hr).reads_later hreg' hext).1
  · intro t ht r _
    rw [Store.hides, Store.hides, ((hfurnished t ht).reads_later hreg' hext).2]

/-- Whether the nodes are up to date depends on the site's setups and the nodes. -/
lemma NodesUpToDate.congr (h : NodesUpToDate st k rows) (hready : NodeReady st)
    (hrows : ∀ r ∈ rows, r ∈ st.setups) (hreg' : Registry st') (hext : Extends st st')
    (hinvalid : st'.findInvalidatedBySiteId k = st.findInvalidatedBySiteId k)
    (hnodes : st'.nodes = st.nodes) : NodesUpToDate st' k rows := by
  have hvisited : st'.visitedSetups rows = st.visitedSetups rows :=
    visitedSetups_later hreg' hext fun r hr => hready.furnished r (hrows r hr)
  constructor
  · rw [hvisited]
    intro r hr
    rw [Store.hasNode, hnodes]
    exact h.visited r hr
  · rw [hinvalid, hnodes]
    exact h.retired

/-- There is one ascending order of the valid setups of a site. -/
lemma SetupsEquip.eq_of_ascending {l : SiteLog} (h : SetupsEquip st k l)
    (hrows : rows.Perm (st.findSetupsBySiteId k)) (hasc : rows.Pairwise RowOrder.StartsNoLater)
    (hrows' : rows'.Perm (st.findSetupsBySiteId k))
    (hasc' : rows'.Pairwise RowOrder.StartsNoLater) : rows = rows' := by
  refine List.Perm.eq_of_pairwise (fun r s hr hs hrs hsr => ?_) hasc hasc' (hrows.trans hrows'.symm)
  have hfrom : r.setup.effectivePeriod.effectiveFrom = s.setup.effectivePeriod.effectiveFrom :=
    lowBound_injective (le_antisymm hrs hsr)
  exact List.inj_on_of_nodup_map h.nodup_from (hrows.subset hr) (hrows'.subset hs) hfrom

/-- Right after the update of a site its nodes are up to date. -/
lemma nodesUpToDate_updateNodes (h : NodeReady st)
    (hrows : rows.Perm (st.findSetupsBySiteId k)) :
    NodesUpToDate (st.updateNodes k rows) k rows := by
  constructor
  · intro r hr
    obtain ⟨n, hn, hid⟩ : ∃ n ∈ (st.updateNodes k rows).nodes, n.setupId = r.id :=
      exists_node_updateNodes (Or.inr hr)
    exact decide_eq_true (hid ▸ List.mem_map_of_mem hn)
  · intro n hn hid
    obtain ⟨r, hr, hid⟩ := List.mem_map.mp hid
    obtain ⟨hmem, hsite, hinv⟩ := mem_findInvalidatedBySiteId.mp hr
    exact retired_updateNodes h hrows hn hmem hid hsite hinv

/-- The update of one site leaves the nodes of another up to date. -/
lemma NodesUpToDate.updateNodes_other (h : NodesUpToDate st k' rows') (hready : NodeReady st)
    (hrows : rows.Perm (st.findSetupsBySiteId k)) :
    NodesUpToDate (st.updateNodes k rows) k' rows' := by
  constructor
  · intro r hr
    obtain ⟨n, hn, hid⟩ : ∃ n ∈ (st.updateNodes k rows).nodes, n.setupId = r.id :=
      exists_node_updateNodes (Or.inl (h.visited r hr))
    exact decide_eq_true (hid ▸ List.mem_map_of_mem hn)
  · intro n hn hid
    rcases mem_nodes_updateNodes.mp hn with ⟨m, hm, rfl⟩ | hn
    · have hid' : m.setupId ∈ (st.findInvalidatedBySiteId k').map (·.id) := by
        rw [Node.retire_setupId] at hid
        exact hid
      have hinv := h.retired m hm hid'
      rw [Node.retire_invalidated, hinv, Bool.true_or]
    · -- a new node is for a valid setup
      obtain ⟨q, hq, -, i, -, rfl⟩ := mem_freshNodes hn
      obtain ⟨hqmem, -, hvalid⟩ :=
        mem_findSetupsBySiteId.mp (hrows.subset (mem_visitedSetups hq).1)
      obtain ⟨r, hr, hrid⟩ := List.mem_map.mp hid
      obtain ⟨hrmem, -, hinv⟩ := mem_findInvalidatedBySiteId.mp hr
      rw [List.inj_on_of_nodup_map hready.setupKeys hrmem hqmem hrid, hvalid] at hinv
      cases hinv

end UpToDate

/-! ## Entries in another order -/

/-- The first receiver, the first antenna and the first clock of each setup are listed first. -/
def EntryOrder.KeepsFirst (entries : EntryOrder) (st : Store) : Prop :=
  ∀ r ∈ st.setups, ∀ c ∈ significantEquipment,
    st.firstInUse (entries.read r).setup c = st.firstInUse r.setup c

lemma EntryOrder.keepsFirst_asSaved (st : Store) : EntryOrder.asSaved.KeepsFirst st :=
  fun _ _ _ _ => rfl

section Listed

variable {st : Store} {k : ℕ} {entries : EntryOrder} {rows : List SetupRow}

lemma NodeReady.listed (h : NodeReady st) (entries : EntryOrder) :
    NodeReady (st.listed entries) where
  nodeKeys := h.nodeKeys
  unique := h.unique
  setupKeys := by
    have hids : (st.listed entries).setups.map (·.id) = st.setups.map (·.id) := by
      simp [Store.listed, Function.comp_def]
    exact hids ▸ h.setupKeys
  furnished r hr u hu := by
    obtain ⟨q, hq, rfl⟩ := List.mem_map.mp hr
    exact h.furnished q hq u ((entries.read_perm q).subset hu)
  started r hr := by
    obtain ⟨q, hq, rfl⟩ := List.mem_map.mp hr
    exact h.started q hq

/-- The node loop reads the same of a setup whose first entries are kept. -/
lemma EntryOrder.KeepsFirst.reads (h : entries.KeepsFirst st) {r : SetupRow} (hr : r ∈ st.setups) :
    st.isComplete (entries.read r).setup = st.isComplete r.setup ∧
      st.nodePeriod (entries.read r).setup = st.nodePeriod r.setup := by
  have hfirst := h r hr
  have hsignificant :
      st.significantPeriods (entries.read r).setup = st.significantPeriods r.setup :=
    List.flatMap_congr fun c hc => by rw [hfirst c hc]
  constructor
  · rw [Store.isComplete, Store.isComplete, hfirst _ (by simp [significantEquipment]),
      hfirst _ (by simp [significantEquipment])]
  · rw [Store.nodePeriod, Store.nodePeriod, hsignificant]

/-- Then it visits the same setups. -/
lemma EntryOrder.KeepsFirst.visitedSetups (h : entries.KeepsFirst st)
    (hrows : ∀ r ∈ rows, r ∈ st.setups) :
    (st.listed entries).visitedSetups (rows.map entries.read) =
      (st.visitedSetups rows).map entries.read := by
  refine Walk.visited_map none (fun r hr => (h.reads (hrows r hr)).1) ?_
  intro t ht r _
  have hperiod := (h.reads (hrows t (by simpa using ht))).2
  change passesOver (st.nodePeriod (entries.read t).setup) _ = passesOver _ _
  rw [hperiod]
  rfl

lemma NodesUpToDate.listed (hup : NodesUpToDate st k rows) (h : entries.KeepsFirst st)
    (hrows : ∀ r ∈ rows, r ∈ st.setups) :
    NodesUpToDate (st.listed entries) k (rows.map entries.read) := by
  constructor
  · rw [h.visitedSetups hrows]
    intro r hr
    obtain ⟨q, hq, rfl⟩ := List.mem_map.mp hr
    exact hup.visited q hq
  · intro n hn hid
    rw [st.findInvalidatedBySiteId_listed, List.map_map] at hid
    exact hup.retired n hn hid

end Listed

/-! ## Once updated, up to date -/

/-- What the two services keep of sites, setups and nodes, however entries are listed. -/
structure TracksNodesListed (w : World) : Prop extends TracksListed w where
  ready : NodeReady w.store

lemma TracksNodesListed.listed {w : World} (h : TracksNodesListed w) (entries : EntryOrder) :
    TracksNodesListed (w.listed entries) :=
  ⟨h.toTracksListed.listed entries, h.ready.listed entries⟩

lemma TracksNodesListed.step {lib : ListUtils} {w w' : World} {a : Step}
    (h : TracksNodesListed w) (hstep : World.Takes lib w a w') : TracksNodesListed w' := by
  refine ⟨h.toTracksListed.step hstep, ?_⟩
  obtain ⟨st, hok, rfl⟩ := hstep
  cases a with
  | upload l =>
      obtain ⟨-, hframe⟩ := upload_inv h.tables.siteLogs hok
      exact h.ready.congr (by rw [hframe]; exact le_rfl) (by rw [hframe]; rfl)
        (by rw [hframe]; rfl) (by rw [hframe]; rfl)
  | siteLogReceived load rows e =>
      obtain ⟨l, site, saved, N, hby⟩ := handle_inv h.tables hok
      exact hby.nodeReady h.tables h.ready
  | siteUpdated rows e =>
      obtain ⟨site, -, rfl⟩ := nodeService_inv h.ready hok
      exact (h.ready.updateNodes (rows.arrange_perm _)).congr le_rfl rfl rfl rfl

theorem World.ReachableListed.tracksNodes {lib : ListUtils} {P : World → ListedStep → Prop}
    {w : World} (h : World.ReachableListed lib P w) : TracksNodesListed w :=
  h.invariant ⟨tracks_init.listed, nodeTable_empty.toNodeReady⟩
    (fun _ a _ hw => hw.listed a.entries) fun _ _ _ _ hw hstep => hw.step hstep

/-- The nodes of every site that was updated since its last log are up to date. -/
def UpdatedNodesUpToDate (w : World) : Prop :=
  ∀ id site, w.store.findCorsSite id = some site → w.nodesUpdated id = true →
    ∀ rows : List SetupRow, rows.Perm (w.store.findSetupsBySiteId site.id) →
      rows.Pairwise RowOrder.StartsNoLater → NodesUpToDate w.store site.id rows

/-- The listing of the entries does not matter, as long as the first ones are kept. -/
lemma UpdatedNodesUpToDate.listed {w : World} (h : UpdatedNodesUpToDate w) {entries : EntryOrder}
    (hfirst : entries.KeepsFirst w.store) : UpdatedNodesUpToDate (w.listed entries) := by
  intro code site hsite hupd rows' hrows' hasc'
  -- the rows are those of some order of the setups
  have hread : List.Forall₂ (fun (r' : SetupRow) r => r' = entries.read r)
      ((w.store.findSetupsBySiteId site.id).map entries.read)
      (w.store.findSetupsBySiteId site.id) := by
    rw [List.forall₂_map_left_iff]
    exact List.forall₂_same.mpr fun _ _ => rfl
  change rows'.Perm ((w.store.listed entries).findSetupsBySiteId site.id) at hrows'
  rw [w.store.findSetupsBySiteId_listed] at hrows'
  obtain ⟨rows, hrows, hperm⟩ := List.perm_comp_forall₂ hrows' hread
  obtain rfl : rows' = rows.map entries.read := by
    have hmap := hrows.map_eq_map (f := fun r' => r') fun _ _ heq => heq
    rwa [List.map_id_fun'] at hmap
  have hasc : rows.Pairwise RowOrder.StartsNoLater := by
    rw [List.pairwise_map] at hasc'
    exact hasc'
  exact (h code site hsite hupd rows hperm hasc).listed hfirst fun r hr =>
    (mem_findSetupsBySiteId.mp (hperm.subset hr)).1

/-- Handling the log of one site leaves the nodes of another up to date. -/
lemma UpdatedNodesUpToDate.siteLogReceived {load : LoadOrder} {rows₀ : RowOrder}
    {e : SiteLogReceived} {w : World} {st : Store} {l : SiteLog} {owner : CorsSite} {saved : Store}
    {N : List Setup} (h : UpdatedNodesUpToDate w) (hready : NodeReady w.store) (hreg : Registry st)
    (hby : HandledBy load e w.store st l owner saved N) :
    UpdatedNodesUpToDate (w.after (.siteLogReceived load rows₀ e) st) := by
  intro id site hsite hupd rows hrows hasc
  by_cases hid : id = e.fourCharacterId
  · subst hid
    simp [World.after] at hupd
  · simp only [World.after, Function.update_of_ne hid] at hupd
    have hsiteId : w.store.siteId id = some site.id := by
      rw [← hby.siteId_other hid]
      change (st.findCorsSite id).map _ = _
      rw [show st.findCorsSite id = some site from hsite, Option.map_some]
    have hne := hby.siteSaved.ne_of_other hid hsiteId
    obtain ⟨site₀, hsite₀, hk⟩ := Option.map_eq_some_iff.mp hsiteId
    change rows.Perm (st.findSetupsBySiteId site.id) at hrows
    rw [hby.findSetups_other hne] at hrows
    have hup : NodesUpToDate w.store site.id rows := by
      rw [← hk] at hrows ⊢
      exact h id site₀ hsite₀ hupd rows hrows hasc
    exact hup.congr hready (fun r hr => (mem_findSetupsBySiteId.mp (hrows.subset hr)).1) hreg
      hby.extends (hby.findInvalidated_other hne) hby.nodes_eq

/-- An upload leaves the nodes up to date. -/
lemma UpdatedNodesUpToDate.upload {w : World} {l : SiteLog} {st : Store}
    (h : UpdatedNodesUpToDate w) (htracks : TracksNodesListed w) (hreg : Registry st)
    (hok : CorsSiteLogService.upload l w.store = .ok st) :
    UpdatedNodesUpToDate (w.after (.upload l) st) := by
  obtain ⟨-, hframe⟩ := upload_inv htracks.tables.siteLogs hok
  intro id site hsite hupd rows hrows hasc
  have hsite' : w.store.findCorsSite id = some site := by
    change st.findCorsSite id = some site at hsite
    rwa [hframe] at hsite
  have hrows' : rows.Perm (w.store.findSetupsBySiteId site.id) := by
    change rows.Perm (st.findSetupsBySiteId site.id) at hrows
    rwa [hframe] at hrows
  refine (h id site hsite' hupd rows hrows' hasc).congr htracks.ready
    (fun r hr => (mem_findSetupsBySiteId.mp (hrows'.subset hr)).1) hreg (Extends.of_eq ?_ ?_ ?_)
    ?_ ?_
  all_goals (rw [hframe]; rfl)

/-- The update of the nodes of one site leaves those of the others up to date, and its own are up to
date afterwards. -/
lemma UpdatedNodesUpToDate.siteUpdated {w : World} {rows₀ : RowOrder} {e : SiteUpdated} {st : Store}
    (h : UpdatedNodesUpToDate w) (htracks : TracksNodesListed w) (hasc₀ : rows₀.Ascending)
    (hok : NodeService.handle rows₀ e w.store = .ok st) :
    UpdatedNodesUpToDate (w.after (.siteUpdated rows₀ e) st) := by
  obtain ⟨owner, howner, rfl⟩ := nodeService_inv htracks.ready hok
  intro id site hsite hupd rows hrows hasc
  have hsite' : w.store.findCorsSite id = some site := hsite
  have hrows' : rows.Perm (w.store.findSetupsBySiteId site.id) := hrows
  have hrows₀ := rows₀.arrange_perm (w.store.findSetupsBySiteId owner.id)
  by_cases hid : id = e.fourCharacterId
  · subst hid
    obtain rfl := Option.some.inj (howner.symm.trans hsite')
    have hk : w.store.siteId e.fourCharacterId = some owner.id := by
      simp [Store.siteId, howner]
    -- the setups are listed in the order in which they were updated
    obtain ⟨l, -, -, hequip⟩ := htracks.handled _ _ hk
    obtain rfl := hequip.eq_of_ascending hrows' hasc hrows₀ (hasc₀ _)
    obtain ⟨hvisited, hretired⟩ := nodesUpToDate_updateNodes htracks.ready hrows₀
    exact ⟨hvisited, hretired⟩
  · simp only [World.after, Function.update_of_ne hid] at hupd
    obtain ⟨hvisited, hretired⟩ :=
      (h id site hsite' hupd rows hrows' hasc).updateNodes_other htracks.ready hrows₀
    exact ⟨hvisited, hretired⟩

lemma UpdatedNodesUpToDate.step {lib : ListUtils} {w w' : World} {a : Step}
    (h : UpdatedNodesUpToDate w) (htracks : TracksNodesListed w) (hasc : a.ListsAscending)
    (hstep : World.Takes lib w a w') : UpdatedNodesUpToDate w' := by
  have hreg : Registry w'.store := (htracks.step hstep).tables.registry
  obtain ⟨st, hok, rfl⟩ := hstep
  cases a with
  | upload l => exact h.upload htracks hreg hok
  | siteLogReceived load rows₀ e =>
      obtain ⟨l, owner, saved, N, hby⟩ := handle_inv htracks.tables hok
      exact h.siteLogReceived htracks.ready hreg hby
  | siteUpdated rows₀ e => exact h.siteUpdated htracks hasc hok

/-- A node update lists the setups in ascending order, and the first entries of each first. -/
def ListedStep.KeepsNodes (w : World) (a : ListedStep) : Prop :=
  a.step.ListsAscending ∧ a.entries.KeepsFirst w.store

/-- **Once the nodes of a site were updated they are up to date until its next log.** -/
theorem World.ReachableListed.nodesUpToDate {lib : ListUtils} {w : World}
    (hw : World.ReachableListed lib ListedStep.KeepsNodes w) : UpdatedNodesUpToDate w := by
  have hinv : TracksNodesListed w ∧ UpdatedNodesUpToDate w := by
    refine hw.invariant (I := fun w => TracksNodesListed w ∧ UpdatedNodesUpToDate w)
      ⟨⟨tracks_init.listed, nodeTable_empty.toNodeReady⟩, ?_⟩ ?_ ?_
    · simp [UpdatedNodesUpToDate, World.init]
    · rintro w a ⟨-, hfirst⟩ ⟨h, hupdated⟩
      exact ⟨h.listed a.entries, hupdated.listed hfirst⟩
    · rintro w a w' ⟨hasc, -⟩ ⟨h, hupdated⟩ hstep
      exact ⟨h.step hstep, hupdated.step h hasc hstep⟩
  exact hinv.2

/-- The same where entries are always listed as they were saved. -/
lemma World.Reachable.nodesUpToDate {lib : ListUtils} {w : World}
    (hw : World.Reachable lib Step.ListsAscending w) : UpdatedNodesUpToDate w := by
  refine (hw.listed.mono ?_).nodesUpToDate
  rintro u a ⟨hentries, hasc⟩
  exact ⟨hasc, hentries ▸ EntryOrder.keepsFirst_asSaved u.store⟩

/-! ## The second upload -/

/-- The log is uploaded and handled; no setup is invalidated and none created, no equipment and no
configuration is created. -/
def ReuploadKeepsSetups (lib : ListUtils) (l : SiteLog) (load : LoadOrder) (rows : RowOrder)
    (entries : EntryOrder) (w : World) : Prop :=
  ∃ w₁ w₂, World.Takes lib w (.upload l) w₁ ∧
    World.TakesListed lib w₁
      ⟨entries, .siteLogReceived load rows ⟨l.fourCharacterId, l.siteLogText⟩⟩ w₂ ∧
    NothingNew (w.store.listed entries) w₂.store

/-- Then the nodes are updated, and they stay as well. -/
def ReuploadKeeps (lib : ListUtils) (l : SiteLog) (load : LoadOrder) (rows rows' : RowOrder)
    (entries entries' : EntryOrder) (w : World) : Prop :=
  ∃ w₁ w₂ w₃, World.Takes lib w (.upload l) w₁ ∧
    World.TakesListed lib w₁
      ⟨entries, .siteLogReceived load rows ⟨l.fourCharacterId, l.siteLogText⟩⟩ w₂ ∧
    World.TakesListed lib w₂ ⟨entries', .siteUpdated rows' ⟨l.fourCharacterId⟩⟩ w₃ ∧
    NothingNew (w.store.listed entries) w₂.store ∧ w₃.store.nodes = w₂.store.nodes

section Reupload

variable {w : World} {l : SiteLog}

/-- If the setups stayed and the nodes were up to date, the node update changes no node. -/
lemma exists_siteUpdated (lib : ListUtils) (rows : RowOrder) {w₂ : World}
    (h : TracksNodesListed w) (h₂ : TracksNodesListed w₂) {entries : EntryOrder} {site : CorsSite}
    (hsite : w.store.findCorsSite l.fourCharacterId = some site)
    (hsite₂ : w₂.store.siteId l.fourCharacterId = w.store.siteId l.fourCharacterId)
    (hext : Extends w.store w₂.store) (hsetups : w₂.store.setups = w.store.setups)
    (hnodes : w₂.store.nodes = w.store.nodes)
    (hup : NodesUpToDate (w.store.listed entries) site.id
      (rows.arrange ((w.store.listed entries).findSetupsBySiteId site.id))) :
    ∃ w₃, World.TakesListed lib w₂ ⟨entries, .siteUpdated rows ⟨l.fourCharacterId⟩⟩ w₃ ∧
      w₃.store.nodes = w₂.store.nodes := by
  have hlisted : (w₂.store.listed entries).setups = (w.store.listed entries).setups := by
    rw [Store.listed, Store.listed, hsetups]
  have hvalid : (w₂.store.listed entries).findSetupsBySiteId site.id =
      (w.store.listed entries).findSetupsBySiteId site.id := by
    simp only [Store.findSetupsBySiteId, hlisted]
  have hinvalid : (w₂.store.listed entries).findInvalidatedBySiteId site.id =
      (w.store.listed entries).findInvalidatedBySiteId site.id := by
    simp only [Store.findInvalidatedBySiteId, hlisted]
  obtain ⟨site₂, hfind, hid⟩ : ∃ s, w₂.store.findCorsSite l.fourCharacterId = some s ∧
      s.id = site.id := by
    rw [Store.siteId, Store.siteId, hsite] at hsite₂
    exact Option.map_eq_some_iff.mp hsite₂
  have hready₂ := (h₂.listed entries).ready
  have hupdate : NodeService.handle rows ⟨l.fourCharacterId⟩ (w₂.store.listed entries) = _ :=
    nodeService_eq hready₂ hfind
  refine ⟨_, ⟨_, hupdate, rfl⟩, ?_⟩
  have hrows := rows.arrange_perm ((w.store.listed entries).findSetupsBySiteId site.id)
  have hup₂ : NodesUpToDate (w₂.store.listed entries) site.id
      (rows.arrange ((w.store.listed entries).findSetupsBySiteId site.id)) :=
    hup.congr (h.listed entries).ready
      (fun r hr => (mem_findSetupsBySiteId.mp (hrows.subset hr)).1)
      (h₂.listed entries).tables.registry
      ⟨hext.nextId_le, hext.equipment, hext.configurations⟩ hinvalid hnodes
  rw [hid]
  change ((w₂.store.listed entries).updateNodes site.id
    (rows.arrange ((w₂.store.listed entries).findSetupsBySiteId site.id))).nodes = _
  rw [hvalid]
  exact hup₂.nodes_updateNodes

end Reupload

/-- **When a second upload changes nothing.**  In a run whose queries list entries in any order `L`
was the last log handled for its site, and a log equal to it is uploaded, read back in any iteration
order and handled.  The setups and the equipment stay if and only if the log can be handled again
with the entries listed as they are.  In a run whose node updates list setups in ascending order,
and the first entries of each setup first, the nodes that were updated since `L` stay as well. -/
theorem reupload_keeps_iff {lib : ListUtils} {w : World}
    (hw : World.ReachableListed lib (fun _ _ => True) w) {l L : SiteLog}
    (hlast : w.lastLog l.fourCharacterId = some L) (hl : l.reload.Iterates L) (load : LoadOrder)
    (rows : RowOrder) (entries : EntryOrder) :
    (ReuploadKeepsSetups lib l load rows entries w ↔ w.Repeats entries (load.load l.reload)) ∧
      (World.ReachableListed lib ListedStep.KeepsNodes w →
        w.nodesUpdated l.fourCharacterId = true → entries.KeepsFirst w.store →
        ∀ (rows' : RowOrder) (entries' : EntryOrder), rows'.Ascending →
          entries'.KeepsFirst (w.store.listed entries) →
          (ReuploadKeeps lib l load rows rows' entries entries' w ↔
            w.Repeats entries (load.load l.reload))) := by
  have htracks : TracksNodesListed w := hw.tracksNodes
  have hiter : (load.load l.reload).Iterates L := (load.load_iterates _).trans hl
  obtain ⟨k, hk, hacc, -⟩ := htracks.site_of_lastLog hlast
  obtain ⟨w₁, w₂, hupload, hreceived, hiff, -, hsite₂, hnodes, hext⟩ :=
    htracks.exists_reupload hlast (hiter.accepted_iff.mpr hacc) hiter.periods_eq rows entries
  have hkeeps : ReuploadKeepsSetups lib l load rows entries w ↔
      NothingNew (w.store.listed entries) w₂.store := by
    constructor
    · rintro ⟨u₁, u₂, h₁, h₂, hnew⟩
      obtain rfl := h₁.unique hupload
      obtain rfl := World.Takes.unique h₂ hreceived
      exact hnew
    · intro hnew
      exact ⟨w₁, w₂, hupload, hreceived, hnew⟩
  refine ⟨hkeeps.trans hiff, ?_⟩
  intro hrun hupd hfirst rows' entries' hasc hfirst'
  rw [← hiff, ← hkeeps]
  constructor
  · rintro ⟨u₁, u₂, u₃, h₁, h₂, -, hnew, -⟩
    exact ⟨u₁, u₂, h₁, h₂, hnew⟩
  · intro hkept
    have hnew := hkeeps.mp hkept
    -- the nodes are up to date before, and nothing that they depend on changes
    obtain ⟨site, hsite, -⟩ := Option.map_eq_some_iff.mp hk
    have hupToDate := (hrun.nodesUpToDate.listed hfirst).listed hfirst'
    have htracks₁ := htracks.step hupload
    have htracks₂ : TracksNodesListed w₂ := (htracks₁.listed entries).step hreceived
    obtain ⟨w₃, hupdate, hsame⟩ := exists_siteUpdated lib rows' (htracks.listed entries) htracks₂
      hsite hsite₂ ⟨hext.nextId_le, hext.equipment, hext.configurations⟩ hnew.setups hnodes
      (hupToDate _ site hsite hupd _ (rows'.arrange_perm _) (hasc _))
    exact ⟨w₁, w₂, w₃, hupload, hreceived, hupdate, hnew, hsame⟩

/-- **A second upload does change something.**  The receiver has no serial number, so its equipment
is not found again. -/
theorem reupload_changes_serialless :
    ∃ w, World.Reachable .ofContains Step.ListsAscending w ∧
      w.lastLog "ADE1" = some SiteLog.serialless ∧ w.nodesUpdated "ADE1" = true ∧
      SiteLog.serialless.reload = SiteLog.serialless ∧
      ¬ReuploadKeepsSetups .ofContains SiteLog.serialless .asListed .asStored .asSaved w := by
  refine ⟨World.performAll .ofContains (Step.receivedAndUpdated SiteLog.serialless),
    World.reachable_performAll (Step.forall_receivedAndUpdated.mpr
      ⟨trivial, trivial, RowOrder.chronological_ascending⟩),
    by decide +kernel, by decide +kernel, by decide, ?_⟩
  rintro ⟨w₁, w₂, h₁, h₂, hnew⟩
  rw [World.TakesListed, World.listed_asSaved] at h₂
  obtain rfl := h₁.unique (World.takes_perform (by decide +kernel))
  obtain rfl := h₂.unique (World.takes_perform (by decide +kernel))
  exact absurd hnew.equipment (by decide +kernel)

/-- The world in which `SiteLog.clockRemoved` was handled and its nodes updated. -/
def clockRemovedUpdated : World :=
  World.performAll .ofContains (Step.receivedAndUpdated SiteLog.clockRemoved)

/-- Equipment that is found again, with the entries listed as they were saved. -/
theorem reupload_keeps_iff_clock_removed :
    ReuploadKeeps .ofContains SiteLog.clockRemoved .asListed .asStored .chronological .asSaved
      .asSaved clockRemovedUpdated := by
  have hreach : World.Reachable .ofContains Step.ListsAscending clockRemovedUpdated :=
    World.reachable_performAll (Step.forall_receivedAndUpdated.mpr
      ⟨trivial, trivial, RowOrder.chronological_ascending⟩)
  have hlast : clockRemovedUpdated.lastLog SiteLog.clockRemoved.fourCharacterId =
      some SiteLog.clockRemoved := by decide +kernel
  have hrepeat : clockRemovedUpdated.Repeats .asSaved
      (LoadOrder.asListed.load SiteLog.clockRemoved.reload) := by decide +kernel
  refine ((reupload_keeps_iff (hreach.listed.mono fun _ _ _ => trivial) hlast
    (SiteLog.Iterates.refl _) .asListed .asStored .asSaved).2 (hreach.listed.mono ?_)
    (by decide +kernel) (EntryOrder.keepsFirst_asSaved _) .chronological .asSaved
    RowOrder.chronological_ascending (EntryOrder.keepsFirst_asSaved _)).mpr hrepeat
  rintro u a ⟨hentries, hasc⟩
  exact ⟨hasc, hentries ▸ EntryOrder.keepsFirst_asSaved u.store⟩

/-- The same log changes the setups if their entries are listed the other way round. -/
example : ¬clockRemovedUpdated.Repeats .reversed
    (LoadOrder.asListed.load SiteLog.clockRemoved.reload) := by decide +kernel

end Geodesy
