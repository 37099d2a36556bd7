import Geodesy.Nodes.Coverage
import Mathlib.Data.Set.Pairwise.List

/-!
# When the nodes of a site overlap

The node of a setup lasts as long as its receiver, antenna and clock are in effect together, which
can be longer than the setup on either side.  The loop only looks ahead: it remembers where the last
node ends, but not that a node may reach back before its setup, nor that a setup it passes over may
have kept a node from an earlier log.  `nodes_apart_iff` says that these are the only ways in which
nodes come to overlap, apart from instants within one second, which `compareTo` does not compare
as `1`.
-/

namespace Geodesy

open EffectiveDates NodeService

/-- The walk over the rows leaves no two nodes that overlap: it passes over no setup that has a
node, the common period of the equipment of every visited setup starts with the setup, and
`compareTo` returns `1` whenever such a period ends after a later visited setup starts. -/
structure CleanWalk (st : Store) (rows : List SetupRow) : Prop where
  nothingPassedOver : ∀ r ∈ rows, st.hasNode r = true → r ∈ st.visitedSetups rows
  startsWithSetup : ∀ r ∈ st.visitedSetups rows,
    (st.nodePeriod r.setup).effectiveFrom = r.setup.effectivePeriod.effectiveFrom
  comparesExactly : (st.visitedSetups rows).Pairwise fun r s =>
    ∀ t ∈ (st.nodePeriod r.setup).effectiveTo, ∀ f ∈ s.setup.effectivePeriod.effectiveFrom,
      f < t → t.compareTo f = 1

/-- The rows of a well dated log are covered by the nodes of the visited ones. -/
lemma ReadsAs.cover {st : Store} {l : SiteLog} {rows : List SetupRow} (h : ReadsAs st l rows)
    (hl : l.WellDated) (hstarted : l.AllStarted) :
    Cover (fun r : SetupRow => toPeriod (some r.setup.effectivePeriod))
      (fun r => toPeriod (some (st.nodePeriod r.setup))) (fun r => st.isComplete r.setup = true)
      rows (st.visitedSetups rows) :=
  (SiteLog.cover_nodePlan hl hstarted).comap h.plan h.visited (Walk.visited_sublist _ _)
    (fun _ _ => rfl) (fun r hr _ => by rw [h.nodePeriod r hr])
    (fun r hr => by rw [h.complete r hr])

/-- Where `compareTo` is exact, the loop goes on with a setup only when the last node is over. -/
lemma overWhenNextStarts_iff {st : Store} {rows : List SetupRow}
    (hcover : Cover (fun r : SetupRow => toPeriod (some r.setup.effectivePeriod))
      (fun r => toPeriod (some (st.nodePeriod r.setup))) (fun r => st.isComplete r.setup = true)
      rows (st.visitedSetups rows))
    (hstarted : ∀ r ∈ rows, r.setup.effectivePeriod.effectiveFrom ≠ none) :
    ((st.visitedSetups rows).Pairwise fun r s => (toPeriod (some (st.nodePeriod r.setup))).Before
        (toPeriod (some s.setup.effectivePeriod))) ↔
      (st.visitedSetups rows).Pairwise fun r s =>
        ∀ t ∈ (st.nodePeriod r.setup).effectiveTo, ∀ f ∈ s.setup.effectivePeriod.effectiveFrom,
          f < t → t.compareTo f = 1 := by
  constructor
  · refine fun hover => hover.imp fun {r s} hrs t ht f hf hft => ?_
    have hto : (toPeriod (some (st.nodePeriod r.setup))).stop = (t : WithTop Instant) := by
      simp [toPeriod, Option.mem_def.mp ht]
    have hle := (Period.before_iff hto).mp hrs
    simp only [toPeriod, getFrom_some, Option.mem_def.mp hf, lowBound_some,
      WithBot.coe_le_coe] at hle
    exact absurd hft hle.not_gt
  · intro hexact
    refine hcover.pairwise_over ?_
    have hchain : (st.visitedSetups rows).IsChain fun r s => st.hides r s = false :=
      Walk.isChain_visited rows none
    have hneighbours := List.IsChain.iff_mem.mp (Cover.isChain_and hchain hexact.isChain)
    refine hneighbours.imp ?_
    intro r s hboth
    obtain ⟨hr, hs, hrs, hexact⟩ := hboth
    -- the loop went on with `s`, so the node of `r` has an end that does not compare as later
    obtain ⟨f, hf⟩ := Option.ne_none_iff_exists'.mp
      (hstarted s ((Walk.visited_sublist _ _).subset hs))
    cases ht : (st.nodePeriod r.setup).effectiveTo with
    | none => simp [Store.hides, passesOver, ht] at hrs
    | some t =>
        have hto : (toPeriod (some (st.nodePeriod r.setup))).stop = (t : WithTop Instant) := by
          simp [toPeriod, ht]
        rw [Store.hides, hf, passesOver_some ht, decide_eq_false_iff_not] at hrs
        refine (Period.before_iff hto).mpr ?_
        simp only [toPeriod, getFrom_some, hf, lowBound_some, WithBot.coe_le_coe]
        exact not_lt.mp fun hft => hrs (hexact t ht f hf hft)

/-- A setup with a node is complete. -/
lemma NodeTable.isComplete_of_hasNode {st : Store} (h : NodeTable st) {k : ℕ} {r : SetupRow}
    (hr : r ∈ st.findSetupsBySiteId k) (hnode : st.hasNode r = true) :
    st.isComplete r.setup = true := by
  obtain ⟨n, hn, hid⟩ := List.mem_map.mp (of_decide_eq_true hnode)
  obtain ⟨q, hq, hbelongs⟩ := h.owner n hn
  have hqr := List.inj_on_of_nodup_map h.setupKeys hq (mem_findSetupsBySiteId.mp hr).1
    (hbelongs.setupId.trans hid)
  exact hqr ▸ hbelongs.complete

/-- Pairs of nodes are pairs of setups with a node. -/
lemma validNodes_pairwise_iff {st : Store} {k : ℕ} {rows : List SetupRow} (h : NodeTable st)
    (hrows : rows.Perm (st.findSetupsBySiteId k)) :
    ((st.updateNodes k rows).validNodes k).Pairwise
        (fun m n => (toPeriod m.effectivePeriod).Apart (toPeriod n.effectivePeriod)) ↔
      ∀ r ∈ rows, ∀ s ∈ rows, r ≠ s → st.hasNode r = true ∨ r ∈ st.visitedSetups rows →
        st.hasNode s = true ∨ s ∈ st.visitedSetups rows →
        (toPeriod (some (st.nodePeriod r.setup))).Apart
          (toPeriod (some (st.nodePeriod s.setup))) := by
  have hnodup : (st.noded rows).Nodup := by
    have hids : (rows.map (·.id)).Nodup :=
      (hrows.map _).nodup_iff.mpr (h.setupKeys.sublist (List.filter_sublist.map _))
    exact (List.Nodup.of_map _ hids).filter _
  have hsymm : Std.Symm fun a b : ℕ × Option EffectiveDates =>
      (toPeriod a.2).Apart (toPeriod b.2) := ⟨fun _ _ => Period.Apart.symm⟩
  have hsymm' : Std.Symm fun r s : SetupRow => (toPeriod (some (st.nodePeriod r.setup))).Apart
      (toPeriod (some (st.nodePeriod s.setup))) := ⟨fun _ _ => Period.Apart.symm⟩
  rw [← List.pairwise_map (f := fun n : Node => (n.setupId, n.effectivePeriod))
      (R := fun a b : ℕ × Option EffectiveDates => (toPeriod a.2).Apart (toPeriod b.2)),
    (validNodes_updateNodes h hrows).pairwise_iff Period.Apart.symm, List.pairwise_map]
  simp only [toPeriod_reload]
  rw [← hnodup.pairwise_coe]
  constructor
  · intro hpair r hr s hs hrs hkr hks
    exact hpair (mem_noded.mpr ⟨hr, hkr⟩) (mem_noded.mpr ⟨hs, hks⟩) hrs
  · intro hall r hr s hs hrs
    obtain ⟨hr, hkr⟩ := mem_noded.mp hr
    obtain ⟨hs, hks⟩ := mem_noded.mp hs
    exact hall r hr s hs hrs hkr hks

/-- Every item has a start, and no end or a later one. -/
def SiteLog.Dated (l : SiteLog) : Prop := l.WellDated ∧ l.AllStarted

instance (l : SiteLog) : Decidable l.Dated := inferInstanceAs (Decidable (_ ∧ _))

lemma dated_reload (l : SiteLog) (h : l.Dated) : l.reload.Dated := by
  refine ⟨wellDated_reload l h.1, ?_⟩
  intro x hx
  rw [SiteLog.equipmentLogItems_reload] at hx
  obtain ⟨y, hy, rfl⟩ := List.mem_map.mp hx
  simpa using h.2 y hy

lemma dated_iterates (l l' : SiteLog) (hl : l'.Iterates l) (h : l.Dated) : l'.Dated :=
  ⟨wellDated_iterates l l' hl h.1, fun x hx => h.2 x (hl.perm_equipmentLogItems.subset hx)⟩

/-- The valid nodes of the site are pairwise apart. -/
def NodesApart (st : Store) (fourCharacterId : String) : Prop :=
  ∀ site, st.findCorsSite fourCharacterId = some site →
    (st.validNodes site.id).Pairwise fun m n =>
      (toPeriod m.effectivePeriod).Apart (toPeriod n.effectivePeriod)

instance (st : Store) (fourCharacterId : String) : Decidable (NodesApart st fourCharacterId) :=
  inferInstanceAs (Decidable (∀ site ∈ st.findCorsSite fourCharacterId, _))

/-- The update of the site's nodes that lists rows as given will be a clean walk. -/
def UpdatesCleanly (st : Store) (rows : RowOrder) (fourCharacterId : String) : Prop :=
  ∀ site, st.findCorsSite fourCharacterId = some site →
    CleanWalk st (rows.arrange (st.findSetupsBySiteId site.id))

/-- **Nodes do come to overlap.**  While the clock is there the node lasts as long as the clock; the
next node is that of the receiver and the antenna, which reaches back over the first. -/
theorem nodes_overlap_clock_removed :
    ∃ w, TransitionSystem.Run (World.Takes .ofContains) World.init
        (Step.receivedAndUpdated SiteLog.clockRemoved) w ∧
      (∀ a ∈ Step.receivedAndUpdated SiteLog.clockRemoved,
        a.Uploads SiteLog.Dated ∧ a.ListsAscending) ∧
      (∀ r ∈ w.store.setups, w.store.OneOfEach r.setup) ∧ ¬NodesApart w.store "ADE1" := by
  have hdated : SiteLog.clockRemoved.Dated := by decide
  refine ⟨_, World.run_of_performs (by decide +kernel), ?_, by decide +kernel, by decide +kernel⟩
  exact Step.forall_receivedAndUpdated.mpr
    ⟨⟨hdated, trivial⟩, ⟨trivial, trivial⟩, trivial, RowOrder.chronological_ascending⟩

/-- One update. -/
lemma nodesApart_iff {lib : ListUtils} {w : World}
    (hw : World.Reachable lib (Step.Uploads SiteLog.Dated) w) {rows : RowOrder}
    (hasc : rows.Ascending) {e : SiteUpdated} {st' : Store}
    (hok : NodeService.handle rows e w.store = .ok st') :
    NodesApart st' e.fourCharacterId ↔ UpdatesCleanly w.store rows e.fourCharacterId := by
  have htracks := hw.tracksNodes
  obtain ⟨site, hsite, rfl⟩ := nodeService_inv htracks.nodes.toNodeReady hok
  obtain ⟨l, hl, hreads⟩ := htracks.readsAs hsite hasc
  obtain ⟨hdated, hstarted⟩ := (hw.logsSatisfy dated_reload dated_iterates).last _ l hl
  have hperm := rows.arrange_perm (w.store.findSetupsBySiteId site.id)
  have hcover := hreads.cover hdated hstarted
  have hkept : ∀ r ∈ rows.arrange (w.store.findSetupsBySiteId site.id),
      w.store.hasNode r = true → w.store.isComplete r.setup = true := fun r hr hnode =>
    htracks.nodes.isComplete_of_hasNode (hperm.subset hr) hnode
  have hover := overWhenNextStarts_iff hcover fun r hr =>
    htracks.nodes.started r (mem_findSetupsBySiteId.mp (hperm.subset hr)).1
  have hsite' : ∀ st'' : Store, st''.corsSites = w.store.corsSites →
      st''.findCorsSite e.fourCharacterId = some site := by
    intro st'' hsame
    rw [Store.findCorsSite, hsame]
    exact hsite
  have happly := (validNodes_pairwise_iff htracks.nodes hperm).trans
    (hcover.apart_iff (fun r => w.store.hasNode r = true) hkept)
  rw [hover] at happly
  constructor
  · intro hapart site' hsite''
    obtain rfl : site = site' := Option.some.inj (hsite.symm.trans hsite'')
    obtain ⟨hpassed, hstart, hexact⟩ := happly.mp (hapart site (hsite' _ rfl))
    exact ⟨hpassed, fun r hr => lowBound_injective (hstart r hr), hexact⟩
  · intro hclean site' hsite''
    obtain rfl : site = site' := Option.some.inj ((hsite' _ rfl).symm.trans hsite'')
    obtain ⟨hpassed, hstart, hexact⟩ := hclean site hsite
    exact happly.mpr ⟨hpassed, fun r hr => congrArg lowBound (hstart r hr), hexact⟩

/-- **When the nodes do not overlap, over whole runs.**  In a run of dated logs whose node updates
list the setups in ascending order, the nodes of the updated site are apart after each update if
and only if each update is a clean walk. -/
theorem nodes_apart_iff {lib : ListUtils} {as : List Step}
    (hdated : ∀ a ∈ as, a.Uploads SiteLog.Dated) (hasc : ∀ a ∈ as, a.ListsAscending) :
    (∀ w rows e w',
        TransitionSystem.Passes (World.Takes lib) World.init as w (.siteUpdated rows e) w' →
          NodesApart w'.store e.fourCharacterId) ↔
      ∀ w rows e w',
        TransitionSystem.Passes (World.Takes lib) World.init as w (.siteUpdated rows e) w' →
          UpdatesCleanly w.store rows e.fourCharacterId := by
  have hone : ∀ w rows e w',
      TransitionSystem.Passes (World.Takes lib) World.init as w (.siteUpdated rows e) w' →
      (NodesApart w'.store e.fourCharacterId ↔ UpdatesCleanly w.store rows e.fourCharacterId) := by
    intro w rows e w' hpasses
    obtain ⟨hw, -⟩ := hpasses.reached hdated
    obtain ⟨-, hrows⟩ := hpasses.reached hasc
    obtain ⟨-, -, -, st', hok, rfl⟩ := hpasses
    exact nodesApart_iff hw hrows hok
  constructor
  · intro hapart w rows e w' hpasses
    exact (hone w rows e w' hpasses).mp (hapart w rows e w' hpasses)
  · intro hclean w rows e w' hpasses
    exact (hone w rows e w' hpasses).mpr (hclean w rows e w' hpasses)

/-- Without the clock there is one node, and the condition is about one update. -/
theorem nodes_apart_iff_clockless :
    ((∀ w rows e w', TransitionSystem.Passes (World.Takes .ofContains) World.init
          (Step.receivedAndUpdated SiteLog.clockless) w (.siteUpdated rows e) w' →
        NodesApart w'.store e.fourCharacterId) ↔
      ∀ w rows e w', TransitionSystem.Passes (World.Takes .ofContains) World.init
          (Step.receivedAndUpdated SiteLog.clockless) w (.siteUpdated rows e) w' →
        UpdatesCleanly w.store rows e.fourCharacterId) ∧
    NodesApart (World.performAll .ofContains (Step.receivedAndUpdated SiteLog.clockless)).store
      "ADE1" := by
  have hdated : SiteLog.clockless.Dated := by decide
  refine ⟨nodes_apart_iff ?_ ?_, by decide +kernel⟩
  · exact Step.forall_receivedAndUpdated.mpr ⟨hdated, trivial, trivial⟩
  · exact Step.forall_receivedAndUpdated.mpr
      ⟨trivial, trivial, RowOrder.chronological_ascending⟩

end Geodesy
