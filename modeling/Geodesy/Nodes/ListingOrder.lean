import Geodesy.Nodes.Coverage

/-!
# The order in which the setups are listed

The query for the valid setups of a site has no `order by`.  A setup that is listed first is always
visited, and one that is listed right behind a setup that hides it never is; so the nodes depend on
the order unless no complete setup hides another one that has no node yet
(`listing_order_irrelevant_iff`).
-/

namespace Geodesy

open Rows NodeService

/-! ## Choosing an order -/

namespace RowOrder

/-- The given row first, the others as stored. -/
def first (t : SetupRow) : RowOrder where
  arrange rows := if t ∈ rows then t :: rows.erase t else rows
  arrange_perm rows := by
    split_ifs with ht
    · exact (List.perm_cons_erase ht).symm
    · exact .refl _

/-- One order after another. -/
def after (o p : RowOrder) : RowOrder where
  arrange rows := o.arrange (p.arrange rows)
  arrange_perm rows := (o.arrange_perm _).trans (p.arrange_perm rows)

/-- The other way round. -/
def reversed : RowOrder := ⟨List.reverse, List.reverse_perm⟩

lemma first_arrange {t : SetupRow} {rows : List SetupRow} (ht : t ∈ rows) :
    (first t).arrange rows = t :: rows.erase t := if_pos ht

/-- Two given rows first. -/
lemma first_after_first_arrange {s t : SetupRow} {rows : List SetupRow} (hs : s ∈ rows)
    (ht : t ∈ rows) (hst : s ≠ t) :
    ((first t).after (first s)).arrange rows = t :: s :: (rows.erase s).erase t := by
  have ht' : t ∈ s :: rows.erase s := (List.perm_cons_erase hs).subset ht
  change (first t).arrange ((first s).arrange rows) = _
  rw [first_arrange hs, first_arrange ht', List.erase_cons_tail (by simpa using hst)]

end RowOrder

/-! ## The node rows of a site -/

/-- The rows of `NODE` for the site, without their keys. -/
def Store.nodeRows (st : Store) (fourCharacterId : String) :
    List (ℕ × Option EffectiveDates × Bool) :=
  (st.findCorsSite fourCharacterId).elim [] fun site =>
    (st.nodes.filter (·.siteId = site.id)).map fun n =>
      (n.setupId, n.effectivePeriod, n.invalidated)

/-- The rows after an update; one that throws is rolled back. -/
def nodeRowsAfter (rows : RowOrder) (e : SiteUpdated) (st : Store) :
    List (ℕ × Option EffectiveDates × Bool) :=
  match NodeService.handle rows e st with
  | .ok st' => st'.nodeRows e.fourCharacterId
  | .error _ => st.nodeRows e.fourCharacterId

section NodeRows

variable {st : Store} {e : SiteUpdated} {site : CorsSite} {rows : RowOrder}

lemma nodeRows_of_site {id : String} (hsite : st.findCorsSite id = some site) :
    st.nodeRows id = (st.nodes.filter (·.siteId = site.id)).map fun n =>
      (n.setupId, n.effectivePeriod, n.invalidated) := by
  rw [Store.nodeRows, hsite]
  rfl

/-- Only the new rows depend on the order. -/
lemma mem_nodeRowsAfter (h : NodeReady st) (hsite : st.findCorsSite e.fourCharacterId = some site)
    {x : ℕ × Option EffectiveDates × Bool} :
    x ∈ nodeRowsAfter rows e st ↔
      (∃ n ∈ st.nodes, n.siteId = site.id ∧ x = (n.setupId, n.effectivePeriod,
        (n.retire ((st.findInvalidatedBySiteId site.id).map (·.id))).invalidated)) ∨
      ∃ r ∈ st.visitedSetups (rows.arrange (st.findSetupsBySiteId site.id)),
        st.hasNode r = false ∧
          x = (r.id, EffectiveDates.reload (some (st.nodePeriod r.setup)), false) := by
  have hafter : nodeRowsAfter rows e st
      = ((st.updateNodes site.id (rows.arrange (st.findSetupsBySiteId site.id))).nodes.filter
          (·.siteId = site.id)).map fun n => (n.setupId, n.effectivePeriod, n.invalidated) := by
    rw [nodeRowsAfter, nodeService_eq h hsite]
    refine nodeRows_of_site ?_
    exact hsite
  rw [hafter]
  simp only [List.mem_map, List.mem_filter, decide_eq_true_eq, mem_nodes_updateNodes]
  constructor
  · rintro ⟨n, ⟨⟨m, hm, rfl⟩ | hn, hk⟩, rfl⟩
    · exact Or.inl ⟨m, hm, by simpa using hk, by simp⟩
    · obtain ⟨r, hr, hnot, i, -, rfl⟩ := mem_freshNodes hn
      exact Or.inr ⟨r, hr, decide_eq_false hnot, rfl⟩
  · rintro (⟨m, hm, hk, rfl⟩ | ⟨r, hr, hnot, rfl⟩)
    · exact ⟨_, ⟨Or.inl ⟨m, hm, rfl⟩, by simpa using hk⟩, by simp⟩
    · obtain ⟨i, -, hi⟩ := exists_mem_insertAll (Node.fresh site.id st) st.nextId
        (List.mem_filter.mpr ⟨hr, decide_eq_true (of_decide_eq_false hnot)⟩ :
          r ∈ st.withoutNode (st.visitedSetups (rows.arrange (st.findSetupsBySiteId site.id))))
      exact ⟨_, ⟨Or.inr hi, rfl⟩, rfl⟩

/-- A setup without a node gets one exactly when it is visited. -/
lemma mem_nodeRowsAfter_of_not_hasNode (h : NodeReady st)
    (hsite : st.findCorsSite e.fourCharacterId = some site) {s : SetupRow}
    (hs : s ∈ st.findSetupsBySiteId site.id) (hnot : st.hasNode s = false) :
    (s.id, EffectiveDates.reload (some (st.nodePeriod s.setup)), false) ∈ nodeRowsAfter rows e st ↔
      s ∈ st.visitedSetups (rows.arrange (st.findSetupsBySiteId site.id)) := by
  rw [mem_nodeRowsAfter h hsite]
  constructor
  · rintro (⟨n, hn, -, heq⟩ | ⟨r, hr, -, heq⟩)
    · have hid : s.id = n.setupId := congrArg Prod.fst heq
      exact absurd (List.mem_map.mpr ⟨n, hn, hid.symm⟩) (of_decide_eq_false hnot)
    · have hid : s.id = r.id := congrArg Prod.fst heq
      have hr' := (rows.arrange_perm _).subset (mem_visitedSetups hr).1
      rwa [List.inj_on_of_nodup_map h.setupKeys (mem_findSetupsBySiteId.mp hs).1
        (mem_findSetupsBySiteId.mp hr').1 hid]
  · intro hs'
    exact Or.inr ⟨s, hs', hnot, rfl⟩

end NodeRows

/-! ## When the order matters -/

/-- No complete valid setup of the site hides another one that has no node. -/
def HidesNoNewNode (st : Store) (fourCharacterId : String) : Prop :=
  ∀ site ∈ st.findCorsSite fourCharacterId, ∀ s ∈ st.findSetupsBySiteId site.id,
    ∀ t ∈ st.findSetupsBySiteId site.id, s ≠ t → st.isComplete s.setup = true →
      st.isComplete t.setup = true → st.hasNode s = false → st.hides t s = false

instance (st : Store) (fourCharacterId : String) : Decidable (HidesNoNewNode st fourCharacterId) :=
  inferInstanceAs (Decidable (∀ site ∈ st.findCorsSite fourCharacterId, _))

/-- A complete setup that comes first is visited; one right behind a setup that hides it is not. -/
lemma visitedSetups_first {st : Store} {k : ℕ} (h : NodeReady st) {s t : SetupRow}
    (hs : s ∈ st.findSetupsBySiteId k) (ht : t ∈ st.findSetupsBySiteId k) (hst : s ≠ t)
    (hcs : st.isComplete s.setup = true) (hct : st.isComplete t.setup = true)
    (hhides : st.hides t s = true) :
    s ∈ st.visitedSetups ((RowOrder.first s).arrange (st.findSetupsBySiteId k)) ∧
      s ∉ st.visitedSetups
        (((RowOrder.first t).after (RowOrder.first s)).arrange (st.findSetupsBySiteId k)) := by
  have hids : ((st.findSetupsBySiteId k).map (·.id)).Nodup :=
    h.setupKeys.sublist (List.filter_sublist.map _)
  have hnodup : (st.findSetupsBySiteId k).Nodup := List.Nodup.of_map _ hids
  rw [RowOrder.first_arrange hs, RowOrder.first_after_first_arrange hs ht hst]
  constructor
  · simp [Store.visitedSetups, Walk.visited, hcs]
  · intro hmem
    simp only [Store.visitedSetups, Walk.visited, Option.any_none, Bool.false_eq_true, if_false,
      hct, if_true, Option.any_some, hhides, List.mem_cons] at hmem
    rcases hmem with hmem | hmem
    · exact hst hmem
    · have hrest := (Walk.visited_sublist _ _).subset hmem
      exact (List.Nodup.not_mem_erase hnodup) (List.mem_of_mem_erase hrest)

/-- **When the order of the rows does not matter.**  All orders in which the query may list the
valid setups leave the same set of node rows for the site if and only if no complete setup hides
another one without a node. -/
theorem listing_order_irrelevant_iff {st : Store} (h : NodeReady st) (e : SiteUpdated) :
    (∀ o p : RowOrder, ∀ x, x ∈ nodeRowsAfter o e st ↔ x ∈ nodeRowsAfter p e st) ↔
      HidesNoNewNode st e.fourCharacterId := by
  constructor
  · intro hsame site hsite s hs t ht hst hcs hct hnot
    cases hhides : st.hides t s with
    | false => rfl
    | true =>
        obtain ⟨hvisited, hpassed⟩ := visitedSetups_first h hs ht hst hcs hct hhides
        have hrow := (mem_nodeRowsAfter_of_not_hasNode h hsite hs hnot).mpr hvisited
        have hrow' := (hsame _ ((RowOrder.first t).after (RowOrder.first s)) _).mp hrow
        exact absurd ((mem_nodeRowsAfter_of_not_hasNode h hsite hs hnot).mp hrow') hpassed
  · intro hhides o p x
    cases hsite : st.findCorsSite e.fourCharacterId with
    | none =>
        simp only [nodeRowsAfter, nodeService_of_none hsite]
    | some site =>
        -- whatever the order, every complete setup without a node is visited
        have hvisit : ∀ q : RowOrder, ∀ r, st.hasNode r = false →
            (r ∈ st.visitedSetups (q.arrange (st.findSetupsBySiteId site.id)) ↔
              r ∈ st.findSetupsBySiteId site.id ∧ st.isComplete r.setup = true) := by
          intro q r hnot
          have hperm := q.arrange_perm (st.findSetupsBySiteId site.id)
          constructor
          · intro hr
            exact ⟨hperm.subset (mem_visitedSetups hr).1, (mem_visitedSetups hr).2⟩
          · rintro ⟨hr, hc⟩
            have hids : ((q.arrange (st.findSetupsBySiteId site.id)).map (·.id)).Nodup :=
              (hperm.map _).nodup_iff.mpr (h.setupKeys.sublist (List.filter_sublist.map _))
            have hnodup : (q.arrange (st.findSetupsBySiteId site.id)).Pairwise (· ≠ ·) :=
              List.Nodup.of_map _ hids
            have hwalk : r ∈ st.visitedSetups (q.arrange (st.findSetupsBySiteId site.id)) ∨
                ∃ t ∈ st.visitedSetups (q.arrange (st.findSetupsBySiteId site.id)),
                  t ≠ r ∧ st.hides t r = true :=
              Walk.visited_or_hidden_of_start hnodup hc (hperm.symm.subset hr)
            rcases hwalk with hr' | ⟨t, ht, htr, hhidden⟩
            · exact hr'
            · have ht' := hperm.subset (mem_visitedSetups ht).1
              have hnotHidden :=
                hhides site hsite r hr t ht' htr.symm hc (mem_visitedSetups ht).2 hnot
              rw [hhidden] at hnotHidden
              cases hnotHidden
        rw [mem_nodeRowsAfter h hsite, mem_nodeRowsAfter h hsite]
        refine or_congr_right (exists_congr ?_)
        intro r
        by_cases hnot : st.hasNode r = false
        · rw [hvisit o r hnot, hvisit p r hnot]
        · simp [hnot]

/-- **The order does matter.**  Listed in the order of time, the two setups with a receiver and an
antenna get a node each; the other way round the node of the second covers the first. -/
theorem listing_order_matters_clock_removed :
    ∃ w, World.Reachable .ofContains (fun _ => True) w ∧
      ¬∀ x, x ∈ nodeRowsAfter .chronological ⟨"ADE1"⟩ w.store ↔
        x ∈ nodeRowsAfter .reversed ⟨"ADE1"⟩ w.store := by
  have hfirst : (8, SiteLog.sampleDates 0 (some 5), false) ∈ nodeRowsAfter .chronological ⟨"ADE1"⟩
      (World.performAll .ofContains (Step.received SiteLog.clockRemoved)).store := by
    decide +kernel
  have hlast : (8, SiteLog.sampleDates 0 (some 5), false) ∉ nodeRowsAfter .reversed ⟨"ADE1"⟩
      (World.performAll .ofContains (Step.received SiteLog.clockRemoved)).store := by
    decide +kernel
  exact ⟨_, World.reachable_performAll fun _ _ => trivial, fun hsame => hlast ((hsame _).mp hfirst)⟩

/-- With one complete setup there is nothing to hide, and its node is there in either order. -/
theorem listing_order_irrelevant_iff_clockless :
    (6, SiteLog.sampleDates 0 (some 20), false) ∈ nodeRowsAfter .asStored ⟨"ADE1"⟩
        (World.performAll .ofContains (Step.received SiteLog.clockless)).store ↔
      (6, SiteLog.sampleDates 0 (some 20), false) ∈ nodeRowsAfter .reversed ⟨"ADE1"⟩
        (World.performAll .ofContains (Step.received SiteLog.clockless)).store := by
  have hreach : World.Reachable .ofContains (fun _ => True)
      (World.performAll .ofContains (Step.received SiteLog.clockless)) :=
    World.reachable_performAll fun _ _ => trivial
  have hready := hreach.tracksNodes.nodes.toNodeReady
  exact (listing_order_irrelevant_iff hready ⟨"ADE1"⟩).mpr (by decide +kernel) _ _ _

end Geodesy
