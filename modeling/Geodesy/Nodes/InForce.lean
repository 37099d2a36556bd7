import Geodesy.Nodes.Overlap
import Geodesy.Setups.InForce

/-!
# A node at an instant

What the nodes are for: to say when a site can be used as a reference, which takes a receiver and an
antenna.  Right after an update in ascending order they answer for the log, at every instant from
the first date of change on: a valid node of the site is in force exactly when the log has a
receiver and an antenna in force (`nodes_answer_log`).  That the periods of nodes overlap, or that
one node stands for several setups, does not matter for it.
-/

namespace Geodesy

open EffectiveDates

/-- The node has begun and is not over. -/
def Node.InForceAt (n : Node) (t : Instant) : Prop := ∀ p ∈ n.effectivePeriod, p.InForceAt t

instance (n : Node) (t : Instant) : Decidable (n.InForceAt t) :=
  inferInstanceAs (Decidable (∀ p ∈ _, _))

/-- The instants of a period that may be missing. -/
lemma runsAt_toPeriod_iff (d : Option EffectiveDates) (t : Instant) :
    (toPeriod d).RunsAt t ↔ ∀ p ∈ d, p.InForceAt t := by
  rcases d with _ | ⟨_ | f, _ | e⟩ <;> simp [Period.RunsAt, toPeriod, InForceAt]

/-- An item is in force during its dates. -/
lemma EquipmentLogItem.inForceAt_of_runsAt {x : EquipmentLogItem} {t : Instant}
    (h : (toPeriod x.effectiveDates).RunsAt t) : x.InForceAt t := by
  rw [runsAt_toPeriod_iff] at h
  intro f hf
  obtain ⟨p, hp, hpf⟩ := Option.bind_eq_some_iff.mp hf
  obtain ⟨hfrom, hto⟩ := h p hp
  refine ⟨hfrom f hpf, fun e he => .inr (hto e ?_)⟩
  obtain ⟨q, hq, hqe⟩ := Option.bind_eq_some_iff.mp he
  rw [Option.mem_def.mp hp] at hq
  exact Option.some.inj hq ▸ hqe

/-- While the node of a complete setup is in force, so are a receiver and an antenna of it. -/
lemma PlannedSetup.exists_inForceAt {p : PlannedSetup} (hc : p.complete = true) {t : Instant}
    (ht : (toPeriod (some p.nodePeriod)).RunsAt t) {c : EquipmentClass}
    (hclass : c = .gnssReceiver ∨ c = .gnssAntenna) :
    ∃ x ∈ p.items, x.equipmentClass = c ∧ x.InForceAt t := by
  have hfirst : (p.first c).isSome = true := by
    simp only [PlannedSetup.complete, Bool.and_eq_true] at hc
    rcases hclass with rfl | rfl
    · exact hc.1
    · exact hc.2
  obtain ⟨x, hx⟩ := Option.isSome_iff_exists.mp hfirst
  have hsignificant : x ∈ p.significantItems := by
    refine List.mem_flatMap.mpr ⟨c, ?_, Option.mem_toList.mpr hx⟩
    rcases hclass with rfl | rfl <;> simp [NodeService.significantEquipment]
  obtain ⟨-, hle, -⟩ := p.nodePeriod_spec hc
  refine ⟨x, p.mem_significantItems hsignificant, by simpa using List.find?_some hx, ?_⟩
  exact x.inForceAt_of_runsAt (ht.mono (hle x hsignificant))

/-- A valid node of the site is in force when the log has a receiver and an antenna in force, and
only then. -/
def NodesAnswer (st : Store) (siteId : ℕ) (l : SiteLog) : Prop :=
  ∀ t items, l.equipmentAt t = some items →
    ((∃ n ∈ st.validNodes siteId, n.InForceAt t) ↔
      (∃ x ∈ items, x.equipmentClass = .gnssReceiver) ∧
        ∃ x ∈ items, x.equipmentClass = .gnssAntenna)

section Update

variable {w : World} {l : SiteLog} {k : ℕ} {rows : List SetupRow}

/-- After the update, a complete setup lies within a valid node. -/
lemma exists_validNode_of_complete (hnodes : NodeTable w.store)
    (hrows : rows.Perm (w.store.findSetupsBySiteId k)) (hreads : ReadsAs w.store l rows)
    (hdated : l.WellDated) {p : PlannedSetup} (hp : p ∈ l.plan) (hc : p.complete = true) :
    ∃ n ∈ (w.store.updateNodes k rows).validNodes k,
      toPeriod (some p.period) ≤ toPeriod n.effectivePeriod := by
  obtain ⟨q, hq, hle, -⟩ := SiteLog.covered hdated hp hc
  rw [← hreads.visited] at hq
  obtain ⟨r, hr, rfl⟩ := List.mem_map.mp hq
  have hr' := (mem_visitedSetups hr).1
  have hnoded := List.mem_map_of_mem
    (f := fun r : SetupRow => (r.id, reload (some (w.store.nodePeriod r.setup))))
    (mem_noded.mpr ⟨hr', .inr hr⟩)
  obtain ⟨n, hn, hpair⟩ := List.mem_map.mp
    ((validNodes_updateNodes hnodes hrows).symm.subset hnoded)
  refine ⟨n, hn, ?_⟩
  rw [(Prod.mk.inj hpair).2, toPeriod_reload, hreads.nodePeriod r hr']
  exact hle

/-- After the update, the period of a valid node is that of the node of a complete setup. -/
lemma exists_complete_of_validNode (hnodes : NodeTable w.store)
    (hrows : rows.Perm (w.store.findSetupsBySiteId k)) (hreads : ReadsAs w.store l rows)
    {n : Node} (hn : n ∈ (w.store.updateNodes k rows).validNodes k) :
    ∃ p ∈ l.plan, p.complete = true ∧
      toPeriod n.effectivePeriod = toPeriod (some p.nodePeriod) := by
  have hpair := (validNodes_updateNodes hnodes hrows).subset
    (List.mem_map_of_mem (f := fun n : Node => (n.setupId, n.effectivePeriod)) hn)
  obtain ⟨r, hr, heq⟩ := List.mem_map.mp hpair
  obtain ⟨hr, hnoded⟩ := mem_noded.mp hr
  have hcomplete : w.store.isComplete r.setup = true := by
    rcases hnoded with hnode | hvisited
    · exact hnodes.isComplete_of_hasNode (hrows.subset hr) hnode
    · exact (mem_visitedSetups hvisited).2
  refine ⟨_, hreads.plan ▸ List.mem_map_of_mem hr, (hreads.complete r hr).symm.trans hcomplete, ?_⟩
  rw [← (Prod.mk.inj heq).2, toPeriod_reload, hreads.nodePeriod r hr]

/-- **After the update the nodes answer for the log.** -/
lemma nodesAnswer_updateNodes (hnodes : NodeTable w.store)
    (hrows : rows.Perm (w.store.findSetupsBySiteId k)) (hreads : ReadsAs w.store l rows)
    (hdated : l.WellDated) : NodesAnswer (w.store.updateNodes k rows) k l := by
  intro t items hitems
  constructor
  · rintro ⟨n, hn, hnt⟩
    obtain ⟨p, hp, hc, hperiod⟩ := exists_complete_of_validNode hnodes hrows hreads hn
    have hrun : (toPeriod (some p.nodePeriod)).RunsAt t := by
      rw [← hperiod, runsAt_toPeriod_iff]
      exact hnt
    have hmem : ∀ x ∈ p.items, x.InForceAt t → x ∈ items := fun x hx hxt =>
      SiteLog.mem_equipmentAt hitems ((SiteLog.mem_items hp).mp hx).1 hxt
    obtain ⟨x, hx, hreceiver, hxt⟩ := p.exists_inForceAt hc hrun (.inl rfl)
    obtain ⟨y, hy, hantenna, hyt⟩ := p.exists_inForceAt hc hrun (.inr rfl)
    exact ⟨⟨x, hmem x hx hxt, hreceiver⟩, y, hmem y hy hyt, hantenna⟩
  · intro hboth
    -- the planned setup in force lists the items in force
    have hplan := l.plan_inForceAt t
    rw [hitems, Option.toList_some] at hplan
    obtain ⟨p, hp, rfl⟩ := List.map_eq_singleton_iff.mp hplan
    have hpmem := List.mem_filter.mp (hp ▸ List.mem_singleton_self p)
    obtain ⟨n, hn, hle⟩ := exists_validNode_of_complete hnodes hrows hreads hdated hpmem.1
      (PlannedSetup.complete_iff.mpr hboth)
    refine ⟨n, hn, (runsAt_toPeriod_iff _ t).mp (.mono ?_ hle)⟩
    rw [runsAt_toPeriod_iff]
    intro q hq
    exact Option.mem_some.mp hq ▸ of_decide_eq_true hpmem.2

end Update

/-- **The nodes answer for the log, at every instant.**  In a run of well dated logs, after an
update that lists the setups in ascending order, a valid node of the site is in force at an instant
from the first date of change on exactly when the log last handled for the site has a receiver and
an antenna in force then. -/
theorem nodes_answer_log {lib : ListUtils} {w : World}
    (hw : World.Reachable lib (Step.Uploads SiteLog.WellDated) w) {rows : RowOrder}
    (hasc : rows.Ascending) {e : SiteUpdated} {st' : Store}
    (hok : NodeService.handle rows e w.store = .ok st') :
    ∃ site l, w.store.findCorsSite e.fourCharacterId = some site ∧
      w.lastLog e.fourCharacterId = some l ∧
      ∀ t items, l.equipmentAt t = some items →
        ((∃ n ∈ st'.validNodes site.id, n.InForceAt t) ↔
          (∃ x ∈ items, x.equipmentClass = .gnssReceiver) ∧
            ∃ x ∈ items, x.equipmentClass = .gnssAntenna) := by
  have htracks := hw.tracksNodes
  obtain ⟨site, hsite, rfl⟩ := nodeService_inv htracks.nodes.toNodeReady hok
  obtain ⟨l, hl, hreads⟩ := htracks.readsAs hsite hasc
  have hdated : l.WellDated :=
    (hw.logsSatisfy wellDated_reload wellDated_iterates).last _ l hl
  have hperm := rows.arrange_perm (w.store.findSetupsBySiteId site.id)
  refine ⟨site, l, hsite, hl, ?_⟩
  exact nodesAnswer_updateNodes htracks.nodes hperm hreads hdated

/-- The nodes of the site whose clock was taken away. -/
def clockTakenNodes : Store :=
  (clockTaken.perform .ofContains (.siteUpdated .chronological ⟨"ADE1"⟩)).store

/-- While the receiver and the antenna stand at the site a node is in force, and then none. -/
theorem nodes_answer_log_clock_removed :
    ((clockTakenNodes.validNodes 1).any fun n => n.InForceAt (.ofEpochSecond 19)) = true ∧
      ((clockTakenNodes.validNodes 1).any fun n => n.InForceAt (.ofEpochSecond 20)) = false ∧
      ∃ site l, clockTaken.store.findCorsSite "ADE1" = some site ∧
        clockTaken.lastLog "ADE1" = some l ∧
        ∀ t items, l.equipmentAt t = some items →
          ((∃ n ∈ clockTakenNodes.validNodes site.id, n.InForceAt t) ↔
            (∃ x ∈ items, x.equipmentClass = .gnssReceiver) ∧
              ∃ x ∈ items, x.equipmentClass = .gnssAntenna) := by
  have hdated : SiteLog.clockRemoved.WellDated := by decide
  have hreach : World.Reachable .ofContains (Step.Uploads SiteLog.WellDated) clockTaken :=
    World.reachable_performAll fun a ha =>
      (Step.forall_receivedAndUpdated.mpr ⟨hdated, trivial, trivial⟩) a (List.mem_append_left _ ha)
  have hok : ((Step.siteUpdated .chronological ⟨"ADE1"⟩).run .ofContains
      clockTaken.store).isOk = true := by
    decide +kernel
  have hhandle : NodeService.handle .chronological ⟨"ADE1"⟩ clockTaken.store =
      .ok clockTakenNodes := World.run_eq_perform hok
  exact ⟨by decide +kernel, by decide +kernel,
    nodes_answer_log hreach RowOrder.chronological_ascending hhandle⟩

end Geodesy
