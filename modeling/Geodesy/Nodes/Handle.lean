import Geodesy.Nodes.Plan

/-!
# What updating the nodes does

`NodeService.handle`, stated exactly for a store whose node tables are in order (`NodeReady`).  The
nodes of invalidated setups are invalidated, and each setup that the walk over the valid ones visits
gets a node if it has none (`nodeService_eq`).  Nothing else happens, and nothing is thrown.
-/

namespace Geodesy

open Rows NodeService

/-! ## What the loop reads of a setup -/

namespace Store

variable {st : Store} {s : Setup}

/-- The class of the equipment of an entry. -/
def classOf (st : Store) (u : EquipmentInUse) : Option EquipmentClass :=
  (st.findEquipment u.equipmentId).map (·.equipmentClass)

/-- The first entry of the class. -/
def firstInUse (st : Store) (s : Setup) (equipmentClass : EquipmentClass) : Option EquipmentInUse :=
  s.equipmentInUse.find? fun u => st.classOf u = some equipmentClass

/-- The setup has a receiver and an antenna in use. -/
def isComplete (st : Store) (s : Setup) : Bool :=
  (st.firstInUse s .gnssReceiver).isSome && (st.firstInUse s .gnssAntenna).isSome

/-- The dates that decide about the node. -/
def significantPeriods (st : Store) (s : Setup) : List (Option EffectiveDates) :=
  significantEquipment.flatMap fun c => (st.firstInUse s c).toList.map (·.period)

/-- The period of the node of a complete setup. -/
def nodePeriod (st : Store) (s : Setup) : EffectiveDates :=
  (lcd (st.significantPeriods s)).getD ⟨none, none⟩

/-- Every entry of the setup has its equipment row. -/
def Furnished (st : Store) (s : Setup) : Prop :=
  ∀ u ∈ s.equipmentInUse, ∃ e, st.findEquipment u.equipmentId = some e

/-- What a visited setup makes the loop pass over. -/
def hides (st : Store) (t r : SetupRow) : Bool :=
  passesOver (st.nodePeriod t.setup) r.setup.effectivePeriod.effectiveFrom

/-- The rows for which the loop computes a node period, in order. -/
def visitedSetups (st : Store) (rows : List SetupRow) : List SetupRow :=
  Walk.visited (fun r => st.isComplete r.setup) st.hides none rows

end Store

/-- A monadic filter whose predicate never throws is a filter. -/
lemma filterM_ok {α : Type} {ε : Type} {p : α → Except ε Bool} {q : α → Bool} {xs : List α}
    (h : ∀ x ∈ xs, p x = .ok (q x)) : xs.filterM p = .ok (xs.filter q) := by
  have haux : ∀ (xs acc : List α), (∀ x ∈ xs, p x = .ok (q x)) →
      List.filterAuxM p xs acc = .ok ((xs.filter q).reverse ++ acc) := by
    intro xs
    induction xs with
    | nil =>
        intro acc _
        rfl
    | cons x xs ih =>
        intro acc h
        have hx := h x (by simp)
        have hxs := fun acc => ih acc fun y hy => h y (List.mem_cons_of_mem _ hy)
        cases hq : q x <;> simp [List.filterAuxM, hx, hxs, hq, bind, Except.bind]
  simp [List.filterM, haux xs [] h, bind, Except.bind, pure, Except.pure]

section Furnished

variable {st : Store} {s : Setup} (h : st.Furnished s)
include h

lemma getEquipmentInUse_eq (c : EquipmentClass) :
    getEquipmentInUse st s c = .ok (s.equipmentInUse.filter fun u => st.classOf u = some c) := by
  refine filterM_ok ?_
  intro u hu
  obtain ⟨e, he⟩ := h u hu
  simp [Store.classOf, he]

lemma getOneEquipmentInUse_eq (c : EquipmentClass) :
    getOneEquipmentInUse st s c = .ok (st.firstInUse s c) := by
  simp [getOneEquipmentInUse, getEquipmentInUse_eq h, Store.firstInUse, bind, Except.bind, pure,
    Except.pure]

lemma isCompleteCorsSetup_eq : isCompleteCorsSetup st s = .ok (st.isComplete s) := by
  simp only [isCompleteCorsSetup, getOneEquipmentInUse_eq h, Store.isComplete, bind, Except.bind,
    pure, Except.pure]
  cases st.firstInUse s .gnssReceiver <;> rfl

lemma significantDates_eq : ∀ cs : List EquipmentClass,
    significantDates st s cs = .ok (cs.flatMap fun c => (st.firstInUse s c).toList.map (·.period))
  | [] => rfl
  | c :: cs => by
      simp [significantDates, getOneEquipmentInUse_eq h, significantDates_eq cs, bind, Except.bind,
        pure, Except.pure]

lemma nodePeriodOf_eq (hc : st.isComplete s = true) :
    nodePeriodOf st s = .ok (st.nodePeriod s) := by
  have hne : st.significantPeriods s ≠ [] := by
    simp only [Store.isComplete, Bool.and_eq_true, Option.isSome_iff_exists] at hc
    obtain ⟨⟨u, hu⟩, -⟩ := hc
    simp [Store.significantPeriods, significantEquipment, hu]
  obtain ⟨p, hp, -⟩ := lcd_spec hne
  have hdates : significantDates st s significantEquipment = .ok (st.significantPeriods s) :=
    significantDates_eq h _
  simp [nodePeriodOf, hdates, Store.nodePeriod, hp, bind, Except.bind, pure, Except.pure]

end Furnished

/-! ## Invalidating nodes -/

/-- The node tables are in order: keys are allocated, no setup has two nodes, and every setup has a
start and the equipment rows of its entries. -/
structure NodeReady (st : Store) : Prop where
  nodeKeys : Allocated (st.nodes.map (·.id)) st.nextId
  unique : (st.nodes.map (·.setupId)).Nodup
  setupKeys : (st.setups.map (·.id)).Nodup
  furnished : ∀ r ∈ st.setups, st.Furnished r.setup
  started : ∀ r ∈ st.setups, r.setup.effectivePeriod.effectiveFrom ≠ none

/-- A node after the nodes of the given setups were invalidated. -/
def Node.retire (setupIds : List ℕ) (n : Node) : Node :=
  if n.setupId ∈ setupIds then { n with invalidated := true } else n

namespace Node

variable (ids : List ℕ) (n : Node)

@[simp] lemma retire_id : (n.retire ids).id = n.id := by
  unfold retire; split_ifs <;> rfl

@[simp] lemma retire_siteId : (n.retire ids).siteId = n.siteId := by
  unfold retire; split_ifs <;> rfl

@[simp] lemma retire_setupId : (n.retire ids).setupId = n.setupId := by
  unfold retire; split_ifs <;> rfl

@[simp] lemma retire_effectivePeriod : (n.retire ids).effectivePeriod = n.effectivePeriod := by
  unfold retire; split_ifs <;> rfl

lemma retire_invalidated :
    (n.retire ids).invalidated = (n.invalidated || decide (n.setupId ∈ ids)) := by
  unfold retire
  split_ifs with h <;> simp [h]

/-- The row of a new node. -/
def fresh (siteId : ℕ) (st : Store) (id : ℕ) (r : SetupRow) : Node :=
  ⟨id, siteId, r.id, EffectiveDates.reload (some (st.nodePeriod r.setup)), false⟩

end Node

/-- With one node a setup at most, the query for it finds that node. -/
lemma findBySetupId_eq {st : Store} (h : (st.nodes.map (·.setupId)).Nodup) (id : ℕ) :
    st.findBySetupId id = .ok (st.nodes.find? fun n => n.setupId = id) := by
  rw [← List.head?_filter, Store.findBySetupId]
  rcases hfound : st.nodes.filter (fun n => decide (n.setupId = id)) with _ | ⟨a, _ | ⟨b, rest⟩⟩
  · simp only [hfound, List.head?_nil]
  · simp only [hfound, List.head?_cons]
  · have hsub := ((List.filter_sublist (p := fun n : Node => decide (n.setupId = id))
      (l := st.nodes)).map (·.setupId))
    have hmem : ∀ n ∈ a :: b :: rest, n.setupId = id := by
      intro n hn
      rw [← hfound] at hn
      simpa using List.of_mem_filter hn
    rw [hfound] at hsub
    have hnodup := h.sublist hsub
    simp [hmem a (by simp), hmem b (by simp)] at hnodup

/-- The stream over the invalidated setups is a map over the nodes. -/
lemma invalidateNodes_eq : ∀ (rows : List SetupRow) (st : Store),
    (st.nodes.map (·.id)).Nodup → (st.nodes.map (·.setupId)).Nodup →
    invalidateNodes rows st = .ok { st with nodes := st.nodes.map (·.retire (rows.map (·.id))) }
  | [], st, _, _ => by
      have hself : st.nodes.map (·.retire []) = st.nodes :=
        (List.map_congr_left fun n _ => by simp [Node.retire]).trans (List.map_id _)
      simp [invalidateNodes, hself, pure, Except.pure]
  | s :: rest, st, hid, hsetup => by
      cases hfind : st.nodes.find? fun n => decide (n.setupId = s.id) with
      | none =>
          have hnone : ∀ n ∈ st.nodes, n.setupId ≠ s.id := by simpa using hfind
          have hmap : st.nodes.map (·.retire ((s :: rest).map (·.id)))
              = st.nodes.map (·.retire (rest.map (·.id))) := by
            refine List.map_congr_left ?_
            intro n hn
            simp [Node.retire, hnone n hn]
          rw [hmap, invalidateNodes, findBySetupId_eq hsetup, hfind]
          simp only [bind, Except.bind]
          exact invalidateNodes_eq rest st hid hsetup
      | some n =>
          have hn : n ∈ st.nodes := List.mem_of_find?_eq_some hfind
          have hns : n.setupId = s.id := by simpa using List.find?_some hfind
          -- the node saved by key is the node of the setup
          have hsave : ∀ m ∈ st.nodes,
              (if m.id = n.id then { n with invalidated := true } else m) = m.retire [s.id] := by
            intro m hm
            by_cases hmn : m = n
            · subst hmn
              simp [Node.retire, hns]
            · have h1 : m.id ≠ n.id := fun h => hmn (List.inj_on_of_nodup_map hid hm hn h)
              have h2 : m.setupId ≠ s.id := fun h =>
                hmn (List.inj_on_of_nodup_map hsetup hm hn (h.trans hns.symm))
              simp [Node.retire, h1, h2]
          rw [invalidateNodes, findBySetupId_eq hsetup, hfind]
          simp only [bind, Except.bind, List.map_congr_left hsave]
          have ih := invalidateNodes_eq rest
            { st with nodes := st.nodes.map (·.retire [s.id]) }
            (by simpa [Function.comp_def] using hid) (by simpa [Function.comp_def] using hsetup)
          rw [ih]
          simp only [List.map_map]
          congr 2
          refine List.map_congr_left ?_
          intro m _
          by_cases h1 : m.setupId = s.id <;> by_cases h2 : m.setupId ∈ rest.map (·.id) <;>
            simp_all [Node.retire]

/-! ## Creating nodes -/

/-- The setups among the given ones that have no node yet. -/
def Store.withoutNode (st : Store) (rows : List SetupRow) : List SetupRow :=
  rows.filter fun r => r.id ∉ st.nodes.map (·.setupId)

/-- The store with one new node for each of the setups. -/
def Store.addNodes (st : Store) (siteId : ℕ) (rows : List SetupRow) : Store :=
  { st with
    nextId := st.nextId + rows.length
    nodes := st.nodes ++ insertAll (Node.fresh siteId st) st.nextId rows }

section AddNodes

variable (st : Store) (k : ℕ)

@[simp] lemma addNodes_nil : st.addNodes k [] = st := by
  simp [Store.addNodes, insertAll]

lemma addNodes_cons (s : SetupRow) (rest : List SetupRow) :
    (st.addNodes k [s]).addNodes k rest = st.addNodes k (s :: rest) := by
  have hfresh : Node.fresh k (st.addNodes k [s]) = Node.fresh k st := rfl
  simp only [Store.addNodes] at hfresh ⊢
  simp only [hfresh]
  simp only [insertAll, List.length_cons, List.length_nil, List.append_assoc]
  congr 1
  omega

/-- New nodes of other setups do not matter to which setups have none. -/
lemma withoutNode_addNodes {s : SetupRow} {rows : List SetupRow} (h : ∀ r ∈ rows, r.id ≠ s.id) :
    (st.addNodes k [s]).withoutNode rows = st.withoutNode rows := by
  refine List.filter_congr ?_
  intro r hr
  simp [Store.addNodes, insertAll, Node.fresh, h r hr]

lemma withoutNode_cons_of_mem {s : SetupRow} (h : s.id ∈ st.nodes.map (·.setupId))
    (rows : List SetupRow) : st.withoutNode (s :: rows) = st.withoutNode rows := by
  rw [Store.withoutNode, List.filter_cons_of_neg (by simpa using h)]
  rfl

lemma withoutNode_cons_of_notMem {s : SetupRow} (h : s.id ∉ st.nodes.map (·.setupId))
    (rows : List SetupRow) : st.withoutNode (s :: rows) = s :: st.withoutNode rows := by
  rw [Store.withoutNode, List.filter_cons_of_pos (by simpa using h)]
  rfl

/-- A setup without a node gets one only. -/
lemma nodup_setupId_addNodes {s : SetupRow} (h : s.id ∉ st.nodes.map (·.setupId))
    (hunique : (st.nodes.map (·.setupId)).Nodup) :
    ((st.addNodes k [s]).nodes.map (·.setupId)).Nodup := by
  simp only [Store.addNodes, List.map_append]
  refine List.nodup_append'.mpr ⟨hunique, List.nodup_singleton _, ?_⟩
  simpa [insertAll, Node.fresh] using h

end AddNodes

section Loop

variable {st : Store} {k : ℕ} {s : SetupRow} {rest : List SetupRow}

/-- An open period ends the loop. -/
lemma createNodes_stop {p : EffectiveDates} (hp : p.effectiveTo = none) :
    createNodes k (s :: rest) (some p) st = .ok st := by
  simp [createNodes, decision, hp, bind, Except.bind, pure, Except.pure]

/-- A setup that starts before the remembered period ends is skipped. -/
lemma createNodes_skip {p : EffectiveDates} {t f : Instant} (hp : p.effectiveTo = some t)
    (hf : s.setup.effectivePeriod.effectiveFrom = some f) (h : t.compareTo f = 1) :
    createNodes k (s :: rest) (some p) st = createNodes k rest (some p) st := by
  rw [createNodes]
  simp [decision, hp, hf, h, bind, Except.bind]

/-- Where the loop goes on with a setup, a complete one is remembered and has a node afterwards. -/
lemma createNodes_proceed {p : Option EffectiveDates}
    (hdecision : decision p s.setup.effectivePeriod.effectiveFrom = .ok .proceed)
    (hs : st.Furnished s.setup) (hunique : (st.nodes.map (·.setupId)).Nodup) :
    createNodes k (s :: rest) p st =
      if st.isComplete s.setup then
        createNodes k rest (some (st.nodePeriod s.setup)) (st.addNodes k (st.withoutNode [s]))
      else createNodes k rest p st := by
  rw [createNodes]
  simp only [hdecision, isCompleteCorsSetup_eq hs, bind, Except.bind]
  split_ifs with hc
  · simp only [nodePeriodOf_eq hs hc, findBySetupId_eq hunique]
    cases hfind : st.nodes.find? fun n => decide (n.setupId = s.id) with
    | some n =>
        have hmem : s.id ∈ st.nodes.map (·.setupId) :=
          List.mem_map.mpr
            ⟨n, List.mem_of_find?_eq_some hfind, by simpa using List.find?_some hfind⟩
        have hnil : st.withoutNode [] = [] := rfl
        rw [withoutNode_cons_of_mem st hmem, hnil, addNodes_nil]
    | none =>
        have hmem : s.id ∉ st.nodes.map (·.setupId) := by simpa using hfind
        rw [withoutNode_cons_of_notMem st hmem]
        rfl
  · rfl

end Loop

/-- **The loop is a walk.**  It adds a node for each visited setup that has none. -/
theorem createNodes_eq (k : ℕ) : ∀ {rows : List SetupRow} (last : Option SetupRow) (st : Store),
    (rows.map (·.id)).Nodup → (∀ r ∈ rows, st.Furnished r.setup) →
    (∀ r ∈ rows, r.setup.effectivePeriod.effectiveFrom ≠ none) →
    (st.nodes.map (·.setupId)).Nodup →
    createNodes k rows (last.map fun t => st.nodePeriod t.setup) st = .ok (st.addNodes k
      (st.withoutNode (Walk.visited (fun r => st.isComplete r.setup) st.hides last rows)))
  | [], last, st, _, _, _, _ => by
      simp [createNodes, Store.withoutNode, pure, Except.pure]
  | s :: rest, last, st, hids, hfurnished, hstarted, hunique => by
      obtain ⟨f, hf⟩ := Option.ne_none_iff_exists'.mp (hstarted s (by simp))
      obtain ⟨hsrest, hrest⟩ := List.nodup_cons.mp (List.map_cons ▸ hids)
      have hfurnished' := fun r hr => hfurnished r (List.mem_cons_of_mem s hr)
      have hstarted' := fun r hr => hstarted r (List.mem_cons_of_mem s hr)
      -- one iteration that goes on with the setup, and the rest by induction
      have hproceed : decision (last.map fun t => st.nodePeriod t.setup) (some f) = .ok .proceed →
          last.any (st.hides · s) = false →
          createNodes k (s :: rest) (last.map fun t => st.nodePeriod t.setup) st
            = .ok (st.addNodes k (st.withoutNode
                (Walk.visited (fun r => st.isComplete r.setup) st.hides last (s :: rest)))) := by
        intro hdecision hhides
        rw [createNodes_proceed (hf ▸ hdecision) (hfurnished s (by simp)) hunique, Walk.visited,
          hhides]
        simp only [Bool.false_eq_true, if_false]
        split_ifs with hc
        · -- the setups behind `s` are others
          have hothers : ∀ r ∈ Walk.visited (fun r => st.isComplete r.setup) st.hides (some s) rest,
              r.id ≠ s.id := fun r hr heq =>
            hsrest (heq ▸ List.mem_map_of_mem ((Walk.visited_sublist _ _).subset hr))
          have hnil : st.withoutNode [] = [] := rfl
          by_cases hmem : s.id ∈ st.nodes.map (·.setupId)
          · have ih := createNodes_eq k (some s) st hrest hfurnished' hstarted' hunique
            rw [withoutNode_cons_of_mem st hmem, withoutNode_cons_of_mem st hmem, hnil,
              addNodes_nil]
            exact ih
          · have ih := createNodes_eq k (some s) (st.addNodes k [s]) hrest hfurnished' hstarted'
              (nodup_setupId_addNodes st k hmem hunique)
            rw [withoutNode_cons_of_notMem st hmem, withoutNode_cons_of_notMem st hmem, hnil,
              ← addNodes_cons st k s (st.withoutNode _), ← withoutNode_addNodes st k hothers]
            exact ih
        · exact createNodes_eq k last st hrest hfurnished' hstarted' hunique
      cases last with
      | none => exact hproceed rfl rfl
      | some t =>
          cases hto : (st.nodePeriod t.setup).effectiveTo with
          | none =>
              have hall : ∀ r ∈ s :: rest, st.hides t r = true := fun r _ => by
                simp [Store.hides, passesOver, hto]
              rw [Walk.visited_of_hides_all hall, Option.map_some, createNodes_stop hto]
              simp [Store.withoutNode]
          | some u =>
              have hhides : st.hides t s = decide (u.compareTo f = 1) := by
                simp [Store.hides, hf, passesOver_some hto]
              by_cases hcmp : u.compareTo f = 1
              · rw [Option.map_some, createNodes_skip hto hf hcmp, Walk.visited]
                simp only [Option.any_some, hhides, hcmp, decide_true, if_true]
                exact createNodes_eq k (some t) st hrest hfurnished' hstarted' hunique
              · exact hproceed (by simp [decision, hto, hcmp]) (by simp [hhides, hcmp])

/-! ## The whole handler -/

/-- The store after the nodes of a site's invalidated setups were invalidated. -/
def Store.retireNodes (st : Store) (siteId : ℕ) : Store :=
  { st with
    nodes := st.nodes.map (Node.retire ((st.findInvalidatedBySiteId siteId).map (·.id))) }

/-- The store after the nodes of a site were updated, its valid setups listed as `rows`. -/
def Store.updateNodes (st : Store) (siteId : ℕ) (rows : List SetupRow) : Store :=
  (st.retireNodes siteId).addNodes siteId (st.withoutNode (st.visitedSetups rows))

/-- **Updating the nodes of a site**, exactly. -/
theorem nodeService_eq {rows : RowOrder} {e : SiteUpdated} {st : Store} (h : NodeReady st)
    {site : CorsSite} (hsite : st.findCorsSite e.fourCharacterId = some site) :
    NodeService.handle rows e st = .ok
      { st.updateNodes site.id (rows.arrange (st.findSetupsBySiteId site.id)) with
        handled := st.handled ++ [.siteUpdated e] } := by
  have hinvalidated := rows.arrange_perm (st.findInvalidatedBySiteId site.id)
  have hvalid := rows.arrange_perm (st.findSetupsBySiteId site.id)
  -- the order in which the invalidated setups are listed does not matter
  have hretire : invalidateNodes (rows.arrange (st.findInvalidatedBySiteId site.id)) st
      = .ok (st.retireNodes site.id) := by
    rw [invalidateNodes_eq _ st h.nodeKeys.nodup h.unique, Store.retireNodes]
    congr 2
    refine List.map_congr_left ?_
    intro n _
    simp only [Node.retire, (hinvalidated.map _).mem_iff]
  have hmem : ∀ r ∈ rows.arrange (st.findSetupsBySiteId site.id), r ∈ st.setups :=
    fun r hr => (mem_findSetupsBySiteId.mp (hvalid.subset hr)).1
  have hids : ((rows.arrange (st.findSetupsBySiteId site.id)).map (·.id)).Nodup :=
    (hvalid.map _).nodup_iff.mpr (h.setupKeys.sublist (List.filter_sublist.map _))
  have hcreate := createNodes_eq site.id none (st.retireNodes site.id) hids
    (fun r hr => h.furnished r (hmem r hr)) (fun r hr => h.started r (hmem r hr))
    (by simpa [Store.retireNodes, Function.comp_def] using h.unique)
  have hwithout : ∀ vs, (st.retireNodes site.id).withoutNode vs = st.withoutNode vs := fun vs => by
    simp [Store.withoutNode, Store.retireNodes, Function.comp_def]
  rw [hwithout] at hcreate
  simp only [NodeService.handle, hsite, hretire, bind, Except.bind]
  have hsetups : (st.retireNodes site.id).findSetupsBySiteId site.id
      = st.findSetupsBySiteId site.id := rfl
  simp only [Option.map_none] at hcreate
  rw [hsetups, hcreate]
  rfl

/-- The handler throws for an unknown site. -/
lemma nodeService_of_none {rows : RowOrder} {e : SiteUpdated} {st : Store}
    (hsite : st.findCorsSite e.fourCharacterId = none) :
    NodeService.handle rows e st = .error .nullPointer := by
  simp [NodeService.handle, hsite, throw, throwThe, MonadExceptOf.throw]

end Geodesy
