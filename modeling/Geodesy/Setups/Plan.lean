import Geodesy.Library.Matched
import Geodesy.Setups.Placement
import Mathlib.Data.List.Dedup

/-!
# The plan of a log, and that `getSetups` realises it

What a site log says about setups, without any store: a time line of periods and, in each, the
items in effect (`SiteLog.plan`).  `getSetups_eq` connects it to the code.  The setups computed
realise the plan, entry by entry, and the store afterwards is the old one with every item placed as
often as there are setups for it (`SiteLog.placements`).
-/

namespace Geodesy

open CorsSiteService EquipmentLogItem

/-! ## The plan -/

/-- A setup as a log plans it. -/
structure PlannedSetup where
  period : EffectiveDates
  items : List EquipmentLogItem
  deriving DecidableEq, Repr

namespace SiteLog

/-- The dates of change of the log. -/
def dates (l : SiteLog) : List Instant := datesOfChange l.equipmentLogItems

/-- The periods between the dates of change. -/
def periods (l : SiteLog) : List EffectiveDates := setupPeriods l.dates

/-- The setups that the log calls for. -/
def plan (l : SiteLog) : List PlannedSetup :=
  l.periods.map fun p => ⟨p, l.equipmentLogItems.filter (·.inEffectDuring p)⟩

/-- The log has no item with an end and no start. -/
def Accepted (l : SiteLog) : Prop := ∀ x ∈ l.equipmentLogItems, x.Placeable

instance (l : SiteLog) : Decidable l.Accepted := inferInstanceAs (Decidable (∀ x ∈ _, _))

/-- The items in the order in which they are placed, each once for every setup it goes to. -/
def placements (l : SiteLog) : List EquipmentLogItem :=
  l.equipmentLogItems.flatMap fun x => List.replicate (l.periods.countP x.inEffectDuring) x

end SiteLog

lemma mem_datesOfChange {xs : List EquipmentLogItem} {d : Instant} :
    d ∈ datesOfChange xs ↔ ∃ x ∈ xs, x.effectiveFrom = some d ∨ x.effectiveTo = some d := by
  simp [datesOfChange]

/-- The sorted set is strictly increasing. -/
lemma pairwise_datesOfChange (xs : List EquipmentLogItem) :
    (datesOfChange xs).Pairwise (· < ·) := by
  have hsorted : (datesOfChange xs).Pairwise (· ≤ ·) := List.pairwise_insertionSort _ _
  have hnodup : (datesOfChange xs).Nodup :=
    (List.perm_insertionSort _ _).nodup_iff.mpr (List.nodup_dedup _)
  exact (hsorted.and hnodup).imp fun h => lt_of_le_of_ne h.1 h.2

/-- The dates of change do not depend on the order of the items. -/
lemma datesOfChange_congr {xs ys : List EquipmentLogItem} (h : xs.Perm ys) :
    datesOfChange xs = datesOfChange ys := by
  have hx := pairwise_datesOfChange xs
  have hy := pairwise_datesOfChange ys
  have hnodup : ∀ {ds : List Instant}, ds.Pairwise (· < ·) → ds.Nodup :=
    fun hds => hds.imp ne_of_lt
  refine List.Perm.eq_of_pairwise (fun a b _ _ hab hba => absurd hba hab.not_gt) hx hy ?_
  refine (List.perm_ext_iff_of_nodup (hnodup hx) (hnodup hy)).mpr ?_
  intro d
  simp only [mem_datesOfChange, h.mem_iff]

namespace SiteLog

lemma pairwise_dates (l : SiteLog) : l.dates.Pairwise (· < ·) := pairwise_datesOfChange _

lemma mem_dates {l : SiteLog} {d : Instant} :
    d ∈ l.dates ↔ ∃ x ∈ l.equipmentLogItems, x.effectiveFrom = some d ∨ x.effectiveTo = some d :=
  mem_datesOfChange

lemma Iterates.periods_eq {l l' : SiteLog} (h : l'.Iterates l) : l'.periods = l.periods :=
  congrArg setupPeriods (datesOfChange_congr h.perm_equipmentLogItems)

lemma Iterates.accepted_iff {l l' : SiteLog} (h : l'.Iterates l) : l'.Accepted ↔ l.Accepted := by
  simp only [Accepted, h.perm_equipmentLogItems.mem_iff]

@[simp] lemma map_period_plan (l : SiteLog) : l.plan.map (·.period) = l.periods := by
  simp [plan, Function.comp_def]

/-- The planned setup with the given period. -/
def planned (l : SiteLog) (period : EffectiveDates) : PlannedSetup :=
  ⟨period, l.equipmentLogItems.filter (·.inEffectDuring period)⟩

lemma plan_eq_map (l : SiteLog) : l.plan = l.periods.map l.planned := rfl

lemma mem_plan {l : SiteLog} {p : PlannedSetup} :
    p ∈ l.plan ↔ p.period ∈ l.periods ∧ p = l.planned p.period := by
  constructor
  · intro hp
    obtain ⟨q, hq, rfl⟩ := List.mem_map.mp hp
    exact ⟨hq, rfl⟩
  · rintro ⟨hp, heq⟩
    exact List.mem_map.mpr ⟨_, hp, heq.symm⟩

/-- An item is placed exactly when it is in effect during some setup. -/
lemma mem_placements {l : SiteLog} {x : EquipmentLogItem} :
    x ∈ l.placements ↔ x ∈ l.equipmentLogItems ∧ ∃ p ∈ l.periods, x.inEffectDuring p := by
  simp only [placements, List.mem_flatMap, List.mem_replicate, ne_eq, List.countP_eq_zero]
  constructor
  · rintro ⟨y, hy, hne, rfl⟩
    push Not at hne
    obtain ⟨p, hp, hxp⟩ := hne
    exact ⟨hy, p, hp, hxp⟩
  · rintro ⟨hx, p, hp, hxp⟩
    exact ⟨x, hx, fun h => h p hp hxp, rfl⟩

/-- What is planned is placed. -/
lemma mem_placements_of_plan {l : SiteLog} {p : PlannedSetup} (hp : p ∈ l.plan)
    {x : EquipmentLogItem} (hx : x ∈ p.items) : x ∈ l.placements := by
  obtain ⟨q, hq, rfl⟩ := List.mem_map.mp hp
  obtain ⟨hx, hxq⟩ := List.mem_filter.mp hx
  exact mem_placements.mpr ⟨hx, q, hq, hxq⟩

/-- What is placed is planned. -/
lemma exists_plan_of_mem_placements {l : SiteLog} {x : EquipmentLogItem} (hx : x ∈ l.placements) :
    ∃ p ∈ l.plan, x ∈ p.items := by
  obtain ⟨hx, p, hp, hxp⟩ := mem_placements.mp hx
  exact ⟨_, List.mem_map_of_mem hp, List.mem_filter.mpr ⟨hx, hxp⟩⟩

end SiteLog

/-! ## Placing many items -/

/-- The store after the items were placed one after the other. -/
def placeAll (xs : List EquipmentLogItem) (st : Store) : Store :=
  xs.foldl (fun st x => x.place st) st

@[simp] lemma placeAll_nil (st : Store) : placeAll [] st = st := rfl

@[simp] lemma placeAll_cons (x : EquipmentLogItem) (xs : List EquipmentLogItem) (st : Store) :
    placeAll (x :: xs) st = placeAll xs (x.place st) := rfl

lemma placeAll_append (xs ys : List EquipmentLogItem) (st : Store) :
    placeAll (xs ++ ys) st = placeAll ys (placeAll xs st) := List.foldl_append

lemma Registry.placeAll {st : Store} (h : Registry st) :
    ∀ xs : List EquipmentLogItem, Registry (placeAll xs st) := by
  intro xs
  induction xs generalizing st with
  | nil => exact h
  | cons x xs ih => exact ih (h.place x)

lemma extends_placeAll (xs : List EquipmentLogItem) (st : Store) :
    Extends st (placeAll xs st) := by
  induction xs generalizing st with
  | nil => exact Extends.refl st
  | cons x xs ih => exact (extends_place x st).trans (ih _)

/-- Placing items touches the equipment, the configurations and the sequence, nothing else. -/
lemma placeAll_frame (xs : List EquipmentLogItem) (st : Store) :
    placeAll xs st = { st with
      nextId := (placeAll xs st).nextId
      equipment := (placeAll xs st).equipment
      configurations := (placeAll xs st).configurations } := by
  induction xs generalizing st with
  | nil => rfl
  | cons x xs ih =>
      rw [placeAll_cons]
      conv_lhs => rw [ih]
      rfl

/-! ## Realising the plan -/

/-- The setup is the planned one: its entries represent the planned items, in the same order. -/
structure Realises (st : Store) (siteId : ℕ) (s : Setup) (p : PlannedSetup) : Prop where
  siteId_eq : s.siteId = siteId
  name_eq : s.name = gnssCorsSetupName
  period_eq : s.effectivePeriod = p.period
  represents : List.Forall₂ (Represents st) s.equipmentInUse p.items

lemma Realises.mono {st st' : Store} {siteId : ℕ} {s : Setup} {p : PlannedSetup}
    (h : Realises st siteId s p) (hext : Extends st st') : Realises st' siteId s p :=
  { h with represents := h.represents.imp fun _ _ hu => hu.mono hext }

/-- The planned setup with those of the items that are in effect. -/
def PlannedSetup.extend (p : PlannedSetup) (xs : List EquipmentLogItem) : PlannedSetup :=
  { p with items := p.items ++ xs.filter fun x => x.inEffectDuring p.period }

@[simp] lemma PlannedSetup.extend_nil (p : PlannedSetup) : p.extend [] = p := by
  simp [extend]

lemma PlannedSetup.extend_extend (p : PlannedSetup) (xs ys : List EquipmentLogItem) :
    (p.extend xs).extend ys = p.extend (xs ++ ys) := by
  simp [extend]

@[simp] lemma PlannedSetup.extend_period (p : PlannedSetup) (xs : List EquipmentLogItem) :
    (p.extend xs).period = p.period := rfl

/-- Placing one item realises the plans with that item added. -/
lemma addWhere_realises {siteId : ℕ} (x : EquipmentLogItem) :
    ∀ {setups : List Setup} {plans : List PlannedSetup} {st : Store}, Registry st →
      List.Forall₂ (Realises st siteId) setups plans → ∃ setups',
        addWhere x (fun s => x.inEffectDuring s.effectivePeriod) setups st
          = (setups', placeAll (List.replicate
              (setups.countP fun s => x.inEffectDuring s.effectivePeriod) x) st) ∧
        List.Forall₂ (Realises (placeAll (List.replicate
              (setups.countP fun s => x.inEffectDuring s.effectivePeriod) x) st) siteId)
          setups' (plans.map (·.extend [x]))
  | [], _, st, _, .nil => ⟨[], rfl, .nil⟩
  | s :: setups, p :: plans, st, hreg, .cons hs hrest => by
      by_cases hx : x.inEffectDuring s.effectivePeriod
      · have hrest' := hrest.imp fun _ _ h => h.mono (extends_place x st)
        obtain ⟨setups', hadd, hreal⟩ := addWhere_realises x (hreg.place x) hrest'
        refine ⟨{ s with equipmentInUse := s.equipmentInUse ++ [x.inUse st] } :: setups', ?_, ?_⟩
        · simp only [addWhere, hx, if_true, addEquipmentToSetup_eq hreg, hadd]
          simp [hx, List.replicate_succ]
        · rw [List.countP_cons_of_pos (by simpa using hx), List.replicate_succ, placeAll_cons]
          refine .cons ⟨hs.siteId_eq, hs.name_eq, hs.period_eq, ?_⟩ hreal
          have hitems : (p.extend [x]).items = p.items ++ [x] := by
            simp [PlannedSetup.extend, ← hs.period_eq, hx]
          rw [hitems]
          have hext := extends_placeAll (List.replicate (setups.countP fun s =>
            x.inEffectDuring s.effectivePeriod) x) (x.place st)
          refine List.rel_append (hs.represents.imp fun _ _ h => ?_) (.cons ?_ .nil)
          · exact h.mono ((extends_place x st).trans hext)
          · exact (represents_inUse x st).mono hext
      · obtain ⟨setups', hadd, hreal⟩ := addWhere_realises x hreg hrest
        refine ⟨s :: setups', ?_, ?_⟩
        · simp [addWhere, hx, hadd]
        · rw [List.countP_cons_of_neg (by simpa using hx)]
          have hx' : x.inEffectDuring p.period = false := by
            simpa [hs.period_eq] using hx
          have hitems : p.extend [x] = p := by
            simp [PlannedSetup.extend, hx']
          rw [List.map_cons, hitems]
          exact .cons (hs.mono (extends_placeAll _ st)) hreal

lemma realises_map_period {st : Store} {siteId : ℕ} {setups : List Setup}
    {plans : List PlannedSetup} (h : List.Forall₂ (Realises st siteId) setups plans) :
    setups.map (·.effectivePeriod) = plans.map (·.period) :=
  h.map_eq_map fun _ _ hs => hs.period_eq

/-- Placing all items realises the plans with all items added; an item that is not placeable
throws. -/
lemma addAllEquipment_realises {siteId : ℕ} {ds : List Instant} (hds : ds.Pairwise (· < ·)) :
    ∀ {xs : List EquipmentLogItem} {setups : List Setup} {plans : List PlannedSetup} {st : Store},
      Registry st → (∀ x ∈ xs, ∀ d, x.effectiveFrom = some d ∨ x.effectiveTo = some d → d ∈ ds) →
      (∀ x ∈ xs, x.Placeable) →
      plans.map (·.period) = setupPeriods ds → List.Forall₂ (Realises st siteId) setups plans →
      ∃ setups',
        addAllEquipment xs setups st
          = .ok (setups', placeAll (xs.flatMap fun x =>
              List.replicate ((setupPeriods ds).countP x.inEffectDuring) x) st) ∧
        List.Forall₂ (Realises (placeAll (xs.flatMap fun x =>
              List.replicate ((setupPeriods ds).countP x.inEffectDuring) x) st) siteId)
          setups' (plans.map (·.extend xs))
  | [], setups, plans, st, _, _, _, _, hreal => by
      refine ⟨setups, rfl, ?_⟩
      simpa using hreal
  | x :: xs, setups, plans, st, hreg, hdates, hplaceable, hper, hreal => by
      have hper' : setups.map (·.effectivePeriod) = setupPeriods ds :=
        (realises_map_period hreal).trans hper
      have hadd := addEquipment_eq (x := x) hds hper'
        (fun f hf => hdates x (by simp) f (Or.inl hf))
        (fun t ht => hdates x (by simp) t (Or.inr ht)) st
      rw [if_pos (hplaceable x (by simp))] at hadd
      obtain ⟨setups', hwhere, hreal'⟩ := addWhere_realises x hreg hreal
      have hcount : setups.countP (fun s => x.inEffectDuring s.effectivePeriod)
          = (setupPeriods ds).countP x.inEffectDuring := by
        rw [← hper', List.countP_map]
        rfl
      rw [hcount] at hwhere hreal'
      obtain ⟨setups'', hall, hreal''⟩ := addAllEquipment_realises hds
        (hreg.placeAll _) (fun y hy => hdates y (List.mem_cons_of_mem _ hy))
        (fun y hy => hplaceable y (List.mem_cons_of_mem _ hy))
        (by simpa [Function.comp_def] using hper) hreal'
      refine ⟨setups'', ?_, ?_⟩
      · simp [addAllEquipment, hadd, hwhere, hall, placeAll_append, bind, Except.bind]
      · rw [List.flatMap_cons, placeAll_append]
        simpa [PlannedSetup.extend_extend, Function.comp_def] using hreal''

/-- An item that is not placeable throws, whatever was placed before it and whatever the store
holds. -/
lemma addAllEquipment_of_not {ds : List Instant} (hds : ds.Pairwise (· < ·)) :
    ∀ {xs : List EquipmentLogItem} {setups : List Setup} (st : Store),
      (∀ x ∈ xs, ∀ d, x.effectiveFrom = some d ∨ x.effectiveTo = some d → d ∈ ds) →
      (¬∀ x ∈ xs, x.Placeable) → setups.map (·.effectivePeriod) = setupPeriods ds →
      addAllEquipment xs setups st = .error .indexOutOfBounds
  | [], _, _, _, hnot, _ => absurd (by simp) hnot
  | x :: xs, setups, st, hdates, hnot, hper => by
      have hadd := addEquipment_eq (x := x) hds hper
        (fun f hf => hdates x (by simp) f (Or.inl hf))
        (fun t ht => hdates x (by simp) t (Or.inr ht)) st
      by_cases hx : x.Placeable
      · have hxs : ¬∀ y ∈ xs, y.Placeable := fun h => hnot fun y hy => by
          rcases List.mem_cons.mp hy with rfl | hy
          · exact hx
          · exact h y hy
        set placed := addWhere x (fun s => x.inEffectDuring s.effectivePeriod) setups st
        have hper' : placed.1.map (·.effectivePeriod) = setupPeriods ds :=
          (map_period_addWhere x _ setups st).trans hper
        have ih := addAllEquipment_of_not hds placed.2
          (fun y hy => hdates y (List.mem_cons_of_mem _ hy)) hxs hper'
        simp [addAllEquipment, hadd, hx, ih, bind, Except.bind]
      · simp [addAllEquipment, hadd, hx, bind, Except.bind]

/-- The new setups before any equipment is added realise the periods of the plan. -/
lemma realises_periods (st : Store) (siteId : ℕ) (periods : List EffectiveDates) :
    List.Forall₂ (Realises st siteId)
      (periods.map fun p => (⟨siteId, gnssCorsSetupName, p, []⟩ : Setup))
      (periods.map fun p => ⟨p, []⟩) := by
  induction periods with
  | nil => exact .nil
  | cons p ps ih => exact .cons ⟨rfl, rfl, rfl, .nil⟩ ih

/-- **`getSetups` realises the plan of an accepted log**, placing its items. -/
theorem getSetups_eq {st : Store} (hreg : Registry st) (siteId : ℕ) {l : SiteLog}
    (hacc : l.Accepted) :
    ∃ N, getSetups siteId l st = .ok (N, placeAll l.placements st) ∧
      List.Forall₂ (Realises (placeAll l.placements st) siteId) N l.plan := by
  obtain ⟨N, hN, hreal⟩ := addAllEquipment_realises l.pairwise_dates hreg
    (fun x hx d hd => SiteLog.mem_dates.mpr ⟨x, hx, hd⟩) hacc (by simp [Function.comp_def])
    (realises_periods st siteId (setupPeriods l.dates))
  rw [List.map_map] at hreal
  exact ⟨N, hN, hreal⟩

/-- A log that is not accepted makes `getSetups` throw. -/
theorem getSetups_of_not (siteId : ℕ) {l : SiteLog} (st : Store) (hacc : ¬l.Accepted) :
    getSetups siteId l st = .error .indexOutOfBounds :=
  addAllEquipment_of_not l.pairwise_dates st
    (fun x hx _ hd => SiteLog.mem_dates.mpr ⟨x, hx, hd⟩) hacc
    (by simp [Function.comp_def, SiteLog.dates])

end Geodesy
