import Geodesy.Setups.Plan

/-!
# What each item contributes

`getSetups` item by item: a setup has the entries it had and then one for each item that is in
effect during its period, in order (`Receives`).  What is known of an entry and its item is a
relation `R` over the store, and `Kept` says what the induction over the two loops needs of it: it
holds of the entry that is being added, and adding other entries keeps it.  The store need not be
one that the system reaches, unless the relation asks for that.

* `getSetups_receives` — what the computed setups hold, for any log;
* `equipment_placed_exactly` — the items of well dated logs go to the setups within their period.
-/

namespace Geodesy

open CorsSiteService EquipmentLogItem

/-- Over stores that satisfy `I`, the relation `R` between entries and items that satisfy `X` holds
of every entry that is added, and goes on to hold. -/
structure Kept (I : Store → Prop) (X : EquipmentLogItem → Prop)
    (R : Store → EquipmentInUse → EquipmentLogItem → Prop) : Prop where
  invariant : ∀ {x st} (s : Setup), X x → I st → I (addEquipmentToSetup x s st).2
  added : ∀ {x st} (s : Setup), X x → I st → ∃ u,
    (addEquipmentToSetup x s st).1 = { s with equipmentInUse := s.equipmentInUse ++ [u] } ∧
      R (addEquipmentToSetup x s st).2 u x
  kept : ∀ {x y st u} (s : Setup), X x → X y → I st → R st u x →
    R (addEquipmentToSetup y s st).2 u x

/-- The second setup is the first with one more entry for each of the items in effect, in order. -/
def Receives (R : EquipmentInUse → EquipmentLogItem → Prop) (xs : List EquipmentLogItem)
    (s s' : Setup) : Prop :=
  ∃ us, s' = { s with equipmentInUse := s.equipmentInUse ++ us } ∧
    List.Forall₂ R us (xs.filter (·.inEffectDuring s.effectivePeriod))

section Receives

variable {I : Store → Prop} {X : EquipmentLogItem → Prop}
  {R : Store → EquipmentInUse → EquipmentLogItem → Prop}
  {Q Q' : EquipmentInUse → EquipmentLogItem → Prop} {xs ys : List EquipmentLogItem}
  {s s' s'' : Setup} {setups setups' setups'' : List Setup}

lemma Receives.effectivePeriod_eq (h : Receives Q xs s s') :
    s'.effectivePeriod = s.effectivePeriod := by
  obtain ⟨us, rfl, -⟩ := h
  rfl

lemma Receives.nil (s : Setup) : Receives Q [] s s := ⟨[], by simp, .nil⟩

/-- First some items, then others, which keep what is known of the first. -/
lemma Receives.append (h : Receives Q xs s s') (h' : Receives Q' ys s' s'')
    (hkept : ∀ u, ∀ x ∈ xs, Q u x → Q' u x) : Receives Q' (xs ++ ys) s s'' := by
  obtain ⟨us, rfl, hus⟩ := h
  obtain ⟨vs, rfl, hvs⟩ := h'
  refine ⟨us ++ vs, by simp, ?_⟩
  rw [List.filter_append]
  exact List.rel_append
    (hus.imp_of_mem fun u _ x hx => hkept u x (List.mem_of_mem_filter hx)) hvs

lemma receives_append (h : List.Forall₂ (Receives Q xs) setups setups')
    (h' : List.Forall₂ (Receives Q' ys) setups' setups'')
    (hkept : ∀ u, ∀ x ∈ xs, Q u x → Q' u x) :
    List.Forall₂ (Receives Q' (xs ++ ys)) setups setups'' := by
  induction h generalizing setups'' with
  | nil =>
      cases h'
      exact .nil
  | cons hs _ ih =>
      cases h' with
      | cons hs' hrest' => exact .cons (hs.append hs' hkept) (ih hrest')

lemma map_period_of_receives (h : List.Forall₂ (Receives Q xs) setups setups') :
    setups'.map (·.effectivePeriod) = setups.map (·.effectivePeriod) :=
  (h.map_eq_map fun _ _ hs => hs.effectivePeriod_eq.symm).symm

/-- Placing one item adds its entry to the setups during which it is in effect. -/
lemma Kept.addWhere (hR : Kept I X R) {x : EquipmentLogItem} (hx : X x) :
    ∀ (setups : List Setup) {st : Store}, I st →
      let placed := addWhere x (fun s => x.inEffectDuring s.effectivePeriod) setups st
      I placed.2 ∧ (∀ u y, X y → R st u y → R placed.2 u y) ∧
        List.Forall₂ (Receives (R placed.2) [x]) setups placed.1
  | [], st, hI => ⟨hI, fun _ _ _ h => h, .nil⟩
  | s :: setups, st, hI => by
      by_cases hin : x.inEffectDuring s.effectivePeriod = true
      · obtain ⟨u, hadd, hu⟩ := hR.added s hx hI
        obtain ⟨hI', hkept, hrest⟩ := hR.addWhere hx setups (hR.invariant s hx hI)
        simp only [Geodesy.addWhere, hin, if_true]
        refine ⟨hI', fun v y hy hv => hkept v y hy (hR.kept s hy hx hI hv), .cons ?_ hrest⟩
        refine ⟨[u], hadd, ?_⟩
        simpa [hin] using hkept u x hx hu
      · obtain ⟨hI', hkept, hrest⟩ := hR.addWhere hx setups hI
        simp only [Geodesy.addWhere, hin]
        refine ⟨hI', hkept, .cons ⟨[], by simp, ?_⟩ hrest⟩
        simp [hin]

/-- Placing all items adds the entries of each. -/
lemma Kept.addAllEquipment (hR : Kept I X R) {ds : List Instant} (hds : ds.Pairwise (· < ·)) :
    ∀ {xs : List EquipmentLogItem} {setups : List Setup} {st : Store}, I st →
      setups.map (·.effectivePeriod) = setupPeriods ds → (∀ x ∈ xs, X x ∧ x.Placeable) →
      (∀ x ∈ xs, ∀ d, x.effectiveFrom = some d ∨ x.effectiveTo = some d → d ∈ ds) →
      ∃ setups' st', CorsSiteService.addAllEquipment xs setups st = .ok (setups', st') ∧ I st' ∧
        (∀ u y, X y → R st u y → R st' u y) ∧
        List.Forall₂ (Receives (R st') xs) setups setups'
  | [], setups, st, hI, _, _, _ =>
      ⟨setups, st, rfl, hI, fun _ _ _ h => h, List.forall₂_same.mpr fun s _ => .nil s⟩
  | x :: xs, setups, st, hI, hper, hxs, hdates => by
      obtain ⟨hx, hplaceable⟩ := hxs x (by simp)
      have hadd := addEquipment_eq (x := x) hds hper (fun f hf => hdates x (by simp) f (.inl hf))
        (fun t ht => hdates x (by simp) t (.inr ht)) st
      rw [if_pos hplaceable] at hadd
      obtain ⟨hI', hkept, hreceives⟩ := hR.addWhere hx setups hI
      set placed := Geodesy.addWhere x (fun s => x.inEffectDuring s.effectivePeriod) setups st
      have hper' : placed.1.map (·.effectivePeriod) = setupPeriods ds :=
        (map_period_of_receives hreceives).trans hper
      obtain ⟨setups', st', hrun, hI'', hkept', hrest⟩ := hR.addAllEquipment hds hI' hper'
        (fun y hy => hxs y (List.mem_cons_of_mem _ hy))
        (fun y hy => hdates y (List.mem_cons_of_mem _ hy))
      refine ⟨setups', st', ?_, hI'', fun u y hy h => hkept' u y hy (hkept u y hy h), ?_⟩
      · simp [CorsSiteService.addAllEquipment, hadd, hrun, bind, Except.bind]
      · refine receives_append hreceives hrest fun u y hy h => hkept' u y ?_ h
        rw [List.mem_singleton.mp hy]
        exact hx

/-- What an empty setup received is all that it holds. -/
lemma Receives.of_empty (h : Receives Q xs s s') (hempty : s.equipmentInUse = []) :
    List.Forall₂ Q s'.equipmentInUse (xs.filter (·.inEffectDuring s'.effectivePeriod)) := by
  obtain ⟨us, rfl, hus⟩ := h
  simpa [hempty] using hus

end Receives

/-- The setups before any equipment is added. -/
def emptySetups (siteId : ℕ) (l : SiteLog) : List Setup :=
  l.periods.map fun p => ⟨siteId, gnssCorsSetupName, p, []⟩

@[simp] lemma map_period_emptySetups (siteId : ℕ) (l : SiteLog) :
    (emptySetups siteId l).map (·.effectivePeriod) = l.periods := by
  simp [emptySetups, Function.comp_def]

/-- **What `getSetups` computes for an accepted log.**  Its setups have the periods between the
dates of change, and each holds one entry for each item in effect, in order. -/
theorem getSetups_receives {I : Store → Prop} {X : EquipmentLogItem → Prop}
    {R : Store → EquipmentInUse → EquipmentLogItem → Prop} (hR : Kept I X R) (siteId : ℕ)
    {l : SiteLog} (st : Store) (hI : I st) (hX : ∀ x ∈ l.equipmentLogItems, X x)
    (hacc : l.Accepted) :
    ∃ N st', getSetups siteId l st = .ok (N, st') ∧ N.map (·.effectivePeriod) = l.periods ∧
      ∀ s ∈ N, List.Forall₂ (R st') s.equipmentInUse
        (l.equipmentLogItems.filter (·.inEffectDuring s.effectivePeriod)) := by
  obtain ⟨N, st', hrun, -, -, hreceives⟩ := hR.addAllEquipment l.pairwise_dates hI
    (map_period_emptySetups siteId l) (fun x hx => ⟨hX x hx, hacc x hx⟩)
    (fun x hx _ hd => SiteLog.mem_dates.mpr ⟨x, hx, hd⟩)
  refine ⟨N, st', hrun, ?_, ?_⟩
  · rw [map_period_of_receives hreceives, map_period_emptySetups]
  · intro s hs
    obtain ⟨s₀, hs₀, hreceived⟩ := hreceives.exists_left hs
    obtain ⟨p, -, rfl⟩ := List.mem_map.mp hs₀
    exact hreceived.of_empty rfl

/-- Adding the item to a setup, over some store, appends the entry. -/
def EquipmentLogItem.Contributes (x : EquipmentLogItem) (u : EquipmentInUse) : Prop :=
  ∃ s st, (addEquipmentToSetup x s st).1 = { s with equipmentInUse := s.equipmentInUse ++ [u] }

/-- Over any store an entry is contributed by its item. -/
lemma kept_contributes : Kept (fun _ => True) (fun _ => True) fun _ u x => x.Contributes u where
  invariant _ _ _ := trivial
  added s _ _ := ⟨_, rfl, s, _, rfl⟩
  kept _ _ _ _ h := h

/-! ## Items whose dates are in order -/

namespace EquipmentLogItem

/-- The item has no dates, or a start and either no end or one that is not earlier. -/
def DatedInOrder (x : EquipmentLogItem) : Prop :=
  x.Placeable ∧ ∀ f ∈ x.effectiveFrom, ∀ t ∈ x.effectiveTo, f ≤ t

/-- "Equipment log entries with empty periods are corrections." -/
def IsCorrection (x : EquipmentLogItem) : Prop :=
  x.effectiveFrom ≠ none ∧ x.effectiveFrom = x.effectiveTo

/-- The item is no correction and the period lies within its dates. -/
def GoesTo (x : EquipmentLogItem) (p : EffectiveDates) : Prop :=
  ¬ x.IsCorrection ∧
    EffectiveDates.toPeriod (some p) ≤ EffectiveDates.toPeriod x.effectiveDates

instance (x : EquipmentLogItem) : Decidable x.DatedInOrder := inferInstanceAs (Decidable (_ ∧ _))

instance (x : EquipmentLogItem) : Decidable x.IsCorrection := inferInstanceAs (Decidable (_ ∧ _))

instance (x : EquipmentLogItem) (p : EffectiveDates) : Decidable (x.GoesTo p) :=
  inferInstanceAs (Decidable (_ ∧ _))

/-- When its dates are in order, an item is in effect during the periods within them, unless it is a
correction. -/
lemma DatedInOrder.inEffectDuring_iff {x : EquipmentLogItem} (h : x.DatedInOrder)
    (p : EffectiveDates) : x.inEffectDuring p = true ↔ x.GoesTo p := by
  have hle : EffectiveDates.toPeriod (some p) ≤ EffectiveDates.toPeriod x.effectiveDates ↔
      EffectiveDates.lowBound x.effectiveFrom ≤ EffectiveDates.lowBound p.effectiveFrom ∧
        EffectiveDates.highBound p.effectiveTo ≤ EffectiveDates.highBound x.effectiveTo := Iff.rfl
  obtain ⟨hplaceable, horder⟩ := h
  unfold GoesTo IsCorrection
  rw [hle]
  cases hf : x.effectiveFrom with
  | none => simp [inEffectDuring, hf, hplaceable hf]
  | some f =>
      cases ht : x.effectiveTo with
      | none =>
          simp only [inEffectDuring, hf, ht, decide_eq_true_eq]
          simp
      | some t =>
          have hft : ¬ t < f := not_lt.mpr (horder f hf t ht)
          simp only [inEffectDuring, hf, ht, Bool.and_eq_true, Bool.or_eq_true, decide_eq_true_eq]
          simp [hft, and_assoc]

end EquipmentLogItem

/-- **Equipment is placed exactly.**  When the dates of the items that were not deleted are in
order, `getSetups` returns setups with the periods between the dates of change.  Their entries are,
in order and one for one, contributed by the items whose dates contain the setup's period and which
are no corrections, so an item without dates goes everywhere, and over tables in order each entry
represents its item. -/
theorem equipment_placed_exactly (siteId : ℕ) (l : SiteLog) (st : Store)
    (hl : ∀ x ∈ l.equipmentLogItems, x.DatedInOrder) :
    ∃ N st', getSetups siteId l st = .ok (N, st') ∧ N.map (·.effectivePeriod) = l.periods ∧
      (∀ s ∈ N, List.Forall₂ (fun u x => x.Contributes u) s.equipmentInUse
        (l.equipmentLogItems.filter fun x => x.GoesTo s.effectivePeriod)) ∧
      (Registry st → ∀ s ∈ N, List.Forall₂ (Represents st') s.equipmentInUse
        (l.equipmentLogItems.filter fun x => x.GoesTo s.effectivePeriod)) := by
  have hfilter : ∀ p, (l.equipmentLogItems.filter fun x => x.GoesTo p) =
      l.equipmentLogItems.filter (·.inEffectDuring p) := by
    intro p
    refine List.filter_congr ?_
    intro x hx
    rw [Bool.eq_iff_iff, decide_eq_true_iff, (hl x hx).inEffectDuring_iff p]
  have hacc : l.Accepted := fun x hx => (hl x hx).1
  obtain ⟨N, st', hrun, hperiods, hentries⟩ :=
    getSetups_receives kept_contributes siteId st trivial (fun _ _ => trivial) hacc
  refine ⟨N, st', hrun, hperiods, ?_, ?_⟩
  · intro s hs
    rw [hfilter]
    exact hentries s hs
  · intro hreg s hs
    obtain ⟨N', hrun', hreal⟩ := getSetups_eq hreg siteId hacc
    obtain ⟨rfl, rfl⟩ := Prod.mk.inj (Except.ok.inj (hrun.symm.trans hrun'))
    obtain ⟨p, hp, hsp⟩ := hreal.exists_right hs
    rw [hfilter, hsp.period_eq]
    have hitems := hsp.represents
    rwa [(SiteLog.mem_plan.mp hp).2] at hitems

/-- A receiver and an antenna without dates, and a clock for some time. -/
def SiteLog.undated : SiteLog :=
  sample "ADE1"
    [sampleReceiver (some "R1") none, sampleReceiver (some "R2") (sampleDates 3 (some 3))]
    [sampleAntenna (some ⟨none, none⟩)] [sampleFrequencyStandard "5 MHz" (sampleDates 0 (some 5))]

/-- The log of the sample calls for three setups. -/
theorem equipment_placed_exactly_undated :
    ∃ N st', getSetups 7 SiteLog.undated Store.empty = .ok (N, st') ∧
      N.map (·.effectivePeriod) = SiteLog.undated.periods ∧
      (∀ s ∈ N, List.Forall₂ (fun u x => x.Contributes u) s.equipmentInUse
        (SiteLog.undated.equipmentLogItems.filter fun x => x.GoesTo s.effectivePeriod)) ∧
      (Registry Store.empty → ∀ s ∈ N, List.Forall₂ (Represents st') s.equipmentInUse
        (SiteLog.undated.equipmentLogItems.filter fun x => x.GoesTo s.effectivePeriod)) :=
  equipment_placed_exactly 7 SiteLog.undated Store.empty (by decide)

end Geodesy
