import Geodesy.Equipment.Registry

/-!
# Where `addEquipment` puts an item

The setups that `getSetups` creates are the spans between the dates of change
(`setupPeriods_eq`).  Over such a list the two searches of `addEquipment` find the setups that the
item is in effect during, so placing an item is a filter: `addEquipment_eq` replaces the indices by
the predicate `inEffectDuring`, which `addWhere` runs over the list.

The one branch a filter does not cover is an item with a `to` and no `from`.  The search for its
start runs off the list, so a log with such an item is not accepted.
-/

namespace Geodesy

open CorsSiteService

/-! ## The periods -/

lemma consecutivePeriods_cons_cons (d e : Instant) (ds : List Instant) :
    consecutivePeriods (d :: e :: ds) = ⟨some d, some e⟩ :: consecutivePeriods (e :: ds) := rfl

/-- The do-while loop and the open period that follows it produce the spans. -/
lemma consecutivePeriods_append : ∀ (d e : Instant) (ds : List Instant), ∃ l,
    (consecutivePeriods (d :: e :: ds)).getLast?.bind EffectiveDates.effectiveTo = some l ∧
    consecutivePeriods (d :: e :: ds) ++ [⟨some l, none⟩]
      = (spans (d :: e :: ds)).map fun p => ⟨some p.1, p.2⟩
  | d, e, [] => ⟨e, rfl, rfl⟩
  | d, e, f :: ds => by
      obtain ⟨l, hlast, happend⟩ := consecutivePeriods_append e f ds
      refine ⟨l, ?_, ?_⟩
      · rw [consecutivePeriods_cons_cons, List.getLast?_cons, ← hlast]
        cases hl : (consecutivePeriods (e :: f :: ds)).getLast? with
        | none => simp [hl] at hlast
        | some p => rfl
      · rw [consecutivePeriods_cons_cons, List.cons_append, happend]
        rfl

/-- **The setups span the time between the dates of change**, and the last one is open. -/
theorem setupPeriods_eq : ∀ ds : List Instant,
    setupPeriods ds = (spans ds).map fun p => ⟨some p.1, p.2⟩
  | [] => rfl
  | [_] => rfl
  | d :: e :: ds => by
      obtain ⟨l, hlast, happend⟩ := consecutivePeriods_append d e ds
      simp only [setupPeriods, hlast]
      exact happend

@[simp] lemma length_setupPeriods (ds : List Instant) : (setupPeriods ds).length = ds.length := by
  have h := congrArg List.length (map_fst_spans ds)
  simpa [setupPeriods_eq] using h

@[simp] lemma setupPeriods_nil : setupPeriods [] = [] := rfl

@[simp] lemma setupPeriods_cons_cons (d e : Instant) (ds : List Instant) :
    setupPeriods (d :: e :: ds) = ⟨some d, some e⟩ :: setupPeriods (e :: ds) := by
  simp [setupPeriods_eq]

/-- A setup starts at a date of change; where it ends, it ends later, at another one. -/
lemma mem_setupPeriods {ds : List Instant} (hds : ds.Pairwise (· < ·)) {p : EffectiveDates}
    (hp : p ∈ setupPeriods ds) :
    ∃ f ∈ ds, p.effectiveFrom = some f ∧ ∀ t, p.effectiveTo = some t → t ∈ ds ∧ f < t := by
  rw [setupPeriods_eq] at hp
  obtain ⟨q, hq, rfl⟩ := List.mem_map.mp hp
  obtain ⟨hfrom, hto⟩ := mem_spans hds hq
  exact ⟨q.1, hfrom, rfl, hto⟩

/-! ## Items in effect -/

/-- The item is in effect during the whole of the period.  The two special cases are the source's:
a correction, which starts when it ends, is never in effect, and an item that ends before it starts
is in effect from its start on. -/
def EquipmentLogItem.inEffectDuring (x : EquipmentLogItem) (p : EffectiveDates) : Bool :=
  match x.effectiveFrom, x.effectiveTo with
  | none, _ => true
  | some f, none =>
    decide (EffectiveDates.lowBound (some f) ≤ EffectiveDates.lowBound p.effectiveFrom)
  | some f, some t =>
    decide (f ≠ t) &&
    decide (EffectiveDates.lowBound (some f) ≤ EffectiveDates.lowBound p.effectiveFrom) &&
    (decide (t < f) ||
      decide (EffectiveDates.highBound p.effectiveTo ≤ EffectiveDates.highBound (some t)))

/-- The item has a start or has no end. -/
def EquipmentLogItem.Placeable (x : EquipmentLogItem) : Prop :=
  x.effectiveFrom = none → x.effectiveTo = none

instance (x : EquipmentLogItem) : Decidable x.Placeable := inferInstanceAs (Decidable (_ → _))

/-! ## The searches -/

/-- The search for a date of change stops at the setup that starts there. -/
lemma searchFrom_eq {f : Instant} : ∀ {ds : List Instant} {setups : List Setup},
    ds.Pairwise (· < ·) → setups.map (·.effectivePeriod) = setupPeriods ds → f ∈ ds →
    ∃ i, searchFrom (some f) setups = .ok i ∧
      (∀ s ∈ setups.take i, ∃ g < f, s.effectivePeriod.effectiveFrom = some g) ∧
      (∀ s ∈ setups.drop i, ∃ g ≥ f, s.effectivePeriod.effectiveFrom = some g) ∧
      (setups.drop i).map (·.effectivePeriod) = setupPeriods (ds.drop i) ∧
      (ds.drop i).head? = some f
  | [], _, _, _, hf => by simp at hf
  | d :: ds, [], _, hper, _ => by
      have hlen := congrArg List.length hper
      simp at hlen
  | d :: ds, s :: setups, hds, hper, hf => by
      have hfroms : ∀ r ∈ s :: setups, ∃ g ≥ d, r.effectivePeriod.effectiveFrom = some g := by
        intro r hr
        have hmem := List.mem_map_of_mem (f := fun s : Setup => s.effectivePeriod) hr
        rw [hper] at hmem
        obtain ⟨g, hg, hgfrom, -⟩ := mem_setupPeriods hds hmem
        refine ⟨g, ?_, hgfrom⟩
        rcases List.mem_cons.mp hg with rfl | hg
        · exact le_rfl
        · exact (List.rel_of_pairwise_cons hds hg).le
      have hs : s.effectivePeriod.effectiveFrom = some d ∧
          setups.map (·.effectivePeriod) = setupPeriods ds := by
        cases ds with
        | nil =>
            simp only [List.map_cons, setupPeriods] at hper
            obtain ⟨h1, h2⟩ := List.cons.inj hper
            exact ⟨by rw [h1], h2⟩
        | cons e ds =>
            rw [setupPeriods_cons_cons, List.map_cons] at hper
            obtain ⟨h1, h2⟩ := List.cons.inj hper
            exact ⟨by rw [h1], h2⟩
      obtain ⟨hsfrom, hrest⟩ := hs
      by_cases hdf : d = f
      · subst hdf
        exact ⟨0, by simp [searchFrom, hsfrom], by simp, hfroms, hper, rfl⟩
      · have hf' : f ∈ ds := (List.mem_cons.mp hf).resolve_left (Ne.symm hdf)
        have hlt : d < f := List.rel_of_pairwise_cons hds hf'
        obtain ⟨i, hi, htake, hdrop, hmap, hhead⟩ := searchFrom_eq hds.of_cons hrest hf'
        refine ⟨i + 1, by simp [searchFrom, hsfrom, hdf, hi, Except.map], ?_, hdrop, hmap, hhead⟩
        intro r hr
        rcases List.mem_cons.mp hr with rfl | hr
        · exact ⟨d, hlt, hsfrom⟩
        · exact htake r hr

/-- A null from is not found. -/
lemma searchFrom_none : ∀ setups : List Setup, searchFrom none setups = .error .indexOutOfBounds
  | [] => rfl
  | s :: setups => by
      have h := searchFrom_none setups
      by_cases hs : s.effectivePeriod.effectiveFrom = none <;>
        simp [searchFrom, hs, h, Except.map]

/-- The search for an end that lies behind stops at the setup that ends there. -/
lemma searchTo_eq {t : Instant} : ∀ {d : Instant} {ds : List Instant} {setups : List Setup},
    (d :: ds).Pairwise (· < ·) → setups.map (·.effectivePeriod) = setupPeriods (d :: ds) → t ∈ ds →
    ∃ k, searchTo t setups = .ok k ∧
      (∀ s ∈ setups.take k, ∃ u ≤ t, s.effectivePeriod.effectiveTo = some u) ∧
      (∀ s ∈ setups.drop k, ∀ u, s.effectivePeriod.effectiveTo = some u → t < u)
  | _, [], _, _, _, ht => by simp at ht
  | d, e :: ds, [], _, hper, _ => by
      have hlen := congrArg List.length hper
      simp at hlen
  | d, e :: ds, s :: setups, hds, hper, ht => by
      rw [setupPeriods_cons_cons, List.map_cons] at hper
      obtain ⟨hs, hrest⟩ := List.cons.inj hper
      have hsto : s.effectivePeriod.effectiveTo = some e := by rw [hs]
      by_cases het : e = t
      · subst het
        refine ⟨1, by simp [searchTo, hsto], by simpa using ⟨e, le_rfl, hsto⟩, ?_⟩
        intro r hr u hu
        have hmem := List.mem_map_of_mem (f := fun s : Setup => s.effectivePeriod)
          (show r ∈ setups by simpa using hr)
        rw [hrest] at hmem
        obtain ⟨g, hg, -, hgto⟩ := mem_setupPeriods hds.of_cons hmem
        have hgu := (hgto u hu).2
        rcases List.mem_cons.mp hg with rfl | hg
        · exact hgu
        · exact (List.rel_of_pairwise_cons hds.of_cons hg).trans hgu
      · have ht' : t ∈ ds := (List.mem_cons.mp ht).resolve_left (Ne.symm het)
        have hlt : e < t := List.rel_of_pairwise_cons hds.of_cons ht'
        obtain ⟨k, hk, htake, hdrop⟩ := searchTo_eq hds.of_cons hrest ht'
        refine ⟨k + 1, by simp [searchTo, hsto, het, hk, Except.map], ?_, hdrop⟩
        intro r hr
        rcases List.mem_cons.mp hr with rfl | hr
        · exact ⟨e, hlt.le, hsto⟩
        · exact htake r hr

/-- The search for an end that lies ahead of every setup passes all of them. -/
lemma searchTo_eq_length {t : Instant} : ∀ {d : Instant} {ds : List Instant} {setups : List Setup},
    (d :: ds).Pairwise (· < ·) → setups.map (·.effectivePeriod) = setupPeriods (d :: ds) → t ≤ d →
    searchTo t setups = .ok setups.length
  | d, ds, [], _, hper, _ => by
      have hlen := congrArg List.length hper
      simp at hlen
  | d, [], s :: setups, _, hper, _ => by
      obtain ⟨hs, hrest⟩ := List.cons.inj (by simpa [setupPeriods] using hper :
        s.effectivePeriod :: setups.map (·.effectivePeriod) = [⟨some d, none⟩])
      obtain rfl := List.map_eq_nil_iff.mp hrest
      simp [searchTo, hs]
  | d, e :: ds, s :: setups, hds, hper, ht => by
      rw [setupPeriods_cons_cons, List.map_cons] at hper
      obtain ⟨hs, hrest⟩ := List.cons.inj hper
      have hsto : s.effectivePeriod.effectiveTo = some e := by rw [hs]
      have hlt : t < e := ht.trans_lt (List.rel_of_pairwise_cons hds (by simp))
      have ih := searchTo_eq_length hds.of_cons hrest hlt.le
      simp [searchTo, hsto, hlt.ne', ih, Except.map]

/-! ## Placing by predicate -/

/-- The item is added to each setup that satisfies the predicate, in order. -/
def addWhere (x : EquipmentLogItem) (q : Setup → Bool) : List Setup → Store → List Setup × Store
  | [], st => ([], st)
  | s :: rest, st =>
    let (s', st') := if q s then addEquipmentToSetup x s st else (s, st)
    let (rest', st'') := addWhere x q rest st'
    (s' :: rest', st'')

/-- Setups that do not satisfy the predicate are left alone. -/
lemma addWhere_of_not (x : EquipmentLogItem) {q : Setup → Bool} :
    ∀ (setups : List Setup) (st : Store), (∀ s ∈ setups, q s = false) →
      addWhere x q setups st = (setups, st)
  | [], _, _ => rfl
  | s :: rest, st, h => by
      have hs : q s = false := h s (by simp)
      have ih := addWhere_of_not x rest st fun r hr => h r (List.mem_cons_of_mem _ hr)
      simp [addWhere, hs, ih]

/-- Where all setups satisfy the predicate, this is the loop of the source. -/
lemma addWhere_of_all (x : EquipmentLogItem) {q : Setup → Bool} :
    ∀ (setups : List Setup) (st : Store), (∀ s ∈ setups, q s = true) →
      addWhere x q setups st = addEquipmentToSetups x setups st
  | [], _, _ => rfl
  | s :: rest, st, h => by
      have hs : q s = true := h s (by simp)
      have ih := addWhere_of_all x rest (addEquipmentToSetup x s st).2
        fun r hr => h r (List.mem_cons_of_mem _ hr)
      simp only [addWhere, addEquipmentToSetups, hs, if_true, ih]

/-- Adding equipment leaves the periods of the setups alone. -/
@[simp] lemma map_period_addWhere (x : EquipmentLogItem) (q : Setup → Bool) :
    ∀ (setups : List Setup) (st : Store),
      (addWhere x q setups st).1.map (·.effectivePeriod) = setups.map (·.effectivePeriod)
  | [], _ => rfl
  | s :: rest, st => by
      have hperiod : (addEquipmentToSetup x s st).1.effectivePeriod = s.effectivePeriod := rfl
      cases hs : q s <;> simp [addWhere, hs, map_period_addWhere x q rest, hperiod]

lemma addWhere_append (x : EquipmentLogItem) (q : Setup → Bool) :
    ∀ (as bs : List Setup) (st : Store),
      addWhere x q (as ++ bs) st =
        let (as', st') := addWhere x q as st
        let (bs', st'') := addWhere x q bs st'
        (as' ++ bs', st'')
  | [], _, _ => rfl
  | a :: as, bs, st => by
      simp only [List.cons_append, addWhere, addWhere_append x q as bs]

/-- Between the indices `i` and `j`, and only there, the setups satisfy the predicate. -/
structure Stretch (q : Setup → Bool) (setups : List Setup) (i j : ℕ) : Prop where
  le : i ≤ j
  before : ∀ s ∈ setups.take i, q s = false
  inside : ∀ s ∈ (setups.take j).drop i, q s = true
  behind : ∀ s ∈ setups.drop j, q s = false

/-- Adding to a stretch is adding by the predicate. -/
lemma Stretch.addWhere_eq {q : Setup → Bool} {setups : List Setup} {i j : ℕ}
    (h : Stretch q setups i j) (x : EquipmentLogItem) (st : Store) :
    addWhere x q setups st =
      let (placed, st') := addEquipmentToSetups x ((setups.take j).drop i) st
      (setups.take i ++ placed ++ setups.drop j, st') := by
  have hsplit : setups = setups.take i ++ ((setups.take j).drop i ++ setups.drop j) := by
    have hij := List.take_append_drop i (setups.take j)
    rw [List.take_take, min_eq_left h.le] at hij
    rw [← List.append_assoc, hij, List.take_append_drop]
  conv_lhs => rw [hsplit]
  simp only [addWhere_append, addWhere_of_not x _ _ h.before, addWhere_of_all x _ _ h.inside,
    addWhere_of_not x _ _ h.behind, List.append_assoc]

lemma stretch_all {q : Setup → Bool} {setups : List Setup} (h : ∀ s ∈ setups, q s = true) :
    Stretch q setups 0 setups.length :=
  ⟨Nat.zero_le _, by simp, by simpa using h, by simp⟩

lemma stretch_none {q : Setup → Bool} {setups : List Setup} (h : ∀ s ∈ setups, q s = false) :
    Stretch q setups 0 0 :=
  ⟨le_rfl, by simp, by simp, by simpa using h⟩

section Placement

variable {ds : List Instant} {setups : List Setup} {x : EquipmentLogItem}

/-- What the search for the start leaves behind, as far as the item is concerned: up to the index
it is not in effect, and from the index on the setups start no earlier than the item. -/
lemma placement_start (hds : ds.Pairwise (· < ·))
    (hper : setups.map (·.effectivePeriod) = setupPeriods ds) {f : Instant}
    (hxf : x.effectiveFrom = some f) (hf : f ∈ ds) :
    ∃ i ≤ setups.length, searchFrom (some f) setups = .ok i ∧
      (∀ s ∈ setups.take i, x.inEffectDuring s.effectivePeriod = false) ∧
      (∀ s ∈ setups.drop i, ∃ g ≥ f, s.effectivePeriod.effectiveFrom = some g) ∧
      ∃ ds', ds.drop i = f :: ds' ∧
        (setups.drop i).map (·.effectivePeriod) = setupPeriods (f :: ds') := by
  obtain ⟨i, hi, htake, hdrop, hmap, hhead⟩ := searchFrom_eq hds hper hf
  obtain ⟨ds', hds'⟩ := List.head?_eq_some_iff.mp hhead
  refine ⟨i, ?_, hi, ?_, hdrop, ds', hds', hds' ▸ hmap⟩
  · by_contra hlt
    have hlen := congrArg List.length hper
    simp only [List.length_map, length_setupPeriods] at hlen
    rw [List.drop_eq_nil_of_le (by omega)] at hds'
    exact List.cons_ne_nil _ _ hds'.symm
  · intro s hs
    obtain ⟨g, hg, hsg⟩ := htake s hs
    cases hxt : x.effectiveTo <;> simp [EquipmentLogItem.inEffectDuring, hxf, hxt, hsg, hg]

/-- An item without an end is placed from its start on. -/
lemma placement_open (hds : ds.Pairwise (· < ·))
    (hper : setups.map (·.effectivePeriod) = setupPeriods ds) {f : Instant} (hf : f ∈ ds)
    (hx : x.effectiveDates = some ⟨some f, none⟩) :
    ∃ i j, placement x setups = .ok (i, j) ∧
      Stretch (fun s => x.inEffectDuring s.effectivePeriod) setups i j := by
  have hxf : x.effectiveFrom = some f := by simp [EquipmentLogItem.effectiveFrom, hx]
  have hxt : x.effectiveTo = none := by simp [EquipmentLogItem.effectiveTo, hx]
  obtain ⟨i, hile, hi, hbefore, hdrop, -⟩ := placement_start hds hper hxf hf
  refine ⟨i, setups.length, ?_, hile, hbefore, ?_, by simp⟩
  · simp [placement, hx, hi, bind, Except.bind, pure, Except.pure]
  · intro s hs
    obtain ⟨g, hg, hsg⟩ := hdrop s (by simpa using hs)
    simpa [EquipmentLogItem.inEffectDuring, hxf, hxt, hsg] using hg

/-- An item that ends after it starts is placed up to the setup that ends with it. -/
lemma placement_bounded (hds : ds.Pairwise (· < ·))
    (hper : setups.map (·.effectivePeriod) = setupPeriods ds) {f t : Instant} (hf : f ∈ ds)
    (ht : t ∈ ds) (hft : f < t) (hx : x.effectiveDates = some ⟨some f, some t⟩) :
    ∃ i j, placement x setups = .ok (i, j) ∧
      Stretch (fun s => x.inEffectDuring s.effectivePeriod) setups i j := by
  have hxf : x.effectiveFrom = some f := by simp [EquipmentLogItem.effectiveFrom, hx]
  have hxt : x.effectiveTo = some t := by simp [EquipmentLogItem.effectiveTo, hx]
  obtain ⟨i, hile, hi, hbefore, hdrop, ds', hds', hmap⟩ := placement_start hds hper hxf hf
  have hchain : (f :: ds').Pairwise (· < ·) := hds' ▸ hds.drop
  have ht' : t ∈ ds' := by
    rw [← List.take_append_drop i ds, hds'] at ht hds
    rcases List.mem_append.mp ht with h | h
    · exact absurd hft ((List.pairwise_append.mp hds).2.2 t h f (by simp)).not_gt
    · exact (List.mem_cons.mp h).resolve_left hft.ne'
  obtain ⟨k, hk, htake, hbehind⟩ := searchTo_eq hchain hmap ht'
  refine ⟨i, i + k, ?_, Nat.le_add_right i k, hbefore, ?_, ?_⟩
  · simp [placement, hx, hi, hk, hft.ne, bind, Except.bind, pure, Except.pure]
  · intro s hs
    rw [List.drop_take, Nat.add_sub_cancel_left] at hs
    obtain ⟨g, hg, hsg⟩ := hdrop s (List.mem_of_mem_take hs)
    obtain ⟨u, hu, hsu⟩ := htake s hs
    simp only [EquipmentLogItem.inEffectDuring, hxf, hxt, hsg, hsu]
    simp [hft.ne, hg, hu]
  · intro s hs
    rw [← List.drop_drop] at hs
    simp only [EquipmentLogItem.inEffectDuring, hxf, hxt]
    cases hsu : s.effectivePeriod.effectiveTo with
    | none => simp [hft.not_gt]
    | some u => simp [hft.not_gt, hbehind s hs u hsu]

/-- An item that ends before it starts is placed from its start on: the search for its end passes
every setup. -/
lemma placement_reversed (hds : ds.Pairwise (· < ·))
    (hper : setups.map (·.effectivePeriod) = setupPeriods ds) {f t : Instant} (hf : f ∈ ds)
    (htf : t < f) (hx : x.effectiveDates = some ⟨some f, some t⟩) :
    ∃ i j, placement x setups = .ok (i, j) ∧
      Stretch (fun s => x.inEffectDuring s.effectivePeriod) setups i j := by
  have hxf : x.effectiveFrom = some f := by simp [EquipmentLogItem.effectiveFrom, hx]
  have hxt : x.effectiveTo = some t := by simp [EquipmentLogItem.effectiveTo, hx]
  obtain ⟨i, hile, hi, hbefore, hdrop, ds', hds', hmap⟩ := placement_start hds hper hxf hf
  have hk := searchTo_eq_length (hds' ▸ hds.drop : (f :: ds').Pairwise (· < ·)) hmap htf.le
  refine ⟨i, setups.length, ?_, hile, hbefore, ?_, by simp⟩
  · simp [placement, hx, hi, hk, htf.ne', bind, Except.bind, pure, Except.pure,
      Nat.add_sub_cancel' hile]
  · intro s hs
    obtain ⟨g, hg, hsg⟩ := hdrop s (by simpa using hs)
    simp only [EquipmentLogItem.inEffectDuring, hxf, hxt, hsg]
    simp [htf.ne', hg, htf]

/-- The indices that `placement` finds bound the setups during which the item is in effect. -/
lemma placement_eq (hds : ds.Pairwise (· < ·))
    (hper : setups.map (·.effectivePeriod) = setupPeriods ds)
    (hfrom : ∀ f, x.effectiveFrom = some f → f ∈ ds) (hto : ∀ t, x.effectiveTo = some t → t ∈ ds)
    (hx : x.Placeable) :
    ∃ i j, placement x setups = .ok (i, j) ∧
      Stretch (fun s => x.inEffectDuring s.effectivePeriod) setups i j := by
  simp only [EquipmentLogItem.Placeable, EquipmentLogItem.effectiveFrom,
    EquipmentLogItem.effectiveTo] at hfrom hto hx
  rcases hdates : x.effectiveDates with _ | ⟨_ | f, _ | t⟩
  · refine ⟨0, setups.length, by simp [placement, hdates], stretch_all ?_⟩
    intro s _
    simp [EquipmentLogItem.inEffectDuring, EquipmentLogItem.effectiveFrom, hdates]
  · refine ⟨0, setups.length, by simp [placement, hdates], stretch_all ?_⟩
    intro s _
    simp [EquipmentLogItem.inEffectDuring, EquipmentLogItem.effectiveFrom, hdates]
  · simp [hdates] at hx
  · exact placement_open hds hper (hfrom f (by simp [hdates])) hdates
  · have hf := hfrom f (by simp [hdates])
    have ht := hto t (by simp [hdates])
    rcases lt_trichotomy f t with hft | rfl | htf
    · exact placement_bounded hds hper hf ht hft hdates
    · -- a correction
      refine ⟨0, 0, by simp [placement, hdates], stretch_none ?_⟩
      intro s _
      simp [EquipmentLogItem.inEffectDuring, EquipmentLogItem.effectiveFrom,
        EquipmentLogItem.effectiveTo, hdates]
    · exact placement_reversed hds hper hf htf hdates

/-- An item with an end and no start is not found. -/
lemma placement_of_not (hx : ¬x.Placeable) :
    placement x setups = .error .indexOutOfBounds := by
  simp only [EquipmentLogItem.Placeable, EquipmentLogItem.effectiveFrom,
    EquipmentLogItem.effectiveTo] at hx
  rcases hdates : x.effectiveDates with _ | ⟨_ | f, _ | t⟩ <;> simp [hdates] at hx
  simp [placement, hdates, searchFrom_none, bind, Except.bind]

/-- **Placing an item is a filter.**  The setups span the dates of change and the item's dates are
among these: the item goes to the setups during which it is in effect, and a missing start with an
end present throws. -/
theorem addEquipment_eq (hds : ds.Pairwise (· < ·))
    (hper : setups.map (·.effectivePeriod) = setupPeriods ds)
    (hfrom : ∀ f, x.effectiveFrom = some f → f ∈ ds) (hto : ∀ t, x.effectiveTo = some t → t ∈ ds)
    (st : Store) :
    addEquipment x setups st =
      if x.Placeable then .ok (addWhere x (fun s => x.inEffectDuring s.effectivePeriod) setups st)
      else .error .indexOutOfBounds := by
  split_ifs with hx
  · obtain ⟨i, j, hplace, hstretch⟩ := placement_eq hds hper hfrom hto hx
    rw [hstretch.addWhere_eq]
    simp [addEquipment, hplace, bind, Except.bind, pure, Except.pure]
  · simp [addEquipment, placement_of_not hx, bind, Except.bind]

end Placement

end Geodesy
