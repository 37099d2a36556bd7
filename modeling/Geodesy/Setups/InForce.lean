import Geodesy.Setups.Timeline

/-!
# A site at an instant

What the setups are for: to say of any instant which equipment stood at the site.  The abstract
model asks the log.  An item is in force from its start up to its end (`inForceAt`), and from the
first date of change on the site has the items in force, in the order of the log
(`SiteLog.equipmentAt`).  The setups answer the same: at every instant, at most one valid setup of
the site is in force, and its entries represent those items one for one (`setups_answer_log`).
-/

namespace Geodesy

open CorsSiteService

/-! ## The abstract model -/

/-- The period has begun and is not over. -/
def EffectiveDates.InForceAt (p : EffectiveDates) (t : Instant) : Prop :=
  (∀ f ∈ p.effectiveFrom, f ≤ t) ∧ ∀ e ∈ p.effectiveTo, t < e

instance (p : EffectiveDates) (t : Instant) : Decidable (p.InForceAt t) :=
  inferInstanceAs (Decidable (_ ∧ _))

/-- The item stands at the site at the instant.  An item that ends before it starts never ends, as
in `addEquipment`. -/
def EquipmentLogItem.InForceAt (x : EquipmentLogItem) (t : Instant) : Prop :=
  ∀ f ∈ x.effectiveFrom, f ≤ t ∧ ∀ e ∈ x.effectiveTo, e < f ∨ t < e

instance (x : EquipmentLogItem) (t : Instant) : Decidable (x.InForceAt t) :=
  inferInstanceAs (Decidable (∀ f ∈ _, _))

/-- The equipment at the site at the instant, if the site has begun. -/
def SiteLog.equipmentAt (l : SiteLog) (t : Instant) : Option (List EquipmentLogItem) :=
  if ∃ d ∈ l.dates, d ≤ t then some (l.equipmentLogItems.filter (·.InForceAt t)) else none

/-- What is in force at the instant is at the site. -/
lemma SiteLog.mem_equipmentAt {l : SiteLog} {t : Instant} {items : List EquipmentLogItem}
    (h : l.equipmentAt t = some items) {x : EquipmentLogItem} (hx : x ∈ l.equipmentLogItems)
    (ht : x.InForceAt t) : x ∈ items := by
  unfold SiteLog.equipmentAt at h
  split_ifs at h
  rw [← Option.some.inj h]
  exact List.mem_filter.mpr ⟨hx, decide_eq_true ht⟩

/-! ## The plan answers as the log does -/

section Periods

variable {ds : List Instant} {p : EffectiveDates} {t d : Instant}

/-- A date that is not later than an instant of a period is not later than its start. -/
lemma lowBound_le_iff (hds : ds.Pairwise (· < ·)) (hp : p ∈ setupPeriods ds) (ht : p.InForceAt t)
    (hd : d ∈ ds) :
    EffectiveDates.lowBound (some d) ≤ EffectiveDates.lowBound p.effectiveFrom ↔ d ≤ t := by
  rw [setupPeriods_eq] at hp
  obtain ⟨q, hq, rfl⟩ := List.mem_map.mp hp
  obtain ⟨hfrom, hto⟩ := ht
  constructor
  · intro hdq
    have hdq' : d ≤ q.1 := by simpa using hdq
    exact hdq'.trans (hfrom q.1 rfl)
  · intro hdt
    rcases spans_no_date_inside hds hq hd with hle | ⟨e, he, hed⟩
    · simpa using hle
    · exact absurd (hed.trans hdt) (hto e he).not_ge

/-- A date that is later than an instant of a period is not earlier than its end. -/
lemma highBound_le_iff (hds : ds.Pairwise (· < ·)) (hp : p ∈ setupPeriods ds) (ht : p.InForceAt t)
    (hd : d ∈ ds) :
    EffectiveDates.highBound p.effectiveTo ≤ EffectiveDates.highBound (some d) ↔ t < d := by
  rw [setupPeriods_eq] at hp
  obtain ⟨q, hq, rfl⟩ := List.mem_map.mp hp
  obtain ⟨hfrom, hto⟩ := ht
  constructor
  · intro hqd
    cases he : q.2 with
    | none => simp [he] at hqd
    | some e =>
        have hed : e ≤ d := by simpa [he] using hqd
        exact (hto e he).trans_le hed
  · intro htd
    rcases spans_no_date_inside hds hq hd with hle | ⟨e, he, hed⟩
    · exact absurd (hle.trans (hfrom q.1 rfl)) htd.not_ge
    · simpa [Option.mem_def.mp he] using hed

/-- An item whose dates are dates of change is in effect during a period when it is in force at any
instant of it. -/
lemma inEffectDuring_iff (hds : ds.Pairwise (· < ·)) (hp : p ∈ setupPeriods ds)
    (ht : p.InForceAt t) {x : EquipmentLogItem} (hfrom : ∀ f ∈ x.effectiveFrom, f ∈ ds)
    (hto : ∀ e ∈ x.effectiveTo, e ∈ ds) : x.inEffectDuring p = true ↔ x.InForceAt t := by
  unfold EquipmentLogItem.inEffectDuring EquipmentLogItem.InForceAt
  cases hf : x.effectiveFrom with
  | none => simp
  | some f =>
      have hlow := lowBound_le_iff hds hp ht (hfrom f hf)
      cases he : x.effectiveTo with
      | none => rw [decide_eq_true_iff, hlow]; simp
      | some e =>
          have hhigh := highBound_le_iff hds hp ht (hto e he)
          simp only [Bool.and_eq_true, Bool.or_eq_true, decide_eq_true_eq, hlow, hhigh,
            Option.mem_def, Option.some.injEq, forall_eq']
          constructor
          · rintro ⟨⟨-, hft⟩, hend⟩
            exact ⟨hft, hend⟩
          · rintro ⟨hft, hend⟩
            -- a correction is over when it begins
            refine ⟨⟨?_, hft⟩, hend⟩
            rintro rfl
            exact hend.elim (lt_irrefl f) hft.not_gt

/-- Two periods are not in force at once. -/
lemma pairwise_not_inForceAt (hds : ds.Pairwise (· < ·)) (t : Instant) :
    (setupPeriods ds).Pairwise fun p q => ¬(p.InForceAt t ∧ q.InForceAt t) := by
  rw [setupPeriods_eq, List.pairwise_map]
  refine (pairwise_spans hds).imp ?_
  rintro p q ⟨-, e, he, heq⟩ ⟨⟨-, hto⟩, ⟨hfrom, -⟩⟩
  exact absurd (heq.trans (hfrom q.1 rfl)) (hto e he).not_ge

/-- From the first date of change on exactly one period is in force, and before it none. -/
lemma filter_inForceAt_setupPeriods (hds : ds.Pairwise (· < ·)) (t : Instant) :
    ((∃ d ∈ ds, d ≤ t) → ∃ p, (setupPeriods ds).filter (·.InForceAt t) = [p]) ∧
      ((¬∃ d ∈ ds, d ≤ t) → (setupPeriods ds).filter (·.InForceAt t) = []) := by
  constructor
  · intro hbegun
    obtain ⟨q, hq, hqt⟩ := exists_span_at hds hbegun
    have hmem : (⟨some q.1, q.2⟩ : EffectiveDates) ∈ (setupPeriods ds).filter (·.InForceAt t) := by
      refine List.mem_filter.mpr ⟨?_, decide_eq_true ⟨by simpa using hqt.1, hqt.2⟩⟩
      rw [setupPeriods_eq]
      exact List.mem_map_of_mem hq
    have hpairwise := (pairwise_not_inForceAt hds t).filter (fun p => decide (p.InForceAt t))
    cases hfilter : (setupPeriods ds).filter (·.InForceAt t) with
    | nil => simp [hfilter] at hmem
    | cons p ps =>
        refine ⟨p, ?_⟩
        cases ps with
        | nil => rfl
        | cons p' ps =>
            have hall : ∀ r ∈ p :: p' :: ps, r.InForceAt t := by
              intro r hr
              rw [← hfilter] at hr
              exact of_decide_eq_true (List.mem_filter.mp hr).2
            rw [hfilter] at hpairwise
            exact absurd ⟨hall p (by simp), hall p' (by simp)⟩
              (List.rel_of_pairwise_cons hpairwise (by simp))
  · intro hbegun
    refine List.filter_eq_nil_iff.mpr ?_
    intro p hp hpt
    obtain ⟨f, hf, hfrom, -⟩ := mem_setupPeriods hds hp
    exact hbegun ⟨f, hf, (of_decide_eq_true hpt).1 f hfrom⟩

end Periods

/-- **The plan answers as the log does**: the planned setup in force at an instant lists the
equipment at that instant. -/
theorem SiteLog.plan_inForceAt (l : SiteLog) (t : Instant) :
    (l.plan.filter fun p => p.period.InForceAt t).map (·.items) = (l.equipmentAt t).toList := by
  have hplan : (l.plan.filter fun p => p.period.InForceAt t) =
      (l.periods.filter (·.InForceAt t)).map l.planned := by
    rw [l.plan_eq_map, List.filter_map]
    rfl
  obtain ⟨hone, hnone⟩ := filter_inForceAt_setupPeriods l.pairwise_dates t
  rw [hplan, SiteLog.equipmentAt]
  by_cases hbegun : ∃ d ∈ l.dates, d ≤ t
  · obtain ⟨p, hfilter⟩ := hone hbegun
    have hp : p ∈ l.periods.filter (·.InForceAt t) := by
      rw [SiteLog.periods, hfilter]
      exact List.mem_singleton_self p
    obtain ⟨hmem, hpt⟩ := List.mem_filter.mp hp
    rw [SiteLog.periods, hfilter, if_pos hbegun]
    simp only [List.map_cons, List.map_nil, Option.toList_some, SiteLog.planned, List.cons.injEq,
      and_true]
    refine List.filter_congr ?_
    intro x hx
    rw [Bool.eq_iff_iff, decide_eq_true_iff]
    exact inEffectDuring_iff l.pairwise_dates hmem (of_decide_eq_true hpt)
      (fun f hf => SiteLog.mem_dates.mpr ⟨x, hx, .inl hf⟩)
      (fun e he => SiteLog.mem_dates.mpr ⟨x, hx, .inr he⟩)
  · rw [SiteLog.periods, hnone hbegun, if_neg hbegun]
    rfl

/-! ## The setups answer as the plan does -/

/-- The valid setups of the site that are in force at the instant. -/
def Store.setupsAt (st : Store) (siteId : ℕ) (t : Instant) : List SetupRow :=
  (st.findSetupsBySiteId siteId).filter fun r => r.setup.effectivePeriod.InForceAt t

/-- **Setups that realise the plan of a log answer as it does.** -/
theorem SetupsRealise.setupsAt {st : Store} {k : ℕ} {l : SiteLog} (h : SetupsRealise st k l)
    (t : Instant) :
    List.Forall₂ (fun r items => List.Forall₂ (Represents st) r.setup.equipmentInUse items)
      (st.setupsAt k t) (l.equipmentAt t).toList := by
  obtain ⟨N, hperm, hreal⟩ := h
  have hfilter : ((st.setupsAt k t).map (·.setup)).Perm
      (N.filter fun s => s.effectivePeriod.InForceAt t) := by
    have hp := hperm.filter fun s => decide (s.effectivePeriod.InForceAt t)
    rwa [List.filter_map] at hp
  have hplan : List.Forall₂ (Realises st k) (N.filter fun s => s.effectivePeriod.InForceAt t)
      (l.plan.filter fun p => p.period.InForceAt t) := by
    refine List.rel_filter ?_ hreal
    intro s p hs
    simp only [hs.period_eq]
  have hitems : List.Forall₂ (fun s items => List.Forall₂ (Represents st) s.equipmentInUse items)
      (N.filter fun s => s.effectivePeriod.InForceAt t) (l.equipmentAt t).toList := by
    rw [← l.plan_inForceAt t, List.forall₂_map_right_iff]
    exact hplan.imp fun _ _ hs => hs.represents
  -- there is one setup at most, so the order of the rows does not matter
  cases hat : l.equipmentAt t with
  | none =>
      rw [hat, Option.toList_none, List.forall₂_nil_right_iff] at hitems
      rw [hitems] at hfilter
      rw [List.map_eq_nil_iff.mp hfilter.eq_nil]
      exact .nil
  | some items =>
      rw [hat, Option.toList_some] at hitems
      obtain ⟨s, rest, hs, hrest, hN⟩ := List.forall₂_cons_right_iff.mp hitems
      rw [List.forall₂_nil_right_iff.mp hrest] at hN
      rw [hN] at hfilter
      have hrows := List.perm_singleton.mp hfilter
      obtain ⟨r, hr, hrs⟩ := List.map_eq_singleton_iff.mp hrows
      rw [hr, Option.toList_some]
      exact .cons (hrs ▸ hs) .nil

/-- The current setup is valid and open. -/
lemma findCurrentBySiteId_spec {st : Store} {k : ℕ} {r : SetupRow}
    (hcurrent : st.findCurrentBySiteId k = .ok r) :
    r ∈ st.findSetupsBySiteId k ∧ r.setup.effectivePeriod.effectiveTo = none := by
  have hrow : r ∈ st.setups.filter fun r => r.setup.siteId = k &&
      r.setup.effectivePeriod.effectiveTo = none && !r.invalidated := by
    unfold Store.findCurrentBySiteId at hcurrent
    split at hcurrent
    case h_1 q heq =>
      obtain rfl := Except.ok.inj hcurrent
      rw [heq]
      exact List.mem_singleton_self _
    case h_2 => cases hcurrent
    case h_3 => cases hcurrent
  obtain ⟨hmem, hvalid⟩ := List.mem_filter.mp hrow
  simp only [Bool.and_eq_true, decide_eq_true_eq, Bool.not_eq_true'] at hvalid
  obtain ⟨⟨hsite, hopen⟩, hvalid⟩ := hvalid
  exact ⟨mem_findSetupsBySiteId.mpr ⟨hmem, hsite, hvalid⟩, hopen⟩

/-- From the last date of change on, the current setup is in force. -/
lemma SetupsRealise.mem_setupsAt_of_current {st : Store} {k : ℕ} {l : SiteLog} {r : SetupRow}
    (h : SetupsRealise st k l) (hcurrent : st.findCurrentBySiteId k = .ok r) {t : Instant}
    (ht : ∀ d ∈ l.dates, d ≤ t) : r ∈ st.setupsAt k t := by
  obtain ⟨hr, hopen⟩ := findCurrentBySiteId_spec hcurrent
  have hperiod : r.setup.effectivePeriod ∈ l.periods :=
    (map_period_perm h).subset (List.mem_map_of_mem hr)
  obtain ⟨d, hd, hfrom, -⟩ := mem_setupPeriods l.pairwise_dates hperiod
  refine List.mem_filter.mpr ⟨hr, decide_eq_true ⟨?_, by simp [hopen]⟩⟩
  intro f hf
  rw [hfrom] at hf
  exact Option.some.inj hf ▸ ht d hd

/-- **The setups answer for the log, at every instant.**  In every reachable world, the setups of a
site that are in force at an instant, one at most, list the equipment that the log last handled for
the site has in force then; and the current setup is the one in force from the last date of change
on. -/
theorem setups_answer_log {lib : ListUtils} {w : World}
    (hw : World.Reachable lib (fun _ => True) w) {id : String} {k : ℕ}
    (hsite : w.store.siteId id = some k) :
    ∃ l, w.lastLog id = some l ∧
      (∀ t, List.Forall₂
        (fun r items => List.Forall₂ (Represents w.store) r.setup.equipmentInUse items)
        (w.store.setupsAt k t) (l.equipmentAt t).toList) ∧
      ∀ r, w.store.findCurrentBySiteId k = .ok r → ∀ t, (∀ d ∈ l.dates, d ≤ t) →
        w.store.setupsAt k t = [r] := by
  obtain ⟨l, hl, -, hreal⟩ := hw.tracks.handled id k hsite
  refine ⟨l, hl, hreal.setupsAt, ?_⟩
  intro r hcurrent t ht
  have hr := hreal.mem_setupsAt_of_current hcurrent ht
  have hitems := hreal.setupsAt t
  cases hat : l.equipmentAt t with
  | none =>
      rw [hat, Option.toList_none, List.forall₂_nil_right_iff] at hitems
      simp [hitems] at hr
  | some items =>
      rw [hat, Option.toList_some] at hitems
      obtain ⟨q, rest, -, hrest, hrows⟩ := List.forall₂_cons_right_iff.mp hitems
      rw [hrows, List.forall₂_nil_right_iff.mp hrest] at hr ⊢
      rw [List.mem_singleton.mp hr]

/-- The log of a clock that was taken away is handled. -/
def clockTaken : World := World.performAll .ofContains (Step.received SiteLog.clockRemoved)

/-- Right before the clock was removed it is in force, and from then on it is not. -/
theorem setups_answer_log_clock_removed :
    (SiteLog.clockRemoved.equipmentAt (.ofEpochSecond 4)).map List.length = some 3 ∧
      (SiteLog.clockRemoved.equipmentAt (.ofEpochSecond 5)).map List.length = some 2 ∧
      ∃ l, clockTaken.lastLog "ADE1" = some l ∧
        (∀ t, List.Forall₂
          (fun r items => List.Forall₂ (Represents clockTaken.store) r.setup.equipmentInUse items)
          (clockTaken.store.setupsAt 1 t) (l.equipmentAt t).toList) ∧
        ∀ r, clockTaken.store.findCurrentBySiteId 1 = .ok r → ∀ t, (∀ d ∈ l.dates, d ≤ t) →
          clockTaken.store.setupsAt 1 t = [r] :=
  ⟨by decide, by decide, setups_answer_log (World.reachable_performAll fun _ _ => trivial)
    (by decide)⟩

end Geodesy
