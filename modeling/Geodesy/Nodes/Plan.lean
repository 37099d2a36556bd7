import Geodesy.Setups.Timeline
import Geodesy.Library.Cover
import Geodesy.Library.Walk

/-!
# The nodes that a log calls for

The loop of `NodeService.handle`, read as a walk over the plan of a log.  A planned setup is
complete when it has a receiver and an antenna, its node lasts as long as the first receiver,
antenna and clock are in effect together, and a visited setup hides the setups that start before its
node ends (`SiteLog.nodePlan`).

`cover_nodePlan` is the fact behind the results about nodes: for a well dated log, every complete
setup lies within the node of a visited one.  It rests on two properties of the plan.  An item's
dates contain the periods of the setups it is in, and a node starts and ends at dates of change.
-/

namespace Geodesy

open EffectiveDates NodeService

namespace PlannedSetup

/-- The first item of the class. -/
def first (p : PlannedSetup) (equipmentClass : EquipmentClass) : Option EquipmentLogItem :=
  p.items.find? fun x => x.equipmentClass = equipmentClass

/-- The setup has a receiver and an antenna. -/
def complete (p : PlannedSetup) : Bool :=
  (p.first .gnssReceiver).isSome && (p.first .gnssAntenna).isSome

/-- The items that decide about the node. -/
def significantItems (p : PlannedSetup) : List EquipmentLogItem :=
  significantEquipment.flatMap fun c => (p.first c).toList

/-- The period of the node of a complete setup. -/
def nodePeriod (p : PlannedSetup) : EffectiveDates :=
  (lcd (p.significantItems.map (·.effectiveDates))).getD ⟨none, none⟩

end PlannedSetup

/-- A remembered node period makes the loop pass over a setup: it is open, or it compares as one
with the start of the setup. -/
def passesOver (nodePeriod : EffectiveDates) (setupFrom : Option Instant) : Bool :=
  match nodePeriod.effectiveTo, setupFrom with
  | none, _ => true
  | some _, none => false
  | some nodeEffectiveTo, some setupFrom => nodeEffectiveTo.compareTo setupFrom = 1

/-- What a visited setup makes the loop pass over. -/
def PlannedSetup.hides (t p : PlannedSetup) : Bool := passesOver t.nodePeriod p.period.effectiveFrom

/-- The setups of the plan for which a node period is computed. -/
def SiteLog.nodePlan (l : SiteLog) : List PlannedSetup :=
  Walk.visited PlannedSetup.complete PlannedSetup.hides none l.plan

lemma passesOver_some {p : EffectiveDates} {t f : Instant} (hp : p.effectiveTo = some t) :
    passesOver p (some f) = decide (t.compareTo f = 1) := by
  simp [passesOver, hp]

/-- Where the loop passes over a setup, the remembered period ends after the setup starts. -/
lemma lt_of_passesOver {p : EffectiveDates} {f : Instant} (h : passesOver p (some f) = true) :
    ∀ t, p.effectiveTo = some t → f < t := by
  intro t ht
  rw [passesOver_some ht, decide_eq_true_eq] at h
  exact Instant.lt_of_compareTo_eq_one h

/-! ## The period of a node -/

namespace PlannedSetup

variable {p : PlannedSetup}

lemma mem_significantItems {x : EquipmentLogItem} (hx : x ∈ p.significantItems) : x ∈ p.items := by
  obtain ⟨c, -, hc⟩ := List.mem_flatMap.mp hx
  exact List.mem_of_find?_eq_some (Option.mem_toList.mp hc)

lemma isSome_first {c : EquipmentClass} :
    (p.first c).isSome = true ↔ ∃ x ∈ p.items, x.equipmentClass = c := by
  simp [first, List.find?_isSome]

lemma complete_iff : p.complete = true ↔
    (∃ x ∈ p.items, x.equipmentClass = .gnssReceiver) ∧
      ∃ x ∈ p.items, x.equipmentClass = .gnssAntenna := by
  simp [complete, isSome_first]

/-- The first receiver and the first antenna of a complete setup are significant. -/
lemma significantItems_ne_nil (hc : p.complete = true) : p.significantItems ≠ [] := by
  simp only [complete, Bool.and_eq_true, Option.isSome_iff_exists] at hc
  obtain ⟨⟨x, hx⟩, -⟩ := hc
  intro hnil
  have hmem : x ∈ p.significantItems :=
    List.mem_flatMap.mpr ⟨.gnssReceiver, by simp [significantEquipment], by simp [hx]⟩
  simp [hnil] at hmem

/-- The node of a complete setup is the intersection of its significant equipment. -/
lemma nodePeriod_spec (hc : p.complete = true) :
    lcd (p.significantItems.map (·.effectiveDates)) = some p.nodePeriod ∧
      (∀ x ∈ p.significantItems, toPeriod (some p.nodePeriod) ≤ toPeriod x.effectiveDates) ∧
      (∃ x ∈ p.significantItems, p.nodePeriod.effectiveFrom = x.effectiveFrom) ∧
      (∃ x ∈ p.significantItems, p.nodePeriod.effectiveTo = x.effectiveTo) := by
  have hne : p.significantItems.map (·.effectiveDates) ≠ [] := by
    simpa using significantItems_ne_nil hc
  obtain ⟨q, hq, hle, hfrom, hto⟩ := lcd_spec hne
  have hnode : p.nodePeriod = q := by simp [nodePeriod, hq]
  rw [hnode]
  refine ⟨hq, ?_, ?_, ?_⟩
  · intro x hx
    exact hle _ (List.mem_map_of_mem hx)
  · obtain ⟨d, hd, heq⟩ := hfrom
    obtain ⟨x, hx, rfl⟩ := List.mem_map.mp hd
    exact ⟨x, hx, heq⟩
  · obtain ⟨d, hd, heq⟩ := hto
    obtain ⟨x, hx, rfl⟩ := List.mem_map.mp hd
    exact ⟨x, hx, heq⟩

end PlannedSetup

/-! ## Well dated logs -/

/-- The item has no dates, or a start and either no end or a later one. -/
def EquipmentLogItem.WellDated (x : EquipmentLogItem) : Prop :=
  x.Placeable ∧ ∀ f ∈ x.effectiveFrom, ∀ t ∈ x.effectiveTo, f < t

instance (x : EquipmentLogItem) : Decidable x.WellDated := inferInstanceAs (Decidable (_ ∧ _))

lemma EquipmentLogItem.WellDated.dates {x : EquipmentLogItem} (h : x.WellDated) :
    (x.effectiveFrom = none ∧ x.effectiveTo = none) ∨
      ∃ f, x.effectiveFrom = some f ∧ ∀ t, x.effectiveTo = some t → f < t := by
  cases hf : x.effectiveFrom with
  | none => exact Or.inl ⟨rfl, h.1 hf⟩
  | some f => exact Or.inr ⟨f, rfl, fun t ht => h.2 f hf t ht⟩

/-- All items of the log are well dated. -/
def SiteLog.WellDated (l : SiteLog) : Prop := ∀ x ∈ l.equipmentLogItems, x.WellDated

instance (l : SiteLog) : Decidable l.WellDated := inferInstanceAs (Decidable (∀ x ∈ _, _))

/-- A well dated item in effect during a period contains the period. -/
lemma EquipmentLogItem.WellDated.le_of_inEffect {x : EquipmentLogItem} (hx : x.WellDated)
    {p : EffectiveDates} (h : x.inEffectDuring p = true) :
    toPeriod (some p) ≤ toPeriod x.effectiveDates := by
  have hgoal : lowBound x.effectiveFrom ≤ lowBound p.effectiveFrom ∧
      highBound p.effectiveTo ≤ highBound x.effectiveTo := by
    rcases hx.dates with ⟨hf, ht⟩ | ⟨f, hf, ht⟩
    · simp [hf, ht]
    · cases hto : x.effectiveTo with
      | none =>
          simp only [inEffectDuring, hf, hto, decide_eq_true_eq] at h
          exact ⟨by rwa [hf], by simp⟩
      | some t =>
          have hft := ht t hto
          simp only [inEffectDuring, hf, hto, Bool.and_eq_true, Bool.or_eq_true,
            decide_eq_true_eq] at h
          obtain ⟨⟨-, hfrom⟩, hend⟩ := h
          exact ⟨by rwa [hf], hend.resolve_left hft.not_gt⟩
  exact hgoal

/-- Conversely, an item that has a start is in effect during every period within its dates. -/
lemma EquipmentLogItem.WellDated.inEffect_of_le {x : EquipmentLogItem} (hx : x.WellDated)
    {p : EffectiveDates} (hfrom : lowBound x.effectiveFrom ≤ lowBound p.effectiveFrom)
    (hto : highBound p.effectiveTo ≤ highBound x.effectiveTo) : x.inEffectDuring p = true := by
  rcases hx.dates with ⟨hf, -⟩ | ⟨f, hf, ht⟩
  · simp [inEffectDuring, hf]
  · rw [hf] at hfrom
    cases hxt : x.effectiveTo with
    | none =>
        simp only [inEffectDuring, hf, hxt, decide_eq_true_eq]
        exact hfrom
    | some t =>
        have hne := (ht t hxt).ne
        rw [hxt] at hto
        simp only [inEffectDuring, hf, hxt, Bool.and_eq_true, Bool.or_eq_true, decide_eq_true_eq]
        exact ⟨⟨hne, hfrom⟩, Or.inr hto⟩

namespace SiteLog

variable {l : SiteLog} {p : PlannedSetup}

/-- The items of a planned setup are those in effect. -/
lemma mem_items (hp : p ∈ l.plan) {x : EquipmentLogItem} :
    x ∈ p.items ↔ x ∈ l.equipmentLogItems ∧ x.inEffectDuring p.period = true := by
  rw [(mem_plan.mp hp).2]
  exact List.mem_filter

/-- A planned setup starts at a date of change, and ends later, at one. -/
lemma exists_from (hp : p ∈ l.plan) : ∃ f ∈ l.dates, p.period.effectiveFrom = some f ∧
    ∀ t, p.period.effectiveTo = some t → t ∈ l.dates ∧ f < t :=
  mem_setupPeriods l.pairwise_dates (mem_plan.mp hp).1

/-- A planned setup has an inside. -/
lemma proper_of_mem_plan (hp : p ∈ l.plan) : (toPeriod (some p.period)).Proper := by
  obtain ⟨f, -, hf, hto⟩ := exists_from hp
  rintro ⟨d, hd, hd'⟩
  simp only [toPeriod, getFrom_some, getTo_some, hf, lowBound_some, WithBot.coe_le_coe] at hd hd'
  cases ht : p.period.effectiveTo with
  | none => simp [ht] at hd
  | some t =>
      simp only [ht, highBound_some, WithTop.coe_le_coe] at hd
      exact absurd ((hto t ht).2.trans_le (hd.trans hd')) (lt_irrefl f)

/-- The planned setups follow one another. -/
lemma pairwise_before_plan (l : SiteLog) :
    l.plan.Pairwise fun p q => (toPeriod (some p.period)).Before (toPeriod (some q.period)) := by
  have hspans := pairwise_spans l.pairwise_dates
  have hper : l.periods = (spans l.dates).map fun p => ⟨some p.1, p.2⟩ := setupPeriods_eq _
  rw [plan_eq_map, List.pairwise_map, hper, List.pairwise_map]
  refine hspans.imp fun {p q} hpq => ?_
  obtain ⟨-, e, he, heq⟩ := hpq
  refine ⟨e, ?_, ?_⟩
  · simp [planned, toPeriod, Option.mem_def.mp he]
  · simpa [planned, toPeriod] using heq

/-- No date of change lies inside a planned setup. -/
lemma no_date_inside (hp : p ∈ l.plan) {d : Instant} (hd : d ∈ l.dates) :
    (d : WithBot Instant) ≤ lowBound p.period.effectiveFrom ∨
      highBound p.period.effectiveTo ≤ (d : WithTop Instant) := by
  have hmem := (mem_plan.mp hp).1
  rw [show l.periods = (spans l.dates).map fun p => ⟨some p.1, p.2⟩ from setupPeriods_eq _] at hmem
  obtain ⟨q, hq, heq⟩ := List.mem_map.mp hmem
  rw [← heq]
  rcases spans_no_date_inside l.pairwise_dates hq hd with h | ⟨e, he, h⟩
  · exact Or.inl (by simpa using h)
  · exact Or.inr (by simpa [Option.mem_def.mp he] using h)

/-- A planned setup that starts after some date of change is preceded by one that starts no earlier
than that date. -/
lemma exists_plan_before (hp : p ∈ l.plan) {d f : Instant} (hd : d ∈ l.dates)
    (hf : p.period.effectiveFrom = some f) (hdf : d < f) :
    ∃ q ∈ l.plan, q.period.effectiveTo = some f ∧
      (d : WithBot Instant) ≤ lowBound q.period.effectiveFrom := by
  have hmem := (mem_plan.mp hp).1
  have hper : l.periods = (spans l.dates).map fun p => ⟨some p.1, p.2⟩ := setupPeriods_eq _
  rw [hper] at hmem
  obtain ⟨q, hq, heq⟩ := List.mem_map.mp hmem
  rw [← heq] at hf
  obtain rfl : q.1 = f := Option.some.inj hf
  obtain ⟨r, hr, hrq, hdr⟩ := exists_span_before l.pairwise_dates hq hd hdf
  refine ⟨l.planned ⟨some r.1, r.2⟩, ?_, hrq, by simpa [planned] using hdr⟩
  refine List.mem_map_of_mem (hper ▸ List.mem_map_of_mem hr)

/-- A complete setup of a well dated log lies within its node. -/
lemma le_nodePeriod (hl : l.WellDated) (hp : p ∈ l.plan) (hc : p.complete = true) :
    toPeriod (some p.period) ≤ toPeriod (some p.nodePeriod) := by
  obtain ⟨-, -, ⟨x, hx, hxf⟩, ⟨y, hy, hyt⟩⟩ := PlannedSetup.nodePeriod_spec hc
  have hcontains : ∀ x ∈ p.significantItems,
      toPeriod (some p.period) ≤ toPeriod x.effectiveDates := by
    intro x hx
    obtain ⟨hmem, heffect⟩ := (mem_items hp).mp (PlannedSetup.mem_significantItems hx)
    exact (hl x hmem).le_of_inEffect heffect
  have hfrom := (hcontains x hx).1
  have hto := (hcontains y hy).2
  refine ⟨?_, ?_⟩
  · simp only [toPeriod, getFrom_some, hxf] at hfrom ⊢
    exact hfrom
  · simp only [toPeriod, getTo_some, hyt] at hto ⊢
    exact hto

/-- A node starts and ends at dates of change, where it is not unbounded. -/
lemma nodePeriod_mem_dates (hp : p ∈ l.plan) (hc : p.complete = true) :
    (∀ d, p.nodePeriod.effectiveFrom = some d → d ∈ l.dates) ∧
      ∀ d, p.nodePeriod.effectiveTo = some d → d ∈ l.dates := by
  obtain ⟨-, -, ⟨x, hx, hxf⟩, ⟨y, hy, hyt⟩⟩ := PlannedSetup.nodePeriod_spec hc
  constructor
  · intro d hd
    have hmem := ((mem_items hp).mp (PlannedSetup.mem_significantItems hx)).1
    exact mem_dates.mpr ⟨x, hmem, Or.inl (hxf ▸ hd)⟩
  · intro d hd
    have hmem := ((mem_items hp).mp (PlannedSetup.mem_significantItems hy)).1
    exact mem_dates.mpr ⟨y, hmem, Or.inr (hyt ▸ hd)⟩

/-- **Every complete setup of a well dated log lies within the node of a visited one.** -/
theorem covered (hl : l.WellDated) (hp : p ∈ l.plan) (hc : p.complete = true) :
    ∃ t ∈ l.nodePlan, toPeriod (some p.period) ≤ toPeriod (some t.nodePeriod) ∧
      (t = p ∨ (toPeriod (some t.period)).Before (toPeriod (some p.period))) := by
  have hwalk : p ∈ l.nodePlan ∨ ∃ t ∈ l.nodePlan,
      (toPeriod (some t.period)).Before (toPeriod (some p.period)) ∧ t.hides p = true :=
    Walk.visited_or_hidden_of_start l.pairwise_before_plan hc hp
  rcases hwalk with hvisited | ⟨t, ht, hbefore, hhides⟩
  · exact ⟨p, hvisited, le_nodePeriod hl hp hc, Or.inl rfl⟩
  · have htp : t ∈ l.plan := (Walk.visited_sublist _ _).subset ht
    have htc : t.complete = true := Walk.wanted_of_mem_visited ht
    obtain ⟨hstart, -⟩ := le_nodePeriod hl htp htc
    refine ⟨t, ht, ⟨hstart.trans ?_, ?_⟩, Or.inr hbefore⟩
    · -- the hiding setup starts earlier
      obtain ⟨d, hd, hd'⟩ := hbefore
      obtain ⟨f, -, hf, hto⟩ := exists_from htp
      refine le_trans ?_ hd'
      simp only [toPeriod, getFrom_some, getTo_some, hf, lowBound_some] at hd ⊢
      cases ht : t.period.effectiveTo with
      | none => simp [ht] at hd
      | some u =>
          simp only [ht, highBound_some, WithTop.coe_le_coe] at hd
          exact WithBot.coe_le_coe.mpr ((hto u ht).2.le.trans hd)
    · -- the end of its node is a date of change later than the start of the setup
      obtain ⟨f, -, hf, -⟩ := exists_from hp
      cases hnode : t.nodePeriod.effectiveTo with
      | none => simp [toPeriod, hnode]
      | some u =>
          rw [PlannedSetup.hides, hf] at hhides
          have hfu := lt_of_passesOver hhides u hnode
          have hu := (nodePeriod_mem_dates htp htc).2 u hnode
          rcases no_date_inside hp hu with h | h
          · rw [hf, lowBound_some, WithBot.coe_le_coe] at h
            exact absurd hfu h.not_gt
          · simpa [toPeriod, hnode] using h

/-- All items of the log have a start. -/
def AllStarted (l : SiteLog) : Prop := ∀ x ∈ l.equipmentLogItems, x.effectiveFrom ≠ none

instance (l : SiteLog) : Decidable l.AllStarted := inferInstanceAs (Decidable (∀ x ∈ _, _))

/-- A node that starts before its setup reaches back over the setup in front, which has the same
receiver and antenna and so is complete. -/
lemma reachesBack (hl : l.WellDated) (hstarted : l.AllStarted) (hp : p ∈ l.plan)
    (hc : p.complete = true) :
    (toPeriod (some p.nodePeriod)).start = (toPeriod (some p.period)).start ∨
      ∃ q ∈ l.plan, q.complete = true ∧
        (toPeriod (some q.period)).Before (toPeriod (some p.period)) ∧
        toPeriod (some q.period) ≤ toPeriod (some p.nodePeriod) := by
  obtain ⟨f, -, hf, hto⟩ := exists_from hp
  obtain ⟨-, hmeet, ⟨x, hx, hxf⟩, -⟩ := PlannedSetup.nodePeriod_spec hc
  have hxmem := ((mem_items hp).mp (PlannedSetup.mem_significantItems hx)).1
  obtain ⟨d, hd⟩ := Option.ne_none_iff_exists'.mp (hstarted x hxmem)
  have hnode : p.nodePeriod.effectiveFrom = some d := hxf.trans hd
  have hle := (le_nodePeriod hl hp hc).1
  simp only [toPeriod, getFrom_some, hnode, hf, lowBound_some, WithBot.coe_le_coe] at hle
  rcases hle.eq_or_lt with rfl | hlt
  · exact Or.inl (by simp [toPeriod, hnode, hf])
  · right
    obtain ⟨q, hq, hqto, hdq⟩ :=
      exists_plan_before hp ((nodePeriod_mem_dates hp hc).1 d hnode) hf hlt
    have hback : toPeriod (some q.period) ≤ toPeriod (some p.nodePeriod) := by
      refine ⟨by simpa [toPeriod, hnode] using hdq, ?_⟩
      have hend := (le_nodePeriod hl hp hc).2
      refine le_trans ?_ hend
      simp only [toPeriod, getTo_some, hqto, highBound_some]
      cases hpt : p.period.effectiveTo with
      | none => simp
      | some t => exact WithTop.coe_le_coe.mpr (hto t hpt).2.le
    -- the significant items are in effect during the setup in front as well
    have hcarry : ∀ c ∈ significantEquipment, (p.first c).isSome = true →
        ∃ y ∈ q.items, y.equipmentClass = c := by
      intro c hcs hfirst
      obtain ⟨y, hy⟩ := Option.isSome_iff_exists.mp hfirst
      have hysig : y ∈ p.significantItems :=
        List.mem_flatMap.mpr ⟨c, hcs, by simp [hy]⟩
      have hymem := ((mem_items hp).mp (PlannedSetup.mem_significantItems hysig)).1
      obtain ⟨hyfrom, hyto⟩ := Period.le_trans hback (hmeet y hysig)
      refine ⟨y, (mem_items hq).mpr ⟨hymem, (hl y hymem).inEffect_of_le hyfrom hyto⟩, ?_⟩
      simpa using List.find?_some hy
    have hfirst : (p.first .gnssReceiver).isSome = true ∧ (p.first .gnssAntenna).isSome = true := by
      simpa [PlannedSetup.complete] using hc
    refine ⟨q, hq, PlannedSetup.complete_iff.mpr ⟨?_, ?_⟩, ⟨f, ?_, ?_⟩, hback⟩
    · exact hcarry _ (by simp [significantEquipment]) hfirst.1
    · exact hcarry _ (by simp [significantEquipment]) hfirst.2
    · simp [toPeriod, hqto]
    · simp [toPeriod, hf]

/-- **The visited setups of a well dated log cover its complete setups.** -/
theorem cover_nodePlan (hl : l.WellDated) (hstarted : l.AllStarted) :
    Cover (fun p : PlannedSetup => toPeriod (some p.period))
      (fun p => toPeriod (some p.nodePeriod)) (fun p => p.complete = true) l.plan l.nodePlan where
  sublist := Walk.visited_sublist _ _
  complete_of_visited _ ha := Walk.wanted_of_mem_visited ha
  order := l.pairwise_before_plan
  proper _ hp := proper_of_mem_plan hp
  contains _ hp hc := le_nodePeriod hl hp hc
  covered _ hp hc := covered hl hp hc
  reachesBack _ hp hc := reachesBack hl hstarted hp hc

end SiteLog

end Geodesy
