import Geodesy.Setups.Contributions

/-!
# Corrections and the dates of change

An item that starts when it ends is a correction: `addEquipment` passes over it.  `getSetups` takes
its date for a date of change all the same.  So a correction leaves the setups as they are when
another item starts or ends on its date, and splits a setup in two when none does
(`correction_inert_iff`).
-/

namespace Geodesy

open CorsSiteService EquipmentLogItem

/-- Placing a correction does nothing. -/
lemma addEquipment_of_isCorrection {x : EquipmentLogItem} (h : x.IsCorrection)
    (setups : List Setup) (st : Store) : addEquipment x setups st = .ok (setups, st) := by
  have hplace : placement x setups = .ok (0, 0) := by
    simp only [IsCorrection, effectiveFrom, effectiveTo] at h
    cases hdates : x.effectiveDates with
    | none => simp [hdates] at h
    | some p =>
        simp only [hdates, EffectiveDates.getFrom_some, EffectiveDates.getTo_some] at h
        simp only [placement, hdates]
        exact if_pos h
  simp [addEquipment, hplace, addEquipmentToSetups, bind, Except.bind, pure, Except.pure]

/-- So it can be left out of the items that are placed. -/
lemma addAllEquipment_insert {x : EquipmentLogItem} (h : x.IsCorrection)
    (ys : List EquipmentLogItem) :
    ∀ (xs : List EquipmentLogItem) (setups : List Setup) (st : Store),
      addAllEquipment (xs ++ x :: ys) setups st = addAllEquipment (xs ++ ys) setups st
  | [], setups, st => by
      simp [addAllEquipment, addEquipment_of_isCorrection h, bind, Except.bind]
  | z :: xs, setups, st => by
      simp only [List.cons_append, addAllEquipment, addAllEquipment_insert h ys xs]

/-- The dates of change with one more item. -/
lemma mem_datesOfChange_insert {xs ys : List EquipmentLogItem} {x : EquipmentLogItem}
    {d : Instant} :
    d ∈ datesOfChange (xs ++ x :: ys) ↔
      (x.effectiveFrom = some d ∨ x.effectiveTo = some d) ∨ d ∈ datesOfChange (xs ++ ys) := by
  simp only [mem_datesOfChange, List.mem_append, List.mem_cons]
  constructor
  · rintro ⟨y, hy | rfl | hy, hd⟩
    · exact .inr ⟨y, .inl hy, hd⟩
    · exact .inl hd
    · exact .inr ⟨y, .inr hy, hd⟩
  · rintro (hd | ⟨y, hy | hy, hd⟩)
    · exact ⟨x, .inr (.inl rfl), hd⟩
    · exact ⟨y, .inl hy, hd⟩
    · exact ⟨y, .inr (.inr hy), hd⟩

/-- The dates of change are the same when the correction's date was one already. -/
lemma datesOfChange_insert {xs ys : List EquipmentLogItem} {x : EquipmentLogItem}
    (h : x.IsCorrection) {d : Instant} (hd : x.effectiveFrom = some d)
    (hmem : d ∈ datesOfChange (xs ++ ys)) :
    datesOfChange (xs ++ x :: ys) = datesOfChange (xs ++ ys) := by
  have hasymm : ∀ a b : Instant, a ∈ datesOfChange (xs ++ x :: ys) → b ∈ datesOfChange (xs ++ ys) →
      a < b → b < a → a = b :=
    fun a b _ _ hab hba => absurd hba hab.not_gt
  refine List.Perm.eq_of_pairwise hasymm
    (pairwise_datesOfChange _) (pairwise_datesOfChange _) ?_
  refine (List.perm_ext_iff_of_nodup ((pairwise_datesOfChange _).imp ne_of_lt)
    ((pairwise_datesOfChange _).imp ne_of_lt)).mpr ?_
  intro e
  rw [mem_datesOfChange_insert, ← h.2, or_self, hd]
  constructor
  · rintro (he | he)
    · rwa [← Option.some.inj he]
    · exact he
  · exact .inr

/-- The log `l'` is the log `l` with the item somewhere. -/
def SiteLog.Inserts (l' l : SiteLog) (x : EquipmentLogItem) : Prop :=
  ∃ xs ys, l.getEquipmentLogItems = xs ++ ys ∧ l'.getEquipmentLogItems = xs ++ x :: ys

/-- A deleted item makes no difference, one that was not deleted is inserted among those that were
not deleted. -/
lemma SiteLog.Inserts.equipmentLogItems {l' l : SiteLog} {x : EquipmentLogItem}
    (h : l'.Inserts l x) :
    (x.dateDeleted ≠ none → l'.equipmentLogItems = l.equipmentLogItems) ∧
      (x.dateDeleted = none → ∃ xs ys, l.equipmentLogItems = xs ++ ys ∧
        l'.equipmentLogItems = xs ++ x :: ys) := by
  obtain ⟨xs, ys, hl, hl'⟩ := h
  constructor
  · intro hdeleted
    simp [SiteLog.equipmentLogItems, hl, hl', hdeleted]
  · intro hnot
    refine ⟨xs.filter (·.dateDeleted = none), ys.filter (·.dateDeleted = none), ?_, ?_⟩
    · simp [SiteLog.equipmentLogItems, hl]
    · simp [SiteLog.equipmentLogItems, hl', hnot]

/-- The number of setups is the number of dates of change. -/
lemma length_getSetups (siteId : ℕ) (st : Store) {l : SiteLog} (hacc : l.Accepted) :
    ∃ N st', getSetups siteId l st = .ok (N, st') ∧ N.length = l.dates.length := by
  obtain ⟨N, st', hrun, hperiods, -⟩ :=
    getSetups_receives kept_contributes siteId st trivial (fun _ _ => trivial) hacc
  refine ⟨N, st', hrun, ?_⟩
  simpa [SiteLog.periods] using congrArg List.length hperiods

/-- A correction whose date is new adds a date of change. -/
lemma SiteLog.length_dates_lt {l l' : SiteLog} {xs ys : List EquipmentLogItem}
    {x : EquipmentLogItem} (hitems : l.equipmentLogItems = xs ++ ys)
    (hitems' : l'.equipmentLogItems = xs ++ x :: ys)
    {d : Instant} (hd : x.effectiveFrom = some d) (hnew : d ∉ l.dates) :
    l.dates.length < l'.dates.length := by
  have hsub : d :: l.dates ⊆ l'.dates := by
    intro e he
    rw [SiteLog.dates, hitems', mem_datesOfChange_insert, hd, ← hitems]
    rcases List.mem_cons.mp he with rfl | he
    · exact .inl (.inl rfl)
    · exact .inr he
  have hnodup : (d :: l.dates).Nodup :=
    List.nodup_cons.mpr ⟨hnew, l.pairwise_dates.imp ne_of_lt⟩
  exact (List.subperm_of_subset hnodup hsub).length_le

/-- A log that is accepted is accepted with a correction. -/
lemma SiteLog.Accepted.insert {l l' : SiteLog} {xs ys : List EquipmentLogItem}
    {x : EquipmentLogItem} (h : l.Accepted) (hitems : l.equipmentLogItems = xs ++ ys)
    (hitems' : l'.equipmentLogItems = xs ++ x :: ys) (hx : x.IsCorrection) : l'.Accepted := by
  intro y hy
  rw [hitems', List.mem_append, List.mem_cons] at hy
  rcases hy with hy | rfl | hy
  · exact h y (by simp [hitems, hy])
  · exact fun hnone => absurd hnone hx.1
  · exact h y (by simp [hitems, hy])

/-- **A correction changes no setup exactly when it is deleted or its date is a date of change of
the other items.**  The log `l'` is `l` with the correction somewhere; the setups are compared with
their entries, over one store. -/
theorem correction_inert_iff (siteId : ℕ) (l l' : SiteLog) (x : EquipmentLogItem) (st : Store)
    (hl : ∀ y ∈ l.equipmentLogItems, y.DatedInOrder) (hins : l'.Inserts l x)
    (hx : x.IsCorrection) :
    (getSetups siteId l' st).map Prod.fst = (getSetups siteId l st).map Prod.fst ↔
      x.dateDeleted ≠ none ∨ ∃ y ∈ l.equipmentLogItems,
        y.effectiveFrom = x.effectiveFrom ∨ y.effectiveTo = x.effectiveFrom := by
  obtain ⟨hdeleted, hkept⟩ := hins.equipmentLogItems
  by_cases hx' : x.dateDeleted = none
  · obtain ⟨xs, ys, hitems, hitems'⟩ := hkept hx'
    obtain ⟨d, hd⟩ := Option.ne_none_iff_exists'.mp hx.1
    have hdate : (x.dateDeleted ≠ none ∨ ∃ y ∈ l.equipmentLogItems,
        y.effectiveFrom = x.effectiveFrom ∨ y.effectiveTo = x.effectiveFrom) ↔ d ∈ l.dates := by
      rw [SiteLog.mem_dates, hd]
      simp [hx']
    rw [hdate]
    constructor
    · intro heq
      by_contra hnew
      -- one more date of change, one more setup
      have hacc : l.Accepted := fun y hy => (hl y hy).1
      have hacc' : l'.Accepted := hacc.insert hitems hitems' hx
      obtain ⟨N, s, hN, hlength⟩ := length_getSetups siteId st hacc
      obtain ⟨N', s', hN', hlength'⟩ := length_getSetups siteId st hacc'
      have hsame : N' = N := by
        rw [hN, hN'] at heq
        exact Except.ok.inj heq
      have hlt := SiteLog.length_dates_lt hitems hitems' hd hnew
      rw [hsame, hlength] at hlength'
      omega
    · intro hmem
      rw [SiteLog.dates, hitems] at hmem
      have hperiods : datesOfChange l'.equipmentLogItems = datesOfChange l.equipmentLogItems := by
        rw [hitems, hitems', datesOfChange_insert hx hd hmem]
      have hrun : getSetups siteId l' st = getSetups siteId l st := by
        rw [getSetups, getSetups, hperiods]
        simp only [hitems, hitems', addAllEquipment_insert hx ys xs]
      rw [hrun]
  · have hrun : getSetups siteId l' st = getSetups siteId l st := by
      rw [getSetups, getSetups, hdeleted hx']
    simp [hrun, hx']

/-- A receiver, and a correction while it is installed. -/
def SiteLog.corrected : SiteLog :=
  sample "ADE1" [sampleReceiver (some "R1") (sampleDates 0 (some 20)),
    sampleReceiver (some "R2") (sampleDates 5 (some 5))] [] []

/-- The receiver alone. -/
def SiteLog.uncorrected : SiteLog :=
  sample "ADE1" [sampleReceiver (some "R1") (sampleDates 0 (some 20))] [] []

/-- The sample with its correction. -/
lemma inserts_corrected : SiteLog.corrected.Inserts SiteLog.uncorrected
    (.gnssReceiver (SiteLog.sampleReceiver (some "R2") (SiteLog.sampleDates 5 (some 5)))) :=
  ⟨[.gnssReceiver (SiteLog.sampleReceiver (some "R1") (SiteLog.sampleDates 0 (some 20)))], [], rfl,
    rfl⟩

/-- **A correction splits a setup.**  The receiver is in effect from 0 to 20, and a correction dated
5 makes two setups of the one. -/
theorem correction_splits_setup :
    SiteLog.corrected.Inserts SiteLog.uncorrected
        (.gnssReceiver (SiteLog.sampleReceiver (some "R2") (SiteLog.sampleDates 5 (some 5)))) ∧
      (getSetups 1 SiteLog.corrected Store.empty).map Prod.fst ≠
        (getSetups 1 SiteLog.uncorrected Store.empty).map Prod.fst :=
  ⟨inserts_corrected, by decide⟩

/-- The equivalence at the sample, where both sides fail. -/
theorem correction_inert_iff_corrected :
    (getSetups 1 SiteLog.corrected Store.empty).map Prod.fst =
        (getSetups 1 SiteLog.uncorrected Store.empty).map Prod.fst ↔
      (EquipmentLogItem.gnssReceiver
          (SiteLog.sampleReceiver (some "R2") (SiteLog.sampleDates 5 (some 5)))).dateDeleted ≠
          none ∨
        ∃ y ∈ SiteLog.uncorrected.equipmentLogItems,
          y.effectiveFrom = some (Instant.ofEpochSecond 5) ∨
            y.effectiveTo = some (Instant.ofEpochSecond 5) :=
  correction_inert_iff 1 SiteLog.uncorrected SiteLog.corrected _ Store.empty (by decide)
    inserts_corrected (by decide)

end Geodesy
