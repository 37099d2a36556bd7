import Geodesy.Library.Sql
import Geodesy.Setups.Timeline

/-!
# The search for the setups of a period

`findBySiteIdAndPeriod` puts its condition together from three builders, each filled as far as the
bounds of the search are given.  Over setups that form a time line, a setup is selected when it has
an instant in common with the period of the search, with one exception (`matches_iff`): a search
with a start and no end misses the setup that is still open, unless that one starts later.  The
null of its `to` makes the comparison with the start of the search unknown.
-/

namespace Geodesy

open Sql

/-- `SetupRepositoryImpl.findBySiteIdAndPeriod`, with a page that has room for all results. -/
def Store.findBySiteIdAndPeriod (st : Store) (siteId : ℕ) (periodStart periodEnd : Option Instant) :
    List SetupRow :=
  let effectiveFrom : SetupRow → Option Instant := fun r => r.setup.effectivePeriod.effectiveFrom
  let effectiveTo : SetupRow → Option Instant := fun r => r.setup.effectivePeriod.effectiveTo
  let isValid : Predicate SetupRow := eq (fun r => some r.invalidated) false
  let isContained : Builder SetupRow := none
  let isInterceptedByPeriodStart : Builder SetupRow := none
  let isInterceptedByPeriodEnd : Builder SetupRow := none
  let (isContained, isInterceptedByPeriodStart) :=
    match periodStart with
    | none => (isContained, isInterceptedByPeriodStart)
    | some periodStart =>
      (isContained.and (goe effectiveFrom periodStart),
        (isInterceptedByPeriodStart.and (loe effectiveFrom periodStart)).and
          (goe effectiveTo periodStart))
  let (isContained, isInterceptedByPeriodEnd) :=
    match periodEnd with
    | none => (isContained, isInterceptedByPeriodEnd)
    | some periodEnd =>
      (isContained.and (loe effectiveTo periodEnd),
        (isInterceptedByPeriodEnd.and (loe effectiveFrom periodEnd)).and
          ((goe effectiveTo periodEnd).or (isNull effectiveTo)))
  let isIntercepted := isInterceptedByPeriodStart.or isInterceptedByPeriodEnd
  let requiredSetupPredicate :=
    ((eq (fun r => some r.setup.siteId) siteId).and isValid).andAlso (isContained.or isIntercepted)
  select requiredSetupPredicate st.setups

namespace EffectiveDates

/-- The two closed periods have an instant in common. -/
def Overlaps (p q : EffectiveDates) : Prop :=
  ∃ t : Instant, p.inRange (some t) = true ∧ q.inRange (some t) = true

/-- A period with a start that is not later than its end meets another one, if each has begun by the
time the other ends. -/
lemma overlaps_iff {f : Instant} {e : Option Instant} (hfe : ∀ t ∈ e, f ≤ t) {q : EffectiveDates}
    (hq : ∀ s ∈ q.effectiveFrom, ∀ t ∈ q.effectiveTo, s ≤ t) :
    Overlaps ⟨some f, e⟩ q ↔
      (∀ t ∈ q.effectiveTo, f ≤ t) ∧ ∀ s ∈ q.effectiveFrom, ∀ t ∈ e, s ≤ t := by
  simp only [Overlaps, inRange_iff]
  constructor
  · rintro ⟨i, ⟨hf, he⟩, hs, ht⟩
    exact ⟨fun t hqt => (hf f rfl).trans (ht t hqt), fun s hqs t het => (hs s hqs).trans (he t het)⟩
  · rintro ⟨hto, hfrom⟩
    -- the later of the two starts
    cases hstart : q.effectiveFrom with
    | none => exact ⟨f, ⟨by simp, hfe⟩, by simp, hto⟩
    | some s =>
        refine ⟨max f s, ⟨by simp, ?_⟩, by simp, ?_⟩
        · exact fun t ht => max_le (hfe t ht) (hfrom s hstart t ht)
        · exact fun t ht => max_le (hto t ht) (hq s hstart t ht)

/-- What the condition of the search says of the period of a setup, for each combination of
bounds. -/
def Matches (p : EffectiveDates) : Option Instant → Option Instant → Prop
  | none, none => True
  | some s, none => (∃ f ∈ p.effectiveFrom, s ≤ f) ∨
      (∃ f ∈ p.effectiveFrom, f ≤ s) ∧ ∃ t ∈ p.effectiveTo, s ≤ t
  | none, some e => (∃ t ∈ p.effectiveTo, t ≤ e) ∨
      (∃ f ∈ p.effectiveFrom, f ≤ e) ∧ ((∃ t ∈ p.effectiveTo, e ≤ t) ∨ p.effectiveTo = none)
  | some s, some e => ((∃ f ∈ p.effectiveFrom, s ≤ f) ∧ ∃ t ∈ p.effectiveTo, t ≤ e) ∨
      ((∃ f ∈ p.effectiveFrom, f ≤ s) ∧ ∃ t ∈ p.effectiveTo, s ≤ t) ∨
      (∃ f ∈ p.effectiveFrom, f ≤ e) ∧ ((∃ t ∈ p.effectiveTo, e ≤ t) ∨ p.effectiveTo = none)

/-- The setup is open and has begun before a search that has no end. -/
def MissedBy (p : EffectiveDates) (periodStart periodEnd : Option Instant) : Prop :=
  periodEnd = none ∧ p.effectiveTo = none ∧
    ∃ s ∈ periodStart, ∃ f ∈ p.effectiveFrom, f < s

lemma MissedBy.overlaps {p : EffectiveDates} {periodStart periodEnd : Option Instant}
    (h : MissedBy p periodStart periodEnd) : Overlaps p ⟨periodStart, periodEnd⟩ := by
  obtain ⟨hend, hopen, s, hs, f, hf, hlt⟩ := h
  refine ⟨s, (inRange_iff _ _).mpr ?_, (inRange_iff _ _).mpr ?_⟩
  · rw [Option.mem_def.mp hf, hopen]
    simpa using hlt.le
  · rw [Option.mem_def.mp hs, hend]
    simp

/-- **What matches is what overlaps and is not missed.** -/
lemma matches_iff {f : Instant} {e : Option Instant} (hfe : ∀ t ∈ e, f ≤ t)
    {periodStart periodEnd : Option Instant} (hbounds : ∀ s ∈ periodStart, ∀ t ∈ periodEnd, s ≤ t) :
    Matches ⟨some f, e⟩ periodStart periodEnd ↔
      Overlaps ⟨some f, e⟩ ⟨periodStart, periodEnd⟩ ∧
        ¬MissedBy ⟨some f, e⟩ periodStart periodEnd := by
  rw [overlaps_iff (q := ⟨periodStart, periodEnd⟩) hfe hbounds]
  cases e with
  | none => cases periodStart <;> cases periodEnd <;> simp [Matches, MissedBy]
  | some t =>
      have hft : f ≤ t := hfe t rfl
      cases periodStart with
      | none =>
          cases periodEnd with
          | none => simp [Matches, MissedBy]
          | some u =>
              have horder : t ≤ u ∨ f ≤ u ∧ u ≤ t ↔ f ≤ u := by grind
              simpa [Matches, MissedBy] using horder
      | some s =>
          cases periodEnd with
          | none =>
              have horder : s ≤ f ∨ f ≤ s ∧ s ≤ t ↔ s ≤ t := by grind
              simpa [Matches, MissedBy] using horder
          | some u =>
              have hsu : s ≤ u := hbounds s rfl u rfl
              have horder : s ≤ f ∧ t ≤ u ∨ f ≤ s ∧ s ≤ t ∨ f ≤ u ∧ u ≤ t ↔ f ≤ u ∧ s ≤ t := by
                grind
              simpa [Matches, MissedBy] using horder

end EffectiveDates

/-- The search selects the valid setups of the site whose period matches. -/
lemma mem_findBySiteIdAndPeriod {st : Store} {siteId : ℕ} {periodStart periodEnd : Option Instant}
    {r : SetupRow} :
    r ∈ st.findBySiteIdAndPeriod siteId periodStart periodEnd ↔
      r ∈ st.findSetupsBySiteId siteId ∧
        r.setup.effectivePeriod.Matches periodStart periodEnd := by
  rw [mem_findSetupsBySiteId]
  cases periodStart <;> cases periodEnd <;>
    simp [Store.findBySiteIdAndPeriod, Builder.and, Builder.or, Predicate.andAlso,
      EffectiveDates.Matches, and_assoc]

/-! ## Stores whose setups form time lines -/

/-- The valid setups of every site form a time line. -/
def SetupsFormTimelines (st : Store) : Prop :=
  ∀ siteId, ∃ ps, Timeline ps ∧
    ((st.findSetupsBySiteId siteId).map (·.setup.effectivePeriod)).Perm ps

/-- The search answers in full: it returns the setups of the site that are valid and whose period
has an instant in common with the period of the search. -/
def Store.SearchIsExact (st : Store) (siteId : ℕ) (periodStart periodEnd : Option Instant) : Prop :=
  ∀ r, r ∈ st.findBySiteIdAndPeriod siteId periodStart periodEnd ↔
    r ∈ st.setups ∧ r.setup.siteId = siteId ∧ r.invalidated = false ∧
      r.setup.effectivePeriod.Overlaps ⟨periodStart, periodEnd⟩

/-- **When the search is exact.**  Over setups that form time lines, a search with its bounds in
order returns exactly the valid setups of the site that overlap its period, if and only if it has an
end, or has no start, or the open setup of the site does not start before it. -/
theorem search_is_exact_iff {st : Store} (hst : SetupsFormTimelines st) (siteId : ℕ)
    (periodStart periodEnd : Option Instant)
    (hbounds : ∀ s ∈ periodStart, ∀ e ∈ periodEnd, s ≤ e) :
    st.SearchIsExact siteId periodStart periodEnd ↔
      (periodEnd = none → ∀ s ∈ periodStart, ∀ r ∈ st.findSetupsBySiteId siteId,
        r.setup.effectivePeriod.effectiveTo = none →
          ∀ f ∈ r.setup.effectivePeriod.effectiveFrom, s ≤ f) := by
  obtain ⟨ps, hps, hperm⟩ := hst siteId
  have hmatches : ∀ r ∈ st.findSetupsBySiteId siteId,
      r.setup.effectivePeriod.Matches periodStart periodEnd ↔
        r.setup.effectivePeriod.Overlaps ⟨periodStart, periodEnd⟩ ∧
          ¬r.setup.effectivePeriod.MissedBy periodStart periodEnd := by
    intro r hr
    obtain ⟨f, hf, hto⟩ := hps.bounds (hperm.subset (List.mem_map_of_mem hr))
    have hiff := EffectiveDates.matches_iff (fun t ht => (hto t ht).le) hbounds
    rwa [← hf] at hiff
  constructor
  · intro hexact hend s hs r hr hopen f hf
    obtain ⟨hmem, hsite, hvalid⟩ := mem_findSetupsBySiteId.mp hr
    by_contra hlt
    have hmissed : r.setup.effectivePeriod.MissedBy periodStart periodEnd :=
      ⟨hend, hopen, s, hs, f, hf, not_le.mp hlt⟩
    have hfound := (hexact r).mpr ⟨hmem, hsite, hvalid, hmissed.overlaps⟩
    exact ((hmatches r hr).mp (mem_findBySiteIdAndPeriod.mp hfound).2).2 hmissed
  · intro hcondition r
    rw [mem_findBySiteIdAndPeriod]
    constructor
    · rintro ⟨hr, hmatch⟩
      obtain ⟨hmem, hsite, hvalid⟩ := mem_findSetupsBySiteId.mp hr
      exact ⟨hmem, hsite, hvalid, ((hmatches r hr).mp hmatch).1⟩
    · rintro ⟨hmem, hsite, hvalid, hoverlaps⟩
      have hr := mem_findSetupsBySiteId.mpr ⟨hmem, hsite, hvalid⟩
      refine ⟨hr, (hmatches r hr).mpr ⟨hoverlaps, ?_⟩⟩
      rintro ⟨hend, hopen, s, hs, f, hf, hlt⟩
      exact (hcondition hend s hs r hr hopen f hf).not_gt hlt

/-- The store after a receiver and an antenna with a clock for some time were handled: setups from
the start, from the fifth second and, open, from the twentieth. -/
def searchedStore : Store :=
  (World.performAll .ofContains (Step.received SiteLog.clockRemoved)).store

lemma setupsFormTimelines_searchedStore : SetupsFormTimelines searchedStore :=
  fun siteId => (World.reachable_performAll (P := fun _ => True)
    (fun _ _ => trivial)).tracks.exists_timeline siteId

/-- **A search without an end misses the open setup.**  From the thirtieth second on there is no
setup, it says, although one has been open since the twentieth. -/
theorem search_misses_open_setup :
    SetupsFormTimelines searchedStore ∧
      ¬searchedStore.SearchIsExact 1 (some (Instant.ofEpochSecond 30)) none := by
  refine ⟨setupsFormTimelines_searchedStore, ?_⟩
  intro hexact
  have hnone :
      searchedStore.findBySiteIdAndPeriod 1 (some (Instant.ofEpochSecond 30)) none = [] := by
    decide +kernel
  obtain ⟨r, hr, hsite, hvalid, hperiod⟩ : ∃ r ∈ searchedStore.setups, r.setup.siteId = 1 ∧
      r.invalidated = false ∧
      r.setup.effectivePeriod = ⟨some (Instant.ofEpochSecond 20), none⟩ := by
    decide +kernel
  have hoverlaps : r.setup.effectivePeriod.Overlaps ⟨some (Instant.ofEpochSecond 30), none⟩ := by
    rw [hperiod]
    exact ⟨Instant.ofEpochSecond 30, by decide, by decide⟩
  have hfound := (hexact r).mpr ⟨hr, hsite, hvalid, hoverlaps⟩
  rw [hnone] at hfound
  simp at hfound

/-- A search from the third second on finds all three setups. -/
theorem search_is_exact_from_third :
    searchedStore.SearchIsExact 1 (some (Instant.ofEpochSecond 3)) none :=
  (search_is_exact_iff setupsFormTimelines_searchedStore 1 (some (Instant.ofEpochSecond 3)) none
    (by simp)).mpr (by decide +kernel)

end Geodesy
