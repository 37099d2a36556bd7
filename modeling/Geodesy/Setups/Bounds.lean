import Geodesy.Setups.Contributions
import Geodesy.Setups.Timeline

/-!
# The searches of `addEquipment` stay inside the list

The search for the start of an item and the search for its end index the list of setups without
checking its bounds.  They stop because the dates of the item are dates of change, and the second
one, for an item that ends before it starts, because the last setup is open.

An item with an end and no start is the case that is missing next to the item with neither: its
start is looked for and not found.
-/

namespace Geodesy

open CorsSiteService

/-- `addEquipment` looks for the start of the item: it has dates and is no correction. -/
def EquipmentLogItem.IsSearched (x : EquipmentLogItem) : Prop :=
  (x.effectiveFrom ≠ none ∨ x.effectiveTo ≠ none) ∧ ¬ x.IsCorrection

/-- The search for the start finds a setup that starts with the item, and the search for the end
stops at a setup that ends with the item or at the last one. -/
def EquipmentLogItem.SearchesInBounds (x : EquipmentLogItem) (setups : List Setup) : Prop :=
  ∃ i s, searchFrom x.effectiveFrom setups = .ok i ∧ setups[i]? = some s ∧
    s.effectivePeriod.effectiveFrom = x.effectiveFrom ∧
    ∀ t, x.effectiveTo = some t → ∃ j r, searchTo t (setups.drop i) = .ok (j + 1) ∧
      setups[i + j]? = some r ∧
      (r.effectivePeriod.effectiveTo = some t ∨ i + j + 1 = setups.length)

/-- Where the search for a start stops. -/
lemma searchFrom_ok {f : Option Instant} : ∀ {setups : List Setup} {i : ℕ},
    searchFrom f setups = .ok i →
      ∃ s, setups[i]? = some s ∧ s.effectivePeriod.effectiveFrom = f
  | [], i, h => by simp [searchFrom] at h
  | s :: setups, i, h => by
      rw [searchFrom] at h
      split at h
      · rename_i hs
        obtain rfl := Except.ok.inj h
        exact ⟨s, rfl, hs.2⟩
      · cases hrest : searchFrom f setups with
        | error e => simp [hrest, Except.map] at h
        | ok k =>
            simp only [hrest, Except.map, Except.ok.injEq] at h
            subst h
            simpa using searchFrom_ok hrest

/-- Where the search for an end stops. -/
lemma searchTo_ok {t : Instant} : ∀ {setups : List Setup} {k : ℕ}, searchTo t setups = .ok k →
    ∃ j r, k = j + 1 ∧ setups[j]? = some r ∧
      (r.effectivePeriod.effectiveTo = none ∨ r.effectivePeriod.effectiveTo = some t)
  | [], k, h => by simp [searchTo] at h
  | s :: setups, k, h => by
      rw [searchTo] at h
      split at h
      · cases hrest : searchTo t setups with
        | error e => simp [hrest, Except.map] at h
        | ok m =>
            simp only [hrest, Except.map, Except.ok.injEq] at h
            subst h
            obtain ⟨j, r, rfl, hr, hend⟩ := searchTo_ok hrest
            exact ⟨j + 1, r, rfl, by simpa using hr, hend⟩
      · rename_i hs
        obtain rfl := Except.ok.inj h
        refine ⟨0, s, rfl, rfl, ?_⟩
        by_contra hnot
        push Not at hnot
        exact hs hnot

/-- Only the last setup is open. -/
lemma last_of_open {l : SiteLog} {setups : List Setup}
    (hper : setups.map (·.effectivePeriod) = l.periods) {k : ℕ} {r : Setup}
    (hr : setups[k]? = some r) (hopen : r.effectivePeriod.effectiveTo = none) :
    k + 1 = setups.length := by
  have hk : l.periods[k]? = some r.effectivePeriod := by rw [← hper, List.getElem?_map, hr]; rfl
  have hne : l.periods ≠ [] := by
    intro hnil
    simp [hnil] at hk
  obtain ⟨init, last, hsplit, -, hclosed⟩ := (timeline_setupPeriods l.pairwise_dates).lastOpen hne
  have hsplit' : l.periods = init ++ [last] := hsplit
  have hlength := congrArg List.length (hper.trans hsplit')
  simp only [List.length_map, List.length_append, List.length_singleton] at hlength
  have hklt : k < setups.length := (List.getElem?_eq_some_iff.mp hr).1
  have hkinit : ¬ k < init.length := by
    intro hlt
    rw [hsplit', List.getElem?_append_left hlt] at hk
    exact hclosed _ (List.mem_of_getElem? hk) hopen
  omega

/-- An item whose dates are dates of change is searched for inside the list, unless it has no
start. -/
lemma searchesInBounds {l : SiteLog} {setups : List Setup}
    (hper : setups.map (·.effectivePeriod) = l.periods) {x : EquipmentLogItem}
    (hx : x ∈ l.equipmentLogItems) (hplaceable : x.Placeable) (hsearched : x.IsSearched) :
    x.SearchesInBounds setups := by
  obtain ⟨i, j, hplace, -⟩ := placement_eq l.pairwise_dates hper
    (fun f hf => SiteLog.mem_dates.mpr ⟨x, hx, .inl hf⟩)
    (fun t ht => SiteLog.mem_dates.mpr ⟨x, hx, .inr ht⟩) hplaceable
  obtain ⟨hdated, hnot⟩ := hsearched
  simp only [EquipmentLogItem.IsCorrection, EquipmentLogItem.effectiveFrom,
    EquipmentLogItem.effectiveTo, EquipmentLogItem.Placeable] at hdated hnot hplaceable
  rcases hdates : x.effectiveDates with _ | ⟨_ | f, to'⟩
  · simp [hdates] at hdated
  · simp [hdates] at hdated hplaceable
    exact absurd hplaceable hdated
  · have hne : ¬ some f = to' := by simpa [hdates] using hnot
    have hfrom : x.effectiveFrom = some f := by simp [EquipmentLogItem.effectiveFrom, hdates]
    have hto : x.effectiveTo = to' := by simp [EquipmentLogItem.effectiveTo, hdates]
    cases hstart : searchFrom (some f) setups with
    | error e => simp [placement, hdates, hne, hstart, bind, Except.bind] at hplace
    | ok i' =>
        obtain ⟨s, hs, hsfrom⟩ := searchFrom_ok hstart
        refine ⟨i', s, hfrom ▸ hstart, hs, hfrom ▸ hsfrom, ?_⟩
        intro t ht
        obtain rfl : to' = some t := hto.symm.trans ht
        cases hend : searchTo t (setups.drop i') with
        | error e => simp [placement, hdates, hne, hstart, hend, bind, Except.bind] at hplace
        | ok k =>
            obtain ⟨m, r, rfl, hr, hrto⟩ := searchTo_ok hend
            rw [List.getElem?_drop] at hr
            exact ⟨m, r, rfl, hr, hrto.symm.imp_right (last_of_open hper hr)⟩

/-- **Building setups stays inside the list exactly when every item with an end has a start.**  Then
`getSetups` returns, over any store, and every search stops where it should, in any list with the
periods of the log.  Otherwise it throws `IndexOutOfBoundsException`. -/
theorem getSetups_in_bounds_iff (siteId : ℕ) (l : SiteLog) (st : Store) :
    (((∃ N st', getSetups siteId l st = .ok (N, st')) ∧
        ∀ setups : List Setup, setups.map (·.effectivePeriod) = l.periods →
          ∀ x ∈ l.equipmentLogItems, x.IsSearched → x.SearchesInBounds setups) ↔
      ∀ x ∈ l.equipmentLogItems, x.effectiveTo ≠ none → x.effectiveFrom ≠ none) ∧
    ((¬ ∀ x ∈ l.equipmentLogItems, x.effectiveTo ≠ none → x.effectiveFrom ≠ none) →
      getSetups siteId l st = .error .indexOutOfBounds) := by
  have hacc : (∀ x ∈ l.equipmentLogItems, x.effectiveTo ≠ none → x.effectiveFrom ≠ none) ↔
      l.Accepted :=
    forall₂_congr fun x _ => not_imp_not
  rw [hacc]
  refine ⟨⟨?_, ?_⟩, getSetups_of_not siteId st⟩
  · rintro ⟨⟨N, st', hrun⟩, -⟩
    by_contra hnot
    rw [getSetups_of_not siteId st hnot] at hrun
    exact absurd hrun (by simp)
  · intro h
    obtain ⟨N, st', hrun, -⟩ :=
      getSetups_receives kept_contributes siteId st trivial (fun _ _ => trivial) h
    exact ⟨⟨N, st', hrun⟩, fun setups hper x hx => searchesInBounds hper hx (h x hx)⟩

/-- A receiver whose installation date is missing. -/
def SiteLog.startless : SiteLog :=
  sample "ADE1" [⟨some "LEICA GR10", some "GPS", some "R1", none, none, none, none,
    some ⟨none, some (Instant.ofEpochSecond 5)⟩, none⟩] [] []

/-- For a receiver with an end and no start `getSetups` runs off the list. -/
theorem getSetups_out_of_bounds :
    getSetups 1 SiteLog.startless Store.empty = .error .indexOutOfBounds := by
  decide

end Geodesy
