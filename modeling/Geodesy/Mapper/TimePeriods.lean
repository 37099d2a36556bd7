import Geodesy.Mapper.Unambiguous

/-!
# Time periods

The class map between `TimePeriodType` and `EffectiveDates` in `GenericMapper.init`.  A null date
becomes a time position without a text, which is read as null.
-/

namespace Geodesy.Mapper

open InstantToTimePositionConverter

/-- `TimePeriodType`. -/
structure TimePeriodType where
  beginPosition : Option TimePositionType
  endPosition : Option TimePositionType
  deriving DecidableEq, Repr

/-- A time position that is indeterminate. -/
def unknownPosition : TimePositionType := ⟨[], some .unknown⟩

/-- A field with a converter, where null is not mapped and so stays null. -/
def mapField {α β : Type} (convert : α → Except ConversionException (Option β)) :
    Option α → Except ConversionException (Option β)
  | none => .ok none
  | some a => convert a

/-- A date into a time position. -/
def writeDate (date : Option Instant) : Except ConversionException (Option TimePositionType) :=
  mapField (fun i => (convertTo i).map some) date

/-- A time position into a date. -/
def readDate (time : Option TimePositionType) : Except ConversionException (Option Instant) :=
  mapField convertFrom time

namespace TimePeriodType

/-- The map from `TimePeriodType` to `EffectiveDates`. -/
def mapAtoB (period : TimePeriodType) : Except ConversionException EffectiveDates := do
  let effectiveFrom ← readDate period.beginPosition
  let effectiveTo ← readDate period.endPosition
  return ⟨effectiveFrom, effectiveTo⟩

/-- The map from `EffectiveDates` to `TimePeriodType`: after the fields the customization. -/
def mapBtoA (dates : EffectiveDates) : Except ConversionException TimePeriodType := do
  let beginPosition ← writeDate dates.effectiveFrom
  let endPosition ← writeDate dates.effectiveTo
  let period : TimePeriodType := ⟨beginPosition, endPosition⟩
  let period :=
    if dates.effectiveFrom = none then { period with beginPosition := some unknownPosition }
    else period
  let period :=
    if dates.effectiveTo = none then { period with endPosition := some unknownPosition }
    else period
  return period

end TimePeriodType

/-! ## Reading gives whole milliseconds -/

lemma Element.nanos_of_parse {e : Element} (he : e ≠ .twoDigits .nanoOfSecond) {cs : List Char}
    {r : List (ChronoField × ℤ) × List Char} (h : e.parse cs = some r) :
    ∀ v, (.nanoOfSecond, v) ∈ r.1 → v % 1000000 = 0 := by
  intro v hv
  cases e with
  | year =>
      obtain ⟨y, -, rfl⟩ := Option.map_eq_some_iff.mp h
      simp at hv
  | twoDigits field =>
      obtain ⟨n, -, rfl⟩ := Option.map_eq_some_iff.mp h
      have hfield : field = .nanoOfSecond := by
        simp only [List.mem_singleton, Prod.mk.injEq] at hv
        exact hv.1.symm
      exact absurd (congrArg Element.twoDigits hfield) he
  | fraction =>
      obtain ⟨n, -, rfl⟩ := Option.map_eq_some_iff.mp h
      simp only [List.mem_singleton, Prod.mk.injEq, true_and] at hv
      omega
  | offset pattern =>
      obtain ⟨s, -, rfl⟩ := Option.map_eq_some_iff.mp h
      simp at hv
  | literal c =>
      rw [Element.parse] at h
      split_ifs at h
      cases h
      simp at hv

lemma nanos_of_parseFields {es : List Element} (hes : .twoDigits .nanoOfSecond ∉ es) :
    ∀ {cs : List Char} {fields : List (ChronoField × ℤ)}, parseFields es cs = some fields →
      ∀ v, (.nanoOfSecond, v) ∈ fields → v % 1000000 = 0 := by
  induction es with
  | nil =>
      intro cs fields h v hv
      cases cs <;> cases h
      cases hv
  | cons e es ih =>
      intro cs fields h v hv
      rw [List.mem_cons, not_or] at hes
      rw [parseFields_cons] at h
      obtain ⟨r, hr, h⟩ := Option.bind_eq_some_iff.mp h
      obtain ⟨rest, hrest, rfl⟩ := Option.map_eq_some_iff.mp h
      rcases List.mem_append.mp hv with hv | hv
      · exact Element.nanos_of_parse (Ne.symm hes.1) hr v hv
      · exact ih hes.2 hrest v hv

lemma mem_of_lookup {fields : List (ChronoField × ℤ)} {field : ChronoField} {v : ℤ}
    (h : fields.lookup field = some v) : (field, v) ∈ fields := by
  obtain ⟨l₁, l₂, rfl, -⟩ := List.lookup_eq_some_iff.mp h
  simp

lemma nano_of_resolveTime {fields : List (ChronoField × ℤ)}
    (hfields : ∀ v, (.nanoOfSecond, v) ∈ fields → v % 1000000 = 0) {time : LocalTime}
    (h : resolveTime fields = some (some time)) : time.nano % 1000000 = 0 := by
  have hnano : ((fields.lookup .nanoOfSecond).getD 0) % 1000000 = 0 := by
    rcases hlookup : fields.lookup .nanoOfSecond with _ | v
    · rw [hlookup]
      rfl
    · rw [hlookup]
      exact hfields v (mem_of_lookup hlookup)
  unfold resolveTime at h
  split at h
  · cases h
  · dsimp only at h
    split_ifs at h with hvalid
    cases h
    have hnonneg := hvalid.2.2.2.1
    change ((fields.lookup .nanoOfSecond).getD 0).toNat % 1000000 = 0
    omega

lemma nanos_of_resolve {es : List Element} (hes : .twoDigits .nanoOfSecond ∉ es) {text : List Char}
    {r : Resolved} (h : resolve es text = some r) {time : LocalTime} (htime : r.time = some time) :
    time.nano % 1000000 = 0 := by
  obtain ⟨fields, hfields, h⟩ := Option.bind_eq_some_iff.mp h
  obtain ⟨date, -, h⟩ := Option.bind_eq_some_iff.mp h
  obtain ⟨time', htime', h⟩ := Option.bind_eq_some_iff.mp h
  cases h
  obtain rfl : time' = some time := htime
  exact nano_of_resolveTime (nanos_of_parseFields hes hfields) htime'

lemma nanos_of_offsetDateTime {es : List Element} (hes : .twoDigits .nanoOfSecond ∉ es)
    {text : List Char} {r : Resolved} (h : resolve es text = some r) {i : Instant}
    (hi : r.offsetDateTime = some i) : i.nanos % 1000000 = 0 := by
  obtain ⟨offset, -, hi⟩ := Option.bind_eq_some_iff.mp hi
  obtain ⟨date, -, hi⟩ := Option.bind_eq_some_iff.mp hi
  obtain ⟨time, htime, hi⟩ := Option.bind_eq_some_iff.mp hi
  split_ifs at hi
  cases hi
  exact nanos_of_resolve hes h htime

/-- A day begins with a whole second. -/
lemma nanos_of_date {r : Resolved} {i : Instant}
    (h : r.localDate = some i ∨ r.yearMonth = some i ∨ r.year = some i) : i.nanos = 0 := by
  rcases h with h | h | h
  · obtain ⟨date, -, rfl⟩ := Option.map_eq_some_iff.mp h
    rfl
  · obtain ⟨y, -, h⟩ := Option.bind_eq_some_iff.mp h
    obtain ⟨m, -, h⟩ := Option.bind_eq_some_iff.mp h
    split_ifs at h
    cases h
    rfl
  · obtain ⟨y, -, h⟩ := Option.bind_eq_some_iff.mp h
    split_ifs at h
    cases h
    rfl

lemma nanos_of_parsePattern {s p : String} (hp : p ∈ timePositionPatterns) {i : Instant}
    (h : parsePattern s p = some i) : i.nanos % 1000000 = 0 := by
  have hes : ∀ p ∈ timePositionPatterns, .twoDigits .nanoOfSecond ∉ dateFormat p := by decide
  rw [parsePattern] at h
  rcases hresolve : resolve (dateFormat p) s.toList with _ | r
  · rw [hresolve] at h
    cases h
  · simp only [hresolve, Option.bind_some, Option.or_eq_some_iff] at h
    rcases h with ((h | ⟨-, h⟩) | ⟨-, h⟩) | ⟨-, h⟩
    · exact nanos_of_offsetDateTime (hes p hp) hresolve h
    · rw [nanos_of_date (Or.inl h)]
    · rw [nanos_of_date (Or.inr (Or.inl h))]
    · rw [nanos_of_date (Or.inr (Or.inr h))]

lemma nanos_of_convertFrom {time : TimePositionType} {i : Instant}
    (h : convertFrom time = .ok (some i)) : i.nanos % 1000000 = 0 := by
  rw [convertFrom, convertFromWith] at h
  split at h
  · cases h
  · split at h
    · rename_i dateString _ _ date hdate
      cases h
      obtain ⟨p, hp, hparse⟩ := List.exists_of_findSome?_eq_some hdate
      exact nanos_of_parsePattern hp hparse
    · cases h

/-! ## Writing and reading -/

/-- The instants that are written and read back as they are. -/
def Restorable (i : Instant) : Prop := ValidYear (yearOf i) ∧ i.nanos % 1000000 = 0

lemma truncatedToMillis_of_restorable {i : Instant} (h : Restorable i) :
    truncatedToMillis i = i := by
  obtain ⟨seconds, nanos, hnanos⟩ := i
  have hmod : nanos % 1000000 = 0 := h.2
  simp only [truncatedToMillis, Instant.mk.injEq, true_and]
  omega

/-- A date, or the time position that stands for null, is read back. -/
lemma readDate_writeDate {date : Option Instant} (h : ∀ i ∈ date, Restorable i) :
    ∃ time, writeDate date = .ok time ∧
      readDate (if date = none then some unknownPosition else time) = .ok date := by
  rcases date with _ | i
  · exact ⟨none, rfl, rfl⟩
  · obtain ⟨time, hto, hfrom⟩ := convertFrom_convertTo (h i rfl).1
    rw [truncatedToMillis_of_restorable (h i rfl)] at hfrom
    refine ⟨some time, ?_, hfrom⟩
    rw [writeDate, mapField, hto]
    rfl

/-- **Effective dates are restored.** -/
lemma mapAtoB_mapBtoA {dates : EffectiveDates} (hfrom : ∀ i ∈ dates.effectiveFrom, Restorable i)
    (hto : ∀ i ∈ dates.effectiveTo, Restorable i) :
    ∃ period, TimePeriodType.mapBtoA dates = .ok period ∧ period.mapAtoB = .ok dates := by
  obtain ⟨beginPosition, hwrite, hread⟩ := readDate_writeDate hfrom
  obtain ⟨endPosition, hwrite', hread'⟩ := readDate_writeDate hto
  refine ⟨⟨if dates.effectiveFrom = none then some unknownPosition else beginPosition,
    if dates.effectiveTo = none then some unknownPosition else endPosition⟩, ?_, ?_⟩
  · rw [TimePeriodType.mapBtoA, hwrite, hwrite']
    rcases dates with ⟨_ | effectiveFrom, _ | effectiveTo⟩ <;> rfl
  · rw [TimePeriodType.mapAtoB, hread, hread']
    rfl

/-- **Time positions round-trip and are unambiguous.** -/
theorem timePositions_round_trip :
    (∀ i : Instant, 0 ≤ yearOf i → yearOf i ≤ 9999 →
      ∃ time, convertTo i = .ok time ∧ convertFrom time = .ok (some (truncatedToMillis i))) ∧
    (∀ dates : EffectiveDates, (∀ i ∈ dates.effectiveFrom, Restorable i) →
      (∀ i ∈ dates.effectiveTo, Restorable i) →
      ∃ period, TimePeriodType.mapBtoA dates = .ok period ∧ period.mapAtoB = .ok dates) ∧
    (∀ s : String, ∀ p ∈ timePositionPatterns, ∀ q ∈ timePositionPatterns,
      (parsePattern s p).isSome = true → (parsePattern s q).isSome = true → p = q) ∧
    (∀ patterns : List String, patterns.Perm timePositionPatterns →
      ∀ (time : TimePositionType) (result : Option Instant),
        convertFromWith patterns time = .ok result ↔ convertFrom time = .ok result) := by
  refine ⟨fun i hlow hhigh => convertFrom_convertTo ⟨by omega, by omega⟩, ?_, ?_, ?_⟩
  · exact fun dates => mapAtoB_mapBtoA
  · exact fun s => pattern_unique
  · exact fun patterns => convertFromWith_perm

end Geodesy.Mapper
