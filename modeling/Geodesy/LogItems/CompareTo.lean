import Geodesy.Library.StableSort
import Geodesy.Library.Utf16
import Geodesy.LogItems.Fields

/-!
# The order of log items

`EffectiveDates.compareTo` puts a null bound last; `CompareToBuilder`, which `LogItem.compareTo`
uses for the dates as a whole and for the fields, puts null first.  Both are comparison functions
in the sense of `Comparator`: the dates are totally ordered, and log items of a class are so up to
the fields that are not compared (`compareTo_totalPreorder`, `compareTo_eq_zero_iff`).

`δ` is `Double`, of which only its total order is used.
-/

namespace Geodesy

open Comparator

/-! ## Effective dates -/

lemma Instant.compareTo_consistent : Consistent Instant.compareTo where
  lt_iff a b := by
    rw [← not_le, ← not_le, Instant.compareTo_nonneg_iff, Instant.compareTo_nonpos_iff]
  trans := by
    intro a b c hab hbc
    rw [Instant.compareTo_nonpos_iff] at hab hbc ⊢
    exact hab.trans hbc
  eq_of_zero _ _ h :=
    le_antisymm (Instant.compareTo_nonpos_iff.mp h.le) (Instant.compareTo_nonneg_iff.mp h.ge)

namespace EffectiveDates

/-- `EffectiveDates.equals`. -/
def equals (dates : EffectiveDates) (object : Option EffectiveDates) : Bool :=
  match object with
  | none => false
  | some other =>
    decide (dates.effectiveFrom = other.effectiveFrom)
      && decide (dates.effectiveTo = other.effectiveTo)

/-- `EffectiveDates.compareTo`. -/
def compareTo (dates : EffectiveDates) (otherObject : Option EffectiveDates) : ℤ :=
  match otherObject with
  | none => 1
  | some other =>
    let result :=
      match dates.effectiveFrom, other.effectiveFrom with
      | none, some _ => 1
      | some _, none => -1
      | some f, some g => 0 + f.compareTo g
      | none, none => 0
    if result = 0 then
      match dates.effectiveTo, other.effectiveTo with
      | none, some _ => 1
      | some _, none => -1
      | some t, some u => result + t.compareTo u
      | none, none => result
    else result

lemma equals_iff (a b : EffectiveDates) : a.equals (some b) = true ↔ a = b := by
  obtain ⟨af, at'⟩ := a
  obtain ⟨bf, bt⟩ := b
  simp [equals]

/-- The from decides, then the to, a null bound being last. -/
lemma compareTo_some (a b : EffectiveDates) :
    a.compareTo (some b) =
      thenBy (fun a b => nullLast Instant.compareTo a.effectiveFrom b.effectiveFrom)
        (fun a b => nullLast Instant.compareTo a.effectiveTo b.effectiveTo) a b := by
  obtain ⟨_ | af, _ | at'⟩ := a <;> obtain ⟨_ | bf, _ | bt⟩ := b <;>
    simp only [compareTo, thenBy, nullLast_none_none, nullLast_none_some, nullLast_some_none,
      nullLast_some_some, zero_add] <;>
    split_ifs <;> simp_all

lemma compareTo_consistent : Consistent fun a b : EffectiveDates => a.compareTo (some b) where
  toContract := by
    simp only [compareTo_some]
    have hinstant := Instant.compareTo_consistent.toContract.nullLast
    exact (hinstant.comap effectiveFrom).thenBy (hinstant.comap effectiveTo)
  eq_of_zero a b h := by
    rw [compareTo_some, thenBy_eq_zero_iff] at h
    have hinstant := Instant.compareTo_consistent.nullLast
    obtain ⟨af, at'⟩ := a
    obtain ⟨bf, bt⟩ := b
    obtain rfl : af = bf := hinstant.eq_of_zero _ _ h.1
    obtain rfl : at' = bt := hinstant.eq_of_zero _ _ h.2
    rfl

/-- A null from is last. -/
lemma compareTo_neg_of_from {a b : EffectiveDates} (ha : a.effectiveFrom ≠ none)
    (hb : b.effectiveFrom = none) : a.compareTo (some b) < 0 := by
  obtain ⟨from', ha⟩ := Option.ne_none_iff_exists'.mp ha
  rw [compareTo_some, thenBy_lt_iff, ha, hb]
  exact Or.inl (by simp)

/-- Of two dates with one from, a null to is last. -/
lemma compareTo_neg_of_to {a b : EffectiveDates} (hfrom : a.effectiveFrom = b.effectiveFrom)
    (ha : a.effectiveTo ≠ none) (hb : b.effectiveTo = none) : a.compareTo (some b) < 0 := by
  obtain ⟨to', ha⟩ := Option.ne_none_iff_exists'.mp ha
  have htie := Instant.compareTo_consistent.nullLast.refl b.effectiveFrom
  rw [compareTo_some, thenBy_lt_iff, hfrom, ha, hb]
  exact Or.inr ⟨htie, by simp⟩

/-- The sums of `compareTo` stay within an `int`. -/
lemma natAbs_compareTo_lt (a : EffectiveDates) (b : Option EffectiveDates) :
    (a.compareTo b).natAbs < 1000000000 := by
  have hinstant : ∀ i j : Instant, (i.compareTo j).natAbs < 1000000000 := by
    intro i j
    have hi := i.nanos_lt
    have hj := j.nanos_lt
    unfold Instant.compareTo
    split_ifs <;> omega
  rcases b with _ | b
  · rw [compareTo]
    decide
  · obtain ⟨_ | af, _ | at'⟩ := a <;> obtain ⟨_ | bf, _ | bt⟩ := b <;>
      simp only [compareTo, zero_add] <;> split_ifs <;> simp_all

end EffectiveDates

/-! ## `CompareToBuilder` -/

/-- `CompareToBuilder.append`: nothing is compared once a comparison has decided, and null comes
first. -/
def CompareToBuilder.append {α : Type} (compareTo : α → α → ℤ) (lhs rhs : Option α)
    (comparison : ℤ) : ℤ :=
  if comparison ≠ 0 then comparison else nullFirst compareTo lhs rhs

/-- `CompareToBuilder.appendSuper`. -/
def CompareToBuilder.appendSuper (superCompareTo comparison : ℤ) : ℤ :=
  if comparison ≠ 0 then comparison else superCompareTo

namespace LogItems

variable {δ : Type} [LinearOrder δ] {c : LogItemClass}

/-- `Comparable.class.isAssignableFrom(type)`. -/
def FieldType.isComparable : FieldType → Bool
  | differentialFromMarker => false
  | _ => true

/-- The `compareTo` of the values of a type, if they are `Comparable`. -/
def FieldType.comparator (δ : Type) [LinearOrder δ] :
    (t : FieldType) → Option (t.Value δ → t.Value δ → ℤ)
  | integer => some natural
  | string => some Utf16.compareTo
  | double => some natural
  | instant => some Instant.compareTo
  | effectiveDates => some fun a b => a.compareTo (some b)
  | differentialFromMarker => none

lemma FieldType.isSome_comparator (t : FieldType) :
    (t.comparator δ).isSome = t.isComparable := by
  cases t <;> rfl

lemma FieldType.comparator_consistent (t : FieldType) :
    ∀ cmp ∈ t.comparator δ, Consistent cmp := by
  intro cmp hcmp
  cases t <;> cases hcmp
  case integer => exact natural_consistent
  case string => exact Utf16.compareTo_consistent
  case double => exact natural_consistent
  case instant => exact Instant.compareTo_consistent
  case effectiveDates => exact EffectiveDates.compareTo_consistent

/-- The order in which `Arrays.sort` puts the fields. -/
def compareNames (f g : Field) : ℤ := Utf16.compareTo f.name g.name

/-- The fields that `LogItem.compareTo` compares. -/
def comparedFields (c : LogItemClass) : List Field :=
  (declaredFields c).filter fun f => f.name ≠ "id" && f.type.isComparable

namespace LogItem

/-- The dates, which `LogItem.compareTo` compares first. -/
def byDate (x y : LogItem δ c) : ℤ :=
  CompareToBuilder.append (fun a b => a.compareTo (some b))
    x.getEffectiveDates y.getEffectiveDates 0

/-- The loop of `LogItem.compareTo` over the declared fields. -/
def byFields (fields : List Field) (x y : LogItem δ c) (builder : ℤ) : ℤ :=
  fields.foldl (fun builder field =>
    if field.name = "id" then builder
    else
      match field.type.comparator δ with
      | some compareTo => CompareToBuilder.append compareTo (x.get field) (y.get field) builder
      | none => builder) builder

/-- `LogItem.compareTo`. -/
def superCompareTo (x y : LogItem δ c) : ℤ :=
  if byDate x y ≠ 0 then byDate x y
  else byFields (StableSort.sorted compareNames (declaredFields c)) x y 0

/-- `compareTo` of a class: `SurveyedLocalTieLogItem` overrides the one of `LogItem`. -/
def compareTo (x y : LogItem δ c) : ℤ :=
  match c with
  | .surveyedLocalTie =>
    CompareToBuilder.append Utf16.compareTo (x.get ⟨"tiedMarkerName", .string⟩)
      (y.get ⟨"tiedMarkerName", .string⟩) (CompareToBuilder.appendSuper (superCompareTo x y) 0)
  | _ => superCompareTo x y

/-! ## The comparisons in a row -/

/-- The comparison that the loop makes of a field, if it makes one. -/
def fieldComparator (field : Field) : Option (LogItem δ c → LogItem δ c → ℤ) :=
  if field.name = "id" then none
  else (field.type.comparator δ).map fun cmp x y => nullFirst cmp (x.get field) (y.get field)

/-- The comparisons that the loop makes. -/
def fieldComparators (fields : List Field) : List (LogItem δ c → LogItem δ c → ℤ) :=
  fields.filterMap fieldComparator

lemma byFields_eq (fields : List Field) (x y : LogItem δ c) (builder : ℤ) :
    byFields fields x y builder =
      (fieldComparators fields).foldl
        (fun comparison cmp => if comparison ≠ 0 then comparison else cmp x y) builder := by
  induction fields generalizing builder with
  | nil => rfl
  | cons field fields ih =>
      rw [byFields, List.foldl_cons, ← byFields, ih]
      by_cases hid : field.name = "id"
      · have hnone : fieldComparator (δ := δ) (c := c) field = none := if_pos hid
        rw [if_pos hid, fieldComparators, fieldComparators, List.filterMap_cons_none hnone]
      · rw [if_neg hid]
        cases hcmp : field.type.comparator δ with
        | none =>
            have hnone : fieldComparator (δ := δ) (c := c) field = none := by
              rw [fieldComparator, if_neg hid, hcmp, Option.map_none]
            rw [fieldComparators, fieldComparators, List.filterMap_cons_none hnone]
        | some cmp =>
            have hsome : fieldComparator (δ := δ) (c := c) field =
                some fun x y => nullFirst cmp (x.get field) (y.get field) := by
              rw [fieldComparator, if_neg hid, hcmp, Option.map_some]
            rw [fieldComparators, fieldComparators, List.filterMap_cons_some hsome,
              List.foldl_cons]
            rfl

lemma superCompareTo_eq (x y : LogItem δ c) :
    superCompareTo x y =
      thenBy byDate (chain (fieldComparators (StableSort.sorted compareNames (declaredFields c))))
        x y := by
  rw [superCompareTo, thenBy, byFields_eq]
  rfl

lemma mem_fieldComparators {fields : List Field} {cmp : LogItem δ c → LogItem δ c → ℤ} :
    cmp ∈ fieldComparators fields ↔
      ∃ f ∈ fields, f.name ≠ "id" ∧ ∃ k ∈ f.type.comparator δ,
        cmp = fun x y => nullFirst k (x.get f) (y.get f) := by
  rw [fieldComparators, List.mem_filterMap]
  constructor
  · rintro ⟨f, hf, heq⟩
    unfold fieldComparator at heq
    split_ifs at heq with hid
    obtain ⟨k, hk, rfl⟩ := Option.map_eq_some_iff.mp heq
    exact ⟨f, hf, hid, k, hk, rfl⟩
  · rintro ⟨f, hf, hid, k, hk, rfl⟩
    refine ⟨f, hf, ?_⟩
    rw [fieldComparator, if_neg hid, Option.mem_def.mp hk, Option.map_some]

omit [LinearOrder δ] in
lemma byDate_contract : Contract (byDate (δ := δ) (c := c)) :=
  EffectiveDates.compareTo_consistent.toContract.nullFirst.comap getEffectiveDates

lemma superCompareTo_contract : Contract (superCompareTo (δ := δ) (c := c)) := by
  have heq : superCompareTo (δ := δ) (c := c) =
      thenBy byDate
        (chain (fieldComparators (StableSort.sorted compareNames (declaredFields c)))) :=
    funext fun x => funext fun y => superCompareTo_eq x y
  rw [heq]
  refine byDate_contract.thenBy (Contract.chain fun cmp hcmp => ?_)
  obtain ⟨f, -, -, k, hk, rfl⟩ := mem_fieldComparators.mp hcmp
  exact (f.type.comparator_consistent k hk).toContract.nullFirst.comap
    fun x : LogItem δ c => x.get f

/-- The comparison that `SurveyedLocalTieLogItem` appends. -/
def byTiedMarkerName (x y : LogItem δ .surveyedLocalTie) : ℤ :=
  nullFirst Utf16.compareTo (x.get ⟨"tiedMarkerName", .string⟩) (y.get ⟨"tiedMarkerName", .string⟩)

lemma compareTo_surveyedLocalTie (x y : LogItem δ .surveyedLocalTie) :
    compareTo x y = thenBy superCompareTo byTiedMarkerName x y := rfl

/-- Whatever the class, `compareTo` is a comparison function. -/
lemma compareTo_contract : Contract (compareTo (δ := δ) (c := c)) := by
  cases c
  case surveyedLocalTie =>
    have hname : Contract (byTiedMarkerName (δ := δ)) :=
      Utf16.compareTo_consistent.toContract.nullFirst.comap
        fun x : LogItem δ .surveyedLocalTie => x.get ⟨"tiedMarkerName", .string⟩
    exact superCompareTo_contract.thenBy hname
  all_goals exact superCompareTo_contract

/-- The dates decide before everything else. -/
lemma compareTo_neg_of_byDate {x y : LogItem δ c} (h : byDate x y < 0) : compareTo x y < 0 := by
  have hsuper : superCompareTo x y < 0 := by
    rw [superCompareTo, if_pos h.ne]
    exact h
  cases c
  case surveyedLocalTie =>
    rw [compareTo_surveyedLocalTie, thenBy_lt_iff]
    exact Or.inl hsuper
  all_goals exact hsuper

/-! ## The fields that count -/

lemma superCompareTo_eq_zero_iff (x y : LogItem δ c) :
    superCompareTo x y = 0 ↔
      x.getEffectiveDates = y.getEffectiveDates ∧ ∀ f ∈ comparedFields c, x.get f = y.get f := by
  rw [superCompareTo_eq, thenBy_eq_zero_iff, chain_eq_zero_iff]
  refine and_congr (EffectiveDates.compareTo_consistent.nullFirst.zero_iff _ _) ?_
  constructor
  · intro h f hf
    obtain ⟨hdeclared, hf⟩ := List.mem_filter.mp hf
    rw [Bool.and_eq_true, decide_eq_true_iff, ← FieldType.isSome_comparator (δ := δ)] at hf
    obtain ⟨k, hk⟩ := Option.isSome_iff_exists.mp hf.2
    have hmem := (StableSort.sorted_perm compareNames _).symm.subset hdeclared
    exact (f.type.comparator_consistent k hk).nullFirst.eq_of_zero _ _
      (h _ (mem_fieldComparators.mpr ⟨f, hmem, hf.1, k, hk, rfl⟩))
  · intro h cmp hcmp
    obtain ⟨f, hf, hid, k, hk, rfl⟩ := mem_fieldComparators.mp hcmp
    have hdeclared := (StableSort.sorted_perm compareNames _).subset hf
    have hsome : f.type.isComparable = true := by
      rw [← FieldType.isSome_comparator (δ := δ), Option.mem_def.mp hk]
      rfl
    have hf' : f ∈ comparedFields c := List.mem_filter.mpr ⟨hdeclared, by simp [hid, hsome]⟩
    rw [(f.type.comparator_consistent k hk).nullFirst.zero_iff]
    exact h f hf'

/-- Items compare as equal when the dates and the compared fields are equal. -/
lemma compareTo_eq_zero_iff (x y : LogItem δ c) :
    compareTo x y = 0 ↔
      x.getEffectiveDates = y.getEffectiveDates ∧ ∀ f ∈ comparedFields c, x.get f = y.get f := by
  rw [← superCompareTo_eq_zero_iff]
  cases c
  case surveyedLocalTie =>
    rw [compareTo_surveyedLocalTie, thenBy_eq_zero_iff]
    refine and_iff_left_of_imp fun h => ?_
    have hname := ((superCompareTo_eq_zero_iff x y).mp h).2 ⟨"tiedMarkerName", .string⟩ (by decide)
    exact (Utf16.compareTo_consistent.nullFirst.zero_iff _ _).mpr hname
  all_goals rfl

end LogItem

/-- **Log items are totally preordered.**  Effective dates are totally ordered, with a null from or
to last.  Items of a class are ordered by the dates, absent dates first, and then further, up to
items that compare as equal. -/
theorem compareTo_totalPreorder :
    (∀ a b : EffectiveDates, (a.compareTo (some b)).sign = -(b.compareTo (some a)).sign) ∧
    (∀ a b c : EffectiveDates,
      a.compareTo (some b) ≤ 0 → b.compareTo (some c) ≤ 0 → a.compareTo (some c) ≤ 0) ∧
    (∀ a b : EffectiveDates, a.compareTo (some b) = 0 ↔ a.equals (some b) = true) ∧
    (∀ a b : EffectiveDates, a.effectiveFrom ≠ none → b.effectiveFrom = none →
      a.compareTo (some b) < 0) ∧
    (∀ a b : EffectiveDates, a.effectiveFrom = b.effectiveFrom → a.effectiveTo ≠ none →
      b.effectiveTo = none → a.compareTo (some b) < 0) ∧
    ∀ (c : LogItemClass) (x y z : LogItem δ c),
      (x.compareTo y).sign = -(y.compareTo x).sign ∧
      (x.compareTo y ≤ 0 → y.compareTo z ≤ 0 → x.compareTo z ≤ 0) ∧
      (x.compareTo y < 0 → y.compareTo z < 0 → x.compareTo z < 0) ∧
      (x.compareTo y = 0 → y.compareTo z = 0 → x.compareTo z = 0) ∧
      (x.compareTo y = 0 → (x.compareTo z).sign = (y.compareTo z).sign) ∧
      (nullFirst (fun a b : EffectiveDates => a.compareTo (some b))
        x.getEffectiveDates y.getEffectiveDates < 0 → x.compareTo y < 0) ∧
      (x.getEffectiveDates = none → y.getEffectiveDates ≠ none → x.compareTo y < 0) := by
  have hdates := EffectiveDates.compareTo_consistent
  refine ⟨hdates.sign_eq_neg_sign, fun _ _ _ => hdates.trans, ?_,
    fun _ _ => EffectiveDates.compareTo_neg_of_from, fun _ _ => EffectiveDates.compareTo_neg_of_to,
    ?_⟩
  · intro a b
    rw [EffectiveDates.equals_iff]
    exact hdates.zero_iff a b
  · intro c x y z
    have hitems := LogItem.compareTo_contract (δ := δ) (c := c)
    refine ⟨hitems.sign_eq_neg_sign x y, hitems.trans, fun hxy hyz =>
      hitems.lt_of_lt_of_le hxy hyz.le, hitems.tie_trans, fun h => ?_,
      LogItem.compareTo_neg_of_byDate, fun hx hy => ?_⟩
    · exact hitems.sign_eq_of_tie h z
    · refine LogItem.compareTo_neg_of_byDate ?_
      obtain ⟨dates, hy⟩ := Option.ne_none_iff_exists'.mp hy
      rw [LogItem.byDate, hx, hy]
      exact (by decide : (-1 : ℤ) < 0)

end LogItems

end Geodesy
