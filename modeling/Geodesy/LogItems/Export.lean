import Geodesy.LogItems.CompareTo

/-!
# The order of exported log items

`ListToSet.from` exports the set of the log items of a class as a sorted list.  The set is one of
objects with identity, and it is iterated in any order; the list is the same for every order if and
only if the items that compare as equal have the same content (`exported_canonical_iff`).

They need not have.  `LogItem.compareTo` sees the dates and the fields that the class itself
declares, so it misses those of `uncomparedFields`.
-/

namespace Geodesy.LogItems

open Comparator StableSort

variable {δ : Type} [LinearOrder δ] {c : LogItemClass} {P : Type}

/-- `ListToSet.from`, where the set is iterated in the order of the list. -/
def ListToSet.fromSet (elementFrom : LogItem δ c → P) (set : List (LogItem δ c)) : List P :=
  (sorted LogItem.compareTo set).map elementFrom

/-- The order in which the items of a class are exported. -/
lemma pairwise_sorted_compareTo (xs : List (LogItem δ c)) :
    (sorted LogItem.compareTo xs).Pairwise fun x y => x.compareTo y ≤ 0 :=
  pairwise_sorted LogItem.compareTo_contract xs

/-- The fields that are stored, other than the key. -/
def contentFields (c : LogItemClass) : List Field := (allFields c).filter (·.name ≠ "id")

/-- The fields that `LogItem.compareTo` misses: `differentialFromMarker`, which is not `Comparable`,
and the inherited ones other than `effectiveDates`. -/
def uncomparedFields (c : LogItemClass) : List Field :=
  (declaredFields c).filter (·.type = .differentialFromMarker) ++
    (inheritedFields c).filter (· ≠ effectiveDatesField)

lemma mem_of_mem_contentFields : ∀ {f : Field}, f ∈ contentFields c →
    f ∈ comparedFields c ∨ f ∈ uncomparedFields c ∨
      f = effectiveDatesField ∧ effectiveDatesField ∈ allFields c := by
  have hall : ∀ f ∈ contentFields c, f ∈ comparedFields c ∨ f ∈ uncomparedFields c ∨
      f = effectiveDatesField ∧ effectiveDatesField ∈ allFields c := by
    cases c <;> decide
  exact fun {f} hf => hall f hf

lemma uncomparedFields_subset : ∀ f ∈ uncomparedFields c, f ∈ contentFields c := by
  cases c <;> decide

/-- The two items are the same but for their keys. -/
def LogItem.SameContent (x y : LogItem δ c) : Prop := ∀ f ∈ contentFields c, x.get f = y.get f

/-- Items that agree in their dates and in the compared fields of their class also agree in the
uncompared ones. -/
def TiesAgree (xs : List (LogItem δ c)) : Prop :=
  ∀ x ∈ xs, ∀ y ∈ xs, x.getEffectiveDates = y.getEffectiveDates →
    (∀ f ∈ comparedFields c, x.get f = y.get f) →
      ∀ f ∈ uncomparedFields c, x.get f = y.get f

/-- What compares as equal is the same, for a class, up to the uncompared fields. -/
lemma sameContent_iff_of_tie {x y : LogItem δ c} (h : x.compareTo y = 0) :
    x.SameContent y ↔ ∀ f ∈ uncomparedFields c, x.get f = y.get f := by
  obtain ⟨hdates, hfields⟩ := (LogItem.compareTo_eq_zero_iff x y).mp h
  constructor
  · exact fun hsame f hf => hsame f (uncomparedFields_subset f hf)
  · intro huncompared f hf
    rcases mem_of_mem_contentFields hf with hmem | hmem | ⟨rfl, hmem⟩
    · exact hfields f hmem
    · exact huncompared f hmem
    · rw [← x.getEffectiveDates_of_mem hmem, ← y.getEffectiveDates_of_mem hmem, hdates]

lemma ties_sameContent_iff (xs : List (LogItem δ c)) :
    (∀ x ∈ xs, ∀ y ∈ xs, x.compareTo y = 0 → x.SameContent y) ↔ TiesAgree xs := by
  constructor
  · intro h x hx y hy hdates hfields
    have htie := (LogItem.compareTo_eq_zero_iff x y).mpr ⟨hdates, hfields⟩
    exact (sameContent_iff_of_tie htie).mp (h x hx y hy htie)
  · intro h x hx y hy htie
    obtain ⟨hdates, hfields⟩ := (LogItem.compareTo_eq_zero_iff x y).mp htie
    exact (sameContent_iff_of_tie htie).mpr (h x hx y hy hdates hfields)

/-- The content of an item. -/
def LogItem.content (x : LogItem δ c) (f : Field) : Option (f.type.Value δ) :=
  if f ∈ contentFields c then x.get f else none

omit [LinearOrder δ] in
lemma LogItem.content_eq_iff {x y : LogItem δ c} : x.content = y.content ↔ x.SameContent y := by
  constructor
  · intro h f hf
    have := congrFun h f
    rwa [content, content, if_pos hf, if_pos hf] at this
  · intro h
    funext f
    unfold content
    split_ifs with hf
    · exact h f hf
    · rfl

/-- **When the exported order is canonical.**  Items that compare as equal have the same content,
and every mapper that sees only the content gives one list whatever the order of the set, if and
only if items that agree in the compared fields agree in the others. -/
theorem exported_canonical_iff (c : LogItemClass) (xs : List (LogItem δ c)) :
    ((∀ x ∈ xs, ∀ y ∈ xs, x.compareTo y = 0 → x.SameContent y) ↔ TiesAgree xs) ∧
    ((∀ (P : Type) (elementFrom : LogItem δ c → P),
        (∀ x y, x.SameContent y → elementFrom x = elementFrom y) →
        ∀ ys zs, ys.Perm xs → zs.Perm xs →
          ListToSet.fromSet elementFrom ys = ListToSet.fromSet elementFrom zs) ↔
      TiesAgree xs) := by
  refine ⟨ties_sameContent_iff xs, ?_⟩
  rw [← ties_sameContent_iff]
  constructor
  · intro h x hx y hy htie
    have hcanonical := (sorted_canonical_iff LogItem.compareTo_contract LogItem.content xs).mp
      fun ys hys => h _ LogItem.content (fun _ _ => LogItem.content_eq_iff.mpr) ys xs hys (.refl xs)
    exact LogItem.content_eq_iff.mp (hcanonical x hx y hy htie)
  · intro h P elementFrom helement ys zs hys hzs
    have hcanonical := (sorted_canonical_iff LogItem.compareTo_contract elementFrom xs).mpr
      fun x hx y hy htie => helement x y (h x hx y hy htie)
    exact (hcanonical ys hys).trans (hcanonical zs hzs).symm

/-- A signal obstruction without dates. -/
def obstruction (possibleProblemSource : String) : LogItem ℤ .signalObstruction :=
  .ofValues .signalObstruction fun f =>
    match f with
    | ⟨"possibleProblemSource", .string⟩ => some possibleProblemSource
    | _ => none

/-- Two obstructions compare as equal and are exported in the order of the set. -/
theorem obstructions_not_canonical :
    (obstruction "TREE").compareTo (obstruction "TOWER") = 0 ∧
    ¬(obstruction "TREE").SameContent (obstruction "TOWER") ∧
    ListToSet.fromSet LogItem.content [obstruction "TREE", obstruction "TOWER"] ≠
      ListToSet.fromSet LogItem.content [obstruction "TOWER", obstruction "TREE"] := by
  refine ⟨by decide, fun h => ?_, fun h => ?_⟩
  · exact absurd (h ⟨"possibleProblemSource", .string⟩ (by decide)) (by decide)
  · have hsources := congrArg (List.map (· ⟨"possibleProblemSource", .string⟩)) h
    exact absurd hsources (by decide)

end Geodesy.LogItems
