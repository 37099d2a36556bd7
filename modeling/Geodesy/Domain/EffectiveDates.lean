import Geodesy.Library.Periods
import Mathlib.Order.Interval.Set.Basic

/-!
# Instants and effective dates

`Instant` is `java.time.Instant`: a second of the epoch and a nanosecond within it.  Its
`compareTo` is the one of the JDK, which returns the *difference* of the nanoseconds when the
seconds agree, so a later instant does not always compare as `1`.

`EffectiveDates` has two nullable bounds.  `EffectiveDates.toPeriod` reads it as a `Period`, a null
bound being unbounded, and `lcd_spec` says that `NodeService.lcd` computes the intersection.
-/

namespace Geodesy

/-- `java.time.Instant`. -/
structure Instant where
  seconds : ℤ
  nanos : ℕ
  nanos_lt : nanos < 1000000000
  deriving DecidableEq, Repr

namespace Instant

/-- Nanoseconds since the epoch; the order of instants is the order of these. -/
def toNanos (i : Instant) : ℤ := i.seconds * 1000000000 + i.nanos

lemma toNanos_injective : Function.Injective toNanos := by
  rintro ⟨s, n, hn⟩ ⟨t, m, hm⟩ h
  simp only [toNanos] at h
  obtain rfl : s = t := by omega
  obtain rfl : n = m := by omega
  rfl

instance : LinearOrder Instant := LinearOrder.lift' toNanos toNanos_injective

lemma lt_iff (a b : Instant) : a < b ↔ a.toNanos < b.toNanos := Iff.rfl

/-- `Instant.ofEpochSecond`. -/
def ofEpochSecond (s : ℤ) : Instant := ⟨s, 0, by decide⟩

/-- `Instant.compareTo`: by seconds, and within a second the difference of the nanoseconds. -/
def compareTo (a b : Instant) : ℤ :=
  if a.seconds < b.seconds then -1
  else if b.seconds < a.seconds then 1
  else (a.nanos : ℤ) - b.nanos

lemma compareTo_nonpos_iff {a b : Instant} : a.compareTo b ≤ 0 ↔ a ≤ b := by
  rw [← not_lt (a := b), lt_iff, toNanos, toNanos]
  have ha := a.nanos_lt
  have hb := b.nanos_lt
  simp only [compareTo]
  split_ifs <;> omega

lemma compareTo_nonneg_iff {a b : Instant} : 0 ≤ a.compareTo b ↔ b ≤ a := by
  rw [← not_lt (a := a), lt_iff, toNanos, toNanos]
  have ha := a.nanos_lt
  have hb := b.nanos_lt
  simp only [compareTo]
  split_ifs <;> omega

/-- A positive comparison means "later". -/
lemma lt_of_compareTo_eq_one {a b : Instant} (h : a.compareTo b = 1) : b < a := by
  obtain ⟨s, n, hn⟩ := a
  obtain ⟨t, m, hm⟩ := b
  simp only [lt_iff, toNanos]
  simp only [compareTo] at h
  split_ifs at h <;> omega

/-- The converse holds for instants of whole seconds; within a second `compareTo` returns the
difference of the nanoseconds instead of `1`. -/
lemma compareTo_eq_one_of_lt {a b : Instant} (ha : a.nanos = 0) (hb : b.nanos = 0) (h : b < a) :
    a.compareTo b = 1 := by
  obtain ⟨s, n, hn⟩ := a
  obtain ⟨t, m, hm⟩ := b
  simp only [lt_iff, toNanos] at h
  simp only at ha hb
  subst ha hb
  simp only [compareTo]
  split_ifs <;> omega

example : (⟨20, 700000000, by decide⟩ : Instant).compareTo ⟨20, 300000000, by decide⟩ = 400000000 :=
  by decide

end Instant

/-- `EffectiveDates`: a nullable from and a nullable to. -/
structure EffectiveDates where
  effectiveFrom : Option Instant
  effectiveTo : Option Instant
  deriving DecidableEq, Repr

namespace EffectiveDates

/-- What is read back for an embedded `EffectiveDates`: two null columns are a null object. -/
def reload : Option EffectiveDates → Option EffectiveDates
  | some ⟨none, none⟩ => none
  | dates => dates

@[simp] lemma reload_reload (d : Option EffectiveDates) : reload (reload d) = reload d := by
  rcases d with _ | ⟨_ | _, _ | _⟩ <;> rfl

/-- `dates == null ? null : dates.getFrom()`. -/
def getFrom (dates : Option EffectiveDates) : Option Instant := dates.bind effectiveFrom

/-- `dates == null ? null : dates.getTo()`. -/
def getTo (dates : Option EffectiveDates) : Option Instant := dates.bind effectiveTo

@[simp] lemma getFrom_none : getFrom none = none := rfl
@[simp] lemma getFrom_some (p : EffectiveDates) : getFrom (some p) = p.effectiveFrom := rfl
@[simp] lemma getTo_none : getTo none = none := rfl
@[simp] lemma getTo_some (p : EffectiveDates) : getTo (some p) = p.effectiveTo := rfl

@[simp] lemma getFrom_reload (d : Option EffectiveDates) : getFrom (reload d) = getFrom d := by
  rcases d with _ | ⟨_ | _, _ | _⟩ <;> rfl

@[simp] lemma getTo_reload (d : Option EffectiveDates) : getTo (reload d) = getTo d := by
  rcases d with _ | ⟨_ | _, _ | _⟩ <;> rfl

/-- A null from is unbounded below. -/
def lowBound : Option Instant → WithBot Instant
  | none => ⊥
  | some f => f

/-- A null to is unbounded above. -/
def highBound : Option Instant → WithTop Instant
  | none => ⊤
  | some t => t

@[simp] lemma lowBound_none : lowBound none = ⊥ := rfl
@[simp] lemma lowBound_some (f : Instant) : lowBound (some f) = f := rfl
@[simp] lemma highBound_none : highBound none = ⊤ := rfl
@[simp] lemma highBound_some (t : Instant) : highBound (some t) = t := rfl

lemma lowBound_injective : Function.Injective lowBound := by
  rintro (_ | f) (_ | g) h
  · rfl
  · cases h
  · cases h
  · rw [lowBound_some, lowBound_some, WithBot.coe_inj] at h
    rw [h]

/-- The period that nullable dates stand for. -/
def toPeriod (d : Option EffectiveDates) : Period Instant :=
  ⟨lowBound (getFrom d), highBound (getTo d)⟩

@[simp] lemma toPeriod_reload (d : Option EffectiveDates) : toPeriod (reload d) = toPeriod d := by
  simp [toPeriod]

/-- `EffectiveDates.inRange`. -/
def inRange (p : EffectiveDates) (time : Option Instant) : Bool :=
  match time with
  | none => false
  | some time =>
    (match p.effectiveFrom with
      | none => true
      | some f => decide (f.compareTo time ≤ 0))
    && (match p.effectiveTo with
      | none => true
      | some t => decide (t.compareTo time ≥ 0))

lemma inRange_iff (p : EffectiveDates) (t : Instant) :
    p.inRange (some t) = true ↔ (∀ f ∈ p.effectiveFrom, f ≤ t) ∧ ∀ e ∈ p.effectiveTo, t ≤ e := by
  obtain ⟨f, e⟩ := p
  cases f <;> cases e <;>
    simp [inRange, Instant.compareTo_nonpos_iff, Instant.compareTo_nonneg_iff]

end EffectiveDates

/-! ## The intersection of several periods -/

/-- `ComparatorUtils.nullLowComparator(NATURAL_COMPARATOR)`: null comes before every instant. -/
def nullLowComparator : Option Instant → Option Instant → Ordering
  | none, none => .eq
  | none, some _ => .lt
  | some _, none => .gt
  | some a, some b => compare a b

/-- `ComparatorUtils.nullHighComparator(NATURAL_COMPARATOR)`: null comes after every instant. -/
def nullHighComparator : Option Instant → Option Instant → Ordering
  | none, none => .eq
  | none, some _ => .gt
  | some _, none => .lt
  | some a, some b => compare a b

/-- `Collections.max`: the candidate is replaced by what compares greater.  An empty collection
throws `NoSuchElementException`. -/
def collectionsMax {α : Type*} (comparator : α → α → Ordering) : List α → Option α
  | [] => none
  | x :: xs => some (xs.foldl
      (fun candidate next => if comparator next candidate = .gt then next else candidate) x)

/-- `Collections.min`. -/
def collectionsMin {α : Type*} (comparator : α → α → Ordering) : List α → Option α
  | [] => none
  | x :: xs => some (xs.foldl
      (fun candidate next => if comparator next candidate = .lt then next else candidate) x)

/-- `NodeService.lcd`: the latest from, null counting as earliest, and the earliest to, null
counting as latest. -/
def lcd (es : List (Option EffectiveDates)) : Option EffectiveDates := do
  let effectiveFrom ← collectionsMax nullLowComparator (es.map EffectiveDates.getFrom)
  let effectiveTo ← collectionsMin nullHighComparator (es.map EffectiveDates.getTo)
  return ⟨effectiveFrom, effectiveTo⟩

lemma nullLowComparator_eq_gt (a b : Option Instant) :
    nullLowComparator a b = .gt ↔ EffectiveDates.lowBound b < EffectiveDates.lowBound a := by
  rcases a with _ | a <;> rcases b with _ | b <;> simp [nullLowComparator, compare_gt_iff_gt]

lemma nullHighComparator_eq_lt (a b : Option Instant) :
    nullHighComparator a b = .lt ↔ EffectiveDates.highBound a < EffectiveDates.highBound b := by
  rcases a with _ | a <;> rcases b with _ | b <;> simp [nullHighComparator, compare_lt_iff_lt]

/-- What a fold that keeps the greater candidate ends with is an upper bound and one of the
elements. -/
lemma foldl_candidate {α β : Type*} [LinearOrder β] (f : α → β) (better : α → α → Prop)
    [DecidableRel better] (hbetter : ∀ a b, better a b ↔ f b < f a) :
    ∀ (xs : List α) (x : α),
      xs.foldl (fun c n => if better n c then n else c) x ∈ x :: xs ∧
      ∀ y ∈ x :: xs, f y ≤ f (xs.foldl (fun c n => if better n c then n else c) x)
  | [], x => by simp
  | y :: ys, x => by
      simp only [List.foldl_cons]
      by_cases h : better y x
      · obtain ⟨hmem, hle⟩ := foldl_candidate f better hbetter ys y
        simp only [if_pos h]
        refine ⟨List.mem_cons_of_mem _ hmem, ?_⟩
        intro z hz
        rcases List.mem_cons.mp hz with rfl | hz
        · exact ((hbetter y z).mp h).le.trans (hle y (by simp))
        · exact hle z hz
      · obtain ⟨hmem, hle⟩ := foldl_candidate f better hbetter ys x
        simp only [if_neg h]
        refine ⟨?_, fun z hz => ?_⟩
        · rcases List.mem_cons.mp hmem with hx | hy
          · rw [hx]; exact List.mem_cons_self
          · exact List.mem_cons_of_mem _ (List.mem_cons_of_mem _ hy)
        · rcases List.mem_cons.mp hz with rfl | hz
          · exact hle z (by simp)
          · rcases List.mem_cons.mp hz with rfl | hz
            · have hle' := not_lt.mp fun h' => h ((hbetter z x).mpr h')
              exact hle'.trans (hle x (by simp))
            · exact hle z (List.mem_cons_of_mem _ hz)

/-- **`lcd` is the intersection.**  Of a non-empty list of periods it is contained in each, it
starts where one of them starts and ends where one of them ends. -/
theorem lcd_spec {es : List (Option EffectiveDates)} (hne : es ≠ []) :
    ∃ p, lcd es = some p ∧
      (∀ e ∈ es, EffectiveDates.toPeriod (some p) ≤ EffectiveDates.toPeriod e) ∧
      (∃ e ∈ es, p.effectiveFrom = EffectiveDates.getFrom e) ∧
      (∃ e ∈ es, p.effectiveTo = EffectiveDates.getTo e) := by
  obtain ⟨e, es, rfl⟩ := List.exists_cons_of_ne_nil hne
  obtain ⟨hfrom, hfromLe⟩ := foldl_candidate EffectiveDates.lowBound
    (fun a b => nullLowComparator a b = .gt) nullLowComparator_eq_gt
    (es.map EffectiveDates.getFrom) (EffectiveDates.getFrom e)
  obtain ⟨hto, htoLe⟩ := foldl_candidate
    (fun a => OrderDual.toDual (EffectiveDates.highBound a))
    (fun a b => nullHighComparator a b = .lt)
    (fun a b => (nullHighComparator_eq_lt a b).trans OrderDual.toDual_lt_toDual.symm)
    (es.map EffectiveDates.getTo) (EffectiveDates.getTo e)
  rw [← List.map_cons] at hfrom hfromLe hto htoLe
  refine ⟨_, rfl, fun d hd => ⟨?_, ?_⟩, ?_, ?_⟩
  · exact hfromLe _ (List.mem_map_of_mem hd)
  · exact htoLe _ (List.mem_map_of_mem hd)
  · obtain ⟨d, hd, heq⟩ := List.mem_map.mp hfrom
    exact ⟨d, hd, heq.symm⟩
  · obtain ⟨d, hd, heq⟩ := List.mem_map.mp hto
    exact ⟨d, hd, heq.symm⟩

end Geodesy
