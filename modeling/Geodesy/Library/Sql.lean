import Mathlib.Order.Lattice
import Mathlib.Data.Option.Basic

/-!
# Predicates of a query

A condition of a query is true, false or unknown of a row: a comparison with null is unknown, and a
row is selected when the condition is true of it.  `Holds` says that, and the connectives keep it
compositional.  Without a negation "unknown" and "false" need not be told apart.

A `Builder` is a condition that is put together step by step and may be empty: adding nothing to it
leaves it as it is, and an empty one adds nothing.
-/

namespace Sql

variable {ρ α : Type*}

/-- A condition on the rows: true, false or unknown. -/
abbrev Predicate (ρ : Type*) := ρ → Option Bool

namespace Predicate

/-- The row is selected. -/
def Holds (p : Predicate ρ) (r : ρ) : Prop := p r = some true

instance (p : Predicate ρ) (r : ρ) : Decidable (p.Holds r) := inferInstanceAs (Decidable (_ = _))

/-- Conjunction: false if one side is, whatever the other. -/
def and (p q : Predicate ρ) : Predicate ρ := fun r =>
  match p r, q r with
  | some false, _ => some false
  | _, some false => some false
  | some true, some true => some true
  | _, _ => none

/-- Disjunction: true if one side is, whatever the other. -/
def or (p q : Predicate ρ) : Predicate ρ := fun r =>
  match p r, q r with
  | some true, _ => some true
  | _, some true => some true
  | some false, some false => some false
  | _, _ => none

@[simp] lemma holds_and (p q : Predicate ρ) (r : ρ) :
    (p.and q).Holds r ↔ p.Holds r ∧ q.Holds r := by
  unfold Holds and
  rcases p r with _ | _ | _ <;> rcases q r with _ | _ | _ <;> simp

@[simp] lemma holds_or (p q : Predicate ρ) (r : ρ) :
    (p.or q).Holds r ↔ p.Holds r ∨ q.Holds r := by
  unfold Holds or
  rcases p r with _ | _ | _ <;> rcases q r with _ | _ | _ <;> simp

end Predicate

/-! ## Comparisons of a column -/

/-- `column = v`. -/
def eq [DecidableEq α] (column : ρ → Option α) (v : α) : Predicate ρ :=
  fun r => (column r).map fun x => decide (x = v)

/-- `column >= v`. -/
def goe [LinearOrder α] (column : ρ → Option α) (v : α) : Predicate ρ :=
  fun r => (column r).map fun x => decide (v ≤ x)

/-- `column <= v`. -/
def loe [LinearOrder α] (column : ρ → Option α) (v : α) : Predicate ρ :=
  fun r => (column r).map fun x => decide (x ≤ v)

/-- `column is null`, which is never unknown. -/
def isNull (column : ρ → Option α) : Predicate ρ := fun r => some (column r).isNone

@[simp] lemma holds_eq [DecidableEq α] (column : ρ → Option α) (v : α) (r : ρ) :
    (eq column v).Holds r ↔ column r = some v := by
  unfold Predicate.Holds eq
  cases column r <;> simp

@[simp] lemma holds_goe [LinearOrder α] (column : ρ → Option α) (v : α) (r : ρ) :
    (goe column v).Holds r ↔ ∃ x ∈ column r, v ≤ x := by
  unfold Predicate.Holds goe
  cases column r <;> simp

@[simp] lemma holds_loe [LinearOrder α] (column : ρ → Option α) (v : α) (r : ρ) :
    (loe column v).Holds r ↔ ∃ x ∈ column r, x ≤ v := by
  unfold Predicate.Holds loe
  cases column r <;> simp

@[simp] lemma holds_isNull (column : ρ → Option α) (r : ρ) :
    (isNull column).Holds r ↔ column r = none := by
  simp [Predicate.Holds, isNull]

/-! ## Queries -/

/-- The rows that a query selects. -/
def select (p : Predicate ρ) (rows : List ρ) : List ρ := rows.filter fun r => p.Holds r

@[simp] lemma mem_select {p : Predicate ρ} {rows : List ρ} {r : ρ} :
    r ∈ select p rows ↔ r ∈ rows ∧ p.Holds r := by
  simp [select]

/-- A condition under construction; at first there is none. -/
abbrev Builder (ρ : Type*) := Option (Predicate ρ)

namespace Builder

/-- Adds a condition that has to hold as well. -/
def and (b : Builder ρ) (right : Option (Predicate ρ)) : Builder ρ :=
  match b, right with
  | b, none => b
  | none, some q => some q
  | some p, some q => some (p.and q)

/-- Adds a condition that may hold instead. -/
def or (b : Builder ρ) (right : Option (Predicate ρ)) : Builder ρ :=
  match b, right with
  | b, none => b
  | none, some q => some q
  | some p, some q => some (p.or q)

end Builder

/-- A condition with one that may be missing. -/
def Predicate.andAlso (p : Predicate ρ) (right : Builder ρ) : Predicate ρ :=
  match right with
  | none => p
  | some q => p.and q

end Sql
