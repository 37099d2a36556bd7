import Mathlib.Data.List.Perm.Basic
import Mathlib.Data.List.Nodup

/-!
# Lists grouped by a key

`grouped keys key xs` lists the elements of `xs` key by key, those of one key in the order of `xs`.
If every element has one of the keys, and no key is listed twice, nothing is lost or repeated.
-/

namespace Grouping

variable {α κ : Type*} [DecidableEq κ]

/-- The elements of each key in turn. -/
def grouped (keys : List κ) (key : α → κ) (xs : List α) : List α :=
  keys.flatMap fun k => xs.filter (key · = k)

/-- An element with a key of its own group goes there. -/
lemma grouped_cons_perm {keys : List κ} (hkeys : keys.Nodup) {key : α → κ} {x : α}
    (hx : key x ∈ keys) (xs : List α) :
    (grouped keys key (x :: xs)).Perm (x :: grouped keys key xs) := by
  induction keys with
  | nil => cases hx
  | cons k keys ih =>
      obtain ⟨hk, hkeys⟩ := List.nodup_cons.mp hkeys
      simp only [grouped, List.flatMap_cons] at ih ⊢
      rcases List.mem_cons.mp hx with hxk | hmem
      · have hrest : keys.flatMap (fun k => (x :: xs).filter (key · = k))
            = keys.flatMap fun k => xs.filter (key · = k) := by
          refine List.flatMap_congr fun j hj => ?_
          rw [List.filter_cons_of_neg]
          simp only [decide_eq_true_eq]
          rintro rfl
          exact hk (hxk ▸ hj)
        rw [hrest, List.filter_cons_of_pos (by simpa using hxk), List.cons_append]
      · have hne : ¬key x = k := by
          rintro rfl
          exact hk hmem
        rw [List.filter_cons_of_neg (by simpa using hne)]
        exact ((ih hkeys hmem).append_left _).trans List.perm_middle

/-- Grouping neither loses nor repeats anything. -/
theorem grouped_perm {keys : List κ} (hkeys : keys.Nodup) {key : α → κ} {xs : List α}
    (hxs : ∀ x ∈ xs, key x ∈ keys) : (grouped keys key xs).Perm xs := by
  induction xs with
  | nil => simp [grouped]
  | cons x xs ih =>
      rw [List.forall_mem_cons] at hxs
      exact (grouped_cons_perm hkeys hxs.1 xs).trans ((ih hxs.2).cons x)

end Grouping
