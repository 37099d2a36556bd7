import Mathlib.Data.List.Forall2

/-!
# Lists matched one for one

`List.Forall₂ R xs ys` matches the elements of two lists in order.  Every element has a partner
(`exists_right`, `exists_left`), what matched elements agree on the lists agree on (`map_eq_map`),
and the relation may be exchanged for another that follows from it for the elements of the lists
(`imp_of_mem`).  Matchings are composed (`comp`), and a computation that succeeds for each element
matches the list with its results (`exists_mapM_eq_ok`), as does one that returned for the list
(`of_mapM_eq_ok`).
-/

/-- A `do` block returns when each of its steps does. -/
lemma Except.bind_eq_ok_iff {ε α β : Type} {x : Except ε α} {f : α → Except ε β} {b : β} :
    x >>= f = .ok b ↔ ∃ a, x = .ok a ∧ f a = .ok b := by
  cases x with
  | error e => simp [bind, Except.bind]
  | ok a => simp [bind, Except.bind]

namespace List.Forall₂

variable {α β γ : Type*} {R S : α → β → Prop} {xs : List α} {ys : List β}

/-- An element of the first list is matched. -/
lemma exists_right (h : Forall₂ R xs ys) {x : α} (hx : x ∈ xs) : ∃ y ∈ ys, R x y := by
  induction h with
  | nil => simp at hx
  | cons hxy _ ih =>
      rcases List.mem_cons.mp hx with rfl | hx
      · exact ⟨_, List.mem_cons_self, hxy⟩
      · obtain ⟨y, hy, hR⟩ := ih hx
        exact ⟨y, List.mem_cons_of_mem _ hy, hR⟩

/-- An element of the second list is matched. -/
lemma exists_left (h : Forall₂ R xs ys) {y : β} (hy : y ∈ ys) : ∃ x ∈ xs, R x y :=
  h.flip.exists_right hy

/-- Where matched elements agree, the lists agree. -/
lemma map_eq_map (h : Forall₂ R xs ys) {f : α → γ} {g : β → γ} (hfg : ∀ x y, R x y → f x = g y) :
    xs.map f = ys.map g := by
  induction h with
  | nil => rfl
  | cons hxy _ ih => rw [List.map_cons, List.map_cons, hfg _ _ hxy, ih]

/-- The relation may be exchanged for one that follows from it for the elements of the lists. -/
lemma imp_of_mem (h : Forall₂ R xs ys) (himp : ∀ x ∈ xs, ∀ y ∈ ys, R x y → S x y) :
    Forall₂ S xs ys := by
  induction h with
  | nil => exact .nil
  | cons hxy _ ih =>
      refine .cons (himp _ (by simp) _ (by simp) hxy) (ih ?_)
      intro x hx y hy
      exact himp x (List.mem_cons_of_mem _ hx) y (List.mem_cons_of_mem _ hy)

/-- Two matchings in a row. -/
lemma comp {zs : List γ} {Q : β → γ → Prop} (h : Forall₂ R xs ys) (h' : Forall₂ Q ys zs) :
    Forall₂ (fun x z => ∃ y, R x y ∧ Q y z) xs zs := by
  induction h generalizing zs with
  | nil =>
      cases h'
      exact .nil
  | cons hxy _ ih =>
      cases h' with
      | cons hyz h' => exact .cons ⟨_, hxy, hyz⟩ (ih h')

/-- What succeeds for each element succeeds for the list. -/
lemma exists_mapM_eq_ok {ε α β : Type} {R : α → β → Prop} {f : α → Except ε β} {xs : List α}
    (h : ∀ x ∈ xs, ∃ y, f x = .ok y ∧ R x y) :
    ∃ ys, xs.mapM f = .ok ys ∧ Forall₂ (fun x y => f x = .ok y ∧ R x y) xs ys := by
  induction xs with
  | nil => exact ⟨[], rfl, .nil⟩
  | cons x xs ih =>
      rw [List.forall_mem_cons] at h
      obtain ⟨y, hy, hxy⟩ := h.1
      obtain ⟨ys, hys, hmatched⟩ := ih h.2
      exact ⟨y :: ys, by rw [List.mapM_cons, hy, hys]; rfl, .cons ⟨hy, hxy⟩ hmatched⟩

/-- What returned for the list returned for each element. -/
lemma of_mapM_eq_ok {ε α β : Type} {f : α → Except ε β} {xs : List α} {ys : List β}
    (h : xs.mapM f = .ok ys) : Forall₂ (fun x y => f x = .ok y) xs ys := by
  induction xs generalizing ys with
  | nil =>
      rw [List.mapM_nil] at h
      cases h
      exact .nil
  | cons x xs ih =>
      rw [List.mapM_cons] at h
      obtain ⟨y, hy, h⟩ := Except.bind_eq_ok_iff.mp h
      obtain ⟨ys', hys, h⟩ := Except.bind_eq_ok_iff.mp h
      cases h
      exact .cons hy (ih hys)

end List.Forall₂
