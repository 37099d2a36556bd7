import Mathlib.Data.List.Nodup

/-!
# Walks that pass over what the last visited element hides

A walk goes through a list and remembers the element it visited last.  It passes over an element
that the remembered one hides, and visits every other element it wants.  Stopping early is the
special case of a remembered element that hides everything (`visited_of_hides_all`).

The two rules are `visited_or_hidden`, which says where a wanted element that was not visited went,
and `visited_map`, which carries a walk from a list to its image.
-/

namespace Walk

variable {α β : Type*}

/-- The elements that the walk visits, in order. -/
def visited (wanted : α → Bool) (hides : α → α → Bool) : Option α → List α → List α
  | _, [] => []
  | last, a :: as =>
    if last.any (hides · a) then visited wanted hides last as
    else if wanted a then a :: visited wanted hides (some a) as
    else visited wanted hides last as

variable {wanted : α → Bool} {hides : α → α → Bool}

@[simp] lemma visited_nil (last : Option α) : visited wanted hides last [] = [] := rfl

/-- Nothing is visited that is not on the list, nothing is visited out of order. -/
lemma visited_sublist : ∀ (as : List α) (last : Option α),
    (visited wanted hides last as).Sublist as
  | [], _ => List.Sublist.refl _
  | a :: as, last => by
      rw [visited]
      split_ifs
      · exact (visited_sublist as last).cons a
      · exact (visited_sublist as (some a)).cons_cons a
      · exact (visited_sublist as last).cons a

/-- Only wanted elements are visited. -/
lemma wanted_of_mem_visited {s : α} : ∀ {as : List α} {last : Option α},
    s ∈ visited wanted hides last as → wanted s = true
  | [], _, hs => by simp at hs
  | a :: as, last, hs => by
      rw [visited] at hs
      split_ifs at hs with hhide hwanted
      · exact wanted_of_mem_visited hs
      · rcases List.mem_cons.mp hs with rfl | hs
        · exact hwanted
        · exact wanted_of_mem_visited hs
      · exact wanted_of_mem_visited hs

/-- An element that hides everything ends the walk. -/
lemma visited_of_hides_all {t : α} : ∀ {as : List α}, (∀ a ∈ as, hides t a = true) →
    visited wanted hides (some t) as = []
  | [], _ => rfl
  | a :: as, h => by
      have ha : hides t a = true := h a (by simp)
      have has : ∀ b ∈ as, hides t b = true := fun b hb => h b (List.mem_cons_of_mem _ hb)
      simp [visited, ha, visited_of_hides_all has]

/-- **A wanted element is visited, or an element visited before it hides it.**  The relation `R`
holds between the elements of the list in order, and is what "before" means. -/
theorem visited_or_hidden {R : α → α → Prop} {s : α} (hs : wanted s = true) :
    ∀ {as : List α} {last : Option α}, (last.toList ++ as).Pairwise R → s ∈ as →
      s ∈ visited wanted hides last as ∨
      ∃ t, (t ∈ last ∨ t ∈ visited wanted hides last as) ∧ R t s ∧ hides t s = true
  | [], _, _, hmem => by simp at hmem
  | a :: as, last, hR, hmem => by
      rw [visited]
      have hrest : (last.toList ++ as).Pairwise R :=
        hR.sublist ((List.Sublist.refl _).append (List.sublist_cons_self a as))
      split_ifs with hhide hwanted
      · -- passed over
        obtain ⟨t, ht, hta⟩ := (Option.any_eq_true _ _).mp hhide
        rcases List.mem_cons.mp hmem with rfl | hmem
        · have hts : R t s :=
            (List.pairwise_append.mp hR).2.2 t (Option.mem_toList.mpr ht) s (by simp)
          exact Or.inr ⟨t, Or.inl ht, hts, hta⟩
        · exact visited_or_hidden hs hrest hmem
      · -- visited, and remembered from now on
        rcases List.mem_cons.mp hmem with rfl | hmem
        · exact Or.inl (by simp)
        · have hR' : ((some a).toList ++ as).Pairwise R :=
            hR.sublist (List.sublist_append_right last.toList (a :: as))
          rcases visited_or_hidden hs hR' hmem with h | ⟨t, ht, hts, hhides⟩
          · exact Or.inl (List.mem_cons_of_mem _ h)
          · refine Or.inr ⟨t, Or.inr ?_, hts, hhides⟩
            rcases ht with ht | ht
            · obtain rfl : a = t := by simpa using ht
              simp
            · exact List.mem_cons_of_mem _ ht
      · -- not wanted
        rcases List.mem_cons.mp hmem with rfl | hmem
        · exact absurd hs hwanted
        · exact visited_or_hidden hs hrest hmem

/-- From the start of the list: whatever hides a wanted element was itself visited. -/
lemma visited_or_hidden_of_start {R : α → α → Prop} {as : List α} (hR : as.Pairwise R) {s : α}
    (hs : wanted s = true) (hmem : s ∈ as) :
    s ∈ visited wanted hides none as ∨
      ∃ t ∈ visited wanted hides none as, R t s ∧ hides t s = true := by
  have hR' : ((none : Option α).toList ++ as).Pairwise R := by simpa using hR
  rcases visited_or_hidden hs hR' hmem with h | ⟨t, ht | ht, hts, hhides⟩
  · exact Or.inl h
  · simp at ht
  · exact Or.inr ⟨t, ht, hts, hhides⟩

/-- No visited element is hidden by the one visited before it. -/
lemma isChain_visited : ∀ (as : List α) (last : Option α),
    (last.toList ++ visited wanted hides last as).IsChain fun t a => hides t a = false
  | [], last => by cases last <;> simp
  | a :: as, last => by
      rw [visited]
      split_ifs with hhide hwanted
      · exact isChain_visited as last
      · have ih := isChain_visited as (some a)
        cases last with
        | none => exact ih
        | some t =>
            have hta : hides t a = false := by simpa using hhide
            exact List.IsChain.cons_cons hta ih
      · exact isChain_visited as last

/-- **A list and its image are walked alike**, when the map respects what is wanted and what hides
what. -/
theorem visited_map {wanted' : β → Bool} {hides' : β → β → Bool} {f : α → β} :
    ∀ {as : List α} (last : Option α), (∀ a ∈ as, wanted' (f a) = wanted a) →
      (∀ a ∈ last.toList ++ as, ∀ b ∈ as, hides' (f a) (f b) = hides a b) →
      visited wanted' hides' (last.map f) (as.map f) = (visited wanted hides last as).map f
  | [], _, _, _ => rfl
  | a :: as, last, hwanted, hhides => by
      have hany : (last.map f).any (hides' · (f a)) = last.any (hides · a) := by
        cases last with
        | none => rfl
        | some t => exact hhides t (by simp) a (by simp)
      have hwanted' : ∀ b ∈ as, wanted' (f b) = wanted b :=
        fun b hb => hwanted b (List.mem_cons_of_mem _ hb)
      have hskip := visited_map last hwanted' fun b hb c hc =>
        hhides b (List.mem_append.mpr ((List.mem_append.mp hb).imp_right
          (List.mem_cons_of_mem _))) c (List.mem_cons_of_mem _ hc)
      have hvisit := visited_map (some a) hwanted' fun b hb c hc =>
        hhides b (List.mem_append_right _ (by simpa using hb)) c (List.mem_cons_of_mem _ hc)
      rw [List.map_cons, visited, visited, hany, hwanted a (by simp), hskip]
      split_ifs
      · rfl
      · rw [List.map_cons]
        exact congrArg _ hvisit
      · rfl

/-- What is wanted and what hides what matters on the list only. -/
lemma visited_congr {wanted' : α → Bool} {hides' : α → α → Bool} {as : List α}
    (hwanted : ∀ a ∈ as, wanted' a = wanted a)
    (hhides : ∀ a ∈ as, ∀ b ∈ as, hides' a b = hides a b) :
    visited wanted' hides' none as = visited wanted hides none as := by
  have h := visited_map (f := id) none hwanted (by simpa using hhides)
  simpa using h

end Walk
