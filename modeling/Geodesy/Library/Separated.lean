import Mathlib.Data.List.DropRight

/-!
# Lists in one text, with a separator between them

`List.intercalate` and `List.splitOn` undo each other as long as no piece contains the separator.
Many libraries split otherwise: they drop the empty pieces at the end, and return the whole text if
it has no separator (`splitTrimmed`).  This file says exactly where joining and that split undo each
other: `joined_splitTrimmed_iff` for the texts and `splitTrimmed_joined_iff` for the lists.
-/

namespace Separated

/-- What stands before the first piece can be taken out. -/
lemma intercalate_append_cons {α : Type*} (between xs ys : List α) (ls : List (List α)) :
    between.intercalate ((xs ++ ys) :: ls) = xs ++ between.intercalate (ys :: ls) := by
  cases ls with
  | nil => simp only [List.intercalate_singleton]
  | cons l ls => simp only [List.intercalate_cons_cons, List.append_assoc]

variable {α : Type*} [DecidableEq α] (sep : α)

/-- The pieces without the empty ones at the end; the text itself if there is no separator. -/
def splitTrimmed (text : List α) : List (List α) :=
  if sep ∈ text then (text.splitOn sep).rdropWhile (· = []) else [text]

lemma splitTrimmed_of_mem {text : List α} (h : sep ∈ text) :
    splitTrimmed sep text = (text.splitOn sep).rdropWhile (· = []) := if_pos h

lemma splitTrimmed_of_notMem {text : List α} (h : sep ∉ text) :
    splitTrimmed sep text = [text] := if_neg h

/-- No piece contains the separator. -/
lemma notMem_of_mem_splitOn : ∀ {text piece : List α}, piece ∈ text.splitOn sep → sep ∉ piece
  | [], piece, h => by simp_all
  | c :: text, piece, h => by
      rw [List.splitOn_cons_eq_if_modifyHead] at h
      by_cases hc : c = sep
      · rw [if_pos (beq_iff_eq.mpr hc), List.mem_cons] at h
        rcases h with rfl | h
        · exact List.not_mem_nil
        · exact notMem_of_mem_splitOn h
      · rw [if_neg (by simpa using hc)] at h
        obtain ⟨p, ps, hps⟩ := List.exists_cons_of_ne_nil (List.splitOn_ne_nil sep text)
        have ih : ∀ q ∈ p :: ps, sep ∉ q := fun q hq => notMem_of_mem_splitOn (hps ▸ hq)
        rw [hps, List.modifyHead_cons, List.mem_cons] at h
        rcases h with rfl | h
        · exact List.not_mem_cons_of_ne_of_not_mem (Ne.symm hc) (ih p List.mem_cons_self)
        · exact ih piece (List.mem_cons_of_mem _ h)

lemma notMem_of_mem_splitTrimmed {text piece : List α} (h : piece ∈ splitTrimmed sep text) :
    sep ∉ piece := by
  by_cases hsep : sep ∈ text
  · rw [splitTrimmed_of_mem sep hsep] at h
    exact notMem_of_mem_splitOn sep ((List.rdropWhile_prefix _ _).subset h)
  · rw [splitTrimmed_of_notMem sep hsep, List.mem_singleton] at h
    rwa [h]

/-- A text that ends with the separator has an empty piece after it. -/
lemma splitOn_concat (text : List α) :
    (text ++ [sep]).splitOn sep = text.splitOn sep ++ [[]] := by
  rw [List.splitOn_append_cons_self, List.splitOn_nil]

/-- The last piece is empty if and only if the text is, or ends with the separator. -/
lemma getLast?_splitOn_eq_nil_iff (text : List α) :
    (text.splitOn sep).getLast? = some [] ↔ text = [] ∨ text.getLast? = some sep := by
  constructor
  · intro h
    obtain ⟨ps, hps⟩ := List.getLast?_eq_some_iff.mp h
    have htext : [sep].intercalate (text.splitOn sep) = text := List.intercalate_splitOn sep
    rw [hps] at htext
    rcases List.eq_nil_or_concat' ps with rfl | ⟨qs, q, rfl⟩
    · exact Or.inl htext.symm
    · right
      rw [← htext, List.getLast?_eq_some_iff]
      refine ⟨[sep].intercalate (qs ++ [q]), ?_⟩
      clear h hps htext
      induction qs with
      | nil => simp [List.intercalate_cons_cons]
      | cons p qs ih =>
          rw [List.cons_append, List.cons_append,
            List.intercalate_cons_of_ne_nil (by simp), ih,
            List.intercalate_cons_of_ne_nil (by simp)]
          simp
  · rintro (rfl | h)
    · rfl
    · obtain ⟨text, rfl⟩ := List.getLast?_eq_some_iff.mp h
      rw [splitOn_concat, List.getLast?_concat]

/-- Nothing is dropped unless the text ends with the separator. -/
lemma splitTrimmed_eq_splitOn {text : List α} (hlast : text.getLast? ≠ some sep) :
    splitTrimmed sep text = text.splitOn sep := by
  by_cases hsep : sep ∈ text
  · rw [splitTrimmed_of_mem sep hsep, List.rdropWhile_eq_self_iff]
    intro hne hnil
    have hnil' : (text.splitOn sep).getLast? = some [] := by
      rw [List.getLast?_eq_some_getLast hne, decide_eq_true_eq.mp hnil]
    rcases (getLast?_splitOn_eq_nil_iff sep text).mp hnil' with rfl | h
    · exact List.not_mem_nil hsep
    · exact hlast h
  · rw [splitTrimmed_of_notMem sep hsep, List.splitOn_eq_singleton hsep]

/-- The last piece of a text with a separator is not empty. -/
lemma getLast?_splitTrimmed {text : List α} (hsep : sep ∈ text) :
    (splitTrimmed sep text).getLast? ≠ some [] := by
  rw [splitTrimmed_of_mem sep hsep]
  intro h
  have hne : (text.splitOn sep).rdropWhile (· = []) ≠ [] := List.ne_nil_of_mem
    (List.mem_of_getLast? h)
  have hlast := List.rdropWhile_last_not (fun piece : List α => decide (piece = [])) _ hne
  rw [List.getLast?_eq_some_getLast hne] at h
  exact hlast (by simpa using h)

/-- **Texts.**  The pieces that are left give the text again if and only if it does not end with the
separator.  If none is left there is nothing to join. -/
theorem joined_splitTrimmed_iff (text : List α) :
    (splitTrimmed sep text ≠ [] ∧ [sep].intercalate (splitTrimmed sep text) = text) ↔
      text.getLast? ≠ some sep := by
  constructor
  · rintro ⟨hne, hjoin⟩ hlast
    have hsep : sep ∈ text := List.mem_of_getLast? hlast
    have hpieces : ∀ p ∈ splitTrimmed sep text, sep ∉ p := fun p hp =>
      notMem_of_mem_splitTrimmed sep hp
    have hsplit := List.splitOn_intercalate sep hpieces hne
    rw [hjoin] at hsplit
    refine getLast?_splitTrimmed sep hsep ?_
    rw [← hsplit, getLast?_splitOn_eq_nil_iff]
    exact Or.inr hlast
  · intro hlast
    rw [splitTrimmed_eq_splitOn sep hlast]
    exact ⟨List.splitOn_ne_nil sep text, List.intercalate_splitOn sep⟩

/-- **Lists.**  The joined text of a non-empty list gives the list again if and only if no piece
contains the separator and the last one is not empty, or is the only one. -/
theorem splitTrimmed_joined_iff {ls : List (List α)} (hne : ls ≠ []) :
    splitTrimmed sep ([sep].intercalate ls) = ls ↔
      (∀ l ∈ ls, sep ∉ l) ∧ (ls = [[]] ∨ ls.getLast? ≠ some []) := by
  constructor
  · intro h
    refine ⟨fun l hl => notMem_of_mem_splitTrimmed sep (h.symm ▸ hl), ?_⟩
    by_cases hsep : sep ∈ [sep].intercalate ls
    · right
      rw [← h]
      exact getLast?_splitTrimmed sep hsep
    · rw [splitTrimmed_of_notMem sep hsep] at h
      rw [← h, List.getLast?_singleton]
      by_cases hnil : [sep].intercalate ls = []
      · exact Or.inl (by rw [hnil])
      · exact Or.inr (by simpa using hnil)
  · rintro ⟨hpieces, hlast⟩
    have hsplit := List.splitOn_intercalate sep hpieces hne
    rw [splitTrimmed_eq_splitOn, hsplit]
    intro hend
    have hnil := (getLast?_splitOn_eq_nil_iff sep _).mpr (Or.inr hend)
    rw [hsplit] at hnil
    rcases hlast with rfl | hlast
    · simp at hend
    · exact hlast hnil

end Separated
