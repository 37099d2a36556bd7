import Geodesy.Mapper.TimePositions
import Mathlib.Data.List.Pairwise

/-!
# No text fits two patterns

Reading is deterministic, so two patterns read alike as long as their elements agree.  Where they
part, one ends and the other goes on, or the next character tells them apart; the offsets of the
first two patterns differ in length.  `clashes` checks this for two lists of elements, and
`clashes_sound` says that then no text is read by both.
-/

namespace Geodesy.Mapper

open InstantToTimePositionConverter

/-- Whether an element may begin with a character. -/
def Element.starts : Element → Char → Bool
  | year, c => c.isDigit || c = '+' || c = '-'
  | twoDigits _, c => c.isDigit
  | fraction, c => c.isDigit
  | offset _, c => c = 'Z' || c = '+' || c = '-'
  | literal d, c => c = d

lemma isDigit_of_digits_cons {max : ℕ} {c : Char} {cs : List Char} (h : digits max (c :: cs) ≠ []) :
    c.isDigit = true := by
  by_contra hc
  rcases max with _ | max
  · exact h rfl
  · rw [digits, List.take_succ_cons, List.takeWhile_cons, if_neg hc] at h
    exact h rfl

lemma digits_nil (max : ℕ) : digits max [] = [] := by
  rw [digits, List.take_nil, List.takeWhile_nil]

lemma starts_of_parseFixed {width : ℕ} (hwidth : 0 < width) {cs : List Char} {r : ℕ × List Char}
    (h : parseFixed width cs = some r) : ∃ c rest, cs = c :: rest ∧ c.isDigit = true := by
  unfold parseFixed at h
  split_ifs at h with hlength
  rcases cs with _ | ⟨c, cs⟩
  · rw [digits_nil] at hlength
    exact absurd hlength hwidth.ne
  · have hne : digits width (c :: cs) ≠ [] := by
      intro hnil
      rw [hnil] at hlength
      exact absurd hlength hwidth.ne
    exact ⟨c, cs, rfl, isDigit_of_digits_cons hne⟩

lemma starts_of_parseYear {cs : List Char} {r : ℤ × List Char} (h : parseYear cs = some r) :
    ∃ c rest, cs = c :: rest ∧ Element.year.starts c = true := by
  rcases cs with _ | ⟨c, cs⟩
  · cases h
  · refine ⟨c, cs, rfl, ?_⟩
    rw [parseYear] at h
    split_ifs at h with hplus hminus
    · simp [Element.starts, hplus]
    · simp [Element.starts, hminus]
    · have hne : digits 19 (c :: cs) ≠ [] := by
        intro hnil
        simp [hnil] at h
      simp [Element.starts, isDigit_of_digits_cons hne]

lemma starts_of_parseOffset {pattern : OffsetPattern} {cs : List Char} {r : ℤ × List Char}
    (h : parseOffset pattern cs = some r) :
    ∃ c rest, cs = c :: rest ∧ (Element.offset pattern).starts c = true := by
  unfold parseOffset at h
  split_ifs at h with hprefix
  · obtain ⟨rest, rfl⟩ := hprefix
    cases pattern <;> exact ⟨_, _, rfl, by decide⟩
  · split at h
    · exact ⟨_, _, rfl, by simp [Element.starts]⟩
    · exact ⟨_, _, rfl, by simp [Element.starts]⟩
    · cases h

/-- An element reads at least a character, and one that it may begin with. -/
lemma Element.starts_of_parse {e : Element} {cs : List Char}
    {r : List (ChronoField × ℤ) × List Char} (h : e.parse cs = some r) :
    ∃ c rest, cs = c :: rest ∧ e.starts c = true := by
  cases e with
  | year =>
      obtain ⟨r, hr, -⟩ := Option.map_eq_some_iff.mp h
      exact starts_of_parseYear hr
  | twoDigits field =>
      obtain ⟨r, hr, -⟩ := Option.map_eq_some_iff.mp h
      exact starts_of_parseFixed (by decide) hr
  | fraction =>
      obtain ⟨r, hr, -⟩ := Option.map_eq_some_iff.mp h
      exact starts_of_parseFixed (by decide) hr
  | offset pattern =>
      obtain ⟨r, hr, -⟩ := Option.map_eq_some_iff.mp h
      exact starts_of_parseOffset hr
  | literal c =>
      rw [Element.parse] at h
      split_ifs at h with hhead
      rcases cs with _ | ⟨d, cs⟩
      · cases hhead
      · exact ⟨d, cs, rfl, by simpa [Element.starts] using hhead⟩

/-! ## Offsets at the end -/

lemma length_of_parseOffsetNumber {cs rest : List Char} {n : ℕ}
    (h : parseOffsetNumber cs = some (n, rest)) : cs.length = rest.length + 2 := by
  rw [parseOffsetNumber, Option.filter_eq_some_iff] at h
  have hfixed := h.1
  unfold parseFixed at hfixed
  split_ifs at hfixed with hlength
  have hle : (digits 2 cs).length ≤ (cs.take 2).length := (List.takeWhile_sublist _).length_le
  rw [Option.some.injEq, Prod.mk.injEq] at hfixed
  rw [← hfixed.2, List.length_drop]
  rw [hlength, List.length_take] at hle
  omega

lemma length_of_hourColonMinute {cs rest : List Char} {s : ℕ}
    (h : parseHourMinute .hourColonMinute cs = some (s, rest)) : cs.length = rest.length + 5 := by
  rw [parseHourMinute] at h
  obtain ⟨⟨hours, cs'⟩, hhours, h⟩ := Option.bind_eq_some_iff.mp h
  have hlength := length_of_parseOffsetNumber hhours
  dsimp only at h
  split at h
  · obtain ⟨⟨minutes, rest'⟩, hminutes, h⟩ := Option.bind_eq_some_iff.mp h
    have hlength' := length_of_parseOffsetNumber hminutes
    cases h
    rw [hlength, List.length_cons, hlength']
  · cases h

lemma length_of_hourMinute {cs rest : List Char} {s : ℕ}
    (h : parseHourMinute .hourMinute cs = some (s, rest)) : cs.length = rest.length + 4 := by
  rw [parseHourMinute] at h
  obtain ⟨⟨hours, cs'⟩, hhours, h⟩ := Option.bind_eq_some_iff.mp h
  have hlength := length_of_parseOffsetNumber hhours
  dsimp only at h
  obtain ⟨⟨minutes, rest'⟩, hminutes, h⟩ := Option.bind_eq_some_iff.mp h
  have hlength' := length_of_parseOffsetNumber hminutes
  cases h
  rw [hlength, hlength']

/-- How long a signed offset is, whatever the sign makes of its seconds. -/
lemma length_of_signedOffset {pattern : OffsetPattern} {sign : Char} {cs : List Char} {s : ℤ}
    {f : ℕ → ℤ}
    (h : (parseHourMinute pattern cs).map (fun p => (f p.1, p.2)) = some (s, [])) :
    (pattern = .hourColonMinute → (sign :: cs).length = 1 ∨ (sign :: cs).length = 6) ∧
      (pattern = .hourMinute → (sign :: cs).length = 5) := by
  obtain ⟨⟨n, rest⟩, hn, hrest⟩ := Option.map_eq_some_iff.mp h
  cases hrest
  constructor
  · rintro rfl
    rw [List.length_cons, length_of_hourColonMinute hn]
    exact Or.inr rfl
  · rintro rfl
    rw [List.length_cons, length_of_hourMinute hn]
    rfl

/-- How long the text of an offset is, for the patterns with a fixed form. -/
lemma length_of_parseOffset {pattern : OffsetPattern} {cs : List Char} {s : ℤ}
    (h : parseOffset pattern cs = some (s, [])) :
    (pattern = .hourColonMinute → cs.length = 1 ∨ cs.length = 6) ∧
      (pattern = .hourMinute → cs.length = 5) := by
  unfold parseOffset at h
  split_ifs at h with hprefix
  · obtain ⟨rest, rfl⟩ := hprefix
    rw [List.drop_left] at h
    cases h
    cases pattern <;> decide
  · split at h
    · exact length_of_signedOffset (f := fun n => n) h
    · exact length_of_signedOffset (f := fun n => -n) h
    · cases h

/-- What reads a text to its end. -/
lemma parse_of_parseFields_singleton {e : Element} {cs : List Char}
    (h : (parseFields [e] cs).isSome = true) : ∃ values, e.parse cs = some (values, []) := by
  rw [parseFields_cons] at h
  rcases hparse : e.parse cs with _ | ⟨values, _ | ⟨c, rest⟩⟩
  · rw [hparse] at h
    cases h
  · exact ⟨values, rfl⟩
  · rw [hparse] at h
    cases h

/-! ## Two patterns -/

/-- Two lists of elements that no text fits both of. -/
def clashes : List Element → List Element → Bool
  | [], [] => false
  | [], _ :: _ => true
  | _ :: _, [] => true
  | [.offset .hourColonMinute], [.offset .hourMinute] => true
  | e :: es, f :: fs =>
    if e = f then clashes es fs
    else
      match e, f with
      | .literal c, f => !f.starts c
      | e, .literal c => !e.starts c
      | _, _ => false

lemma exists_parse_of_parseFields {e : Element} {es : List Element} {cs : List Char}
    (h : (parseFields (e :: es) cs).isSome = true) :
    ∃ r, e.parse cs = some r ∧ (parseFields es r.2).isSome = true := by
  rw [parseFields_cons] at h
  rcases hparse : e.parse cs with _ | r
  · rw [hparse] at h
    cases h
  · rw [hparse, Option.bind_some, Option.isSome_map] at h
    exact ⟨r, rfl, h⟩

/-- An element and the end of the pattern do not fit one text. -/
lemma not_parseFields_nil {e : Element} {es : List Element} {cs : List Char}
    (h : (parseFields (e :: es) cs).isSome = true) : (parseFields [] cs).isSome = false := by
  obtain ⟨r, hr, -⟩ := exists_parse_of_parseFields h
  obtain ⟨c, rest, rfl, -⟩ := Element.starts_of_parse hr
  rfl

/-- A text begins with the character of a literal, if that comes first. -/
lemma starts_of_literal {c : Char} {f : Element} {es fs : List Element} {cs : List Char}
    (he : (parseFields (.literal c :: es) cs).isSome = true)
    (hf : (parseFields (f :: fs) cs).isSome = true) : f.starts c = true := by
  obtain ⟨r, hr, -⟩ := exists_parse_of_parseFields he
  obtain ⟨r', hr', -⟩ := exists_parse_of_parseFields hf
  obtain ⟨d, rest, rfl, hd⟩ := Element.starts_of_parse hr
  obtain ⟨d', rest', heq, hd'⟩ := Element.starts_of_parse hr'
  cases heq
  obtain rfl : d = c := by simpa [Element.starts] using hd
  exact hd'

/-- **Lists of elements that clash have no text in common.** -/
lemma clashes_sound {es fs : List Element} (h : clashes es fs = true) {cs : List Char}
    (hes : (parseFields es cs).isSome = true) : (parseFields fs cs).isSome = false := by
  by_contra hfs
  rw [Bool.not_eq_false] at hfs
  fun_induction clashes es fs generalizing cs with
  | case1 => cases h
  | case2 f fs => exact absurd hes (by simp [not_parseFields_nil hfs])
  | case3 e es => exact absurd hfs (by simp [not_parseFields_nil hes])
  | case4 =>
      obtain ⟨values, hes⟩ := parse_of_parseFields_singleton hes
      obtain ⟨values', hfs⟩ := parse_of_parseFields_singleton hfs
      obtain ⟨⟨s, rest⟩, hs, hrest⟩ := Option.map_eq_some_iff.mp hes
      obtain ⟨⟨s', rest'⟩, hs', hrest'⟩ := Option.map_eq_some_iff.mp hfs
      cases hrest
      cases hrest'
      have hlength := (length_of_parseOffset hs).1 rfl
      have hlength' := (length_of_parseOffset hs').2 rfl
      omega
  | case5 es e fs _ ih =>
      obtain ⟨r, hr, hes⟩ := exists_parse_of_parseFields hes
      obtain ⟨r', hr', hfs⟩ := exists_parse_of_parseFields hfs
      obtain rfl : r = r' := Option.some.inj (hr.symm.trans hr')
      exact ih h hes hfs
  | case6 es fs c f =>
      rw [starts_of_literal hes hfs] at h
      cases h
  | case7 es fs e c =>
      rw [starts_of_literal hfs hes] at h
      cases h
  | case8 => cases h

/-! ## The seven patterns -/

lemma pairwise_clashes :
    timePositionPatterns.Pairwise fun p q => clashes (dateFormat p) (dateFormat q) = true := by
  decide

/-- What a pattern accepts it reads. -/
lemma isSome_parseFields_of_parsePattern {s p : String} (h : (parsePattern s p).isSome = true) :
    (parseFields (dateFormat p) s.toList).isSome = true := by
  rcases hfields : parseFields (dateFormat p) s.toList with _ | fields
  · have hresolve : resolve (dateFormat p) s.toList = none := by
      rw [resolve, hfields]
      rfl
    rw [parsePattern, hresolve] at h
    cases h
  · rfl

/-- **At most one pattern accepts a text.** -/
lemma pattern_unique {s : String} : ∀ p ∈ timePositionPatterns, ∀ q ∈ timePositionPatterns,
    (parsePattern s p).isSome = true → (parsePattern s q).isSome = true → p = q := by
  have hpairwise : timePositionPatterns.Pairwise fun p q =>
      ¬((parsePattern s p).isSome = true ∧ (parsePattern s q).isSome = true) := by
    refine pairwise_clashes.imp fun hclash hboth => ?_
    have hp := isSome_parseFields_of_parsePattern hboth.1
    have hq := isSome_parseFields_of_parsePattern hboth.2
    rw [clashes_sound hclash hp] at hq
    cases hq
  have : Std.Symm fun p q =>
      ¬((parsePattern s p).isSome = true ∧ (parsePattern s q).isSome = true) :=
    ⟨fun _ _ h hboth => h ⟨hboth.2, hboth.1⟩⟩
  intro p hp q hq hps hqs
  by_contra hne
  exact hpairwise.forall hp hq hne ⟨hps, hqs⟩

/-- Where at most one element of a list gives something, the order does not matter. -/
lemma findSome?_eq_of_perm {α β : Type} {f : α → Option β} {xs ys : List α} (hperm : ys.Perm xs)
    (hunique : ∀ x ∈ xs, ∀ y ∈ xs, (f x).isSome = true → (f y).isSome = true → x = y) :
    ys.findSome? f = xs.findSome? f := by
  rcases hys : ys.findSome? f with _ | b
  · rw [List.findSome?_eq_none_iff] at hys
    exact (List.findSome?_eq_none_iff.mpr fun x hx => hys x (hperm.symm.subset hx)).symm
  · rcases hxs : xs.findSome? f with _ | b'
    · obtain ⟨y, hy, hb⟩ := List.exists_of_findSome?_eq_some hys
      rw [List.findSome?_eq_none_iff] at hxs
      rw [hxs y (hperm.subset hy)] at hb
      cases hb
    · obtain ⟨y, hy, hb⟩ := List.exists_of_findSome?_eq_some hys
      obtain ⟨x, hx, hb'⟩ := List.exists_of_findSome?_eq_some hxs
      obtain rfl := hunique x hx y (hperm.subset hy) (by rw [hb']; rfl) (by rw [hb]; rfl)
      exact hb.symm.trans hb'

/-- What is returned does not depend on the order of the patterns. -/
lemma convertFromWith_perm {patterns : List String} (hperm : patterns.Perm timePositionPatterns)
    (time : TimePositionType) (result : Option Instant) :
    convertFromWith patterns time = .ok result ↔ convertFrom time = .ok result := by
  rw [convertFrom, convertFromWith, convertFromWith]
  rcases time.value with _ | ⟨dateString, _⟩
  · rfl
  · simp only
    rw [findSome?_eq_of_perm hperm pattern_unique]
    rcases timePositionPatterns.findSome? (parsePattern dateString) with _ | date
    · exact iff_of_false (fun h => by cases h) (fun h => by cases h)
    · rfl

end Geodesy.Mapper
