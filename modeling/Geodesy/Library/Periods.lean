import Mathlib.Order.WithBot
import Mathlib.Data.List.Sort

/-!
# Periods of a linear order, and the spans between consecutive dates

A `Period` is a closed interval that may be unbounded on either side.  Periods are ordered by
containment, and `Period.Before` says that one period is over when the next begins; sharing the one
instant at which they touch is allowed.

`spans` cuts a strictly increasing list of dates into the consecutive stretches between them, the
last of which stays open.  The facts about it are the ones a time line needs: the stretches start
at exactly the given dates, each ends where the next starts, and no date lies inside one.
-/

/-- A closed interval of `T`, possibly unbounded below (`⊥`) or above (`⊤`). -/
@[ext]
structure Period (T : Type*) where
  start : WithBot T
  stop : WithTop T

namespace Period

variable {T : Type*} [LinearOrder T]

/-- `p ≤ q`: the period `p` lies within `q`. -/
instance : LE (Period T) := ⟨fun p q => q.start ≤ p.start ∧ p.stop ≤ q.stop⟩

instance : DecidableLE (Period T) := fun p q =>
  inferInstanceAs (Decidable (q.start ≤ p.start ∧ p.stop ≤ q.stop))

lemma le_refl (p : Period T) : p ≤ p := ⟨le_rfl, le_rfl⟩

lemma le_trans {p q r : Period T} (hpq : p ≤ q) (hqr : q ≤ r) : p ≤ r :=
  ⟨hqr.1.trans hpq.1, hpq.2.trans hqr.2⟩

/-- The point `t` lies in the period; both ends belong to it. -/
def Covers (p : Period T) (t : T) : Prop := p.start ≤ t ∧ t ≤ p.stop

lemma Covers.mono {p q : Period T} {t : T} (h : p.Covers t) (hpq : p ≤ q) : q.Covers t :=
  ⟨hpq.1.trans h.1, h.2.trans hpq.2⟩

/-- The period has begun by the point and is not over then; its end does not belong to it. -/
def RunsAt (p : Period T) (t : T) : Prop := p.start ≤ t ∧ t < p.stop

lemma RunsAt.mono {p q : Period T} {t : T} (h : p.RunsAt t) (hpq : p ≤ q) : q.RunsAt t :=
  ⟨hpq.1.trans h.1, h.2.trans_le hpq.2⟩

/-- The period `p` is over when `q` begins. -/
def Before (p q : Period T) : Prop := ∃ t : T, p.stop ≤ t ∧ t ≤ q.start

/-- Against an end that is there, "over" is a comparison. -/
lemma before_iff {p q : Period T} {t : T} (hp : p.stop = t) : p.Before q ↔ t ≤ q.start := by
  constructor
  · rintro ⟨u, hpu, huq⟩
    rw [hp, WithTop.coe_le_coe] at hpu
    exact (WithBot.coe_le_coe.mpr hpu).trans huq
  · intro h
    exact ⟨t, hp.le, h⟩

/-- An open period is never over. -/
lemma not_before_of_top {p q : Period T} (hp : p.stop = ⊤) : ¬p.Before q := by
  rintro ⟨u, hpu, -⟩
  rw [hp] at hpu
  exact WithTop.not_top_le_coe u hpu

instance : DecidableRel (Before : Period T → Period T → Prop) := fun p _ =>
  match hp : p.stop with
  | ⊤ => isFalse (not_before_of_top hp)
  | (_ : T) => decidable_of_iff _ (before_iff hp).symm

/-- One of the two periods is over when the other begins, in whichever order. -/
def Apart (p q : Period T) : Prop := p.Before q ∨ q.Before p

instance : DecidableRel (Apart : Period T → Period T → Prop) :=
  fun _ _ => inferInstanceAs (Decidable (_ ∨ _))

lemma Apart.symm {p q : Period T} (h : p.Apart q) : q.Apart p := Or.symm h

/-- Whatever lies within a period that is over is over as well. -/
lemma Before.mono {p p' q q' : Period T} (h : p.Before q) (hp : p' ≤ p) (hq : q' ≤ q) :
    p'.Before q' := by
  obtain ⟨t, hpt, htq⟩ := h
  exact ⟨t, hp.2.trans hpt, htq.trans hq.1⟩

/-- A period that has an inside: it is not over when it begins. -/
def Proper (p : Period T) : Prop := ¬p.Before p

/-- Of two periods with an inside, only one can be over when the other begins. -/
lemma Before.asymm {p q : Period T} (h : p.Before q) (hp : p.Proper) (hq : q.Proper) :
    ¬q.Before p := by
  rintro ⟨d, hqd, hdp⟩
  obtain ⟨c, hpc, hcq⟩ := h
  rcases le_total c d with hcd | hdc
  · exact hp ⟨d, hpc.trans (WithTop.coe_le_coe.mpr hcd), hdp⟩
  · exact hq ⟨c, hqd.trans (WithTop.coe_le_coe.mpr hdc), hcq⟩

/-- Two periods around the same inside are not apart. -/
lemma not_apart {p q r : Period T} (hr : r.Proper) (hp : r ≤ p) (hq : r ≤ q) : ¬p.Apart q := by
  rintro (h | h)
  · exact hr (h.mono hp hq)
  · exact hr (h.mono hq hp)

end Period

/-! ## Spans -/

section Spans

variable {T : Type*}

/-- The stretches between consecutive dates; the last one is open. -/
def spans : List T → List (T × Option T)
  | [] => []
  | [d] => [(d, none)]
  | d :: e :: ds => (d, some e) :: spans (e :: ds)

@[simp] lemma spans_nil : spans ([] : List T) = [] := rfl

@[simp] lemma spans_singleton (d : T) : spans [d] = [(d, none)] := rfl

@[simp] lemma spans_cons_cons (d e : T) (ds : List T) :
    spans (d :: e :: ds) = (d, some e) :: spans (e :: ds) := rfl

/-- The spans start at exactly the given dates, in the given order. -/
lemma map_fst_spans : ∀ ds : List T, (spans ds).map Prod.fst = ds
  | [] => rfl
  | [_] => rfl
  | d :: e :: ds => by simp [map_fst_spans (e :: ds)]

/-- Each span ends where the next one starts. -/
lemma isChain_spans : ∀ ds : List T, (spans ds).IsChain (fun p q => p.2 = some q.1)
  | [] => List.IsChain.nil
  | [_] => List.IsChain.singleton _
  | [_, _] => by simp
  | d :: e :: f :: ds => by
      have ih := isChain_spans (e :: f :: ds)
      simp only [spans_cons_cons] at ih ⊢
      exact List.IsChain.cons_cons rfl ih

/-- Only the last span is open. -/
lemma spans_eq_append_open : ∀ ds : List T, ds ≠ [] →
    ∃ init d, spans ds = init ++ [(d, none)] ∧ ∀ p ∈ init, ∃ e ∈ ds, p.2 = some e
  | [], h => absurd rfl h
  | [d], _ => ⟨[], d, rfl, by simp⟩
  | d :: e :: ds, _ => by
      obtain ⟨init, l, hl, hinit⟩ := spans_eq_append_open (e :: ds) (by simp)
      refine ⟨(d, some e) :: init, l, by simp [hl], ?_⟩
      intro p hp
      rcases List.mem_cons.mp hp with rfl | hp
      · exact ⟨e, by simp, rfl⟩
      · obtain ⟨f, hf, hpf⟩ := hinit p hp
        exact ⟨f, List.mem_cons_of_mem _ hf, hpf⟩

variable [LinearOrder T]

/-- A span starts at one of the dates; where it ends, it ends later, at another of the dates. -/
lemma mem_spans : ∀ {ds : List T}, ds.Pairwise (· < ·) → ∀ {p : T × Option T}, p ∈ spans ds →
    p.1 ∈ ds ∧ ∀ e ∈ p.2, e ∈ ds ∧ p.1 < e
  | [], _, _, hp => by simp at hp
  | [d], _, p, hp => by
      obtain rfl : p = (d, none) := by simpa using hp
      simp
  | d :: e :: ds, hds, p, hp => by
      rcases List.mem_cons.mp hp with rfl | hp
      · have hde : d < e := List.rel_of_pairwise_cons hds (by simp)
        simpa using hde
      · obtain ⟨hfst, hsnd⟩ := mem_spans hds.of_cons hp
        refine ⟨List.mem_cons_of_mem _ hfst, ?_⟩
        intro f hf
        obtain ⟨hmem, hlt⟩ := hsnd f hf
        exact ⟨List.mem_cons_of_mem _ hmem, hlt⟩

/-- **No date lies inside a span**: it is not later than the span's start, or not earlier than
its end. -/
lemma spans_no_date_inside : ∀ {ds : List T}, ds.Pairwise (· < ·) → ∀ {p : T × Option T},
    p ∈ spans ds → ∀ {x : T}, x ∈ ds → x ≤ p.1 ∨ ∃ e ∈ p.2, e ≤ x
  | [], _, _, hp, _, _ => by simp at hp
  | [d], _, p, hp, x, hx => by
      obtain rfl : p = (d, none) := by simpa using hp
      obtain rfl : x = d := by simpa using hx
      exact Or.inl le_rfl
  | d :: e :: ds, hds, p, hp, x, hx => by
      have hde : d < e := List.rel_of_pairwise_cons hds (by simp)
      rcases List.mem_cons.mp hp with rfl | hp
      · rcases List.mem_cons.mp hx with rfl | hx
        · exact Or.inl le_rfl
        · right
          rcases List.mem_cons.mp hx with rfl | hx
          · exact ⟨x, rfl, le_rfl⟩
          · exact ⟨e, rfl, (List.rel_of_pairwise_cons hds.of_cons hx).le⟩
      · have hp1 := (mem_spans hds.of_cons hp).1
        rcases List.mem_cons.mp hx with rfl | hx
        · exact Or.inl (List.rel_of_pairwise_cons hds hp1).le
        · exact spans_no_date_inside hds.of_cons hp hx

/-- A span that starts after some date is preceded by a span that starts no earlier than it. -/
lemma exists_span_before : ∀ {ds : List T}, ds.Pairwise (· < ·) → ∀ {p : T × Option T},
    p ∈ spans ds → ∀ {x : T}, x ∈ ds → x < p.1 → ∃ q ∈ spans ds, q.2 = some p.1 ∧ x ≤ q.1
  | [], _, _, hp, _, _, _ => by simp at hp
  | [d], _, p, hp, x, hx, hlt => by
      obtain rfl : p = (d, none) := by simpa using hp
      obtain rfl : x = d := by simpa using hx
      exact absurd hlt (lt_irrefl _)
  | d :: e :: ds, hds, p, hp, x, hx, hlt => by
      have hde : d < e := List.rel_of_pairwise_cons hds (by simp)
      rcases List.mem_cons.mp hp with rfl | hp'
      · rcases List.mem_cons.mp hx with rfl | hx
        · exact absurd hlt (lt_irrefl _)
        · exact absurd hlt (List.rel_of_pairwise_cons hds hx).not_gt
      · by_cases hpe : p.1 = e
        · -- the span in front of `p` is the first one, and no other date is early enough
          refine ⟨(d, some e), by simp, by rw [hpe], ?_⟩
          rcases List.mem_cons.mp hx with rfl | hx
          · exact le_rfl
          · rcases List.mem_cons.mp hx with rfl | hx
            · exact absurd hpe hlt.ne'
            · exact absurd (hpe ▸ hlt) (List.rel_of_pairwise_cons hds.of_cons hx).not_gt
        · have hp1 : p.1 ∈ e :: ds := (mem_spans hds.of_cons hp').1
          have hep : e < p.1 :=
            List.rel_of_pairwise_cons hds.of_cons ((List.mem_cons.mp hp1).resolve_left hpe)
          rcases List.mem_cons.mp hx with rfl | hx
          · obtain ⟨q, hq, hqp, heq⟩ := exists_span_before hds.of_cons hp' (by simp) hep
            exact ⟨q, List.mem_cons_of_mem _ hq, hqp, hde.le.trans heq⟩
          · obtain ⟨q, hq, hqp, hxq⟩ := exists_span_before hds.of_cons hp' hx hlt
            exact ⟨q, List.mem_cons_of_mem _ hq, hqp, hxq⟩

/-- Spans follow one another: the earlier one has ended when the later one starts. -/
lemma pairwise_spans : ∀ {ds : List T}, ds.Pairwise (· < ·) →
    (spans ds).Pairwise (fun p q => p.1 < q.1 ∧ ∃ e ∈ p.2, e ≤ q.1)
  | [], _ => List.Pairwise.nil
  | [_], _ => by simp
  | d :: e :: ds, hds => by
      have ih := pairwise_spans hds.of_cons
      refine List.Pairwise.cons (fun q hq => ?_) ih
      have hq1 : q.1 ∈ e :: ds := (mem_spans hds.of_cons hq).1
      have hdq : d < q.1 := List.rel_of_pairwise_cons hds hq1
      refine ⟨hdq, e, rfl, ?_⟩
      rcases List.mem_cons.mp hq1 with h | h
      · exact h ▸ le_rfl
      · exact (List.rel_of_pairwise_cons hds.of_cons h).le

/-- **From the first date on, every point lies in a span**, when a span does not reach the next
one's start. -/
lemma exists_span_at : ∀ {ds : List T}, ds.Pairwise (· < ·) → ∀ {t : T}, (∃ d ∈ ds, d ≤ t) →
    ∃ p ∈ spans ds, p.1 ≤ t ∧ ∀ e ∈ p.2, t < e
  | [], _, _, ⟨_, hd, _⟩ => by simp at hd
  | [d], _, t, ⟨x, hx, hxt⟩ => by
      obtain rfl : x = d := by simpa using hx
      exact ⟨(x, none), by simp, hxt, by simp⟩
  | d :: e :: ds, hds, t, ⟨x, hx, hxt⟩ => by
      by_cases het : e ≤ t
      · obtain ⟨p, hp, hpt⟩ := exists_span_at hds.of_cons ⟨e, by simp, het⟩
        exact ⟨p, List.mem_cons_of_mem _ hp, hpt⟩
      · have hdt : d ≤ t := by
          rcases List.mem_cons.mp hx with rfl | hx
          · exact hxt
          · exact (List.rel_of_pairwise_cons hds hx).le.trans hxt
        exact ⟨(d, some e), by simp, hdt, by simpa using het⟩

end Spans
