import Geodesy.Library.TransitionSystem

/-!
# Outboxes

Data is derived from a source, separately for each key, and goes stale when the source is written.
With an outbox every write leaves a message about its key in the same transaction, and a worker
takes the messages one by one, derives the data of the key again and removes the message, again in
one transaction.  The worker reads the source some time before it commits, and a write may come in
between: what it commits is then stale already, but the write left a message of its own.

A `State` is what one sees of such a system, and a `Step` what a step may do to it.  `Sound` is the
invariant, and `sound_of_run` carries it over to every system that one sees through a function into
`State`.
-/

namespace Outbox

variable {M K : Type*}

/-- What one sees of an outbox. -/
structure State (M K : Type*) where
  /-- the data of the key is derived from its source as it is now -/
  fresh : K → Prop
  /-- the message about the key is not handled -/
  outstanding : M → K → Prop
  /-- the message that the worker has taken -/
  inHand : Option (M × K)
  /-- the source of its key was written since -/
  overtaken : Prop

/-- What a step does. -/
inductive Step : State M K → State M K → Prop
  /-- The source of a key is written, and a new message is posted. -/
  | write {s t : State M K} (k : K) (m : M)
      (hfresh : ∀ k', k' ≠ k → s.fresh k' → t.fresh k')
      (hkept : ∀ m' k', s.outstanding m' k' → t.outstanding m' k')
      (hposted : t.outstanding m k) (hnew : ∀ k', s.inHand ≠ some (m, k'))
      (hhand : t.inHand = s.inHand)
      (hovertaken : t.overtaken → s.overtaken ∨ ∀ m' k', s.inHand = some (m', k') → k' = k) :
      Step s t
  /-- The worker takes a message. -/
  | take {s t : State M K} (hfresh : ∀ k, s.fresh k → t.fresh k)
      (hkept : ∀ m k, s.outstanding m k → t.outstanding m k) (hovertaken : ¬ t.overtaken) : Step s t
  /-- The worker commits what it derived for the message at hand. -/
  | commit {s t : State M K} (m : M) (k : K) (htaken : s.inHand = some (m, k))
      (hothers : ∀ k', k' ≠ k → s.fresh k' → t.fresh k') (hfresh : ¬ s.overtaken → t.fresh k)
      (hkept : ∀ m' k', (m', k') ≠ (m, k) → s.outstanding m' k' → t.outstanding m' k')
      (hhand : t.inHand = s.inHand) (hovertaken : t.overtaken → s.overtaken) : Step s t
  /-- Anything else; the worker may give its message up. -/
  | other {s t : State M K} (hfresh : ∀ k, s.fresh k → t.fresh k)
      (hkept : ∀ m k, s.outstanding m k → t.outstanding m k)
      (hhand : t.inHand = none ∨ t.inHand = s.inHand ∧ (t.overtaken → s.overtaken)) : Step s t

/-- Stale data has an outstanding message, and where the message at hand was overtaken there is
another one. -/
structure State.Sound (s : State M K) : Prop where
  announced : ∀ k, ¬ s.fresh k → ∃ m, s.outstanding m k
  overtaken : ∀ m k, s.inHand = some (m, k) → s.overtaken → ∃ m', m' ≠ m ∧ s.outstanding m' k

section Steps

variable {s t : State M K}

lemma State.Sound.write (h : s.Sound) {k : K} {m : M}
    (hfresh : ∀ k', k' ≠ k → s.fresh k' → t.fresh k')
    (hkept : ∀ m' k', s.outstanding m' k' → t.outstanding m' k') (hposted : t.outstanding m k)
    (hnew : ∀ k', s.inHand ≠ some (m, k')) (hhand : t.inHand = s.inHand)
    (hovertaken : t.overtaken → s.overtaken ∨ ∀ m' k', s.inHand = some (m', k') → k' = k) :
    t.Sound := by
  constructor
  · intro k' hstale
    by_cases hk : k' = k
    · subst hk
      exact ⟨m, hposted⟩
    · obtain ⟨m', hm'⟩ := h.announced k' fun hold => hstale (hfresh k' hk hold)
      exact ⟨m', hkept m' k' hm'⟩
  · intro m' k' htaken hover
    rw [hhand] at htaken
    rcases hovertaken hover with hbefore | hnow
    · obtain ⟨m'', hne, hm''⟩ := h.overtaken m' k' htaken hbefore
      exact ⟨m'', hne, hkept m'' k' hm''⟩
    · -- the message at hand is about the key that was written, and the new one is another
      obtain rfl := hnow m' k' htaken
      refine ⟨m, ?_, hposted⟩
      rintro rfl
      exact hnew k' htaken

lemma State.Sound.take (h : s.Sound) (hfresh : ∀ k, s.fresh k → t.fresh k)
    (hkept : ∀ m k, s.outstanding m k → t.outstanding m k) (hovertaken : ¬ t.overtaken) :
    t.Sound := by
  constructor
  · intro k hstale
    obtain ⟨m, hm⟩ := h.announced k fun hold => hstale (hfresh k hold)
    exact ⟨m, hkept m k hm⟩
  · intro m k _ hover
    exact absurd hover hovertaken

lemma State.Sound.commit (h : s.Sound) {k : K} {m : M} (htaken : s.inHand = some (m, k))
    (hothers : ∀ k', k' ≠ k → s.fresh k' → t.fresh k') (hfresh : ¬ s.overtaken → t.fresh k)
    (hkept : ∀ m' k', (m', k') ≠ (m, k) → s.outstanding m' k' → t.outstanding m' k')
    (hhand : t.inHand = s.inHand) (hovertaken : t.overtaken → s.overtaken) : t.Sound := by
  have hanother : s.overtaken → ∃ m', m' ≠ m ∧ t.outstanding m' k := by
    intro hover
    obtain ⟨m', hne, hm'⟩ := h.overtaken m k htaken hover
    exact ⟨m', hne, hkept m' k (by simp [hne]) hm'⟩
  constructor
  · intro k' hstale
    by_cases hk : k' = k
    · subst hk
      by_cases hover : s.overtaken
      · obtain ⟨m', -, hm'⟩ := hanother hover
        exact ⟨m', hm'⟩
      · exact absurd (hfresh hover) hstale
    · obtain ⟨m', hm'⟩ := h.announced k' fun hold => hstale (hothers k' hk hold)
      exact ⟨m', hkept m' k' (by simp [hk]) hm'⟩
  · intro m' k' htaken' hover
    rw [hhand, htaken] at htaken'
    cases htaken'
    exact hanother (hovertaken hover)

lemma State.Sound.other (h : s.Sound) (hfresh : ∀ k, s.fresh k → t.fresh k)
    (hkept : ∀ m k, s.outstanding m k → t.outstanding m k)
    (hhand : t.inHand = none ∨ t.inHand = s.inHand ∧ (t.overtaken → s.overtaken)) : t.Sound := by
  constructor
  · intro k hstale
    obtain ⟨m, hm⟩ := h.announced k fun hold => hstale (hfresh k hold)
    exact ⟨m, hkept m k hm⟩
  · intro m k htaken hover
    rcases hhand with hnone | ⟨hsame, hovertaken⟩
    · rw [hnone] at htaken
      cases htaken
    · obtain ⟨m', hne, hm'⟩ := h.overtaken m k (hsame ▸ htaken) (hovertaken hover)
      exact ⟨m', hne, hkept m' k hm'⟩

/-- Every step keeps the invariant. -/
theorem State.Sound.step (h : s.Sound) (hstep : Step s t) : t.Sound := by
  cases hstep with
  | write k m hfresh hkept hposted hnew hhand hovertaken =>
      exact h.write hfresh hkept hposted hnew hhand hovertaken
  | take hfresh hkept hovertaken => exact h.take hfresh hkept hovertaken
  | commit m k htaken hothers hfresh hkept hhand hovertaken =>
      exact h.commit htaken hothers hfresh hkept hhand hovertaken
  | other hfresh hkept hhand => exact h.other hfresh hkept hhand

end Steps

/-! ## Systems with an outbox -/

open TransitionSystem

variable {σ α : Type*} {step : σ → α → σ → Prop}

/-- **The outbox rule.**  Inside an invariant, every step that a run takes is a step of the outbox.
Then the outbox stays sound. -/
theorem sound_of_run (view : σ → State M K) {I : σ → Prop} {G : σ → α → Prop}
    (hinv : ∀ s a t, G s a → I s → step s a t → I t)
    (hstep : ∀ s a t, G s a → I s → step s a t → Step (view s) (view t))
    {s t : σ} {as : List α} (hrun : Run step s as t)
    (hG : ∀ u a v, Passes step s as u a v → G u a) (hI : I s) (hs : (view s).Sound) :
    (view t).Sound := by
  have hboth : I t ∧ (view t).Sound := by
    refine hrun.invariant_of_passes (I := fun s => I s ∧ (view s).Sound) ?_ hG ⟨hI, hs⟩
    rintro u a v hgood ⟨hu, hsound⟩ htakes
    exact ⟨hinv u a v hgood hu htakes, hsound.step (hstep u a v hgood hu htakes)⟩
  exact hboth.2

end Outbox
