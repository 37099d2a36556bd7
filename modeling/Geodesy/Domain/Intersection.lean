import Geodesy.Domain.EffectiveDates

/-!
# `NodeService.lcd` as an intersection

`lcd` takes a maximum under an order in which null is lowest and a minimum under one in which null
is highest; `inRange` skips a bound that is null.  Both readings are the one of `toPeriod`, under
which `lcd` is the intersection of the given periods, however they are listed and even if some of
them are reversed and contain no instant.
-/

namespace Geodesy

namespace EffectiveDates

/-- `inRange` is membership in the period that the dates stand for. -/
lemma inRange_iff_covers (p : EffectiveDates) (t : Instant) :
    p.inRange (some t) = true ↔ (toPeriod (some p)).Covers t := by
  obtain ⟨f, e⟩ := p
  rw [inRange_iff]
  cases f <;> cases e <;> simp [Period.Covers, toPeriod]

/-- A null period contains every instant. -/
lemma covers_toPeriod_iff (d : Option EffectiveDates) (t : Instant) :
    (toPeriod d).Covers t ↔ ∀ p ∈ d, p.inRange (some t) = true := by
  cases d with
  | none => simp [Period.Covers, toPeriod]
  | some p => simp [inRange_iff_covers]

lemma highBound_injective : Function.Injective highBound := by
  rintro (_ | f) (_ | g) h
  · rfl
  · cases h
  · cases h
  · rw [highBound_some, highBound_some, WithTop.coe_inj] at h
    rw [h]

/-- The dates are determined by the period that they stand for. -/
lemma eq_of_toPeriod_le {p q : EffectiveDates} (hpq : toPeriod (some p) ≤ toPeriod (some q))
    (hqp : toPeriod (some q) ≤ toPeriod (some p)) : p = q := by
  obtain ⟨pf, pt⟩ := p
  obtain ⟨qf, qt⟩ := q
  obtain rfl : pf = qf := lowBound_injective (le_antisymm hqp.1 hpq.1)
  obtain rfl : pt = qt := highBound_injective (le_antisymm hpq.2 hqp.2)
  rfl

end EffectiveDates

open EffectiveDates

/-- Whatever lies within every given period lies within `lcd`. -/
lemma le_lcd {es : List (Option EffectiveDates)} {p : EffectiveDates} (hp : lcd es = some p)
    {q : Period Instant} (hq : ∀ e ∈ es, q ≤ toPeriod e) : q ≤ toPeriod (some p) := by
  have hne : es ≠ [] := by
    rintro rfl
    cases hp
  obtain ⟨p', hp', -, ⟨d, hd, hfrom⟩, ⟨e, he, hto⟩⟩ := lcd_spec hne
  obtain rfl : p' = p := Option.some.inj (hp'.symm.trans hp)
  constructor
  · have h := (hq d hd).1
    rwa [toPeriod, ← hfrom] at h
  · have h := (hq e he).2
    rwa [toPeriod, ← hto] at h

/-- The result of `lcd` depends only on which periods are given. -/
lemma lcd_congr {es es' : List (Option EffectiveDates)} (h : ∀ e, e ∈ es ↔ e ∈ es')
    (hne : es ≠ []) : lcd es = lcd es' := by
  have hne' : es' ≠ [] := by
    obtain ⟨e, he⟩ := List.exists_mem_of_ne_nil es hne
    exact List.ne_nil_of_mem ((h e).mp he)
  obtain ⟨p, hp, hle, -, -⟩ := lcd_spec hne
  obtain ⟨p', hp', hle', -, -⟩ := lcd_spec hne'
  have hpp' := le_lcd hp' fun e he => hle e ((h e).mpr he)
  have hp'p := le_lcd hp fun e he => hle' e ((h e).mp he)
  rw [hp, hp', eq_of_toPeriod_le hpp' hp'p]

/-- **`lcd` is interval intersection.**  Of a non-empty list there is a result, an instant is in its
range if and only if it is in the range of every period of the list that is not null, and the order
of the list is of no importance. -/
theorem lcd_inRange_iff {es : List (Option EffectiveDates)} (hne : es ≠ []) :
    ∃ p, lcd es = some p ∧
      (∀ t, p.inRange (some t) = true ↔ ∀ e ∈ es, ∀ q ∈ e, q.inRange (some t) = true) ∧
      ∀ es', es'.Perm es → lcd es' = some p := by
  obtain ⟨p, hp, hle, ⟨d, hd, hfrom⟩, ⟨e, he, hto⟩⟩ := lcd_spec hne
  refine ⟨p, hp, fun t => ⟨?_, ?_⟩, fun es' hperm => ?_⟩
  · intro ht c hc
    rw [inRange_iff_covers] at ht
    exact (covers_toPeriod_iff c t).mp (ht.mono (hle c hc))
  · intro hall
    have hd' := (covers_toPeriod_iff d t).mpr (hall d hd)
    have he' := (covers_toPeriod_iff e t).mpr (hall e he)
    rw [inRange_iff_covers]
    constructor
    · rw [toPeriod, getFrom_some, hfrom]
      exact hd'.1
    · rw [toPeriod, getTo_some, hto]
      exact he'.2
  · rw [← hp]
    exact (lcd_congr (fun c => hperm.mem_iff.symm) hne).symm

/-- A null period, a reversed one and one without an end: the last one's from is the latest. -/
theorem lcd_inRange_iff_reversed :
    ∃ p, lcd [none, some ⟨some (.ofEpochSecond 5), some (.ofEpochSecond 3)⟩,
          some ⟨some (.ofEpochSecond 7), none⟩] = some p ∧
      (∀ t, p.inRange (some t) = true ↔
        ∀ e ∈ ([none, some ⟨some (.ofEpochSecond 5), some (.ofEpochSecond 3)⟩,
          some ⟨some (.ofEpochSecond 7), none⟩] : List (Option EffectiveDates)),
          ∀ q ∈ e, q.inRange (some t) = true) ∧
      ∀ es', es'.Perm [none, some ⟨some (.ofEpochSecond 5), some (.ofEpochSecond 3)⟩,
          some ⟨some (.ofEpochSecond 7), none⟩] → lcd es' = some p :=
  lcd_inRange_iff (by simp)

end Geodesy
