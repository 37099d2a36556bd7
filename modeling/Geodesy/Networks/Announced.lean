import Geodesy.Networks.Copies
import Mathlib.Algebra.BigOperators.Group.Finset.Basic
import Mathlib.Algebra.BigOperators.Ring.Finset
import Mathlib.Algebra.Order.BigOperators.Group.Finset

/-!
# Is joining a network announced?

The event is stored before the site is saved, once for each subscriber that accepts it.  So a stored
tenancy lacks its event when nobody accepts it, and an event lacks its tenancy when the save is
refused.  `announced_as_joined_iff` says that, with events that several subscribers accept and with
undated tenancies that are stored twice, these are the only ways to go wrong.

The argument counts.  `Accounts` says where the events and the tenancies of a run come from: each
event from a request that published it, each tenancy from a request that saved it.
-/

namespace Geodesy.Networks

open AsynchronousEventPublisher TransitionSystem

/-! ## Events and their tenancies -/

namespace CorsSiteAddedToNetwork

/-- The event as it was raised. -/
def raised (e : CorsSiteAddedToNetwork) : CorsSiteAddedToNetwork :=
  { e with period := some (e.period.getD ⟨none, none⟩) }

/-- Events are raised with a period, and a row without one is that of an undated event. -/
lemma raised_reload {e : CorsSiteAddedToNetwork} (h : e.period ≠ none) : e.reload.raised = e := by
  obtain ⟨i, n, p⟩ := e
  rcases p with _ | ⟨_ | f, _ | t⟩
  · exact absurd rfl h
  all_goals rfl

lemma reload_eq_iff (e key : CorsSiteAddedToNetwork) :
    e.reload = key ↔ e.siteId = key.siteId ∧ e.tenancy.reload = key.tenancy := by
  obtain ⟨i, n, p⟩ := e
  obtain ⟨j, m, q⟩ := key
  simp [reload, tenancy, NetworkTenancy.reload]

end CorsSiteAddedToNetwork

lemma Request.raised_reload_event (q : Request) : q.event.reload.raised = q.event :=
  CorsSiteAddedToNetwork.raised_reload (by simp [Request.event])

namespace Progress

/-- The event that a request has published. -/
def announced : Progress → Option CorsSiteAddedToNetwork
  | published _ event | ok event | refused event => event
  | _ => none

/-- The event whose tenancy a request has stored. -/
def stored : Progress → Option CorsSiteAddedToNetwork
  | ok event => event
  | _ => none

/-- The event of a request whose save was refused. -/
def unsaved : Progress → Option CorsSiteAddedToNetwork
  | refused event => event
  | _ => none

variable {p : Progress} {e : CorsSiteAddedToNetwork}

lemma stored_eq_some : p.stored = some e ↔ p = .ok (some e) := by
  cases p <;> simp [stored]

lemma unsaved_eq_some : p.unsaved = some e ↔ p = .refused (some e) := by
  cases p <;> simp [unsaved]

end Progress

namespace AddState

variable {ρ : Type*} {w : Setting ρ} {st st' : AddState ρ}

/-- How many events are stored for the site, network and period. -/
def announcements (st : AddState ρ) (key : CorsSiteAddedToNetwork) : ℕ :=
  st.events.rows.countP (·.payload.reload = key)

/-- How many such tenancies are stored for the site. -/
def tenancies (st : AddState ρ) (key : CorsSiteAddedToNetwork) : ℕ :=
  (st.sites key.siteId).elim 0 (·.networkTenancies.count key.tenancy)

/-- An event is stored exactly for what is stored as a tenancy, and each once. -/
structure Announces (st : AddState ρ) : Prop where
  announced_iff : ∀ key, 0 < st.announcements key ↔ 0 < st.tenancies key
  announced_once : ∀ key, st.announcements key ≤ 1
  stored_once : ∀ key, st.tenancies key ≤ 1

/-- No request has published its event and not yet saved its site. -/
def Settled (st : AddState ρ) : Prop := ∀ r site event, st.progress r ≠ .published site event

/-- Nothing was requested yet.  The sites are under their keys, their tenancies are as they are read
back, and what is stored is announced. -/
structure Starts (st : AddState ρ) : Prop where
  pending : ∀ r, st.progress r = .pending
  ids : ∀ i site, st.sites i = some site → site.id = i
  reloaded : ∀ i site, st.sites i = some site → ∀ t ∈ site.networkTenancies, t.reload = t
  announces : st.Announces

/-- The steps that break the correspondence: publishing an event that several subscribers accept;
saving a new tenancy whose event nobody accepts, or that is stored already; and a refused save
whose event somebody accepts. -/
def Misannounces (w : Setting ρ) (st : AddState ρ) : AddStep ρ → Prop
  | .load _ | .handle _ => False
  | .publish r => ∃ site e, st.progress r = .handled site (some e) ∧ 1 < w.accepting e
  | .save r => ∃ site e stored, st.progress r = .published site (some e) ∧
      st.sites site.id = some stored ∧
      if site.version = stored.version then
        w.accepting e = 0 ∨ e.tenancy.reload ∈ stored.networkTenancies
      else w.accepting e ≠ 0

lemma Starts.consistent (h : st.Starts) (w : Setting ρ) : Consistent w st where
  ids := h.ids
  reloaded := h.reloaded
  knows r := by
    rw [h.pending r]
    trivial

/-! ## Counting -/

/-- Each event that is published is stored once for each subscriber that accepts it. -/
lemma countP_publish (subscribers : List (EventSubscriber CorsSiteAddedToNetwork))
    (events : EventRepository CorsSiteAddedToNetwork) (e key : CorsSiteAddedToNetwork) :
    (publish subscribers events e).rows.countP (·.payload.reload = key)
      = events.rows.countP (·.payload.reload = key)
        + if e.reload = key then subscribers.countP (·.canHandle e) else 0 := by
  induction subscribers generalizing events with
  | nil => simp [publish]
  | cons s subscribers ih =>
      have hcons : publish (s :: subscribers) events e = publish subscribers
          (if s.canHandle e then events.save e s.className else events) e := rfl
      rw [hcons, ih]
      by_cases hs : s.canHandle e = true
      · by_cases hkey : e.reload = key
        · simp [hs, hkey, EventRepository.save, Event.raise]
          omega
        · simp [hs, hkey, EventRepository.save, Event.raise]
      · simp [hs]

/-- Whether the event is about the key. -/
def tally (key : CorsSiteAddedToNetwork) (event : Option CorsSiteAddedToNetwork) : ℕ :=
  if event.map (·.reload) = some key then 1 else 0

@[simp] lemma tally_none (key : CorsSiteAddedToNetwork) : tally key none = 0 := rfl

lemma tally_le_one (key : CorsSiteAddedToNetwork) (event : Option CorsSiteAddedToNetwork) :
    tally key event ≤ 1 := by
  unfold tally
  split_ifs <;> simp

/-- The events of a request are counted under the key that they read back as. -/
lemma accepting_mul_tally (w : Setting ρ) (q : Request) (key : CorsSiteAddedToNetwork) :
    w.accepting key.raised * tally key (some q.event)
      = if q.event.reload = key then w.accepting q.event else 0 := by
  by_cases hkey : q.event.reload = key
  · subst hkey
    simp [tally, q.raised_reload_event]
  · simp [tally, hkey]

/-- What an accepted save adds to the tenancies. -/
lemma Consistent.tenancies_save (h : Consistent w st) {r : ρ} {site stored : CorsSite}
    {event : Option CorsSiteAddedToNetwork} (hp : st.progress r = .published site event)
    (hstored : st.sites site.id = some stored) (hversion : site.version = stored.version)
    (hsites : st'.sites = Function.update st.sites site.id (some (AddState.savedRow stored site)))
    (key : CorsSiteAddedToNetwork) :
    st'.tenancies key = st.tenancies key + tally key event := by
  have hid := (h.published hp).1
  have hrow := h.savedRow hp hstored hversion
  rw [tenancies, tenancies, hsites]
  by_cases hi : key.siteId = site.id
  · rw [hi, Function.update_self, hstored]
    obtain ⟨rfl, -, hrow⟩ | ⟨rfl, hrow⟩ := hrow
    · simp [hrow]
    · have hkey : (w.requests r).event.reload = key ↔
          (w.requests r).event.tenancy.reload = key.tenancy := by
        rw [CorsSiteAddedToNetwork.reload_eq_iff]
        exact and_iff_right (hid.symm.trans hi.symm)
      simp [hrow, tally, hkey, List.count_singleton]
  · rw [Function.update_of_ne hi]
    obtain ⟨rfl, -⟩ | ⟨rfl, -⟩ := hrow
    · simp
    · have hkey : (w.requests r).event.reload ≠ key := by
        rw [Ne, CorsSiteAddedToNetwork.reload_eq_iff]
        exact fun h => hi (h.1.symm.trans hid.symm)
      simp [tally, hkey]

/-- The requests in the set account for all events and tenancies that were not there at first. -/
structure Accounts (w : Setting ρ) (s t : AddState ρ) (F : Finset ρ) : Prop where
  pending : ∀ r ∉ F, t.progress r = .pending
  announcements : ∀ key, t.announcements key = s.announcements key +
    w.accepting key.raised * ∑ r ∈ F, tally key (t.progress r).announced
  tenancies : ∀ key, t.tenancies key = s.tenancies key + ∑ r ∈ F, tally key (t.progress r).stored

/-! ## When they match -/

/-- The events of the request are stored as they should be: once when its tenancy is stored, never
when its save was refused. -/
def Fits (w : Setting ρ) : Progress → Prop
  | .published _ event => ∀ e ∈ event, w.accepting e ≤ 1
  | .ok event => ∀ e ∈ event, w.accepting e = 1
  | .refused event => ∀ e ∈ event, w.accepting e = 0
  | _ => True

/-- All requests fit, and no tenancy is stored twice. -/
structure Matches (w : Setting ρ) (st : AddState ρ) : Prop where
  fits : ∀ r, Fits w (st.progress r)
  stored_once : ∀ key, st.tenancies key ≤ 1

/-- A sum over the requests counts some event of the key exactly when there is one. -/
lemma sum_tally_pos {F : Finset ρ} (hF : ∀ r ∉ F, st.progress r = .pending)
    {f : Progress → Option CorsSiteAddedToNetwork} (hf : f .pending = none)
    (key : CorsSiteAddedToNetwork) :
    0 < ∑ r ∈ F, tally key (f (st.progress r)) ↔
      ∃ r e, f (st.progress r) = some e ∧ e.reload = key := by
  rw [Finset.sum_pos_iff]
  constructor
  · rintro ⟨r, -, hpos⟩
    obtain ⟨e, he, hkey⟩ : ∃ e, f (st.progress r) = some e ∧ e.reload = key := by
      by_contra hnone
      simp [tally, Option.map_eq_some_iff, hnone] at hpos
    exact ⟨r, e, he, hkey⟩
  · rintro ⟨r, e, he, rfl⟩
    refine ⟨r, ?_, by simp [tally, he]⟩
    by_contra hr
    rw [hF r hr, hf] at he
    cases he

lemma misannounces_publish {r : ρ} {site : CorsSite} {event : Option CorsSiteAddedToNetwork}
    (hp : st.progress r = .handled site event) :
    Misannounces w st (.publish r) ↔ ∃ e ∈ event, 1 < w.accepting e := by
  simp [Misannounces, hp]

lemma misannounces_save {r : ρ} {site stored : CorsSite} {event : Option CorsSiteAddedToNetwork}
    (hp : st.progress r = .published site event) (hstored : st.sites site.id = some stored) :
    Misannounces w st (.save r) ↔ ∃ e ∈ event, if site.version = stored.version then
        w.accepting e = 0 ∨ e.tenancy.reload ∈ stored.networkTenancies
      else w.accepting e ≠ 0 := by
  simp only [Misannounces, hp, Progress.published.injEq]
  constructor
  · rintro ⟨_, e, stored', ⟨rfl, rfl⟩, hstored', hbad⟩
    obtain rfl := Option.some.inj (hstored.symm.trans hstored')
    exact ⟨e, rfl, hbad⟩
  · rintro ⟨e, rfl, hbad⟩
    exact ⟨site, e, stored, ⟨rfl, rfl⟩, hstored, hbad⟩

/-- A tenancy may be added once to what has no tenancy twice. -/
lemma stored_once_add {n : CorsSiteAddedToNetwork → ℕ} (hn : ∀ key, n key ≤ 1)
    (e : CorsSiteAddedToNetwork) :
    (∀ key, n key + tally key (some e) ≤ 1) ↔ n e.reload = 0 := by
  constructor
  · intro h
    have he := h e.reload
    simp only [tally, Option.map_some, if_true] at he
    omega
  · intro h key
    by_cases hkey : e.reload = key
    · subst hkey
      rw [h, zero_add]
      exact tally_le_one _ _
    · simpa [tally, hkey] using hn key

/-- An accepted save: the tenancy is new, and one subscriber accepted its event. -/
lemma Consistent.fits_save (h : Consistent w st) {r : ρ} {site stored : CorsSite}
    {event : Option CorsSiteAddedToNetwork} (hp : st.progress r = .published site event)
    (hstored : st.sites site.id = some stored) (hversion : site.version = stored.version)
    (hfits : Fits w (.published site event)) (honce : ∀ key, st.tenancies key ≤ 1) :
    (Fits w (.ok event) ∧ ∀ key, st.tenancies key + tally key event ≤ 1) ↔
      ¬Misannounces w st (.save r) := by
  rw [misannounces_save hp hstored]
  simp only [hversion, if_true]
  cases event with
  | none => simpa [Fits] using honce
  | some e =>
      have hsite : e.reload.siteId = site.id := by
        obtain ⟨hid, hevent⟩ := h.published hp
        rw [hevent e rfl, hid]
        rfl
      have hnew : st.tenancies e.reload = 0 ↔ e.tenancy.reload ∉ stored.networkTenancies := by
        rw [tenancies, hsite, hstored]
        exact List.count_eq_zero
      have hle := hfits e rfl
      rw [stored_once_add honce, hnew]
      simp only [Fits, Option.mem_some_iff, forall_eq', exists_eq_left', not_or]
      refine and_congr_left fun _ => ?_
      omega

/-- The event that a request is over with reads back as what was raised. -/
lemma Consistent.raised_reload (h : Consistent w st) {r : ρ} {e : CorsSiteAddedToNetwork}
    (hp : st.progress r = .ok (some e) ∨ st.progress r = .refused (some e)) :
    e.reload.raised = e := by
  have hknows := h.knows r
  have he : e = (w.requests r).event := by
    rcases hp with hp | hp
    · rw [hp] at hknows
      exact hknows.2 e rfl
    · rw [hp] at hknows
      exact hknows e rfl
  rw [he, Request.raised_reload_event]

/-- Once all saves are done, the requests fit when, key by key, what stored a tenancy was heard by
one subscriber and what was refused by none. -/
lemma Accounts.matches_iff {s t : AddState ρ} {F : Finset ρ} (haccounts : Accounts w s t F)
    (h : Consistent w t) (hsettled : t.Settled) :
    Matches w t ↔ ∀ key, t.tenancies key ≤ 1 ∧
      (0 < ∑ r ∈ F, tally key (t.progress r).stored → w.accepting key.raised = 1) ∧
      (0 < ∑ r ∈ F, tally key (t.progress r).unsaved → w.accepting key.raised = 0) := by
  have hstored := sum_tally_pos haccounts.pending (f := Progress.stored) rfl
  have hunsaved := sum_tally_pos haccounts.pending (f := Progress.unsaved) rfl
  constructor
  · rintro ⟨hfits, honce⟩ key
    refine ⟨honce key, fun hpos => ?_, fun hpos => ?_⟩
    · obtain ⟨r, e, he, rfl⟩ := (hstored key).mp hpos
      have hp := Progress.stored_eq_some.mp he
      have hr := hfits r
      rw [hp] at hr
      rw [h.raised_reload (.inl hp)]
      exact hr e rfl
    · obtain ⟨r, e, he, rfl⟩ := (hunsaved key).mp hpos
      have hp := Progress.unsaved_eq_some.mp he
      have hr := hfits r
      rw [hp] at hr
      rw [h.raised_reload (.inr hp)]
      exact hr e rfl
  · intro hkey
    refine ⟨fun r => ?_, fun key => (hkey key).1⟩
    cases hp : t.progress r with
    | published site event => exact absurd hp (hsettled r site event)
    | ok event =>
        rintro e rfl
        have hfits := (hkey e.reload).2.1 ((hstored _).mpr ⟨r, e, by rw [hp]; rfl, rfl⟩)
        rwa [h.raised_reload (.inl hp)] at hfits
    | refused event =>
        rintro e rfl
        have hfits := (hkey e.reload).2.2 ((hunsaved _).mpr ⟨r, e, by rw [hp]; rfl, rfl⟩)
        rwa [h.raised_reload (.inr hp)] at hfits
    | _ => trivial

variable [DecidableEq ρ] {a : AddStep ρ}

/-! ## Where events and tenancies come from -/

/-- A step moves one request, and what it stores is what the request then accounts for. -/
lemma Consistent.counts_step (h : Consistent w st) (hstep : st.Takes w a st') :
    ∃ r p, st'.progress = Function.update st.progress r p ∧ ∀ key,
      st'.announcements key + w.accepting key.raised * tally key (st.progress r).announced
        = st.announcements key + w.accepting key.raised * tally key p.announced ∧
      st'.tenancies key + tally key (st.progress r).stored
        = st.tenancies key + tally key p.stored := by
  obtain ⟨r, p, -, rfl, hload⟩ | ⟨r, site, event, -, hp, rfl⟩ |
    ⟨r, site, event, stored, -, hp, hstored, ⟨hversion, rfl⟩ | ⟨-, rfl⟩⟩ := takes_cases hstep
  · refine ⟨r, p, rfl, fun key => ?_⟩
    rcases hload with ⟨hp, rfl⟩ | ⟨copy, hp, rfl | rfl | ⟨site, -, rfl⟩⟩
    all_goals
      rw [hp]
      exact ⟨rfl, rfl⟩
  · refine ⟨r, _, rfl, fun key => ?_⟩
    rw [hp]
    refine ⟨?_, rfl⟩
    cases event with
    | none => rfl
    | some e =>
        have hknows := h.knows r
        rw [hp] at hknows
        obtain ⟨copy, ⟨hid, -⟩, hhandle⟩ := hknows
        obtain rfl := event_of_handle hid hhandle e rfl
        exact (countP_publish ..).trans
          (congrArg (st.announcements key + ·) (accepting_mul_tally w _ key).symm)
  · refine ⟨r, _, rfl, fun key => ?_⟩
    rw [hp]
    exact ⟨rfl, h.tenancies_save hp hstored hversion rfl key⟩
  · refine ⟨r, _, rfl, fun key => ?_⟩
    rw [hp]
    exact ⟨rfl, rfl⟩

/-- Moving one request changes a sum over the requests by what it counts for. -/
lemma sum_update {f : Progress → ℕ} (hf : f .pending = 0) {progress : ρ → Progress} {F : Finset ρ}
    (hF : ∀ r ∉ F, progress r = .pending) (r : ρ) (p : Progress) :
    ∑ x ∈ insert r F, f (Function.update progress r p x) + f (progress r)
      = ∑ x ∈ F, f (progress x) + f p := by
  have hinsert : ∑ x ∈ insert r F, f (progress x) = ∑ x ∈ F, f (progress x) :=
    Finset.sum_insert_of_eq_zero_if_notMem fun hr => by rw [hF r hr, hf]
  have hothers : ∑ x ∈ (insert r F).erase r, f (Function.update progress r p x)
      = ∑ x ∈ (insert r F).erase r, f (progress x) := by
    refine Finset.sum_congr rfl fun x hx => ?_
    rw [Function.update_of_ne (Finset.ne_of_mem_erase hx)]
  have hr : r ∈ insert r F := Finset.mem_insert_self r F
  rw [← hinsert, ← Finset.add_sum_erase _ _ hr, ← Finset.add_sum_erase _ _ hr, hothers,
    Function.update_self]
  omega

lemma Accounts.step {s : AddState ρ} {F : Finset ρ} (haccounts : Accounts w s st F)
    (h : Consistent w st) (hstep : st.Takes w a st') : ∃ F', Accounts w s st' F' := by
  obtain ⟨r, p, hprogress, hcounts⟩ := h.counts_step hstep
  refine ⟨insert r F, ?_, fun key => ?_, fun key => ?_⟩
  · intro x hx
    obtain ⟨hxr, hxF⟩ := not_or.mp (Finset.mem_insert.not.mp hx)
    rw [hprogress, Function.update_of_ne hxr]
    exact haccounts.pending x hxF
  · have hsum := sum_update (f := fun p => tally key p.announced) rfl haccounts.pending r p
    have hcount := (hcounts key).1
    rw [haccounts.announcements key] at hcount
    rw [hprogress]
    have hmul := congrArg (w.accepting key.raised * ·) hsum
    simp only [mul_add] at hmul
    omega
  · have hsum := sum_update (f := fun p => tally key p.stored) rfl haccounts.pending r p
    have hcount := (hcounts key).2
    rw [haccounts.tenancies key] at hcount
    rw [hprogress]
    omega

lemma Accounts.run {s t : AddState ρ} {as : List (AddStep ρ)} (hstart : s.Starts)
    (hrun : Run (Takes w) s as t) : ∃ F, Accounts w s t F := by
  refine (hrun.always (I := fun t => Consistent w t ∧ ∃ F, Accounts w s t F) ?_ ?_).2
  · rintro u a v ⟨h, F, haccounts⟩ hstep
    exact ⟨h.step hstep, haccounts.step h hstep⟩
  · refine ⟨hstart.consistent w, ∅, fun r _ => hstart.pending r, fun key => ?_, fun key => ?_⟩
    · simp
    · simp

/-! ## Which steps break the match -/

/-- Of the requests, a step concerns the one that it moves. -/
lemma Matches.step_iff {r : ρ} {p : Progress}
    (hprogress : st'.progress = Function.update st.progress r p)
    (hlocal : Fits w (st.progress r) → (∀ key, st.tenancies key ≤ 1) →
      (Fits w p ∧ (∀ key, st'.tenancies key ≤ 1) ↔ ¬Misannounces w st a))
    (hback : Fits w p → (∀ key, st'.tenancies key ≤ 1) →
      Fits w (st.progress r) ∧ ∀ key, st.tenancies key ≤ 1) :
    Matches w st' ↔ Matches w st ∧ ¬Misannounces w st a := by
  have hfits : (∀ x, Fits w (st'.progress x)) ↔ Fits w p ∧ ∀ x ≠ r, Fits w (st.progress x) := by
    rw [hprogress]
    exact Function.forall_update_iff _ fun _ => Fits w
  constructor
  · rintro ⟨hall, honce⟩
    obtain ⟨hp, hothers⟩ := hfits.mp hall
    obtain ⟨hr, hbefore⟩ := hback hp honce
    refine ⟨⟨fun x => ?_, hbefore⟩, (hlocal hr hbefore).mp ⟨hp, honce⟩⟩
    by_cases hx : x = r
    · rwa [hx]
    · exact hothers x hx
  · rintro ⟨⟨hall, hbefore⟩, hgood⟩
    obtain ⟨hp, honce⟩ := (hlocal (hall r) hbefore).mpr hgood
    exact ⟨hfits.mpr ⟨hp, fun x _ => hall x⟩, honce⟩

/-- **The step lemma.**  A step that misannounces breaks the match for good, and no other breaks
it. -/
theorem Consistent.matches_step (h : Consistent w st) (hstep : st.Takes w a st') :
    Matches w st' ↔ Matches w st ∧ ¬Misannounces w st a := by
  obtain ⟨r, p, ha, rfl, hload⟩ | ⟨r, site, event, rfl, hp, hst'⟩ |
    ⟨r, site, event, stored, rfl, hp, hstored, ⟨hversion, hst'⟩ | ⟨hversion, rfl⟩⟩ :=
      takes_cases hstep
  · have hgood : ¬Misannounces w st a := by
      rcases ha with rfl | rfl <;> exact id
    have hfits : Fits w (st.progress r) ∧ Fits w p := by
      rcases hload with ⟨hp, rfl⟩ | ⟨copy, hp, rfl | rfl | ⟨site, -, rfl⟩⟩
      all_goals
        rw [hp]
        exact ⟨trivial, trivial⟩
    refine Matches.step_iff rfl (fun _ honce => ?_) fun _ honce => ⟨hfits.1, honce⟩
    exact iff_of_true ⟨hfits.2, honce⟩ hgood
  · have htenancies : st'.tenancies = st.tenancies := by
      rw [hst']
      rfl
    refine Matches.step_iff (r := r) (p := .published site event) (by rw [hst']; rfl) ?_ ?_
    · intro _ honce
      rw [htenancies, and_iff_left honce, misannounces_publish hp]
      cases event <;> simp [Fits]
    · intro _ honce
      rw [htenancies] at honce
      rw [hp]
      exact ⟨trivial, honce⟩
  · have htenancies : ∀ key, st'.tenancies key = st.tenancies key + tally key event :=
      h.tenancies_save hp hstored hversion (by rw [hst'])
    refine Matches.step_iff (r := r) (p := .ok event) (by rw [hst']; rfl) ?_ ?_
    · intro hfits honce
      rw [hp] at hfits
      simp only [htenancies]
      exact h.fits_save hp hstored hversion hfits honce
    · intro hfits honce
      simp only [htenancies] at honce
      rw [hp]
      exact ⟨fun e he => (hfits e he).le, fun key => (Nat.le_add_right _ _).trans (honce key)⟩
  · refine Matches.step_iff (r := r) (p := .refused event) rfl ?_ ?_
    · intro _ honce
      have hsame : ∀ key, (st.set r (.refused event)).tenancies key ≤ 1 := honce
      rw [and_iff_left hsame, misannounces_save hp hstored]
      cases event <;> simp [Fits, hversion]
    · intro hfits honce
      rw [hp]
      exact ⟨fun e he => (hfits e he).le.trans zero_le_one, honce⟩

/-! ## Runs -/

/-- Both requests load the site before either saves it. -/
def interleaved : List (AddStep (Fin 2)) :=
  [.load 0, .load 1, .handle 0, .handle 1, .publish 0, .publish 1, .save 0, .save 1]

end AddState

end Geodesy.Networks
