import Geodesy.Library.TransitionSystem
import Geodesy.Networks.AddToNetwork

/-!
# Requests and their copies of the sites

A request works on the copy of the site that it loaded, and its save is refused unless the copy is
up to date.  `Consistent` says what a request knows on its way: its copy is the stored site, or the
site has a newer version.  So an accepted save adds one tenancy to what is stored or nothing
(`Consistent.savedRow`), sites only grow, and a tenancy that was asked for and granted stays.
-/

namespace Geodesy.Networks

open AsynchronousEventPublisher TransitionSystem

lemma CorsSite.handle_eq (site : CorsSite) (command : AddCorsSiteToNetwork) :
    site.handle command =
      if ⟨command.networkId, some command.period⟩ ∈ site.networkTenancies then (site, none)
      else
        ({ site with networkTenancies :=
            site.networkTenancies ++ [⟨command.networkId, some command.period⟩] },
          some ⟨site.id, command.networkId, some command.period⟩) := by
  by_cases h : (⟨command.networkId, some command.period⟩ : NetworkTenancy) ∈ site.networkTenancies
  · simp [CorsSite.handle, h]
  · simp [CorsSite.handle, h]

namespace AddState

variable {ρ : Type*} {w : Setting ρ} {st st' : AddState ρ}

/-- The tenancy that the request asks for is stored. -/
def Joined (w : Setting ρ) (st : AddState ρ) (r : ρ) : Prop :=
  ∃ site, st.sites (w.requests r).siteId = some site ∧
    (w.requests r).event.tenancy.reload ∈ site.networkTenancies

/-! ## What the requests know -/

/-- The site is as it was loaded under the key: it is the stored one unless that has changed. -/
def CopyOf (st : AddState ρ) (site : CorsSite) (i : ℕ) : Prop :=
  site.id = i ∧ ∃ stored, st.sites i = some stored ∧ site.version ≤ stored.version ∧
    (site.version = stored.version → site = stored)

/-- What a request that has come so far knows. -/
def Knows (w : Setting ρ) (st : AddState ρ) (r : ρ) : Progress → Prop
  | .pending | .badRequest | .failed => True
  | .loaded site => ∀ copy ∈ site, st.CopyOf copy (w.requests r).siteId
  | .handled site event | .published site event =>
    ∃ copy, st.CopyOf copy (w.requests r).siteId ∧
      copy.handle (w.requests r).command = (site, event)
  | .ok event => Joined w st r ∧ ∀ e ∈ event, e = (w.requests r).event
  | .refused event => ∀ e ∈ event, e = (w.requests r).event

/-- Sites are under their keys and as they are read back, and the requests know what they should. -/
structure Consistent (w : Setting ρ) (st : AddState ρ) : Prop where
  ids : ∀ i site, st.sites i = some site → site.id = i
  reloaded : ∀ i site, st.sites i = some site → ∀ t ∈ site.networkTenancies, t.reload = t
  knows : ∀ r, Knows w st r (st.progress r)

/-- The sites stay, and those that changed have new versions and more tenancies. -/
def Extends (st st' : AddState ρ) : Prop :=
  ∀ i site, st.sites i = some site → ∃ site', st'.sites i = some site' ∧
    (site' = site ∨ site.version < site'.version) ∧
    site.networkTenancies ⊆ site'.networkTenancies

lemma Extends.of_sites_eq (h : st'.sites = st.sites) : st.Extends st' := by
  intro i site hsite
  exact ⟨site, by rw [h, hsite], .inl rfl, List.Subset.refl _⟩

lemma CopyOf.extend {site : CorsSite} {i : ℕ} (h : st.CopyOf site i) (hext : st.Extends st') :
    st'.CopyOf site i := by
  obtain ⟨hid, stored, hstored, hle, hsame⟩ := h
  obtain ⟨stored', hstored', hgrown, -⟩ := hext i stored hstored
  refine ⟨hid, stored', hstored', ?_⟩
  rcases hgrown with rfl | hlt
  · exact ⟨hle, hsame⟩
  · exact ⟨hle.trans hlt.le, fun h => absurd h (hle.trans_lt hlt).ne⟩

lemma Joined.extend {r : ρ} (h : Joined w st r) (hext : st.Extends st') : Joined w st' r := by
  obtain ⟨site, hsite, hmem⟩ := h
  obtain ⟨site', hsite', -, hsub⟩ := hext _ site hsite
  exact ⟨site', hsite', hsub hmem⟩

lemma Knows.extend {r : ρ} {p : Progress} (h : Knows w st r p) (hext : st.Extends st') :
    Knows w st' r p := by
  cases p with
  | pending => trivial
  | badRequest => trivial
  | failed => trivial
  | loaded site => exact fun copy hcopy => (h copy hcopy).extend hext
  | handled site event =>
      obtain ⟨copy, hcopy, hhandle⟩ := h
      exact ⟨copy, hcopy.extend hext, hhandle⟩
  | published site event =>
      obtain ⟨copy, hcopy, hhandle⟩ := h
      exact ⟨copy, hcopy.extend hext, hhandle⟩
  | ok event => exact ⟨h.1.extend hext, h.2⟩
  | refused event => exact h

/-! ## What a save stores -/

/-- A site that handled the request: its event is the request's, or there is none. -/
lemma event_of_handle {copy site : CorsSite} {event : Option CorsSiteAddedToNetwork} {r : ρ}
    (hid : copy.id = (w.requests r).siteId)
    (h : copy.handle (w.requests r).command = (site, event)) :
    ∀ e ∈ event, e = (w.requests r).event := by
  rintro e rfl
  rw [CorsSite.handle_eq] at h
  split_ifs at h
  · cases h
  · obtain ⟨-, he⟩ := Prod.mk.inj h
    obtain rfl := Option.some.inj he
    rw [hid]
    rfl

/-- Handling a command leaves the key and the version. -/
lemma handle_frame {copy site : CorsSite} {command : AddCorsSiteToNetwork}
    {event : Option CorsSiteAddedToNetwork} (h : copy.handle command = (site, event)) :
    site.id = copy.id ∧ site.version = copy.version := by
  rw [CorsSite.handle_eq] at h
  split_ifs at h
  · obtain ⟨rfl, -⟩ := Prod.mk.inj h
    exact ⟨rfl, rfl⟩
  · obtain ⟨rfl, -⟩ := Prod.mk.inj h
    exact ⟨rfl, rfl⟩

/-- What a save stores of the site that handled the request, when that is up to date: the row as it
is, or with a new tenancy. -/
lemma savedRow_handle {stored site : CorsSite} {event : Option CorsSiteAddedToNetwork} {r : ρ}
    (hid : stored.id = (w.requests r).siteId)
    (hreloaded : ∀ t ∈ stored.networkTenancies, t.reload = t)
    (h : stored.handle (w.requests r).command = (site, event)) :
    (event = none ∧ (w.requests r).event.tenancy.reload ∈ stored.networkTenancies ∧
      savedRow stored site = stored) ∨
    (event = some (w.requests r).event ∧
      savedRow stored site = { stored with
        version := stored.version + 1
        networkTenancies :=
          stored.networkTenancies ++ [(w.requests r).event.tenancy.reload] }) := by
  have hmap : stored.networkTenancies.map (·.reload) = stored.networkTenancies :=
    (List.map_congr_left hreloaded).trans (List.map_id _)
  have hevent := event_of_handle hid h
  rw [CorsSite.handle_eq] at h
  split_ifs at h with hmem
  · obtain ⟨rfl, rfl⟩ := Prod.mk.inj h
    refine .inl ⟨rfl, ?_, ?_⟩
    · have hself := hmem
      rw [← hreloaded _ hmem] at hself
      exact hself
    · simp [savedRow, hmap]
  · obtain ⟨rfl, rfl⟩ := Prod.mk.inj h
    refine .inr ⟨congrArg some (hevent _ rfl), ?_⟩
    simp [savedRow, hmap, Request.event, CorsSiteAddedToNetwork.tenancy, Request.command]

/-- A request that published its event knows the key of its site and its own event. -/
lemma Consistent.published (h : Consistent w st) {r : ρ} {site : CorsSite}
    {event : Option CorsSiteAddedToNetwork} (hp : st.progress r = .published site event) :
    site.id = (w.requests r).siteId ∧ ∀ e ∈ event, e = (w.requests r).event := by
  have hknows := h.knows r
  rw [hp] at hknows
  obtain ⟨copy, ⟨hid, -⟩, hhandle⟩ := hknows
  exact ⟨(handle_frame hhandle).1.trans hid, event_of_handle hid hhandle⟩

/-- What an accepted save stores. -/
lemma Consistent.savedRow (h : Consistent w st) {r : ρ} {site stored : CorsSite}
    {event : Option CorsSiteAddedToNetwork} (hp : st.progress r = .published site event)
    (hstored : st.sites site.id = some stored) (hversion : site.version = stored.version) :
    (event = none ∧ (w.requests r).event.tenancy.reload ∈ stored.networkTenancies ∧
      AddState.savedRow stored site = stored) ∨
    (event = some (w.requests r).event ∧
      AddState.savedRow stored site = { stored with
        version := stored.version + 1
        networkTenancies :=
          stored.networkTenancies ++ [(w.requests r).event.tenancy.reload] }) := by
  have hkey := (h.published hp).1
  have hknows := h.knows r
  rw [hp] at hknows
  obtain ⟨copy, ⟨hid, stored', hstored', -, hsame⟩, hhandle⟩ := hknows
  -- the version says that the site is still the one that was loaded
  obtain rfl : stored' = stored := by
    rw [← hkey, hstored] at hstored'
    exact (Option.some.inj hstored').symm
  obtain rfl := hsame ((handle_frame hhandle).2.symm.trans hversion)
  exact savedRow_handle hid (h.reloaded _ _ hstored') hhandle

/-! ## What a step does -/

variable [DecidableEq ρ] {a : AddStep ρ}

/-- **What a step can do.**  A request comes one step further; only its publication stores events,
and only its save, when the site did not change meanwhile, stores a site. -/
lemma takes_cases (h : st.Takes w a st') :
    (∃ r p, (a = .load r ∨ a = .handle r) ∧ st' = st.set r p ∧
      (st.progress r = .pending ∧ p = .loaded (st.sites (w.requests r).siteId) ∨
        ∃ copy, st.progress r = .loaded copy ∧ (p = .badRequest ∨ p = .failed ∨
          ∃ site, copy = some site ∧ p = .handled (site.handle (w.requests r).command).1
            (site.handle (w.requests r).command).2))) ∨
    (∃ r site event, a = .publish r ∧ st.progress r = .handled site event ∧
      st' = { st.set r (.published site event) with
        events := event.elim st.events (publish w.subscribers st.events) }) ∨
    (∃ r site event stored, a = .save r ∧ st.progress r = .published site event ∧
      st.sites site.id = some stored ∧
      (site.version = stored.version ∧ st' = { st.set r (.ok event) with
          sites := Function.update st.sites site.id (some (savedRow stored site)) } ∨
        site.version ≠ stored.version ∧ st' = st.set r (.refused event))) := by
  unfold Takes at h
  cases a with
  | load r =>
      cases hp : st.progress r <;> simp only [run, hp, reduceCtorEq] at h
      obtain rfl := Option.some.inj h
      exact .inl ⟨r, _, .inl rfl, rfl, .inl ⟨hp, rfl⟩⟩
  | handle r =>
      cases hp : st.progress r <;> simp only [run, hp, reduceCtorEq] at h
      next copy =>
      split_ifs at h with hnetwork
      · obtain rfl := Option.some.inj h
        exact .inl ⟨r, _, .inr rfl, rfl, .inr ⟨copy, hp, .inl rfl⟩⟩
      · cases copy with
        | none =>
            obtain rfl := Option.some.inj h
            exact .inl ⟨r, _, .inr rfl, rfl, .inr ⟨none, hp, .inr (.inl rfl)⟩⟩
        | some site =>
            obtain rfl := Option.some.inj h
            exact .inl ⟨r, _, .inr rfl, rfl, .inr ⟨_, hp, .inr (.inr ⟨site, rfl, rfl⟩)⟩⟩
  | publish r =>
      cases hp : st.progress r <;> simp only [run, hp, reduceCtorEq] at h
      next site event =>
      exact .inr (.inl ⟨r, site, event, rfl, hp, (Option.some.inj h).symm⟩)
  | save r =>
      cases hp : st.progress r <;> simp only [run, hp, reduceCtorEq] at h
      next site event =>
      cases hstored : st.sites site.id with
      | none => simp [hstored] at h
      | some stored =>
          simp only [hstored] at h
          split_ifs at h with hversion
          · exact .inr (.inr ⟨r, site, event, stored, rfl, hp, hstored,
              .inl ⟨hversion, (Option.some.inj h).symm⟩⟩)
          · exact .inr (.inr ⟨r, site, event, stored, rfl, hp, hstored,
              .inr ⟨hversion, (Option.some.inj h).symm⟩⟩)

/-- Sites only grow. -/
lemma Consistent.extends (h : Consistent w st) (hstep : st.Takes w a st') : st.Extends st' := by
  obtain ⟨r, p, -, rfl, -⟩ | ⟨r, site, event, -, -, rfl⟩ |
    ⟨r, site, event, stored, -, hp, hstored, ⟨hversion, rfl⟩ | ⟨-, rfl⟩⟩ := takes_cases hstep
  · exact Extends.of_sites_eq rfl
  · exact Extends.of_sites_eq rfl
  · intro i q hq
    by_cases hi : i = site.id
    · subst hi
      obtain rfl := Option.some.inj (hstored.symm.trans hq)
      refine ⟨AddState.savedRow stored site, Function.update_self .., ?_⟩
      obtain ⟨-, -, hrow⟩ | ⟨-, hrow⟩ := h.savedRow hp hstored hversion
      · rw [hrow]
        exact ⟨.inl rfl, List.Subset.refl _⟩
      · rw [hrow]
        exact ⟨.inr (Nat.lt_succ_self _), List.subset_append_left ..⟩
    · exact ⟨q, (Function.update_of_ne hi ..).trans hq, .inl rfl, List.Subset.refl _⟩
  · exact Extends.of_sites_eq rfl

/-- What the request knows that came further, and that the others know no less. -/
lemma Consistent.knows_step (h : Consistent w st) (hstep : st.Takes w a st') (r : ρ) :
    Knows w st' r (st'.progress r) := by
  have hext := h.extends hstep
  -- the request that takes the step knows more, the others what they knew
  have hupdate : ∀ s p, st'.progress = Function.update st.progress s p → Knows w st' s p →
      Knows w st' r (st'.progress r) := by
    intro s p hprogress hp
    rw [hprogress]
    by_cases hrs : r = s
    · subst hrs
      rwa [Function.update_self]
    · rw [Function.update_of_ne hrs]
      exact (h.knows r).extend hext
  obtain ⟨s, p, -, rfl, hload⟩ | ⟨s, site, event, -, hp, rfl⟩ |
    ⟨s, site, event, stored, -, hp, hstored, ⟨hversion, rfl⟩ | ⟨-, rfl⟩⟩ := takes_cases hstep
  · refine hupdate s p rfl ?_
    have hknows := h.knows s
    rcases hload with ⟨-, rfl⟩ | ⟨copy, hp, rfl | rfl | ⟨site, rfl, rfl⟩⟩
    · intro copy hcopy
      have hid := h.ids _ copy hcopy
      exact ⟨hid, copy, hcopy, le_rfl, fun _ => rfl⟩
    · trivial
    · trivial
    · rw [hp] at hknows
      exact ⟨site, (hknows site rfl).extend hext, rfl⟩
  · have hknows := h.knows s
    rw [hp] at hknows
    exact hupdate s _ rfl (hknows.extend hext)
  · refine hupdate s _ rfl ⟨?_, (h.published hp).2⟩
    have hkey := (h.published hp).1
    refine ⟨AddState.savedRow stored site, by rw [← hkey]; exact Function.update_self .., ?_⟩
    obtain ⟨-, hmem, hrow⟩ | ⟨-, hrow⟩ := h.savedRow hp hstored hversion
    · rw [hrow]
      exact hmem
    · rw [hrow]
      simp
  · exact hupdate s _ rfl (h.published hp).2

/-- A stored site was stored before; its tenancies too, or they are as they are read back. -/
lemma Consistent.sites_step (h : Consistent w st) (hstep : st.Takes w a st') {i : ℕ}
    {site : CorsSite} (hsite : st'.sites i = some site) :
    ∃ stored, st.sites i = some stored ∧ site.id = stored.id ∧
      ∀ t ∈ site.networkTenancies, t ∈ stored.networkTenancies ∨ t.reload = t := by
  obtain ⟨r, p, -, rfl, -⟩ | ⟨r, copy, event, -, -, rfl⟩ |
    ⟨r, copy, event, stored, -, hp, hstored, ⟨hversion, rfl⟩ | ⟨-, rfl⟩⟩ := takes_cases hstep
  · exact ⟨site, hsite, rfl, fun t ht => .inl ht⟩
  · exact ⟨site, hsite, rfl, fun t ht => .inl ht⟩
  · by_cases hi : i = copy.id
    · subst hi
      refine ⟨stored, hstored, ?_⟩
      have hself : some (AddState.savedRow stored copy) = some site := by
        simpa only [Function.update_self] using hsite
      obtain rfl := Option.some.inj hself
      obtain ⟨-, -, hrow⟩ | ⟨-, hrow⟩ := h.savedRow hp hstored hversion
      · rw [hrow]
        exact ⟨rfl, fun t ht => .inl ht⟩
      · rw [hrow]
        refine ⟨rfl, fun t ht => (List.mem_append.mp ht).imp_right ?_⟩
        intro ht
        rw [List.mem_singleton.mp ht]
        simp [NetworkTenancy.reload]
    · have hother : st.sites i = some site := by
        simpa only [Function.update_of_ne hi] using hsite
      exact ⟨site, hother, rfl, fun t ht => .inl ht⟩
  · exact ⟨site, hsite, rfl, fun t ht => .inl ht⟩

lemma Consistent.step (h : Consistent w st) (hstep : st.Takes w a st') : Consistent w st' where
  ids i site hsite := by
    obtain ⟨stored, hstored, hid, -⟩ := h.sites_step hstep hsite
    rw [hid]
    exact h.ids i stored hstored
  reloaded i site hsite t ht := by
    obtain ⟨stored, hstored, -, hmem⟩ := h.sites_step hstep hsite
    rcases hmem t ht with ht | ht
    · exact h.reloaded i stored hstored t ht
    · exact ht
  knows := h.knows_step hstep

lemma Joined.run {s t : AddState ρ} {as : List (AddStep ρ)} {r : ρ} (hjoined : Joined w s r)
    (h : Consistent w s) (hrun : Run (Takes w) s as t) : Joined w t r := by
  refine (hrun.always (I := fun t => Consistent w t ∧ Joined w t r) ?_ ⟨h, hjoined⟩).2
  rintro u a v ⟨h, hjoined⟩ hstep
  exact ⟨h.step hstep, hjoined.extend (h.extends hstep)⟩

end AddState

end Geodesy.Networks
