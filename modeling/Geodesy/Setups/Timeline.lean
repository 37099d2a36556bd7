import Geodesy.Setups.History

/-!
# The time line of a site's setups

What the history invariant says about the valid setups of a site: sorted by their start they are
the periods of the last log's plan, in order, so they follow one another without gap or overlap and
only the last one is open (`setups_form_timeline`).  And what one call of the handler does to the
rows: the valid ones become the computed ones, and nothing else of any site moves
(`handle_replaces_setups`).
-/

namespace Geodesy

open Rows

/-- Consecutive periods that leave no gap: each starts later than the one before, where that one
ends, and the last one, and no other, is open. -/
structure Timeline (ps : List EffectiveDates) : Prop where
  from_ne_none : ∀ p ∈ ps, p.effectiveFrom ≠ none
  increasing : ps.Pairwise fun p q =>
    EffectiveDates.lowBound p.effectiveFrom < EffectiveDates.lowBound q.effectiveFrom
  contiguous : ps.IsChain fun p q => p.effectiveTo = q.effectiveFrom
  lastOpen : ps ≠ [] → ∃ init last, ps = init ++ [last] ∧ last.effectiveTo = none ∧
    ∀ p ∈ init, p.effectiveTo ≠ none

/-- A period of a time line has a start, and if it has an end that is later. -/
lemma Timeline.bounds {ps : List EffectiveDates} (h : Timeline ps) {p : EffectiveDates}
    (hp : p ∈ ps) : ∃ f, p.effectiveFrom = some f ∧ ∀ t ∈ p.effectiveTo, f < t := by
  obtain ⟨f, hf⟩ := Option.ne_none_iff_exists'.mp (h.from_ne_none p hp)
  refine ⟨f, hf, ?_⟩
  intro t ht
  obtain ⟨init, last, hsplit, hlast, -⟩ := h.lastOpen (List.ne_nil_of_mem hp)
  have hinit : p ∈ init := by
    rw [hsplit] at hp
    rcases List.mem_append.mp hp with hp | hp
    · exact hp
    · rw [List.mem_singleton.mp hp, hlast] at ht
      cases ht
  -- so there is a next period, and it starts at `t`
  obtain ⟨a, b, rfl⟩ := List.append_of_mem hinit
  obtain ⟨q, c, hnext⟩ : ∃ q c, b ++ [last] = q :: c := by
    cases b <;> simp
  rw [List.append_assoc, List.cons_append, hnext] at hsplit
  have hchain := h.contiguous
  have hincreasing := h.increasing
  rw [hsplit] at hchain hincreasing
  have hq : p.effectiveTo = q.effectiveFrom :=
    (List.isChain_cons_cons.mp hchain.right_of_append).1
  have hlt := List.rel_of_pairwise_cons (List.pairwise_append.mp hincreasing).2.1
    (List.mem_cons_self (a := q))
  rw [← hq, hf, Option.mem_def.mp ht] at hlt
  exact WithBot.coe_lt_coe.mp hlt

/-- The periods between the dates of change are a time line. -/
theorem timeline_setupPeriods {ds : List Instant} (hds : ds.Pairwise (· < ·)) :
    Timeline (CorsSiteService.setupPeriods ds) where
  from_ne_none p hp := by
    obtain ⟨f, -, hf, -⟩ := mem_setupPeriods hds hp
    simp [hf]
  increasing := by
    rw [← List.pairwise_map (f := fun p : EffectiveDates => p.effectiveFrom)
      (R := fun a b => EffectiveDates.lowBound a < EffectiveDates.lowBound b),
      map_effectiveFrom_setupPeriods, List.pairwise_map]
    exact hds.imp fun h => by simpa using h
  contiguous := by
    rw [setupPeriods_eq, List.isChain_map]
    exact isChain_spans ds
  lastOpen hne := by
    have hds' : ds ≠ [] := by
      rintro rfl
      exact hne rfl
    obtain ⟨init, d, hsplit, hinit⟩ := spans_eq_append_open ds hds'
    refine ⟨init.map fun p => ⟨some p.1, p.2⟩, ⟨some d, none⟩, ?_, rfl, ?_⟩
    · rw [setupPeriods_eq, hsplit, List.map_append]
      rfl
    · intro p hp
      obtain ⟨q, hq, rfl⟩ := List.mem_map.mp hp
      obtain ⟨e, -, he⟩ := hinit q hq
      simp [he]

/-- Rows in ascending order have the periods of the time line they permute, in its order. -/
lemma map_period_eq_of_ascending {rows : List SetupRow} {ps : List EffectiveDates}
    (hps : Timeline ps) (hperm : (rows.map (·.setup.effectivePeriod)).Perm ps)
    (hsorted : rows.Pairwise RowOrder.StartsNoLater) :
    rows.map (·.setup.effectivePeriod) = ps := by
  have hrows : (rows.map (·.setup.effectivePeriod)).Pairwise fun p q =>
      EffectiveDates.lowBound p.effectiveFrom ≤ EffectiveDates.lowBound q.effectiveFrom :=
    List.pairwise_map.mpr hsorted
  refine List.Perm.eq_of_pairwise ?_ hrows (hps.increasing.imp le_of_lt) hperm
  -- two periods of the time line with the same start are the same period
  intro p q hp hq hpq hqp
  have hinj := List.inj_on_of_nodup_map (f := fun p : EffectiveDates =>
    EffectiveDates.lowBound p.effectiveFrom)
    (List.pairwise_map.mpr (hps.increasing.imp ne_of_lt))
  exact hinj (hperm.subset hp) hq (le_antisymm hpq hqp)

lemma map_period_perm {st : Store} {k : ℕ} {l : SiteLog} (h : SetupsRealise st k l) :
    ((st.findSetupsBySiteId k).map (·.setup.effectivePeriod)).Perm l.periods := by
  obtain ⟨N, hperm, hreal⟩ := h
  have hmap := hperm.map (·.effectivePeriod)
  rw [List.map_map, realises_map_period hreal, l.map_period_plan] at hmap
  exact hmap

/-- The valid setups of any site have the periods of some time line. -/
lemma Tracks.exists_timeline {w : World} (h : Tracks w) (k : ℕ) :
    ∃ ps, Timeline ps ∧ ((w.store.findSetupsBySiteId k).map (·.setup.effectivePeriod)).Perm ps := by
  by_cases hnil : w.store.findSetupsBySiteId k = []
  · exact ⟨[], timeline_setupPeriods List.Pairwise.nil, by simp [hnil]⟩
  · obtain ⟨r, hr⟩ := List.exists_mem_of_ne_nil _ hnil
    obtain ⟨hmem, rfl, -⟩ := mem_findSetupsBySiteId.mp hr
    obtain ⟨id, hid⟩ := h.owned r hmem
    obtain ⟨l, -, -, hreal⟩ := h.handled id _ hid
    exact ⟨l.periods, timeline_setupPeriods l.pairwise_dates, map_period_perm hreal⟩

/-- The open setup of a time line is the only result of the query for the current setup. -/
lemma findCurrentBySiteId_eq {st : Store} {k : ℕ} {ps : List EffectiveDates} (hps : Timeline ps)
    (hperm : ((st.findSetupsBySiteId k).map (·.setup.effectivePeriod)).Perm ps)
    (hne : st.findSetupsBySiteId k ≠ []) :
    ∃ r ∈ st.findSetupsBySiteId k, st.findCurrentBySiteId k = .ok r := by
  have hps' : ps ≠ [] := by
    rintro rfl
    exact hne (List.map_eq_nil_iff.mp hperm.eq_nil)
  obtain ⟨init, last, hsplit, hlast, hinit⟩ := hps.lastOpen hps'
  have hopen : (ps.filter fun p => decide (p.effectiveTo = none)) = [last] := by
    rw [hsplit, List.filter_append, List.filter_eq_nil_iff.mpr (by simpa using hinit)]
    simp [hlast]
  have hcurrent : st.setups.filter (fun r =>
        r.setup.siteId = k && r.setup.effectivePeriod.effectiveTo = none && !r.invalidated)
      = (st.findSetupsBySiteId k).filter fun r => r.setup.effectivePeriod.effectiveTo = none := by
    rw [Store.findSetupsBySiteId, List.filter_filter]
    refine List.filter_congr ?_
    intro r _
    cases r.invalidated <;> simp [Bool.and_comm]
  have hlength : ((st.findSetupsBySiteId k).filter fun r =>
      decide (r.setup.effectivePeriod.effectiveTo = none)).length = 1 := by
    have hfilter := (hperm.filter fun p => decide (p.effectiveTo = none)).length_eq
    rw [hopen, List.filter_map, List.length_map] at hfilter
    exact hfilter
  obtain ⟨r, hr⟩ := List.length_eq_one_iff.mp hlength
  refine ⟨r, ?_, ?_⟩
  · exact List.mem_of_mem_filter (hr ▸ List.mem_singleton_self r)
  · rw [Store.findCurrentBySiteId, hcurrent, hr]

/-- **The valid setups of a site are a time line, in every reachable world.**  Sorted by their
start, they leave no gap and do not overlap, and exactly the last one is open; so the query for the
current setup of a site with valid setups finds one row. -/
theorem setups_form_timeline {lib : ListUtils} {w : World}
    (hw : World.Reachable lib (fun _ => True) w) (siteId : ℕ) (rows : List SetupRow)
    (hrows : rows.Perm (w.store.findSetupsBySiteId siteId))
    (hsorted : rows.Pairwise RowOrder.StartsNoLater) :
    Timeline (rows.map (·.setup.effectivePeriod)) ∧
      (rows ≠ [] → ∃ r ∈ rows, w.store.findCurrentBySiteId siteId = .ok r) := by
  obtain ⟨ps, hps, hperm⟩ := hw.tracks.exists_timeline siteId
  have hmap := map_period_eq_of_ascending hps ((hrows.map _).trans hperm) hsorted
  refine ⟨hmap ▸ hps, ?_⟩
  intro hne
  have hne' : w.store.findSetupsBySiteId siteId ≠ [] := fun hnil => by
    rw [hnil] at hrows
    exact hne hrows.eq_nil
  obtain ⟨r, hr, hcurrent⟩ := findCurrentBySiteId_eq hps hperm hne'
  exact ⟨r, hrows.symm.subset hr, hcurrent⟩

/-- A clock that is taken away splits the time of a receiver and an antenna in two; the third setup
is the open one. -/
theorem setups_form_timeline_clock_removed :
    ((World.performAll .ofContains (Step.received SiteLog.clockRemoved)).store.findSetupsBySiteId
      1).length = 3 ∧
    Timeline ((RowOrder.chronological.arrange
      ((World.performAll .ofContains (Step.received SiteLog.clockRemoved)).store.findSetupsBySiteId
        1)).map (·.setup.effectivePeriod)) :=
  ⟨by decide, (setups_form_timeline (World.reachable_performAll fun _ _ => trivial) 1 _
    (RowOrder.chronological.arrange_perm _) (RowOrder.chronological_ascending _)).1⟩

/-! ## One call of the handler -/

/-- The rows of `SETUP` after the setups of the site were replaced by `newSetups`. -/
structure ReplacesSetups (st st' : Store) (siteId : ℕ) (newSetups : List Setup) : Prop where
  /-- the valid setups of the site are the new ones, each exactly once -/
  valid : ((st'.findSetupsBySiteId siteId).map (·.setup)).Perm newSetups
  once : newSetups.Nodup
  /-- no key is used twice -/
  keys : (st'.setups.map (·.id)).Nodup
  /-- an earlier row keeps its tuple; it is invalidated unless it is one of the new setups, and
  stays invalidated if it was -/
  earlier : ∀ r ∈ st.setups, ∃ r' ∈ st'.setups, r'.id = r.id ∧ r'.setup = r.setup ∧
    r'.invalidated = (r.invalidated || decide (r.setup.siteId = siteId ∧ r.setup ∉ newSetups))
  /-- the rows of the other sites are unchanged -/
  others : st'.setups.filter (·.setup.siteId ≠ siteId) = st.setups.filter (·.setup.siteId ≠ siteId)

lemma HandledBy.replacesSetups {w : World} {load : LoadOrder} {e : SiteLogReceived}
    {st' saved : Store} {l : SiteLog} {site : CorsSite} {N : List Setup} (h : Tracks w)
    (hby : HandledBy load e w.store st' l site saved N) :
    ReplacesSetups w.store st' site.id N where
  valid := replaced_perm hby.setups_eq hby.newSetups_siteId (Realises.nodup hby.realises)
    (hby.nodup_old h)
  once := Realises.nodup hby.realises
  keys := (hby.tables h.tables).setupKeys.nodup
  earlier r hr := by
    refine ⟨r.supersede site.id N, ?_, by simp, by simp, r.supersede_invalidated site.id N⟩
    rw [hby.setups_eq]
    exact List.mem_append_left _ (List.mem_map_of_mem hr)
  others := replaced_other hby.setups_eq hby.newSetups_siteId

/-- **The diff is a full replacement, and the last log alone decides.**  A call that returns
normally leaves the site with exactly the setups that `getSetups` computed in that call; and in the
world after it, as after any run, the valid setups of every site are one realisation of each setup
that the log last handled for the site plans. -/
theorem handle_replaces_setups {lib : ListUtils} {w : World}
    (hw : World.Reachable lib (fun _ => True) w) {load : LoadOrder} {rows : RowOrder}
    {e : SiteLogReceived} {st' : Store}
    (hok : CorsSiteService.handle lib load rows e w.store = .ok st') :
    (∃ log site saved newSetups placed,
      w.store.findSiteLog e.fourCharacterId = .ok (some log) ∧
      CorsSiteService.saveCorsSite e.fourCharacterId (load.load log) w.store = (site, saved) ∧
      CorsSiteService.getSetups site.id (load.load log) saved = .ok (newSetups, placed) ∧
      ReplacesSetups w.store st' site.id newSetups) ∧
    ∀ id k, st'.siteId id = some k →
      ∃ l, (w.after (.siteLogReceived load rows e) st').lastLog id = some l ∧
        SetupsRealise st' k l := by
  obtain ⟨l, site, saved, N, hby⟩ := handle_inv hw.tracks.tables hok
  constructor
  · obtain ⟨log, hread, rfl⟩ := hby.read
    exact ⟨log, site, saved, N, _, hread, hby.save_eq, hby.getSetups_eq,
      hby.replacesSetups hw.tracks⟩
  · intro id k hk
    obtain ⟨l', hl', -, hreal⟩ := (hby.tracks rows hw.tracks).handled id k hk
    exact ⟨l', hl', hreal⟩

/-- A second log of the same site, without the clock, was uploaded. -/
def clockDropped : World :=
  World.performAll .ofContains (Step.received SiteLog.clockRemoved ++ [.upload SiteLog.clockless])

/-- Handling the second log invalidates two setups, keeps the open one and adds one. -/
theorem handle_replaces_setups_clock_dropped :
    (∃ site newSetups, ReplacesSetups clockDropped.store (clockDropped.perform .ofContains
      (.siteLogReceived .asListed .asStored ⟨"ADE1", ""⟩)).store site newSetups) ∧
    (clockDropped.perform .ofContains
        (.siteLogReceived .asListed .asStored ⟨"ADE1", ""⟩)).store.setups.map
      (fun r => (r.id, r.invalidated)) = [(8, true), (9, true), (10, false), (11, false)] := by
  have hreach : World.Reachable .ofContains (fun _ => True) clockDropped :=
    World.reachable_performAll fun _ _ => trivial
  obtain ⟨_, site, _, newSetups, _, -, -, -, hreplaces⟩ := (handle_replaces_setups hreach
    (World.run_eq_perform (a := .siteLogReceived .asListed .asStored ⟨"ADE1", ""⟩)
      (by decide +kernel))).1
  exact ⟨⟨site.id, newSetups, hreplaces⟩, by decide +kernel⟩

end Geodesy
