import Geodesy.Setups.Plan
import Mathlib.Data.List.Find

/-!
# What handling a site log does

The three effects of `CorsSiteService.handle`, each stated exactly: the site is found or created
(`saveCorsSite_spec`), the items are placed (`getSetups_eq`), and the setups of the site are
replaced.  `replaceSetups_eq` reads the two `removeAll` calls as one map over the old rows, which
invalidates the valid setups that are not among the new ones, and one batch of inserted rows.
`handle_of_read` and `handle_inv` put them together.
-/

namespace Geodesy

open Rows CorsSiteService

/-! ## The site -/

/-- The key of the site with the given four character id. -/
def Store.siteId (st : Store) (id : String) : Option ℕ := (st.findCorsSite id).map (·.id)

/-- The keys of the sites are allocated and their four character ids unique. -/
structure SiteTable (st : Store) : Prop where
  keys : Allocated (st.corsSites.map (·.id)) st.nextId
  unique : (st.corsSites.map (·.fourCharacterId)).Nodup

lemma findCorsSite_eq_some {st : Store} (h : SiteTable st) {id : String} {site : CorsSite} :
    st.findCorsSite id = some site ↔ site ∈ st.corsSites ∧ site.fourCharacterId = id := by
  constructor
  · intro hfind
    exact ⟨List.mem_of_find?_eq_some hfind, by simpa using List.find?_some hfind⟩
  · rintro ⟨hmem, rfl⟩
    exact find?_eq_some_of_nodup h.unique hmem

/-- Two four character ids do not share a site. -/
lemma SiteTable.siteId_inj {st : Store} (h : SiteTable st) {id id' : String} {k : ℕ}
    (hid : st.siteId id = some k) (hid' : st.siteId id' = some k) : id = id' := by
  obtain ⟨site, hsite, hk⟩ := Option.map_eq_some_iff.mp hid
  obtain ⟨site', hsite', hk'⟩ := Option.map_eq_some_iff.mp hid'
  obtain ⟨hmem, rfl⟩ := (findCorsSite_eq_some h).mp hsite
  obtain ⟨hmem', rfl⟩ := (findCorsSite_eq_some h).mp hsite'
  rw [h.keys.eq_of_key hmem hmem' (hk.trans hk'.symm)]

/-- The site of the log afterwards: the one that was there, or a new one. -/
structure SiteSaved (id : String) (site : CorsSite) (st st' : Store) : Prop where
  table : SiteTable st'
  siteId_eq : st'.siteId id = some site.id
  siteId_other : ∀ id', id' ≠ id → st'.siteId id' = st.siteId id'
  found : ∀ k, st.siteId id = some k → site.id = k ∧ st'.nextId = st.nextId
  created : st.siteId id = none → site.id = st.nextId
  nextId_le : st.nextId ≤ st'.nextId
  frame : st' = { st with nextId := st'.nextId, corsSites := st'.corsSites }

/-- The site of another four character id is another site. -/
lemma SiteSaved.ne_of_other {id id' : String} {site : CorsSite} {st st' : Store} {k : ℕ}
    (h : SiteSaved id site st st') (hid : id' ≠ id) (hk : st.siteId id' = some k) :
    k ≠ site.id := by
  rintro rfl
  have hk' := (h.siteId_other id' hid).trans hk
  exact hid (h.table.siteId_inj hk' h.siteId_eq)

/-- Saving a site leaves the equipment tables alone. -/
lemma SiteSaved.registry {id : String} {site : CorsSite} {st st' : Store}
    (h : SiteSaved id site st st') (hreg : Registry st) : Registry st' :=
  hreg.congr h.nextId_le (by rw [h.frame]) (by rw [h.frame])

/-- The site was there: its row takes the description of the log. -/
lemma saveCorsSite_found {st : Store} (h : SiteTable st) {id : String} {old : CorsSite}
    (hfind : st.findCorsSite id = some old) (l : SiteLog) :
    SiteSaved id (saveCorsSite id l st).1 st (saveCorsSite id l st).2 := by
  obtain ⟨hold, hid⟩ := (findCorsSite_eq_some h).mp hfind
  have hsave : saveCorsSite id l st = (describe old l.siteIdentification,
      { st with corsSites := st.corsSites.map fun r =>
          if r.id = old.id then describe old l.siteIdentification else r }) := by
    rw [saveCorsSite, hfind]
    rfl
  -- the description leaves both keys of every row alone
  have hid_eq : ∀ r ∈ st.corsSites,
      (if r.id = old.id then describe old l.siteIdentification else r).id = r.id :=
    replace_congr (x := describe old l.siteIdentification) fun r _ hrid => hrid
  have hcode_eq : ∀ r ∈ st.corsSites,
      (if r.id = old.id then describe old l.siteIdentification else r).fourCharacterId
        = r.fourCharacterId := by
    refine replace_congr (x := describe old l.siteIdentification) ?_
    intro r hr hrid
    rw [h.keys.eq_of_key hr hold hrid]
    rfl
  have htable : SiteTable (saveCorsSite id l st).2 := by
    rw [hsave]
    constructor
    · simpa [Function.comp_def, List.map_congr_left hid_eq] using h.keys
    · simpa [Function.comp_def, List.map_congr_left hcode_eq] using h.unique
  have hsite : ∀ id', (saveCorsSite id l st).2.siteId id' = st.siteId id' := by
    intro id'
    simp only [hsave, Store.siteId, Store.findCorsSite, List.find?_map, Option.map_map]
    have hpred : st.corsSites.find? ((fun r => decide (r.fourCharacterId = id')) ∘ fun r =>
          if r.id = old.id then describe old l.siteIdentification else r)
        = st.corsSites.find? fun r => decide (r.fourCharacterId = id') :=
      List.find?_congr fun r hr => by simp only [Function.comp, hcode_eq r hr]
    rw [hpred]
    cases hr : st.corsSites.find? fun r => decide (r.fourCharacterId = id') with
    | none => rfl
    | some r =>
        simp only [Option.map_some, Function.comp, hid_eq r (List.mem_of_find?_eq_some hr)]
  have hsome : st.siteId id = some old.id := by simp [Store.siteId, hfind]
  refine ⟨htable, ?_, fun id' _ => hsite id', ?_, ?_, ?_, ?_⟩
  · rw [hsite, hsome, hsave]
    rfl
  · intro k hk
    rw [hsave]
    exact ⟨Option.some.inj (hsome.symm.trans hk), rfl⟩
  · simp [hsome]
  · rw [hsave]
  · rw [hsave]

/-- The site was not there: it gets a row with the next key. -/
lemma saveCorsSite_created {st : Store} (h : SiteTable st) {id : String}
    (hfind : st.findCorsSite id = none) (l : SiteLog) :
    SiteSaved id (saveCorsSite id l st).1 st (saveCorsSite id l st).2 := by
  have hnone : ∀ r ∈ st.corsSites, r.fourCharacterId ≠ id := by
    simpa [Store.findCorsSite] using hfind
  have hsave : saveCorsSite id l st =
      (describe ⟨st.nextId, id, none, none, none, ⟨none, none, none, none⟩⟩ l.siteIdentification,
        { st with nextId := st.nextId + 1, corsSites := st.corsSites ++
          [describe ⟨st.nextId, id, none, none, none, ⟨none, none, none, none⟩⟩
            l.siteIdentification] }) := by
    simp [saveCorsSite, hfind]
  have hsiteId : st.siteId id = none := by simp [Store.siteId, hfind]
  refine ⟨⟨?_, ?_⟩, ?_, ?_, ?_, ?_, ?_, ?_⟩
  · rw [hsave]
    simpa [describe] using h.keys.append_next
  · rw [hsave]
    simpa [describe, List.nodup_append, h.unique] using hnone
  · rw [hsave]
    have hnone' : (st.corsSites.find? fun r => decide (r.fourCharacterId = id)) = none := hfind
    simp [Store.siteId, Store.findCorsSite, List.find?_append, hnone', describe]
  · intro id' hid'
    rw [hsave]
    simp [Store.siteId, Store.findCorsSite, List.find?_append, describe, hid'.symm]
  · simp [hsiteId]
  · rw [hsave]
    exact fun _ => rfl
  · rw [hsave]
    exact Nat.le_succ _
  · rw [hsave]

/-- Saving the site that was found or created. -/
theorem saveCorsSite_spec {st : Store} (h : SiteTable st) (id : String) (l : SiteLog) :
    SiteSaved id (saveCorsSite id l st).1 st (saveCorsSite id l st).2 := by
  cases hfind : st.findCorsSite id with
  | some old => exact saveCorsSite_found h hfind l
  | none => exact saveCorsSite_created h hfind l

/-! ## The setups -/

/-- A row after the setups of a site were replaced by new ones: a valid setup of the site that is
not among them is invalidated. -/
def SetupRow.supersede (siteId : ℕ) (newSetups : List Setup) (r : SetupRow) : SetupRow :=
  if r.setup.siteId = siteId ∧ r.invalidated = false ∧ r.setup ∉ newSetups then
    { r with invalidated := true }
  else r

@[simp] lemma SetupRow.supersede_id (k : ℕ) (N : List Setup) (r : SetupRow) :
    (r.supersede k N).id = r.id := by
  unfold supersede; split_ifs <;> rfl

@[simp] lemma SetupRow.supersede_setup (k : ℕ) (N : List Setup) (r : SetupRow) :
    (r.supersede k N).setup = r.setup := by
  unfold supersede; split_ifs <;> rfl

/-- The flag of a row after the replacement. -/
lemma SetupRow.supersede_invalidated (k : ℕ) (N : List Setup) (r : SetupRow) :
    (r.supersede k N).invalidated =
      (r.invalidated || decide (r.setup.siteId = k ∧ r.setup ∉ N)) := by
  unfold supersede
  cases hr : r.invalidated <;> split_ifs with h <;> simp_all

/-- Rows of other sites and rows that were invalidated before are left alone. -/
lemma SetupRow.supersede_of_ne {k : ℕ} {N : List Setup} {r : SetupRow}
    (h : r.setup.siteId ≠ k ∨ r.invalidated = true) : r.supersede k N = r := by
  unfold supersede
  rw [if_neg]
  rintro ⟨h1, h2, -⟩
  rcases h with h | h
  · exact h h1
  · simp [h] at h2

/-- The new setups that no valid setup of the site equals. -/
def Store.freshSetups (st : Store) (siteId : ℕ) (newSetups : List Setup) : List Setup :=
  newSetups.filter (· ∉ (st.findSetupsBySiteId siteId).map (·.setup))

lemma mem_findSetupsBySiteId {st : Store} {k : ℕ} {r : SetupRow} :
    r ∈ st.findSetupsBySiteId k ↔
      r ∈ st.setups ∧ r.setup.siteId = k ∧ r.invalidated = false := by
  simp [Store.findSetupsBySiteId]

lemma contains_iff {setups : List Setup} {s : Setup} : contains setups s = true ↔ s ∈ setups := by
  simp [contains, Setup.equals_iff]

/-- **The diff is a map and a batch of inserted rows**, whatever order the old rows come in. -/
theorem replaceSetups_eq (lib : ListUtils) (rows : RowOrder) {st : Store}
    (hkeys : Allocated (st.setups.map (·.id)) st.nextId) (k : ℕ) (N : List Setup) :
    replaceSetups lib rows k N st = { st with
      nextId := st.nextId + (st.freshSetups k N).length
      setups := st.setups.map (·.supersede k N)
        ++ insertAll SetupRow.fresh st.nextId (st.freshSetups k N) } := by
  have hperm := rows.arrange_perm (st.findSetupsBySiteId k)
  -- the common setups, whatever the order
  have hcommon : ∀ s, contains (lib.intersection
      ((rows.arrange (st.findSetupsBySiteId k)).map (·.setup)) N) s = true ↔
      s ∈ (st.findSetupsBySiteId k).map (·.setup) ∧ s ∈ N := by
    intro s
    rw [contains_iff, lib.mem_intersection, (hperm.map _).mem_iff]
  have hfresh : N.filter (fun s => !contains (lib.intersection
      ((rows.arrange (st.findSetupsBySiteId k)).map (·.setup)) N) s) = st.freshSetups k N := by
    refine List.filter_congr ?_
    intro s hs
    rw [Bool.eq_iff_iff, Bool.not_eq_true', ← Bool.not_eq_true, hcommon]
    simp [hs]
  have hstale : ∀ r ∈ st.setups,
      (if r.id ∈ ((rows.arrange (st.findSetupsBySiteId k)).filter fun r =>
          !contains (lib.intersection ((rows.arrange (st.findSetupsBySiteId k)).map (·.setup)) N)
            r.setup).map (·.id)
        then { r with invalidated := true } else r) = r.supersede k N := by
    intro r hr
    have hmem : r.id ∈ ((rows.arrange (st.findSetupsBySiteId k)).filter fun r =>
          !contains (lib.intersection ((rows.arrange (st.findSetupsBySiteId k)).map (·.setup)) N)
            r.setup).map (·.id) ↔
        r.setup.siteId = k ∧ r.invalidated = false ∧ r.setup ∉ N := by
      rw [List.mem_map]
      constructor
      · rintro ⟨q, hq, hid⟩
        obtain ⟨hq, hnot⟩ := List.mem_filter.mp hq
        rw [Bool.not_eq_true', ← Bool.not_eq_true, hcommon] at hnot
        have hq' := hperm.mem_iff.mp hq
        obtain ⟨hqmem, hsite, hvalid⟩ := mem_findSetupsBySiteId.mp hq'
        obtain rfl := hkeys.eq_of_key hqmem hr hid
        exact ⟨hsite, hvalid, fun hN => hnot ⟨List.mem_map_of_mem hq', hN⟩⟩
      · rintro ⟨hsite, hvalid, hN⟩
        have hr' := mem_findSetupsBySiteId.mpr ⟨hr, hsite, hvalid⟩
        refine ⟨r, List.mem_filter.mpr ⟨hperm.mem_iff.mpr hr', ?_⟩, rfl⟩
        rw [Bool.not_eq_true', ← Bool.not_eq_true, hcommon]
        exact fun h => hN h.2
    simp only [hmem, SetupRow.supersede]
  simp only [replaceSetups, hfresh]
  rw [List.map_congr_left hstale]

section Replaced

variable {st st' : Store} {k next : ℕ} {N : List Setup}

/-- The valid setups of the site afterwards. -/
lemma findSetupsBySiteId_replaced
    (hst' : st'.setups = st.setups.map (·.supersede k N)
      ++ insertAll SetupRow.fresh next (st.freshSetups k N))
    (hN : ∀ s ∈ N, s.siteId = k) :
    st'.findSetupsBySiteId k = ((st.findSetupsBySiteId k).filter fun r => r.setup ∈ N)
      ++ insertAll SetupRow.fresh next (st.freshSetups k N) := by
  rw [Store.findSetupsBySiteId, hst', List.filter_append]
  congr 1
  · rw [List.filter_map, Store.findSetupsBySiteId, List.filter_filter]
    have hpred : ∀ r ∈ st.setups,
        ((fun r => decide (r.setup.siteId = k) && !r.invalidated) ∘ (·.supersede k N)) r
          = (decide (r.setup ∈ N) && (decide (r.setup.siteId = k) && !r.invalidated)) := by
      intro r _
      simp only [Function.comp, SetupRow.supersede_setup, SetupRow.supersede_invalidated]
      by_cases h1 : r.setup.siteId = k <;> by_cases h2 : r.setup ∈ N <;>
        cases r.invalidated <;> simp [h1, h2]
    rw [List.filter_congr hpred]
    refine (List.map_congr_left fun r hr => ?_).trans (List.map_id _)
    simp only [List.mem_filter, Bool.and_eq_true, decide_eq_true_eq] at hr
    rw [SetupRow.supersede, if_neg fun h => h.2.2 hr.2.1]
    rfl
  · refine List.filter_eq_self.mpr ?_
    intro r hr
    obtain ⟨s, hs, i, -, -, rfl⟩ := mem_insertAll hr
    simp [hN s (List.mem_of_mem_filter hs)]

/-- **The valid setups of the site afterwards are the new ones**, each exactly once. -/
theorem replaced_perm
    (hst' : st'.setups = st.setups.map (·.supersede k N)
      ++ insertAll SetupRow.fresh next (st.freshSetups k N))
    (hN : ∀ s ∈ N, s.siteId = k) (hnew : N.Nodup)
    (hold : ((st.findSetupsBySiteId k).map (·.setup)).Nodup) :
    ((st'.findSetupsBySiteId k).map (·.setup)).Perm N := by
  have hkeep := keep_append_new_perm
    (N.filter (· ∈ (st.findSetupsBySiteId k).map (·.setup))) hold hnew
    (fun s => by simp only [List.mem_filter, decide_eq_true_eq]; tauto)
  rw [findSetupsBySiteId_replaced hst' hN, List.map_append,
    map_insertAll (g := id) SetupRow.fresh_setup, List.map_id]
  refine List.Perm.trans (List.Perm.of_eq ?_) hkeep
  congr 1
  · rw [List.filter_map]
    refine congrArg _ (List.filter_congr ?_)
    intro r hr
    have hr' : r.setup ∈ (st.findSetupsBySiteId k).map (·.setup) := List.mem_map_of_mem hr
    simp only [Function.comp, List.mem_filter, hr', decide_true, and_true]
  · refine List.filter_congr ?_
    intro s hs
    simp only [List.mem_filter, hs, true_and, decide_eq_true_eq]

/-- The rows of the other sites stay as they are. -/
lemma replaced_other (hst' : st'.setups = st.setups.map (·.supersede k N)
      ++ insertAll SetupRow.fresh next (st.freshSetups k N))
    (hN : ∀ s ∈ N, s.siteId = k) :
    st'.setups.filter (·.setup.siteId ≠ k) = st.setups.filter (·.setup.siteId ≠ k) := by
  have hnew : (insertAll SetupRow.fresh next
      (st.freshSetups k N)).filter (·.setup.siteId ≠ k) = [] := by
    refine List.filter_eq_nil_iff.mpr ?_
    intro r hr
    obtain ⟨s, hs, i, -, -, rfl⟩ := mem_insertAll hr
    simp [hN s (List.mem_of_mem_filter hs)]
  rw [hst', List.filter_append, hnew, List.append_nil, List.filter_map]
  have hpred : (fun r : SetupRow => decide (r.setup.siteId ≠ k)) ∘ (SetupRow.supersede k N)
      = fun r => decide (r.setup.siteId ≠ k) := by
    funext r
    simp
  rw [hpred]
  refine (List.map_congr_left fun r hr => ?_).trans (List.map_id _)
  exact SetupRow.supersede_of_ne (Or.inl (by simpa using List.of_mem_filter hr))

end Replaced

/-! ## The whole handler -/

/-- The tables that the handler works on are in order. -/
structure Tables (st : Store) : Prop where
  registry : Registry st
  sites : SiteTable st
  setupKeys : Allocated (st.setups.map (·.id)) st.nextId
  siteLogs : (st.siteLogs.map (·.fourCharacterId)).Nodup

/-- What a call of `handle` for the log `l` did: the site was saved, the setups computed, and the
old setups of the site replaced. -/
structure HandledBy (load : LoadOrder) (e : SiteLogReceived) (st st' : Store) (l : SiteLog)
    (site : CorsSite) (saved : Store) (newSetups : List Setup) : Prop where
  read : ∃ log, st.findSiteLog e.fourCharacterId = .ok (some log) ∧ l = load.load log
  accepted : l.Accepted
  save_eq : saveCorsSite e.fourCharacterId l st = (site, saved)
  siteSaved : SiteSaved e.fourCharacterId site st saved
  getSetups_eq : getSetups site.id l saved = .ok (newSetups, placeAll l.placements saved)
  realises : List.Forall₂ (Realises (placeAll l.placements saved) site.id) newSetups l.plan
  result : st' = { placeAll l.placements saved with
    nextId := (placeAll l.placements saved).nextId + (st.freshSetups site.id newSetups).length
    setups := st.setups.map (·.supersede site.id newSetups)
      ++ insertAll SetupRow.fresh (placeAll l.placements saved).nextId
          (st.freshSetups site.id newSetups)
    handled := st.handled ++ [.siteLogReceived e]
    published := st.published ++ [.siteUpdated ⟨e.fourCharacterId⟩] }

lemma realises_siteId {st : Store} {k : ℕ} {N : List Setup} {plans : List PlannedSetup}
    (h : List.Forall₂ (Realises st k) N plans) : ∀ s ∈ N, s.siteId = k := by
  intro s hs
  obtain ⟨p, -, hreal⟩ := h.exists_right hs
  exact hreal.siteId_eq

/-- The one equation behind both directions: reading an accepted log, the handler does what
`HandledBy` says. -/
lemma handle_of_read (lib : ListUtils) (load : LoadOrder) (rows : RowOrder) (e : SiteLogReceived)
    {st : Store} (h : Tables st) {log : SiteLog}
    (hread : st.findSiteLog e.fourCharacterId = .ok (some log))
    (hacc : (load.load log).Accepted) :
    ∃ st' site saved newSetups, handle lib load rows e st = .ok st' ∧
      HandledBy load e st st' (load.load log) site saved newSetups := by
  obtain ⟨site, saved, hsave⟩ : ∃ site saved,
      saveCorsSite e.fourCharacterId (load.load log) st = (site, saved) := ⟨_, _, rfl⟩
  have hsaved := saveCorsSite_spec h.sites e.fourCharacterId (load.load log)
  simp only [hsave] at hsaved
  have hreg : Registry saved := hsaved.registry h.registry
  obtain ⟨N, hget, hreal⟩ := getSetups_eq hreg site.id hacc
  have hN := realises_siteId hreal
  have hmap : N.map (fun s => { s with siteId := site.id }) = N := by
    refine (List.map_congr_left fun s hs => ?_).trans (List.map_id _)
    rw [← hN s hs]
    rfl
  -- placing the items leaves the setups and the published and handled events alone
  have hsetups : (placeAll (load.load log).placements saved).setups = st.setups := by
    rw [placeAll_frame, hsaved.frame]
  have hpublished : (placeAll (load.load log).placements saved).published = st.published := by
    rw [placeAll_frame, hsaved.frame]
  have hhandled : (placeAll (load.load log).placements saved).handled = st.handled := by
    rw [placeAll_frame, hsaved.frame]
  have hkeys : Allocated ((placeAll (load.load log).placements saved).setups.map (·.id))
      (placeAll (load.load log).placements saved).nextId := by
    rw [hsetups]
    exact h.setupKeys.mono (hsaved.nextId_le.trans (extends_placeAll _ _).nextId_le)
  have hfresh : (placeAll (load.load log).placements saved).freshSetups site.id N
      = st.freshSetups site.id N := by
    unfold Store.freshSetups Store.findSetupsBySiteId
    rw [hsetups]
  refine ⟨_, site, saved, N, ?_, ⟨⟨log, hread, rfl⟩, hacc, hsave, hsaved, hget, hreal, rfl⟩⟩
  simp only [handle, hread, hsave, hget, hmap, replaceSetups_eq lib rows hkeys, hfresh, hsetups,
    hpublished, hhandled, bind, Except.bind, pure, Except.pure]

/-- **A call that returns normally read an accepted log and replaced the setups of its site.** -/
theorem handle_inv {lib : ListUtils} {load : LoadOrder} {rows : RowOrder} {e : SiteLogReceived}
    {st st' : Store} (h : Tables st) (hok : handle lib load rows e st = .ok st') :
    ∃ l site saved newSetups, HandledBy load e st st' l site saved newSetups := by
  cases hread : st.findSiteLog e.fourCharacterId with
  | error x => simp [handle, hread, bind, Except.bind] at hok
  | ok found =>
      cases found with
      | none =>
          simp [handle, hread, bind, Except.bind, throw, throwThe, MonadExceptOf.throw] at hok
      | some log =>
          by_cases hacc : (load.load log).Accepted
          · obtain ⟨st'', site, saved, N, hok', hby⟩ :=
              handle_of_read lib load rows e h hread hacc
            obtain rfl : st' = st'' := Except.ok.inj (hok.symm.trans hok')
            exact ⟨_, site, saved, N, hby⟩
          · simp [handle, hread, getSetups_of_not _ _ hacc, bind, Except.bind] at hok

end Geodesy
