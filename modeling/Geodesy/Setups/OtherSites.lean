import Geodesy.Setups.History

/-!
# What handling one site's log does to the other sites

The setups of the other sites and their equipment in use stay as they are.  The equipment and the
configurations are shared: a row is looked up without regard to sites and is overwritten by every
item that finds it.  `handle_overwrites_shared_rows` says exactly what a row contains afterwards:
what the last of the items that find it writes, and what it contained before where none does.
-/

namespace Geodesy

open Rows EquipmentLogItem

/-- An equipment row after items were placed: the last one that refers to it has written to it. -/
def Equipment.rewrittenBy (e : Equipment) (xs : List EquipmentLogItem) : Equipment :=
  (xs.filter fun x => x.refersTo e).getLast?.elim e fun x => x.touch e

/-- The item finds the configuration: it refers to the equipment and starts when the configuration
does. -/
def EquipmentLogItem.finds (x : EquipmentLogItem) (e : Equipment) (c : EquipmentConfigurationRow) :
    Bool :=
  x.refersTo e && sqlEq c.config.configurationTime x.effectiveFrom

/-- A configuration row after items were placed, on the given equipment: the last item that finds it
has replaced its details. -/
def EquipmentConfigurationRow.rewrittenBy (c : EquipmentConfigurationRow) (e : Equipment)
    (xs : List EquipmentLogItem) : EquipmentConfigurationRow :=
  (xs.filter fun x => x.finds e c).getLast?.elim c fun x =>
    ⟨c.id, { c.config with details := x.details }⟩

/-! ## The last one writes -/

/-- Of two items that refer to one row, the second overwrites what the first wrote. -/
lemma touch_touch {x y : EquipmentLogItem} {e : Equipment} (hx : x.refersTo e) (hy : y.refersTo e) :
    y.touch (x.touch e) = y.touch e := by
  have hclass : x.equipmentClass = y.equipmentClass :=
    ((x.refersTo_iff e).mp hx).1.symm.trans ((y.refersTo_iff e).mp hy).1
  cases x <;> cases y <;> first | rfl | cases hclass

lemma Equipment.rewrittenBy_cons (e : Equipment) (x : EquipmentLogItem)
    (xs : List EquipmentLogItem) :
    e.rewrittenBy (x :: xs) = (x.overwrite e).rewrittenBy xs := by
  simp only [rewrittenBy, refersTo_overwrite]
  by_cases hx : x.refersTo e = true
  · simp only [List.filter_cons, hx, if_true, List.getLast?_cons, overwrite]
    cases hlast : (xs.filter fun x => x.refersTo e).getLast? with
    | none => rfl
    | some y =>
        have hy : y.refersTo e = true := (List.mem_filter.mp (List.mem_of_getLast? hlast)).2
        exact (touch_touch hx hy).symm
  · simp only [List.filter_cons, overwrite, hx, Bool.false_eq_true, if_false]

/-- The rows that were there are there after placing items, rewritten. -/
lemma mem_equipment_placeAll : ∀ (xs : List EquipmentLogItem) {st : Store} {e : Equipment},
    e ∈ st.equipment → e.rewrittenBy xs ∈ (placeAll xs st).equipment
  | [], _, _, he => he
  | x :: xs, st, e, he => by
      rw [Equipment.rewrittenBy_cons, placeAll_cons]
      exact mem_equipment_placeAll xs (List.mem_append_left _ (List.mem_map_of_mem he))

@[simp] lemma finds_overwrite_reconfigure (x y : EquipmentLogItem) (i : ℕ) (e : Equipment)
    (c : EquipmentConfigurationRow) :
    x.finds (y.overwrite e) (y.reconfigure i c) = x.finds e c := by
  simp [finds]

/-- Over the tables, an item looks up a configuration exactly when it finds it. -/
lemma configures_iff_finds {st : Store} (hreg : Registry st) {x : EquipmentLogItem} {e : Equipment}
    {c : EquipmentConfigurationRow} (he : e ∈ st.equipment) (hid : e.id = c.config.equipmentId)
    (hclass : e.equipmentClass = c.config.details.equipmentClass) :
    x.configures (x.equipmentId st) c = x.finds e c := by
  have hequipment : c.config.equipmentId = x.equipmentId st ↔ x.refersTo e = true := by
    rw [← hid]
    constructor
    · intro heq
      cases hfind : st.equipment.find? x.refersTo with
      | some r =>
          have hr := List.mem_of_find?_eq_some hfind
          have hrid : r.id = e.id := by simp [heq, equipmentId, hfind]
          rw [← hreg.equipmentKeys.eq_of_key hr he hrid]
          exact List.find?_some hfind
      | none =>
          have hlt := hreg.equipmentKeys.lt_next e.id (List.mem_map_of_mem he)
          rw [heq] at hlt
          simp [equipmentId, hfind] at hlt
    · intro href
      have hfind : st.equipment.find? x.refersTo = some e :=
        find?_eq_some_of_unique he href fun r hr hrref =>
          hreg.refersTo_unique x r hr e he hrref href
      simp [equipmentId, hfind]
  rw [Bool.eq_iff_iff]
  simp only [configures, finds, Bool.and_eq_true, decide_eq_true_eq, hequipment, ← hclass]
  constructor
  · rintro ⟨⟨-, href⟩, htime⟩
    exact ⟨href, htime⟩
  · rintro ⟨href, htime⟩
    exact ⟨⟨((x.refersTo_iff e).mp href).1, href⟩, htime⟩

lemma EquipmentConfigurationRow.rewrittenBy_cons {st : Store} (hreg : Registry st) {e : Equipment}
    {c : EquipmentConfigurationRow} (he : e ∈ st.equipment) (hid : e.id = c.config.equipmentId)
    (hclass : e.equipmentClass = c.config.details.equipmentClass) (x : EquipmentLogItem)
    (xs : List EquipmentLogItem) :
    c.rewrittenBy e (x :: xs)
      = (x.reconfigure (x.equipmentId st) c).rewrittenBy (x.overwrite e) xs := by
  simp only [rewrittenBy, finds_overwrite_reconfigure]
  simp only [reconfigure, configures_iff_finds hreg he hid hclass]
  by_cases hx : x.finds e c = true
  · simp only [List.filter_cons, hx, if_true, List.getLast?_cons]
    cases (xs.filter fun x => x.finds e c).getLast? <;> rfl
  · simp only [List.filter_cons, hx, Bool.false_eq_true, if_false]

lemma mem_configurations_placeAll : ∀ (xs : List EquipmentLogItem) {st : Store}, Registry st →
    ∀ {e : Equipment} {c : EquipmentConfigurationRow}, e ∈ st.equipment → c ∈ st.configurations →
      e.id = c.config.equipmentId → e.equipmentClass = c.config.details.equipmentClass →
      c.rewrittenBy e xs ∈ (placeAll xs st).configurations
  | [], _, _, _, _, _, hc, _, _ => hc
  | x :: xs, st, hreg, e, c, he, hc, hid, hclass => by
      rw [EquipmentConfigurationRow.rewrittenBy_cons hreg he hid hclass, placeAll_cons]
      refine mem_configurations_placeAll xs (hreg.place x) ?_ ?_ (by simpa using hid)
        (by simpa using hclass)
      · exact List.mem_append_left _ (List.mem_map_of_mem he)
      · exact List.mem_append_left _ (List.mem_map_of_mem hc)

/-! ## Rewritten rows keep their keys -/

@[simp] lemma Equipment.rewrittenBy_id (e : Equipment) (xs : List EquipmentLogItem) :
    (e.rewrittenBy xs).id = e.id := by
  unfold rewrittenBy
  cases (xs.filter fun x => x.refersTo e).getLast? <;> simp

@[simp] lemma EquipmentConfigurationRow.rewrittenBy_id (c : EquipmentConfigurationRow)
    (e : Equipment) (xs : List EquipmentLogItem) : (c.rewrittenBy e xs).id = c.id := by
  unfold rewrittenBy
  cases (xs.filter fun x => x.finds e c).getLast? <;> rfl

/-- By key, the query finds the configuration. -/
lemma findConfiguration_eq {st : Store} (h : Registry st) {c : EquipmentConfigurationRow}
    (hc : c ∈ st.configurations) : st.findConfiguration c.id = some c :=
  find?_eq_some_of_nodup h.configurationKeys.nodup hc

/-! ## The whole handler -/

/-- What handling the items `xs` for one site leaves of the site `k` and of the shared rows. -/
structure LeavesSite (k : ℕ) (xs : List EquipmentLogItem) (st st' : Store) : Prop where
  /-- the setups of the site, with their equipment in use -/
  setups : st'.setups.filter (·.setup.siteId = k) = st.setups.filter (·.setup.siteId = k)
  /-- an equipment row contains what the last item that refers to it writes -/
  equipment : ∀ i e, st.findEquipment i = some e → st'.findEquipment i = some (e.rewrittenBy xs)
  /-- a configuration contains the details of the last item that finds it -/
  configuration : ∀ i c, st.findConfiguration i = some c →
    ∃ e, st.findEquipment c.config.equipmentId = some e ∧
      st'.findConfiguration i = some (c.rewrittenBy e xs)

/-- **Handling one site's log overwrites shared rows, and nothing else of another site.** -/
theorem handle_overwrites_shared_rows {lib : ListUtils} {w : World}
    (hw : World.Reachable lib (fun _ => True) w) {load : LoadOrder} {rows : RowOrder}
    {e : SiteLogReceived} {st' : Store}
    (hok : CorsSiteService.handle lib load rows e w.store = .ok st') {id : String} {k : ℕ}
    (hid : id ≠ e.fourCharacterId) (hk : w.store.siteId id = some k) :
    ∃ log, w.store.findSiteLog e.fourCharacterId = .ok (some log) ∧
      LeavesSite k (load.load log).placements w.store st' := by
  obtain ⟨l, site, saved, N, hby⟩ := handle_inv hw.tracks.tables hok
  obtain ⟨log, hread, rfl⟩ := hby.read
  have hreg := hw.tracks.tables.registry
  have hreg' := (hby.tables hw.tracks.tables).registry
  have hne : k ≠ site.id := hby.siteSaved.ne_of_other hid hk
  have hsaved : saved.equipment = w.store.equipment ∧
      saved.configurations = w.store.configurations := by
    rw [hby.siteSaved.frame]
    exact ⟨rfl, rfl⟩
  have hst' : st'.equipment = (placeAll (load.load log).placements saved).equipment ∧
      st'.configurations = (placeAll (load.load log).placements saved).configurations := by
    rw [hby.result]
    exact ⟨rfl, rfl⟩
  refine ⟨log, hread, ?_, ?_, ?_⟩
  · have hfilter := hby.filter_other hne fun _ => true
    simpa using hfilter
  · intro i e₀ hfind
    have hmem : e₀ ∈ saved.equipment := hsaved.1 ▸ List.mem_of_find?_eq_some hfind
    have hi : e₀.id = i := by simpa using List.find?_some hfind
    have hrow := findEquipment_eq hreg' (hst'.1 ▸ mem_equipment_placeAll _ hmem)
    rwa [Equipment.rewrittenBy_id, hi] at hrow
  · intro i c hfind
    have hmem : c ∈ saved.configurations := hsaved.2 ▸ List.mem_of_find?_eq_some hfind
    have hi : c.id = i := by simpa using List.find?_some hfind
    obtain ⟨e₀, he₀, hid₀, hclass⟩ := hreg.owner c (hsaved.2 ▸ hmem)
    refine ⟨e₀, hid₀ ▸ findEquipment_eq hreg he₀, ?_⟩
    have hrow := findConfiguration_eq hreg' (hst'.2 ▸ mem_configurations_placeAll _
      (hby.siteSaved.registry hreg) (hsaved.1 ▸ he₀) hmem hid₀ hclass)
    rwa [EquipmentConfigurationRow.rewrittenBy_id, hi] at hrow

/-- The setups of one site were computed, and the log of another was uploaded. -/
def twoSites : World :=
  World.performAll .ofContains (Step.received SiteLog.clockRemoved ++ [.upload SiteLog.otherSite])

/-- **A configuration of another site does change.**  Both sites have a clock of the same type since
the same date, so handling the second log changes the input frequency of the first clock. -/
theorem handle_changes_other_site :
    ∃ w st', World.Reachable .ofContains (fun _ => True) w ∧
      CorsSiteService.handle .ofContains .asListed .asStored ⟨"ADE2", ""⟩ w.store = .ok st' ∧
      ∃ r ∈ w.store.setups, w.store.siteId "ADE1" = some r.setup.siteId ∧
        ∃ u ∈ r.setup.equipmentInUse,
          st'.findConfiguration u.configurationId ≠
            w.store.findConfiguration u.configurationId := by
  have hok : ((Step.siteLogReceived .asListed .asStored ⟨"ADE2", ""⟩).run .ofContains
      twoSites.store).isOk = true := by
    decide +kernel
  exact ⟨twoSites, _, World.reachable_performAll fun _ _ => trivial, World.run_eq_perform hok,
    by decide +kernel⟩

/-- The setups of the first site stay. -/
theorem handle_overwrites_shared_rows_two_sites :
    ∃ log, twoSites.store.findSiteLog "ADE2" = .ok (some log) ∧
      LeavesSite 1 (LoadOrder.asListed.load log).placements twoSites.store
        (twoSites.perform .ofContains
          (.siteLogReceived .asListed .asStored ⟨"ADE2", ""⟩)).store := by
  have hreach : World.Reachable .ofContains (fun _ => True) twoSites :=
    World.reachable_performAll fun _ _ => trivial
  have hok : ((Step.siteLogReceived .asListed .asStored ⟨"ADE2", ""⟩).run .ofContains
      twoSites.store).isOk = true := by
    decide +kernel
  have hhandle : CorsSiteService.handle .ofContains .asListed .asStored ⟨"ADE2", ""⟩ twoSites.store
      = .ok (twoSites.perform .ofContains
          (.siteLogReceived .asListed .asStored ⟨"ADE2", ""⟩)).store := World.run_eq_perform hok
  exact handle_overwrites_shared_rows hreach hhandle (by decide : "ADE1" ≠ "ADE2")
    (by decide +kernel)

end Geodesy
