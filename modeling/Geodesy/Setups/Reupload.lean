import Geodesy.Setups.Listing

/-!
# Handling the same log again

A log that was handled and is handled again, unchanged but perhaps in another iteration order,
changes nothing exactly when it is `Repeatable`: every item that is placed can be found again, and
the entries of each setup are listed in the order of the items that they stand for.  An item that is
not `Lookupable` gets new rows every time; entries in another order make the old setup unequal to
the new one.
-/

namespace Geodesy

open Rows EquipmentLogItem

/-! ## What an entry depends on -/

/-- The part of an item that decides which entries represent it. -/
def EquipmentLogItem.key (x : EquipmentLogItem) :
    EquipmentClass × Option String × Option String × Option EffectiveDates :=
  (x.equipmentClass, x.type, x.serialNumber, x.effectiveDates)

/-- The same part, as the tables have it for an entry.  A clock is looked up without its serial
number. -/
def Store.keyOf (st : Store) (u : EquipmentInUse) :
    Option (EquipmentClass × Option String × Option String × Option EffectiveDates) :=
  (st.findEquipment u.equipmentId).map fun e =>
    (e.equipmentClass, e.type, if e.equipmentClass = .clock then none else e.serialNumber, u.period)

section Represents

variable {st : Store} {u : EquipmentInUse} {x y : EquipmentLogItem}

/-- Items with the same key are represented by the same entries. -/
lemma Represents.of_key (h : Represents st u x) (hkey : x.key = y.key) : Represents st u y := by
  simp only [key, Prod.mk.injEq] at hkey
  obtain ⟨hclass, htype, hserial, hdates⟩ := hkey
  refine ⟨h.period.trans hdates, ?_, ?_⟩
  · rw [← hclass, ← htype, ← hserial]
    exact h.equipment
  · rw [← hclass, effectiveFrom, ← hdates]
    exact h.configuration

/-- What an entry stands for, in the tables: the key of the items that it represents. -/
lemma Represents.keyOf_eq (hreg : Registry st) (h : Represents st u x) :
    st.keyOf u = some x.key := by
  obtain ⟨e, he, hid, hclass, htype, hserial⟩ := h.equipment
  have hfind := findEquipment_eq hreg he
  rw [hid] at hfind
  have hserials : (if e.equipmentClass = .clock then none else e.serialNumber) =
      x.serialNumber := by
    rw [hclass]
    split_ifs with hclock
    · exact (serialNumber_of_clock hclock).symm
    · exact hserial.resolve_left hclock
  rw [Store.keyOf, hfind, Option.map_some, hserials, hclass, htype, h.period]
  rfl

lemma map_keyOf_of_represents (hreg : Registry st) {us : List EquipmentInUse}
    {xs : List EquipmentLogItem} (h : List.Forall₂ (Represents st) us xs) :
    us.map st.keyOf = (xs.map key).map some := by
  rw [List.map_map]
  exact h.map_eq_map fun _ _ hu => hu.keyOf_eq hreg

/-- Lookupable items with the same keys are represented by the same entries. -/
lemma eq_of_represents (hreg : Registry st) {us vs : List EquipmentInUse}
    {xs ys : List EquipmentLogItem} (hx : List.Forall₂ (Represents st) us xs)
    (hy : List.Forall₂ (Represents st) vs ys) (hkeys : xs.map key = ys.map key)
    (hlookup : ∀ x ∈ xs, x.Lookupable) : us = vs := by
  induction hx generalizing vs ys with
  | nil =>
      cases hy with
      | nil => rfl
      | cons => simp at hkeys
  | cons hu _ ih =>
      cases hy with
      | nil => simp at hkeys
      | cons hv hrest =>
          obtain ⟨hkey, hkeys⟩ := List.cons.inj hkeys
          have huv := hu.unique hreg (hv.of_key hkey.symm) (hlookup _ (by simp))
          rw [huv, ih hrest hkeys fun x hxmem => hlookup x (List.mem_cons_of_mem _ hxmem)]

end Represents

/-! ## Placing items that are there -/

/-- The rows of the two tables keep their keys and their places; each new row took a key from the
sequence. -/
lemma exists_new_placeAll (xs : List EquipmentLogItem) (st : Store) : ∃ es cs,
    (placeAll xs st).equipment.map (·.id) = st.equipment.map (·.id) ++ es ∧
    (placeAll xs st).configurations.map (·.id) = st.configurations.map (·.id) ++ cs ∧
    (placeAll xs st).nextId = st.nextId + es.length + cs.length := by
  induction xs generalizing st with
  | nil => exact ⟨[], [], by simp⟩
  | cons x xs ih =>
      obtain ⟨es, cs, hes, hcs, hnext⟩ := ih (x.place st)
      refine ⟨(x.newEquipment st).map (·.id) ++ es, (x.newConfiguration st).map (·.id) ++ cs,
        ?_, ?_, ?_⟩
      · rw [placeAll_cons, hes, map_id_place_equipment, List.append_assoc]
      · rw [placeAll_cons, hcs, map_id_place_configurations, List.append_assoc]
      · rw [placeAll_cons, hnext]
        simp only [EquipmentLogItem.place, nextConfigurationId, List.length_append, List.length_map]
        omega

/-- An item that is not lookupable takes a key. -/
lemma nextId_lt_placeAll {x : EquipmentLogItem} (hx : ¬x.Lookupable) :
    ∀ {xs : List EquipmentLogItem} {st : Store}, x ∈ xs → st.nextId < (placeAll xs st).nextId
  | [], _, hmem => by simp at hmem
  | y :: ys, st, hmem => by
      rw [placeAll_cons]
      rcases List.mem_cons.mp hmem with rfl | hmem
      · exact (nextId_lt_place hx).trans_le (extends_placeAll ys _).nextId_le
      · exact (extends_place y st).nextId_le.trans_lt (nextId_lt_placeAll hx hmem)

/-- Lookupable items that are represented take none. -/
lemma nextId_placeAll_eq : ∀ {xs : List EquipmentLogItem} {st : Store}, Registry st →
    (∀ x ∈ xs, x.Lookupable ∧ ∃ u, Represents st u x) → (placeAll xs st).nextId = st.nextId
  | [], _, _, _ => rfl
  | x :: xs, st, hreg, h => by
      obtain ⟨hlookup, u, hu⟩ := h x (by simp)
      rw [placeAll_cons, nextId_placeAll_eq (hreg.place x), hu.nextId_place hreg hlookup]
      intro y hy
      obtain ⟨hlookup', v, hv⟩ := h y (List.mem_cons_of_mem _ hy)
      exact ⟨hlookup', v, hv.mono (extends_place x st)⟩

/-! ## Handling the log again -/

/-- No setup is invalidated, and no setup, equipment or configuration is created. -/
structure NothingNew (st st' : Store) : Prop where
  setups : st'.setups = st.setups
  equipment : st'.equipment.map (·.id) = st.equipment.map (·.id)
  configurations : st'.configurations.map (·.id) = st.configurations.map (·.id)

/-- The log can be handled again in this iteration order: all items placed can be found again, and
the entries of each valid setup of the site are listed in the order of the items, up to items equal
in class, type, serial number and dates. -/
structure Repeatable (st : Store) (siteId : ℕ) (l : SiteLog) : Prop where
  lookupable : ∀ x ∈ l.placements, x.Lookupable
  sameOrder : ∀ r ∈ st.findSetupsBySiteId siteId, r.setup.equipmentInUse.map st.keyOf =
    ((l.planned r.setup.effectivePeriod).items.map key).map some

set_option synthInstance.maxSize 512 in
instance (st : Store) (siteId : ℕ) (l : SiteLog) : Decidable (Repeatable st siteId l) :=
  decidable_of_iff ((∀ x ∈ l.placements, x.Lookupable) ∧
      ∀ r ∈ st.findSetupsBySiteId siteId, r.setup.equipmentInUse.map st.keyOf =
        ((l.planned r.setup.effectivePeriod).items.map key).map some)
    ⟨fun ⟨hlookup, horder⟩ => ⟨hlookup, horder⟩, fun h => ⟨h.lookupable, h.sameOrder⟩⟩

section Handled

variable {load : LoadOrder} {e : SiteLogReceived} {st st' saved : Store} {l l' : SiteLog}
  {site : CorsSite} {N : List Setup}

/-- New rows of the equipment tables are those that the placements took keys for. -/
lemma HandledBy.newKeys_iff (hby : HandledBy load e st st' l' site saved N) :
    st'.equipment.map (·.id) = st.equipment.map (·.id) ∧
      st'.configurations.map (·.id) = st.configurations.map (·.id) ↔
    (placeAll l'.placements saved).nextId = saved.nextId := by
  obtain ⟨es, cs, hes, hcs, hnext⟩ := exists_new_placeAll l'.placements saved
  have hequipment : saved.equipment = st.equipment := by rw [hby.siteSaved.frame]
  have hconfigurations : saved.configurations = st.configurations := by
    rw [hby.siteSaved.frame]
  have hst' : st'.equipment = (placeAll l'.placements saved).equipment ∧
      st'.configurations = (placeAll l'.placements saved).configurations := by
    rw [hby.result]
    exact ⟨rfl, rfl⟩
  rw [hst'.1, hst'.2, hes, hcs, hequipment, hconfigurations,
    List.append_right_eq_self, List.append_right_eq_self, ← List.length_eq_zero_iff,
    ← List.length_eq_zero_iff]
  omega

/-- The rows of `SETUP` stay exactly when the new setups are the valid old ones. -/
lemma HandledBy.setups_eq_iff (hby : HandledBy load e st st' l' site saved N) :
    st'.setups = st.setups ↔
      ∀ s, s ∈ N ↔ s ∈ (st.findSetupsBySiteId site.id).map (·.setup) := by
  have hnew : insertAll SetupRow.fresh (placeAll l'.placements saved).nextId
      (st.freshSetups site.id N) = [] ↔ st.freshSetups site.id N = [] := by
    cases st.freshSetups site.id N <;> simp [insertAll]
  rw [hby.setups_eq]
  constructor
  · intro hsame
    have hlength := congrArg List.length hsame
    rw [List.length_append, List.length_map, Nat.add_eq_left, List.length_eq_zero_iff] at hlength
    rw [hlength, List.append_nil] at hsame
    have hold : ∀ r ∈ st.setups, r.supersede site.id N = r :=
      fun r hr => List.map_inj_left.mp (hsame.trans (List.map_id _).symm) r hr
    intro s
    constructor
    · intro hs
      by_contra hnot
      have hfresh : s ∈ st.freshSetups site.id N :=
        List.mem_filter.mpr ⟨hs, decide_eq_true hnot⟩
      rw [hnew.mp hlength] at hfresh
      cases hfresh
    · intro hs
      obtain ⟨r, hr, rfl⟩ := List.mem_map.mp hs
      obtain ⟨hmem, hsite, hvalid⟩ := mem_findSetupsBySiteId.mp hr
      have hflag := r.supersede_invalidated site.id N
      rw [hold r hmem, hvalid, Bool.false_or] at hflag
      simpa [hsite] using hflag
  · intro hsame
    have hfresh : st.freshSetups site.id N = [] := by
      refine List.filter_eq_nil_iff.mpr ?_
      intro s hs
      simpa using (hsame s).mp hs
    have hold : ∀ r ∈ st.setups, r.supersede site.id N = r := by
      intro r hr
      rw [SetupRow.supersede, if_neg]
      rintro ⟨hsite, hvalid, hnot⟩
      refine hnot ((hsame _).mpr (List.mem_map_of_mem ?_))
      exact mem_findSetupsBySiteId.mpr ⟨hr, hsite, hvalid⟩
    rw [hnew.mpr hfresh, List.append_nil]
    exact (List.map_congr_left hold).trans (List.map_id _)

end Handled

/-- A setup that realises a plan realises the planned setup of its period. -/
lemma exists_planned_period {st : Store} {k : ℕ} {M : List Setup} {l : SiteLog}
    (h : List.Forall₂ (Realises st k) M l.plan) {s : Setup} (hs : s ∈ M) :
    ∃ d ∈ l.periods, Realises st k s (l.planned d) := by
  obtain ⟨p, hp, hreal⟩ := h.exists_right hs
  obtain ⟨hper, hplanned⟩ := SiteLog.mem_plan.mp hp
  exact ⟨p.period, hper, hplanned ▸ hreal⟩

/-- Conversely each planned period is realised. -/
lemma exists_realising_period {st : Store} {k : ℕ} {M : List Setup} {l : SiteLog}
    (h : List.Forall₂ (Realises st k) M l.plan) {d : EffectiveDates} (hd : d ∈ l.periods) :
    ∃ s ∈ M, Realises st k s (l.planned d) :=
  h.exists_left (SiteLog.mem_plan.mpr ⟨hd, rfl⟩)

/-- An old setup listed in the order of the items is the new one of its period. -/
lemma Realises.eq_of_listed {st : Store} (hreg : Registry st) {k : ℕ} {s s' : Setup}
    {p p' : PlannedSetup} (h : Realises st k s p) (h' : Equips st k s' p')
    (hperiod : p.period = p'.period)
    (hlisted : s'.equipmentInUse.map st.keyOf = (p.items.map key).map some)
    (hlookup : ∀ x ∈ p.items, x.Lookupable) : s' = s := by
  obtain ⟨items, -, hitems⟩ := h'.represents
  rw [map_keyOf_of_represents hreg hitems] at hlisted
  have hkeys : p.items.map key = items.map key :=
    (List.map_injective_iff.mpr (Option.some_injective _) hlisted).symm
  have hentries := eq_of_represents hreg h.represents hitems hkeys hlookup
  have hsite := h.siteId_eq.trans h'.siteId_eq.symm
  have hname := h.name_eq.trans h'.name_eq.symm
  have hper := (h.period_eq.trans hperiod).trans h'.period_eq.symm
  cases s
  cases s'
  simp_all

/-- What an entry stands for is the same in a later store. -/
lemma map_keyOf_later {st st' : Store} (hreg : Registry st) (hreg' : Registry st')
    (hext : Extends st st') {us : List EquipmentInUse} {xs : List EquipmentLogItem}
    (h : List.Forall₂ (Represents st) us xs) : us.map st'.keyOf = us.map st.keyOf := by
  rw [map_keyOf_of_represents hreg h,
    map_keyOf_of_represents hreg' (h.imp fun _ _ hu => hu.mono hext)]

/-- **Handling a log with the periods of the last one changes nothing exactly when it is
repeatable.** -/
theorem HandledBy.nothingNew_iff {load : LoadOrder} {e : SiteLogReceived} {st st' saved : Store}
    {l l' : SiteLog} {site : CorsSite} {N : List Setup} (ht : Tables st)
    (hby : HandledBy load e st st' l' site saved N) (hequip : SetupsEquip st site.id l)
    (hperiods : l'.periods = l.periods) : NothingNew st st' ↔ Repeatable st site.id l' := by
  have hext := hby.extends_saved.trans (extends_placeAll l'.placements saved)
  have hreg : Registry (placeAll l'.placements saved) := hby.registry_placed ht
  have hkeys := hby.newKeys_iff
  have hsetups := hby.setups_eq_iff
  constructor
  · rintro ⟨hsame, hequipment, hconfigurations⟩
    have hnext := hkeys.mp ⟨hequipment, hconfigurations⟩
    refine ⟨fun x hx => ?_, fun r hr => ?_⟩
    · by_contra hnot
      exact (nextId_lt_placeAll hnot hx).ne' hnext
    · -- the old setup is a new one, whose entries are in the order of the items
      obtain ⟨items, -, hitems⟩ := (hequip.equips hr).2.represents
      have hnew : r.setup ∈ N := (hsetups.mp hsame _).mpr (List.mem_map_of_mem hr)
      obtain ⟨d, -, hreal⟩ := exists_planned_period hby.realises hnew
      rw [show r.setup.effectivePeriod = d from hreal.period_eq,
        ← map_keyOf_later ht.registry hreg hext hitems]
      exact map_keyOf_of_represents hreg hreal.represents
  · intro hrepeat
    have hnext : (placeAll l'.placements saved).nextId = saved.nextId := by
      refine nextId_placeAll_eq (hby.siteSaved.registry ht.registry) fun x hx =>
        ⟨hrepeat.lookupable x hx, ?_⟩
      -- the item has the key of one that an old entry represents
      obtain ⟨p, hp, hxp⟩ := SiteLog.exists_plan_of_mem_placements hx
      obtain ⟨hper, hplanned⟩ := SiteLog.mem_plan.mp hp
      obtain ⟨r, hr, hrp⟩ := hequip.exists_of_period (hperiods ▸ hper)
      obtain ⟨items, -, hitems⟩ := (hequip.equips hr).2.represents
      have hlisted := hrepeat.sameOrder r hr
      rw [hrp, ← hplanned, map_keyOf_of_represents ht.registry hitems] at hlisted
      have hkey := List.mem_map_of_mem (f := key) hxp
      rw [← List.map_injective_iff.mpr (Option.some_injective _) hlisted] at hkey
      obtain ⟨y, hy, hyx⟩ := List.mem_map.mp hkey
      obtain ⟨u, -, hu⟩ := hitems.exists_left hy
      exact ⟨u, (hu.of_key hyx).mono hby.extends_saved⟩
    obtain ⟨hequipment, hconfigurations⟩ := hkeys.mpr hnext
    -- the old setup of a period is the new one
    have hpair : ∀ r ∈ st.findSetupsBySiteId site.id, ∀ s,
        Realises (placeAll l'.placements saved) site.id s
          (l'.planned r.setup.effectivePeriod) → r.setup = s := by
      intro r hr s hreal
      obtain ⟨hper, hequips⟩ := hequip.equips hr
      obtain ⟨items, -, hitems⟩ := hequips.represents
      refine hreal.eq_of_listed hreg (hequips.mono hext) rfl ?_ fun x hx =>
        hrepeat.lookupable x (SiteLog.mem_placements_of_plan
          (SiteLog.mem_plan.mpr ⟨hperiods ▸ hper, rfl⟩) hx)
      rw [map_keyOf_later ht.registry hreg hext hitems]
      exact hrepeat.sameOrder r hr
    refine ⟨hsetups.mpr fun s => ?_, hequipment, hconfigurations⟩
    constructor
    · intro hs
      obtain ⟨d, hd, hreal⟩ := exists_planned_period hby.realises hs
      obtain ⟨r, hr, rfl⟩ := hequip.exists_of_period (hperiods ▸ hd)
      exact hpair r hr s hreal ▸ List.mem_map_of_mem hr
    · intro hs
      obtain ⟨r, hr, rfl⟩ := List.mem_map.mp hs
      obtain ⟨s, hs, hreal⟩ :=
        exists_realising_period hby.realises (hperiods ▸ (hequip.equips hr).1)
      exact hpair r hr s hreal ▸ hs

/-! ## The second upload -/

/-- The log, as it is read, can be handled again where the query for setups lists their entries in
this order. -/
def World.Repeats (w : World) (entries : EntryOrder) (l : SiteLog) : Prop :=
  ∀ site ∈ w.store.findCorsSite l.fourCharacterId, Repeatable (w.store.listed entries) site.id l

instance (w : World) (entries : EntryOrder) (l : SiteLog) : Decidable (w.Repeats entries l) :=
  inferInstanceAs (Decidable (∀ site ∈ w.store.findCorsSite l.fourCharacterId, _))

/-- A step has one result. -/
lemma World.Takes.unique {lib : ListUtils} {w u v : World} {a : Step} (hu : World.Takes lib w a u)
    (hv : World.Takes lib w a v) : u = v := by
  obtain ⟨st, hok, rfl⟩ := hu
  obtain ⟨st', hok', rfl⟩ := hv
  rw [Except.ok.inj (hok.symm.trans hok')]

section SecondUpload

variable {lib : ListUtils} {w : World} {l L : SiteLog} {load : LoadOrder}

/-- An accepted log can be uploaded, which changes the stored logs and the events, and then
handled. -/
lemma TracksListed.exists_upload_handled (h : TracksListed w) (lib : ListUtils)
    (hacc : (load.load l.reload).Accepted) (rows : RowOrder) (entries : EntryOrder) :
    ∃ w₁ w₂ logs events site saved N,
      w₁ = { w with store := { w.store with siteLogs := logs, published := events } } ∧
      World.Takes lib w (.upload l) w₁ ∧
      World.TakesListed lib w₁
        ⟨entries, .siteLogReceived load rows ⟨l.fourCharacterId, l.siteLogText⟩⟩ w₂ ∧
      HandledBy load ⟨l.fourCharacterId, l.siteLogText⟩ (w₁.store.listed entries) w₂.store
        (load.load l.reload) site saved N ∧
      w₂.lastLog l.fourCharacterId = some (load.load l.reload) := by
  obtain ⟨st₁, hok⟩ : ∃ st₁, CorsSiteLogService.upload l w.store = .ok st₁ :=
    ⟨_, upload_eq h.tables.siteLogs l⟩
  obtain ⟨hfound, hframe⟩ := upload_inv h.tables.siteLogs hok
  have hupload : World.Takes lib w (.upload l) (w.after (.upload l) st₁) := ⟨st₁, hok, rfl⟩
  have htables := ((h.step hupload).listed entries).tables
  obtain ⟨st₂, site, saved, N, hhandle, hby⟩ := handle_of_read lib load rows
    ⟨l.fourCharacterId, l.siteLogText⟩ htables hfound hacc
  refine ⟨_, _, _, _, site, saved, N, congrArg (fun st => { w with store := st }) hframe, hupload,
    ⟨st₂, hhandle, rfl⟩, hby, ?_⟩
  have hread : (st₁.listed entries).findSiteLog l.fourCharacterId = .ok (some l.reload) := hfound
  simp [World.after, World.readLog, World.listed, hread]

/-- A log with the periods of the last one can be uploaded and handled; whether setups are
invalidated or anything is created is decided by `Repeats`, and the rest stays. -/
theorem TracksListed.exists_reupload (h : TracksListed w)
    (hlast : w.lastLog l.fourCharacterId = some L) (hacc : (load.load l.reload).Accepted)
    (hperiods : (load.load l.reload).periods = L.periods) (rows : RowOrder)
    (entries : EntryOrder) :
    ∃ w₁ w₂, World.Takes lib w (.upload l) w₁ ∧
      World.TakesListed lib w₁
        ⟨entries, .siteLogReceived load rows ⟨l.fourCharacterId, l.siteLogText⟩⟩ w₂ ∧
      (NothingNew (w.store.listed entries) w₂.store ↔ w.Repeats entries (load.load l.reload)) ∧
      w₂.lastLog l.fourCharacterId = some (load.load l.reload) ∧
      w₂.store.siteId l.fourCharacterId = w.store.siteId l.fourCharacterId ∧
      w₂.store.nodes = w.store.nodes ∧ Extends w.store w₂.store := by
  obtain ⟨k, hk, -, hequip⟩ := h.site_of_lastLog hlast
  obtain ⟨w₁, w₂, logs, events, site, saved, N, hw₁, hupload, hreceived, hby, hlast₂⟩ :=
    h.exists_upload_handled lib hacc rows entries
  -- the site is the one that was there
  obtain ⟨owner, howner, rfl⟩ := Option.map_eq_some_iff.mp hk
  have hsite : site.id = owner.id := by
    subst hw₁
    exact (hby.siteSaved.found owner.id hk).1
  have hequip₁ : SetupsEquip (w₁.store.listed entries) site.id L := by
    rw [hsite, hw₁]
    exact (hequip.listed entries).mono (Extends.of_eq le_rfl rfl rfl) rfl
  have hrepeat :=
    hby.nothingNew_iff ((h.step hupload).listed entries).tables hequip₁ hperiods
  subst hw₁
  have hsame : NothingNew (w.store.listed entries) w₂.store ↔
      Repeatable (w.store.listed entries) owner.id (load.load l.reload) := by
    rw [← hsite]
    constructor
    · intro hnew
      have h := hrepeat.mp ⟨hnew.setups, hnew.equipment, hnew.configurations⟩
      exact ⟨h.lookupable, h.sameOrder⟩
    · intro h
      have hnew := hrepeat.mpr ⟨h.lookupable, h.sameOrder⟩
      exact ⟨hnew.setups, hnew.equipment, hnew.configurations⟩
  have hid : (load.load l.reload).fourCharacterId = l.fourCharacterId :=
    congrArg (·.fourCharacterId) (load.load_iterates _).siteIdentification
  refine ⟨_, w₂, hupload, hreceived, ?_, hlast₂, ?_, hby.nodes_eq, ?_⟩
  · rw [hsame, World.Repeats, hid]
    simp [howner]
  · rw [hk, ← hsite]
    exact hby.siteId_self
  · exact ⟨hby.extends.nextId_le, hby.extends.equipment, hby.extends.configurations⟩

end SecondUpload

end Geodesy
