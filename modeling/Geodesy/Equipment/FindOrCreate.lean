import Geodesy.Service.System

/-!
# What creating and saving equipment does to the store

The four `visit` methods are one operation with parameters: which rows a log item refers to
(`refersTo`), what it writes to the equipment row (`touch`) and to the configuration (`details`).
`addEquipmentToSetup_eq` states the result exactly, for a store whose lookup keys are unique: the
rows that the item refers to are overwritten, a row is appended where there was none, and nothing
else changes.  The invariant `Registry` is what makes the keys unique, and every placement keeps it.
-/

namespace Geodesy

open Rows

namespace EquipmentLogItem

/-- The lookup of the equipment of a log item: clocks by type in memory, everything else by type
and serial number in SQL. -/
def refersTo (x : EquipmentLogItem) (e : Equipment) : Bool :=
  decide (e.equipmentClass = x.equipmentClass) &&
    match x with
    | frequencyStandard i => EquipmentFactory.clockEquals e i.type
    | x => sqlEq e.type x.type && sqlEq e.serialNumber x.serialNumber

/-- What a log item writes to its equipment row: humidity sensors their aspiration. -/
def touch (x : EquipmentLogItem) (e : Equipment) : Equipment :=
  match x with
  | humiditySensor i => { e with aspiration := i.aspiration }
  | _ => e

/-- What a log item writes to its configuration row. -/
def details : EquipmentLogItem → ConfigurationDetails
  | gnssReceiver i => .gnssReceiver
      ⟨i.satelliteSystem, i.firmwareVersion, i.elevationCutoffSetting, i.temperatureStabilization,
        i.notes⟩
  | gnssAntenna i => .gnssAntenna
      ⟨i.alignmentFromTrueNorth, i.markerArpUpEcc, i.markerArpNorthEcc, i.markerArpEastEcc⟩
  | humiditySensor i => .humiditySensor ⟨i.heightDiffToAntenna⟩
  | frequencyStandard i => .clock ⟨i.inputFrequency⟩

/-- A new equipment for a log item. -/
def freshEquipment (x : EquipmentLogItem) (id : ℕ) : Equipment :=
  ⟨id, x.equipmentClass, x.type, x.serialNumber, none⟩

/-- The configuration lookup: by class, equipment and start date. -/
def configures (x : EquipmentLogItem) (equipId : ℕ) (c : EquipmentConfigurationRow) : Bool :=
  decide (c.config.details.equipmentClass = x.equipmentClass) && c.config.equipmentId = equipId
    && sqlEq c.config.configurationTime x.effectiveFrom

/-- An equipment row after a log item was placed. -/
def overwrite (x : EquipmentLogItem) (e : Equipment) : Equipment :=
  if x.refersTo e then x.touch e else e

/-- A configuration row after a log item was placed on the given equipment. -/
def reconfigure (x : EquipmentLogItem) (equipId : ℕ) (c : EquipmentConfigurationRow) :
    EquipmentConfigurationRow :=
  if x.configures equipId c then ⟨c.id, { c.config with details := x.details }⟩ else c

@[simp] lemma details_equipmentClass (x : EquipmentLogItem) :
    x.details.equipmentClass = x.equipmentClass := by
  cases x <;> rfl

@[simp] lemma touch_id (x : EquipmentLogItem) (e : Equipment) : (x.touch e).id = e.id := by
  cases x <;> rfl

@[simp] lemma touch_equipmentClass (x : EquipmentLogItem) (e : Equipment) :
    (x.touch e).equipmentClass = e.equipmentClass := by
  cases x <;> rfl

@[simp] lemma touch_type (x : EquipmentLogItem) (e : Equipment) : (x.touch e).type = e.type := by
  cases x <;> rfl

@[simp] lemma touch_serialNumber (x : EquipmentLogItem) (e : Equipment) :
    (x.touch e).serialNumber = e.serialNumber := by
  cases x <;> rfl

@[simp] lemma overwrite_id (x : EquipmentLogItem) (e : Equipment) : (x.overwrite e).id = e.id := by
  unfold overwrite; split_ifs <;> simp

@[simp] lemma overwrite_equipmentClass (x : EquipmentLogItem) (e : Equipment) :
    (x.overwrite e).equipmentClass = e.equipmentClass := by
  unfold overwrite; split_ifs <;> simp

@[simp] lemma overwrite_type (x : EquipmentLogItem) (e : Equipment) :
    (x.overwrite e).type = e.type := by
  unfold overwrite; split_ifs <;> simp

@[simp] lemma overwrite_serialNumber (x : EquipmentLogItem) (e : Equipment) :
    (x.overwrite e).serialNumber = e.serialNumber := by
  unfold overwrite; split_ifs <;> simp

@[simp] lemma reconfigure_id (x : EquipmentLogItem) (i : ℕ) (c : EquipmentConfigurationRow) :
    (x.reconfigure i c).id = c.id := by
  unfold reconfigure; split_ifs <;> rfl

@[simp] lemma reconfigure_equipmentId (x : EquipmentLogItem) (i : ℕ)
    (c : EquipmentConfigurationRow) :
    (x.reconfigure i c).config.equipmentId = c.config.equipmentId := by
  unfold reconfigure; split_ifs <;> rfl

@[simp] lemma reconfigure_configurationTime (x : EquipmentLogItem) (i : ℕ)
    (c : EquipmentConfigurationRow) :
    (x.reconfigure i c).config.configurationTime = c.config.configurationTime := by
  unfold reconfigure; split_ifs <;> rfl

@[simp] lemma reconfigure_equipmentClass (x : EquipmentLogItem) (i : ℕ)
    (c : EquipmentConfigurationRow) :
    (x.reconfigure i c).config.details.equipmentClass = c.config.details.equipmentClass := by
  unfold reconfigure
  split_ifs with h
  · simp only [configures, Bool.and_eq_true, decide_eq_true_eq] at h
    simp [h.1.1]
  · rfl

/-- Which rows an item refers to depends on their class, type and serial number alone. -/
lemma refersTo_congr (x : EquipmentLogItem) {e e' : Equipment}
    (hclass : e.equipmentClass = e'.equipmentClass) (htype : e.type = e'.type)
    (hserial : e.serialNumber = e'.serialNumber) : x.refersTo e = x.refersTo e' := by
  cases x <;> simp [refersTo, EquipmentFactory.clockEquals, hclass, htype, hserial]

@[simp] lemma refersTo_touch (x y : EquipmentLogItem) (e : Equipment) :
    x.refersTo (y.touch e) = x.refersTo e :=
  x.refersTo_congr (by simp) (by simp) (by simp)

@[simp] lemma refersTo_overwrite (x y : EquipmentLogItem) (e : Equipment) :
    x.refersTo (y.overwrite e) = x.refersTo e :=
  x.refersTo_congr (by simp) (by simp) (by simp)

@[simp] lemma configures_reconfigure (x y : EquipmentLogItem) (i j : ℕ)
    (c : EquipmentConfigurationRow) :
    x.configures i (y.reconfigure j c) = x.configures i c := by
  simp [configures]

/-- A frequency standard has no serial number. -/
lemma serialNumber_of_clock {x : EquipmentLogItem} (h : x.equipmentClass = .clock) :
    x.serialNumber = none := by
  cases x with
  | frequencyStandard i => rfl
  | _ => cases h

/-- The class, the type and, except for clocks, the serial number of a row that an item refers to
are the item's own. -/
lemma refersTo_iff (x : EquipmentLogItem) (e : Equipment) :
    x.refersTo e = true ↔ e.equipmentClass = x.equipmentClass ∧ e.type = x.type ∧
      (x.equipmentClass = .clock ∨
        e.serialNumber = x.serialNumber ∧ x.type ≠ none ∧ x.serialNumber ≠ none) := by
  simp only [refersTo, Bool.and_eq_true, decide_eq_true_eq]
  cases x <;>
    simp [EquipmentFactory.clockEquals, equipmentClass, type, serialNumber] <;> tauto

end EquipmentLogItem

/-! ## The four visits as one -/

namespace EquipmentFactory

/-- The equipment of a log item, found or created. -/
def equipmentFor (x : EquipmentLogItem) (st : Store) : Equipment × Store :=
  match st.equipment.find? x.refersTo with
  | some e => (e, st)
  | none => (x.freshEquipment st.nextId,
      { st with
        nextId := st.nextId + 1
        equipment := st.equipment ++ [x.freshEquipment st.nextId] })

lemma getClock_eq (i : FrequencyStandardLogItem) (st : Store) :
    getClock i st = equipmentFor (.frequencyStandard i) st := by
  have hfind : (st.findByEquipmentType .clock).find? (clockEquals · i.type)
      = st.equipment.find? (EquipmentLogItem.refersTo (.frequencyStandard i)) := by
    rw [Store.findByEquipmentType, List.find?_filter]
    congr 1
    funext e
    rw [Bool.eq_iff_iff]
    simp only [EquipmentLogItem.refersTo, Bool.and_eq_true, decide_eq_true_eq]
    rfl
  rw [getClock, equipmentFor, hfind]
  rfl

/-- The shared lookup is the one for everything but clocks. -/
lemma getEquipment_eq (x : EquipmentLogItem) (st : Store) (hx : x.equipmentClass ≠ .clock) :
    getEquipment x.equipmentClass x st = equipmentFor x st := by
  have hfind : st.findOneEquipment x.equipmentClass x.type x.serialNumber
      = st.equipment.find? x.refersTo := by
    rw [Store.findOneEquipment]
    congr 1
    funext e
    cases x with
    | frequencyStandard i => exact absurd rfl hx
    | _ => simp only [EquipmentLogItem.refersTo, Bool.and_assoc]
  rw [getEquipment, equipmentFor, hfind]
  rfl

/-- The configuration of a log item on the given equipment, found or started with the given
details. -/
def configurationFor (x : EquipmentLogItem) (details : ConfigurationDetails) (equipId : ℕ)
    (st : Store) : Option ℕ × EquipmentConfiguration :=
  match st.configurations.find? (x.configures equipId) with
  | some c => (some c.id, c.config)
  | none => (none, ⟨equipId, x.effectiveFrom, details⟩)

lemma getConfiguration_eq (blank : ConfigurationDetails) (equipId : ℕ) (x : EquipmentLogItem)
    (st : Store) (hblank : blank.equipmentClass = x.equipmentClass) :
    getConfiguration blank equipId x st = configurationFor x blank equipId st := by
  simp only [getConfiguration, Store.findOneConfiguration, hblank]
  by_cases hfrom : x.effectiveFrom = none
  · have hnone : st.configurations.find? (x.configures equipId) = none := by
      rw [List.find?_eq_none]
      simp [EquipmentLogItem.configures, hfrom]
    simp [hfrom, configurationFor, hnone]
  · rw [if_pos hfrom]
    rfl

/-- The pair for a log item: its equipment with what the item writes to it, and its configuration
with the item's details. -/
def createFor (x : EquipmentLogItem) (blank : ConfigurationDetails) (st : Store) :
    Created × Store :=
  (⟨x.touch (equipmentFor x st).1,
    (configurationFor x blank (equipmentFor x st).1.id (equipmentFor x st).2).1,
    { (configurationFor x blank (equipmentFor x st).1.id (equipmentFor x st).2).2 with
      details := x.details }⟩,
    (equipmentFor x st).2)

/-- What the configuration was started with is overwritten. -/
lemma createFor_congr (x : EquipmentLogItem) (blank blank' : ConfigurationDetails) (st : Store) :
    createFor x blank st = createFor x blank' st := by
  cases hfind : (equipmentFor x st).2.configurations.find?
      (x.configures (equipmentFor x st).1.id) <;> simp [createFor, configurationFor, hfind]

/-- **The four visits are one operation**, with the lookup and the copied columns of the item. -/
theorem create_eq (x : EquipmentLogItem) (st : Store) : create x st = createFor x x.details st := by
  cases x with
  | gnssReceiver i =>
      have hget := getEquipment_eq (.gnssReceiver i) st (by simp [EquipmentLogItem.equipmentClass])
      simp only [EquipmentLogItem.equipmentClass] at hget
      simp only [create, visitGnssReceiver, hget]
      rw [getConfiguration_eq _ _ _ _ rfl]
      exact createFor_congr (.gnssReceiver i) _ _ st
  | gnssAntenna i =>
      have hget := getEquipment_eq (.gnssAntenna i) st (by simp [EquipmentLogItem.equipmentClass])
      simp only [EquipmentLogItem.equipmentClass] at hget
      simp only [create, visitGnssAntenna, hget]
      rw [getConfiguration_eq _ _ _ _ rfl]
      exact createFor_congr (.gnssAntenna i) _ _ st
  | humiditySensor i =>
      have hget :=
        getEquipment_eq (.humiditySensor i) st (by simp [EquipmentLogItem.equipmentClass])
      simp only [EquipmentLogItem.equipmentClass] at hget
      simp only [create, visitHumiditySensor, hget]
      rw [getConfiguration_eq _ _ _ _ rfl]
      exact createFor_congr (.humiditySensor i) _ _ st
  | frequencyStandard i =>
      simp only [create, visitFrequencyStandard, getClock_eq]
      rw [getConfiguration_eq _ _ _ _ rfl]
      exact createFor_congr (.frequencyStandard i) _ _ st

end EquipmentFactory

/-! ## The exact effect of placing an item -/

/-- What makes the lookups unambiguous: the keys are allocated, no item refers to two equipment
rows, none has two configurations on the same equipment, and a configuration belongs to an
equipment of its class. -/
structure Registry (st : Store) : Prop where
  equipmentKeys : Allocated (st.equipment.map (·.id)) st.nextId
  configurationKeys : Allocated (st.configurations.map (·.id)) st.nextId
  refersTo_unique : ∀ x : EquipmentLogItem, ∀ e ∈ st.equipment, ∀ e' ∈ st.equipment,
    x.refersTo e → x.refersTo e' → e = e'
  configures_unique : ∀ (x : EquipmentLogItem) (i : ℕ), ∀ c ∈ st.configurations,
    ∀ c' ∈ st.configurations, x.configures i c → x.configures i c' → c = c'
  owner : ∀ c ∈ st.configurations, ∃ e ∈ st.equipment, e.id = c.config.equipmentId ∧
    e.equipmentClass = c.config.details.equipmentClass

namespace EquipmentLogItem

/-- The key of the equipment that the item is placed with. -/
def equipmentId (x : EquipmentLogItem) (st : Store) : ℕ :=
  ((st.equipment.find? x.refersTo).map (·.id)).getD st.nextId

/-- The equipment row that placing the item appends, if any. -/
def newEquipment (x : EquipmentLogItem) (st : Store) : List Equipment :=
  if st.equipment.any x.refersTo then [] else [x.touch (x.freshEquipment st.nextId)]

/-- The next key once the equipment is there. -/
def nextConfigurationId (x : EquipmentLogItem) (st : Store) : ℕ :=
  st.nextId + (x.newEquipment st).length

/-- The key of the configuration that the item is placed with. -/
def configurationId (x : EquipmentLogItem) (st : Store) : ℕ :=
  ((st.configurations.find? (x.configures (x.equipmentId st))).map (·.id)).getD
    (x.nextConfigurationId st)

/-- The configuration row that placing the item appends, if any. -/
def newConfiguration (x : EquipmentLogItem) (st : Store) : List EquipmentConfigurationRow :=
  if st.configurations.any (x.configures (x.equipmentId st)) then []
  else [⟨x.nextConfigurationId st, ⟨x.equipmentId st, x.effectiveFrom, x.details⟩⟩]

/-- The store after the item was placed. -/
def place (x : EquipmentLogItem) (st : Store) : Store :=
  { st with
    nextId := x.nextConfigurationId st + (x.newConfiguration st).length
    equipment := st.equipment.map x.overwrite ++ x.newEquipment st
    configurations :=
      st.configurations.map (x.reconfigure (x.equipmentId st)) ++ x.newConfiguration st }

/-- The entry that placing the item adds to a setup. -/
def inUse (x : EquipmentLogItem) (st : Store) : EquipmentInUse :=
  ⟨x.equipmentId st, x.configurationId st, x.effectiveDates⟩

end EquipmentLogItem

open EquipmentFactory EquipmentLogItem

/-- Saving the equipment that was found or created. -/
lemma saveEquipment_equipmentFor {st : Store} (h : Registry st) (x : EquipmentLogItem) :
    (equipmentFor x st).1.id = x.equipmentId st ∧
    (equipmentFor x st).2.saveEquipment (x.touch (equipmentFor x st).1) =
      { st with
        nextId := x.nextConfigurationId st
        equipment := st.equipment.map x.overwrite ++ x.newEquipment st } := by
  cases hfind : st.equipment.find? x.refersTo with
  | some e =>
      have he : e ∈ st.equipment := List.mem_of_find?_eq_some hfind
      have href : x.refersTo e := List.find?_some hfind
      have hany : st.equipment.any x.refersTo = true := List.any_eq_true.mpr ⟨e, he, href⟩
      -- the row saved by key is the one the item refers to
      have hmap : ∀ r ∈ st.equipment, (if r.id = e.id then x.touch e else r) = x.overwrite r := by
        intro r hr
        by_cases hre : r = e
        · subst hre
          simp [overwrite, href]
        · have hid : r.id ≠ e.id := fun hid => hre (h.equipmentKeys.eq_of_key hr he hid)
          have hnot : x.refersTo r ≠ true := fun hx =>
            hre (h.refersTo_unique x r hr e he hx href)
          simp [overwrite, hid, hnot]
      constructor
      · simp [equipmentFor, equipmentId, hfind]
      · simpa [equipmentFor, hfind, Store.saveEquipment, newEquipment, nextConfigurationId, hany]
          using hmap
  | none =>
      have hnone : ∀ e ∈ st.equipment, ¬x.refersTo e = true := List.find?_eq_none.mp hfind
      have hany : st.equipment.any x.refersTo = false := by simpa using hnone
      have hmap : ∀ r ∈ st.equipment,
          (if r.id = st.nextId then x.touch (x.freshEquipment st.nextId) else r)
            = x.overwrite r := by
        intro r hr
        have hlt := h.equipmentKeys.lt_next r.id (List.mem_map_of_mem hr)
        simp [overwrite, hnone r hr, hlt.ne]
      constructor
      · simp [equipmentFor, equipmentId, hfind, freshEquipment]
      · simpa [equipmentFor, hfind, Store.saveEquipment, newEquipment, nextConfigurationId, hany,
          freshEquipment] using hmap

/-- **The exact effect of placing an item in a setup.** -/
theorem addEquipmentToSetup_eq {st : Store} (h : Registry st) (x : EquipmentLogItem) (s : Setup) :
    CorsSiteService.addEquipmentToSetup x s st
      = ({ s with equipmentInUse := s.equipmentInUse ++ [x.inUse st] }, x.place st) := by
  obtain ⟨hid, hsave⟩ := saveEquipment_equipmentFor h x
  have hconfigs : (equipmentFor x st).2.configurations = st.configurations := by
    simp only [equipmentFor]
    split <;> rfl
  rw [CorsSiteService.addEquipmentToSetup, create_eq]
  simp only [createFor, configurationFor, hconfigs, hid]
  cases hfind : st.configurations.find? (x.configures (x.equipmentId st)) with
  | some c =>
      have hc : c ∈ st.configurations := List.mem_of_find?_eq_some hfind
      have hconf : x.configures (x.equipmentId st) c := List.find?_some hfind
      have hany : st.configurations.any (x.configures (x.equipmentId st)) = true :=
        List.any_eq_true.mpr ⟨c, hc, hconf⟩
      have hmap : st.configurations.map
          (fun r => if r.id = c.id then ⟨c.id, { c.config with details := x.details }⟩ else r)
          = st.configurations.map (x.reconfigure (x.equipmentId st)) := by
        refine List.map_congr_left ?_
        intro r hr
        by_cases hrc : r = c
        · subst hrc
          simp [reconfigure, hconf]
        · have hid' : r.id ≠ c.id := fun hid' => hrc (h.configurationKeys.eq_of_key hr hc hid')
          have hnot : x.configures (x.equipmentId st) r ≠ true := fun hx =>
            hrc (h.configures_unique x _ r hr c hc hx hconf)
          simp [reconfigure, hid', hnot]
      simp only [hsave, Store.saveConfiguration, hmap, touch_id, hid]
      simp [inUse, configurationId, hfind, place, newConfiguration, hany]
  | none =>
      have hnone := List.find?_eq_none.mp hfind
      have hany : st.configurations.any (x.configures (x.equipmentId st)) = false := by
        simpa using hnone
      have hmap : st.configurations.map (x.reconfigure (x.equipmentId st)) = st.configurations := by
        refine (List.map_congr_left fun r hr => ?_).trans (List.map_id _)
        simp [reconfigure, hnone r hr]
      simp only [hsave, Store.saveConfiguration, touch_id, hid]
      simp [inUse, configurationId, hfind, place, newConfiguration, hany, hmap]

end Geodesy
