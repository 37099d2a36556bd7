import Geodesy.Domain.EffectiveDates
import Mathlib.Data.List.Perm.Basic

/-!
# Site logs and their equipment items

The part of a `SiteLog` that the services read: the site identification and the four sets of
equipment items.  The sets are hash sets of objects with identity hash codes, so a log is modelled
with lists that stand for *one iteration order*; `SiteLog.Iterates` relates two iteration orders of
the same log, and a `LoadOrder` is any way of iterating over the logs that are read back.
-/

namespace Geodesy

/-- A `java.lang.Double` that is only copied, never computed with: its 64 bits. -/
abbrev Double := BitVec 64

/-- The four equipment classes, each with its own configuration class. -/
inductive EquipmentClass
  | gnssReceiver
  | gnssAntenna
  | humiditySensor
  | clock
  deriving DecidableEq, Repr

/-! ## Configurations

What a `visit` method of the equipment factory copies from a log item into the configuration row.
The columns that no method writes are left out.
-/

/-- `GnssReceiverConfiguration`.  The misspelt setter is the source's. -/
structure GnssReceiverConfiguration where
  satelliteSystem : Option String
  firmwareVersion : Option String
  elevetionCutoffSetting : Option String
  temperatureStabilization : Option String
  notes : Option String
  deriving DecidableEq, Repr

/-- `GnssAntennaConfiguration`. -/
structure GnssAntennaConfiguration where
  alignmentFromTrueNorth : Option String
  markerArpUpEccentricity : Option Double
  markerArpNorthEccentricity : Option Double
  markerArpEastEccentricity : Option Double
  deriving DecidableEq, Repr

/-- `HumiditySensorConfiguration`. -/
structure HumiditySensorConfiguration where
  heightDiffToAntenna : Option String
  deriving DecidableEq, Repr

/-- `ClockConfiguration`. -/
structure ClockConfiguration where
  inputFrequency : Option String
  deriving DecidableEq, Repr

/-- The columns of the joined configuration table, one constructor for each subclass. -/
inductive ConfigurationDetails
  | gnssReceiver (c : GnssReceiverConfiguration)
  | gnssAntenna (c : GnssAntennaConfiguration)
  | humiditySensor (c : HumiditySensorConfiguration)
  | clock (c : ClockConfiguration)
  deriving DecidableEq, Repr

/-- The equipment class whose configuration class this is. -/
def ConfigurationDetails.equipmentClass : ConfigurationDetails → EquipmentClass
  | gnssReceiver _ => .gnssReceiver
  | gnssAntenna _ => .gnssAntenna
  | humiditySensor _ => .humiditySensor
  | clock _ => .clock

/-! ## Log items -/

/-- `GnssReceiverLogItem`. -/
structure GnssReceiverLogItem where
  type : Option String
  satelliteSystem : Option String
  serialNumber : Option String
  firmwareVersion : Option String
  elevationCutoffSetting : Option String
  temperatureStabilization : Option String
  notes : Option String
  effectiveDates : Option EffectiveDates
  dateDeleted : Option Instant
  deriving DecidableEq, Repr

/-- `GnssAntennaLogItem`. -/
structure GnssAntennaLogItem where
  type : Option String
  serialNumber : Option String
  markerArpUpEcc : Option Double
  markerArpNorthEcc : Option Double
  markerArpEastEcc : Option Double
  alignmentFromTrueNorth : Option String
  effectiveDates : Option EffectiveDates
  dateDeleted : Option Instant
  deriving DecidableEq, Repr

/-- `HumiditySensorLogItem`. -/
structure HumiditySensorLogItem where
  type : Option String
  serialNumber : Option String
  heightDiffToAntenna : Option String
  aspiration : Option String
  effectiveDates : Option EffectiveDates
  dateDeleted : Option Instant
  deriving DecidableEq, Repr

/-- `FrequencyStandardLogItem`.  It has no serial number: `getSerialNumber` returns null. -/
structure FrequencyStandardLogItem where
  type : Option String
  inputFrequency : Option String
  effectiveDates : Option EffectiveDates
  dateDeleted : Option Instant
  deriving DecidableEq, Repr

/-- `EquipmentLogItem`, with its four subclasses. -/
inductive EquipmentLogItem
  | gnssReceiver (i : GnssReceiverLogItem)
  | gnssAntenna (i : GnssAntennaLogItem)
  | humiditySensor (i : HumiditySensorLogItem)
  | frequencyStandard (i : FrequencyStandardLogItem)
  deriving DecidableEq, Repr

namespace EquipmentLogItem

/-- The class of the equipment that a log item describes. -/
def equipmentClass : EquipmentLogItem → EquipmentClass
  | gnssReceiver _ => .gnssReceiver
  | gnssAntenna _ => .gnssAntenna
  | humiditySensor _ => .humiditySensor
  | frequencyStandard _ => .clock

/-- `EquipmentLogItem.getType`. -/
def type : EquipmentLogItem → Option String
  | gnssReceiver i => i.type
  | gnssAntenna i => i.type
  | humiditySensor i => i.type
  | frequencyStandard i => i.type

/-- `EquipmentLogItem.getSerialNumber`. -/
def serialNumber : EquipmentLogItem → Option String
  | gnssReceiver i => i.serialNumber
  | gnssAntenna i => i.serialNumber
  | humiditySensor i => i.serialNumber
  | frequencyStandard _ => none

/-- `LogItem.getEffectiveDates`. -/
def effectiveDates : EquipmentLogItem → Option EffectiveDates
  | gnssReceiver i => i.effectiveDates
  | gnssAntenna i => i.effectiveDates
  | humiditySensor i => i.effectiveDates
  | frequencyStandard i => i.effectiveDates

/-- `LogItem.getDateDeleted`. -/
def dateDeleted : EquipmentLogItem → Option Instant
  | gnssReceiver i => i.dateDeleted
  | gnssAntenna i => i.dateDeleted
  | humiditySensor i => i.dateDeleted
  | frequencyStandard i => i.dateDeleted

/-- The `from` of an item, null when the item has no dates. -/
def effectiveFrom (x : EquipmentLogItem) : Option Instant := EffectiveDates.getFrom x.effectiveDates

/-- The `to` of an item, null when the item has no dates. -/
def effectiveTo (x : EquipmentLogItem) : Option Instant := EffectiveDates.getTo x.effectiveDates

/-- The item as its row reads back.  Of two null columns a receiver and an antenna make dates with
two nulls, not null as here; the entry of such an item has the same columns, and the item is never
found again, either way. -/
def reload : EquipmentLogItem → EquipmentLogItem
  | gnssReceiver i =>
    gnssReceiver { i with effectiveDates := EffectiveDates.reload i.effectiveDates }
  | gnssAntenna i =>
    gnssAntenna { i with effectiveDates := EffectiveDates.reload i.effectiveDates }
  | humiditySensor i =>
    humiditySensor { i with effectiveDates := EffectiveDates.reload i.effectiveDates }
  | frequencyStandard i =>
    frequencyStandard { i with effectiveDates := EffectiveDates.reload i.effectiveDates }

@[simp] lemma effectiveDates_reload (x : EquipmentLogItem) :
    x.reload.effectiveDates = EffectiveDates.reload x.effectiveDates := by
  cases x <;> rfl

@[simp] lemma effectiveFrom_reload (x : EquipmentLogItem) :
    x.reload.effectiveFrom = x.effectiveFrom := by
  simp [effectiveFrom]

@[simp] lemma effectiveTo_reload (x : EquipmentLogItem) : x.reload.effectiveTo = x.effectiveTo := by
  simp [effectiveTo]

@[simp] lemma dateDeleted_reload (x : EquipmentLogItem) : x.reload.dateDeleted = x.dateDeleted := by
  cases x <;> rfl

@[simp] lemma equipmentClass_reload (x : EquipmentLogItem) :
    x.reload.equipmentClass = x.equipmentClass := by
  cases x <;> rfl

end EquipmentLogItem

/-! ## The log -/

/-- The part of `SiteIdentification` that is copied to the CORS site. -/
structure SiteIdentification where
  fourCharacterId : String
  siteName : Option String
  iersDOMESNumber : Option String
  dateInstalled : Option Instant
  monumentDescription : Option String
  heightOfMonument : Option String
  monumentFoundation : Option String
  markerDescription : Option String
  deriving DecidableEq, Repr

/-- `SiteLog`.  A log without a four character id is left out: `SITE_LOG_RECEIVED.FOUR_CHAR_ID` is
not nullable, so its upload throws and is rolled back. -/
structure SiteLog where
  siteIdentification : SiteIdentification
  gnssReceivers : List GnssReceiverLogItem
  gnssAntennas : List GnssAntennaLogItem
  humiditySensors : List HumiditySensorLogItem
  frequencyStandards : List FrequencyStandardLogItem
  siteLogText : String
  deriving DecidableEq, Repr

namespace SiteLog

/-- The id under which a log is stored. -/
def fourCharacterId (l : SiteLog) : String := l.siteIdentification.fourCharacterId

/-- `SiteLog.getEquipmentLogItems`: receivers, antennas, humidity sensors, frequency standards. -/
def getEquipmentLogItems (l : SiteLog) : List EquipmentLogItem :=
  l.gnssReceivers.map .gnssReceiver ++ l.gnssAntennas.map .gnssAntenna
    ++ l.humiditySensors.map .humiditySensor ++ l.frequencyStandards.map .frequencyStandard

/-- The items that were not deleted, as `CorsSiteService.getSetups` filters them. -/
def equipmentLogItems (l : SiteLog) : List EquipmentLogItem :=
  l.getEquipmentLogItems.filter (·.dateDeleted = none)

/-- The log as its rows read back: the embedded dates of an item with two null columns are null (for
receivers and antennas see `EquipmentLogItem.reload`). -/
def reload (l : SiteLog) : SiteLog :=
  { l with
    gnssReceivers := l.gnssReceivers.map fun i =>
      { i with effectiveDates := EffectiveDates.reload i.effectiveDates }
    gnssAntennas := l.gnssAntennas.map fun i =>
      { i with effectiveDates := EffectiveDates.reload i.effectiveDates }
    humiditySensors := l.humiditySensors.map fun i =>
      { i with effectiveDates := EffectiveDates.reload i.effectiveDates }
    frequencyStandards := l.frequencyStandards.map fun i =>
      { i with effectiveDates := EffectiveDates.reload i.effectiveDates } }

/-- `l'` lists the item sets of `l` in some iteration order. -/
structure Iterates (l' l : SiteLog) : Prop where
  siteIdentification : l'.siteIdentification = l.siteIdentification
  gnssReceivers : l'.gnssReceivers.Perm l.gnssReceivers
  gnssAntennas : l'.gnssAntennas.Perm l.gnssAntennas
  humiditySensors : l'.humiditySensors.Perm l.humiditySensors
  frequencyStandards : l'.frequencyStandards.Perm l.frequencyStandards
  siteLogText : l'.siteLogText = l.siteLogText

lemma Iterates.refl (l : SiteLog) : l.Iterates l :=
  ⟨rfl, .refl _, .refl _, .refl _, .refl _, rfl⟩

lemma Iterates.symm {l l' : SiteLog} (h : l'.Iterates l) : l.Iterates l' :=
  ⟨h.1.symm, h.2.symm, h.3.symm, h.4.symm, h.5.symm, h.6.symm⟩

lemma Iterates.trans {l l' l'' : SiteLog} (h : l''.Iterates l') (h' : l'.Iterates l) :
    l''.Iterates l :=
  ⟨h.1.trans h'.1, h.2.trans h'.2, h.3.trans h'.3, h.4.trans h'.4, h.5.trans h'.5, h.6.trans h'.6⟩

/-- The iteration order permutes the items. -/
lemma Iterates.perm_getEquipmentLogItems {l l' : SiteLog} (h : l'.Iterates l) :
    l'.getEquipmentLogItems.Perm l.getEquipmentLogItems :=
  (((h.gnssReceivers.map _).append (h.gnssAntennas.map _)).append
    (h.humiditySensors.map _)).append (h.frequencyStandards.map _)

lemma Iterates.perm_equipmentLogItems {l l' : SiteLog} (h : l'.Iterates l) :
    l'.equipmentLogItems.Perm l.equipmentLogItems :=
  h.perm_getEquipmentLogItems.filter _

/-- Reading a log back reads its items back. -/
lemma equipmentLogItems_reload (l : SiteLog) :
    l.reload.equipmentLogItems = l.equipmentLogItems.map EquipmentLogItem.reload := by
  have hitems : l.reload.getEquipmentLogItems
      = l.getEquipmentLogItems.map EquipmentLogItem.reload := by
    simp [getEquipmentLogItems, reload, EquipmentLogItem.reload, Function.comp_def]
  rw [equipmentLogItems, hitems, List.filter_map, equipmentLogItems]
  simp [Function.comp_def]

@[simp] lemma fourCharacterId_reload (l : SiteLog) : l.reload.fourCharacterId = l.fourCharacterId :=
  rfl

end SiteLog

/-- The iteration orders of the item sets of the logs that are read back. -/
structure LoadOrder where
  load : SiteLog → SiteLog
  load_iterates : ∀ l, (load l).Iterates l

/-- The items as they are listed. -/
def LoadOrder.asListed : LoadOrder := ⟨id, SiteLog.Iterates.refl⟩

end Geodesy
