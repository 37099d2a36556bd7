import Geodesy.Domain.SiteLog
import Geodesy.LogItems.Fields

/-!
# Equipment among the log items

The four classes of log items that `SiteLog.getEquipmentLogItems` collects, as the services see
them: each has a type, a serial number, dates, and the columns that `EquipmentFactory` copies.  The
other fields are stored and exported, and no service reads them.

A `Double` is only copied, so here it is its bits.
-/

namespace Geodesy.LogItems

variable {δ : Type}

abbrev typeField : Field := ⟨"type", .string⟩
abbrev serialNumber : Field := ⟨"serialNumber", .string⟩
abbrev satelliteSystem : Field := ⟨"satelliteSystem", .string⟩
abbrev dateInstalled : Field := ⟨"dateInstalled", .instant⟩
abbrev dateRemoved : Field := ⟨"dateRemoved", .instant⟩
abbrev calibrationDate : Field := ⟨"calibrationDate", .instant⟩

/-- The class of the log items that describe equipment of the class. -/
abbrev logItemClass : EquipmentClass → LogItemClass
  | .gnssReceiver => .gnssReceiver
  | .gnssAntenna => .gnssAntenna
  | .humiditySensor => .humiditySensor
  | .clock => .frequencyStandard

namespace LogItem

/-- A `GnssReceiverLogItem`, through its getters. -/
def toGnssReceiver (x : LogItem δ .gnssReceiver) : GnssReceiverLogItem where
  type := x.get typeField
  satelliteSystem := x.get satelliteSystem
  serialNumber := x.get serialNumber
  firmwareVersion := x.get ⟨"firmwareVersion", .string⟩
  elevationCutoffSetting := x.get ⟨"elevationCutoffSetting", .string⟩
  temperatureStabilization := x.get ⟨"temperatureStabilization", .string⟩
  notes := x.get ⟨"notes", .string⟩
  effectiveDates := x.getEffectiveDates
  dateDeleted := x.get dateDeleted

/-- A `GnssAntennaLogItem`, through its getters. -/
def toGnssAntenna (bits : δ → Double) (x : LogItem δ .gnssAntenna) : GnssAntennaLogItem where
  type := x.get typeField
  serialNumber := x.get serialNumber
  markerArpUpEcc := (x.get ⟨"markerArpUpEcc", .double⟩).map bits
  markerArpNorthEcc := (x.get ⟨"markerArpNorthEcc", .double⟩).map bits
  markerArpEastEcc := (x.get ⟨"markerArpEastEcc", .double⟩).map bits
  alignmentFromTrueNorth := x.get ⟨"alignmentFromTrueNorth", .string⟩
  effectiveDates := x.getEffectiveDates
  dateDeleted := x.get dateDeleted

/-- A `HumiditySensorLogItem`, through its getters. -/
def toHumiditySensor (x : LogItem δ .humiditySensor) : HumiditySensorLogItem where
  type := x.get typeField
  serialNumber := x.get serialNumber
  heightDiffToAntenna := x.get ⟨"heightDiffToAntenna", .string⟩
  aspiration := x.get ⟨"aspiration", .string⟩
  effectiveDates := x.getEffectiveDates
  dateDeleted := x.get dateDeleted

/-- A `FrequencyStandardLogItem`, through its getters. -/
def toFrequencyStandard (x : LogItem δ .frequencyStandard) : FrequencyStandardLogItem where
  type := x.get typeField
  inputFrequency := x.get ⟨"inputFrequency", .string⟩
  effectiveDates := x.getEffectiveDates
  dateDeleted := x.get dateDeleted

/-- An `EquipmentLogItem`, through its getters. -/
def toEquipment (bits : δ → Double) : (k : EquipmentClass) → LogItem δ (logItemClass k) →
    EquipmentLogItem
  | .gnssReceiver, x => .gnssReceiver x.toGnssReceiver
  | .gnssAntenna, x => .gnssAntenna (x.toGnssAntenna bits)
  | .humiditySensor, x => .humiditySensor x.toHumiditySensor
  | .clock, x => .frequencyStandard x.toFrequencyStandard

section Getters

variable (bits : δ → Double) {k : EquipmentClass} (x : LogItem δ (logItemClass k))

@[simp] lemma equipmentClass_toEquipment : (x.toEquipment bits k).equipmentClass = k := by
  cases k <;> rfl

@[simp] lemma type_toEquipment : (x.toEquipment bits k).type = x.get typeField := by
  cases k <;> rfl

/-- Clocks have no serial number, and neither has a `FrequencyStandardLogItem`. -/
@[simp] lemma serialNumber_toEquipment :
    (x.toEquipment bits k).serialNumber = x.get serialNumber := by
  cases k
  case clock => exact (x.get_of_notMem serialNumber (by decide)).symm
  all_goals rfl

@[simp] lemma effectiveDates_toEquipment :
    (x.toEquipment bits k).effectiveDates = x.getEffectiveDates := by
  cases k <;> rfl

@[simp] lemma dateDeleted_toEquipment :
    (x.toEquipment bits k).dateDeleted = x.get dateDeleted := by
  cases k <;> rfl

end Getters

end LogItem

end Geodesy.LogItems
