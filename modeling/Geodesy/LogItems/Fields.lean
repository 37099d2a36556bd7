import Geodesy.Domain.EffectiveDates

/-!
# Log items and their fields

`LogItem.compareTo` reads the fields of a log item by reflection, so a log item is here what
reflection sees of it: for each field of its class and of the superclasses a value or null.  The
tables give the fields in the order of their declarations.

Reflection on an object gives the fields of its own class only (`declaredFields`).  What a class
inherits (`inheritedFields`) is also stored and exported.
-/

namespace Geodesy.LogItems

/-- `DifferentialFromMarker`. -/
structure DifferentialFromMarker (δ : Type) where
  dx : Option δ
  dy : Option δ
  dz : Option δ
  deriving DecidableEq, Repr

/-- The types of the fields. -/
inductive FieldType
  | integer
  | string
  | double
  | instant
  | effectiveDates
  | differentialFromMarker
  deriving DecidableEq, Repr

/-- The values of a type, where `δ` is `Double`. -/
abbrev FieldType.Value (δ : Type) : FieldType → Type
  | integer => ℤ
  | string => String
  | double => δ
  | instant => Instant
  | effectiveDates => EffectiveDates
  | differentialFromMarker => DifferentialFromMarker δ

/-- A field, as `java.lang.reflect.Field` gives it. -/
structure Field where
  name : String
  type : FieldType
  deriving DecidableEq, Repr

/-- The classes of the log items that are not abstract. -/
inductive LogItemClass
  | collocationInformation
  | frequencyStandard
  | gnssAntenna
  | gnssReceiver
  | humiditySensor
  | localEpisodicEffect
  | multipathSource
  | otherInstrumentation
  | pressureSensor
  | radioInterference
  | signalObstruction
  | surveyedLocalTie
  | temperatureSensor
  | waterVaporSensor
  deriving DecidableEq, Repr

/-! ## The declarations -/

/-- The embedded `effectiveDates` of the classes that have one. -/
abbrev effectiveDatesField : Field := ⟨"effectiveDates", .effectiveDates⟩

abbrev dateInserted : Field := ⟨"dateInserted", .instant⟩
abbrev dateDeleted : Field := ⟨"dateDeleted", .instant⟩
abbrev deletedReason : Field := ⟨"deletedReason", .string⟩

/-- The fields of `LogItem`. -/
def logItemFields : List Field := [dateInserted, dateDeleted, deletedReason]

/-- The fields of `SensorEquipmentLogItem`. -/
def sensorEquipmentFields : List Field :=
  [⟨"type", .string⟩, ⟨"manufacturer", .string⟩, ⟨"serialNumber", .string⟩,
    ⟨"heightDiffToAntenna", .string⟩, ⟨"calibrationDate", .instant⟩, effectiveDatesField]

/-- The fields of `PossibleProblemSourceLogItem`. -/
def possibleProblemSourceFields : List Field :=
  [⟨"possibleProblemSource", .string⟩, effectiveDatesField, ⟨"notes", .string⟩]

/-- `getDeclaredFields`: the fields that the class itself declares. -/
def declaredFields : LogItemClass → List Field
  | .collocationInformation =>
    [⟨"id", .integer⟩, ⟨"instrumentType", .string⟩, ⟨"status", .string⟩, effectiveDatesField,
      ⟨"notes", .string⟩]
  | .frequencyStandard =>
    [⟨"id", .integer⟩, ⟨"type", .string⟩, ⟨"inputFrequency", .string⟩, effectiveDatesField,
      ⟨"notes", .string⟩]
  | .gnssAntenna =>
    [⟨"id", .integer⟩, ⟨"type", .string⟩, ⟨"serialNumber", .string⟩,
      ⟨"antennaReferencePoint", .string⟩, ⟨"markerArpUpEcc", .double⟩,
      ⟨"markerArpNorthEcc", .double⟩, ⟨"markerArpEastEcc", .double⟩,
      ⟨"alignmentFromTrueNorth", .string⟩, ⟨"antennaRadomeType", .string⟩,
      ⟨"radomeSerialNumber", .string⟩, ⟨"antennaCableType", .string⟩,
      ⟨"antennaCableLength", .string⟩, ⟨"dateInstalled", .instant⟩, ⟨"dateRemoved", .instant⟩,
      ⟨"notes", .string⟩]
  | .gnssReceiver =>
    [⟨"id", .integer⟩, ⟨"type", .string⟩, ⟨"satelliteSystem", .string⟩, ⟨"serialNumber", .string⟩,
      ⟨"firmwareVersion", .string⟩, ⟨"elevationCutoffSetting", .string⟩,
      ⟨"dateInstalled", .instant⟩, ⟨"dateRemoved", .instant⟩,
      ⟨"temperatureStabilization", .string⟩, ⟨"notes", .string⟩]
  | .humiditySensor =>
    [⟨"id", .integer⟩, ⟨"dataSamplingInterval", .string⟩,
      ⟨"accuracyPercentRelativeHumidity", .string⟩, ⟨"aspiration", .string⟩, ⟨"notes", .string⟩]
  | .localEpisodicEffect => [⟨"id", .integer⟩, effectiveDatesField, ⟨"event", .string⟩]
  | .multipathSource => [⟨"id", .integer⟩]
  | .otherInstrumentation => [⟨"id", .integer⟩, ⟨"instrumentation", .string⟩, effectiveDatesField]
  | .pressureSensor =>
    [⟨"id", .integer⟩, ⟨"dataSamplingInterval", .string⟩, ⟨"accuracyHPa", .string⟩,
      ⟨"notes", .string⟩]
  | .radioInterference => [⟨"id", .integer⟩, ⟨"observedDegradation", .string⟩]
  | .signalObstruction => [⟨"id", .integer⟩]
  | .surveyedLocalTie =>
    [⟨"id", .integer⟩, ⟨"tiedMarkerName", .string⟩, ⟨"tiedMarkerUsage", .string⟩,
      ⟨"tiedMarkerCdpNumber", .string⟩, ⟨"tiedMarkerDomesNumber", .string⟩,
      ⟨"differentialFromMarker", .differentialFromMarker⟩, ⟨"localSiteTieAccuracy", .string⟩,
      ⟨"surveyMethod", .string⟩, ⟨"dateMeasured", .instant⟩, ⟨"notes", .string⟩]
  | .temperatureSensor =>
    [⟨"id", .integer⟩, ⟨"dataSamplingInterval", .string⟩, ⟨"accuracyDegreesCelcius", .string⟩,
      ⟨"aspiration", .string⟩, ⟨"notes", .string⟩]
  | .waterVaporSensor => [⟨"id", .integer⟩, ⟨"distanceToAntenna", .double⟩, ⟨"notes", .string⟩]

/-- The fields of the superclasses. -/
def inheritedFields : LogItemClass → List Field
  | .humiditySensor | .pressureSensor | .temperatureSensor | .waterVaporSensor =>
    sensorEquipmentFields ++ logItemFields
  | .multipathSource | .radioInterference | .signalObstruction =>
    possibleProblemSourceFields ++ logItemFields
  | _ => logItemFields

/-- All the fields of an object of the class. -/
def allFields (c : LogItemClass) : List Field := declaredFields c ++ inheritedFields c

/-- No class hides a field of a superclass. -/
lemma nodup_name_allFields (c : LogItemClass) : ((allFields c).map (·.name)).Nodup := by
  cases c <;> decide

/-! ## Log items -/

/-- An object of a class of log items.  `none` is null, and the fields of the other classes are
not there. -/
structure LogItem (δ : Type) (c : LogItemClass) where
  get : (f : Field) → Option (f.type.Value δ)
  get_of_notMem : ∀ f, f ∉ allFields c → get f = none

namespace LogItem

variable {δ : Type} {c : LogItemClass}

/-- An object from values for its fields. -/
def ofValues (c : LogItemClass) (values : (f : Field) → Option (f.type.Value δ)) : LogItem δ c where
  get f := if f ∈ allFields c then values f else none
  get_of_notMem _ hf := if_neg hf

lemma get_ofValues {values : (f : Field) → Option (f.type.Value δ)} {f : Field}
    (hf : f ∈ allFields c) : (ofValues c values).get f = values f := if_pos hf

/-- A setter. -/
def set (x : LogItem δ c) (f : Field) (value : Option (f.type.Value δ)) : LogItem δ c :=
  ofValues c fun g => if h : f = g then h ▸ value else x.get g

lemma get_set_self (x : LogItem δ c) {f : Field} (hf : f ∈ allFields c)
    (value : Option (f.type.Value δ)) : (x.set f value).get f = value := by
  rw [set, get_ofValues hf, dif_pos rfl]

lemma get_set_of_ne (x : LogItem δ c) {f g : Field} (h : f ≠ g) (value : Option (f.type.Value δ)) :
    (x.set f value).get g = x.get g := by
  by_cases hg : g ∈ allFields c
  · rw [set, get_ofValues hg, dif_neg h]
  · rw [x.get_of_notMem g hg, (x.set f value).get_of_notMem g hg]

/-- `getEffectiveDates` of each class. -/
def getEffectiveDates (x : LogItem δ c) : Option EffectiveDates :=
  match c with
  | .gnssAntenna | .gnssReceiver =>
    some ⟨x.get ⟨"dateInstalled", .instant⟩, x.get ⟨"dateRemoved", .instant⟩⟩
  | .surveyedLocalTie =>
    some ⟨x.get ⟨"dateMeasured", .instant⟩, x.get ⟨"dateMeasured", .instant⟩⟩
  | _ => x.get effectiveDatesField

/-- Where there is a field `effectiveDates`, it is what `getEffectiveDates` returns. -/
lemma getEffectiveDates_of_mem (x : LogItem δ c) (hc : effectiveDatesField ∈ allFields c) :
    x.getEffectiveDates = x.get effectiveDatesField := by
  cases c
  case gnssAntenna => exact absurd hc (by decide)
  case gnssReceiver => exact absurd hc (by decide)
  case surveyedLocalTie => exact absurd hc (by decide)
  all_goals rfl

end LogItem

end Geodesy.LogItems
