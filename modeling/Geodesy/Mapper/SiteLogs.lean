import Geodesy.LogItems.Equipment
import Geodesy.Mapper.LogItems
import Geodesy.Mapper.StringToList

/-!
# Site logs in GeodesyML

`SiteLogMapper` makes a `SiteLog` of a `SiteLogType` and back, with the class maps of
`GenericMapper.init`.  Here are the site identification and the four kinds of equipment, each with
the lines of its class map and its customization.  What Orika does with the fields that a class map
has no line for (`byDefault`) is a parameter, and so are the other parts of a log with the mappers
that they have (`SiteLocationMapper`, `ResponsiblePartiesMapper` and so on), which no service reads;
it is enough that what was written can be read.

Of a log that was written and read again the services see the same equipment
(`exists_toEntity`): the same types and serial numbers, and the same dates in whole milliseconds.
-/

namespace Geodesy.Mapper

open LogItems

variable {δ R T : Type} {c : LogItemClass}

/-! ## Codes and dates -/

/-- `CodeListValueType`. -/
structure CodeListValueType where
  codeSpace : String
  codeList : String
  codeListValue : String
  value : String
  deriving DecidableEq, Repr

namespace StringToCodeListValueConverter

/-- `StringToCodeListValueConverter.convertTo`. -/
def convertTo (codeSpace codeList str : String) : CodeListValueType :=
  ⟨codeSpace, codeList, str, str⟩

/-- `StringToCodeListValueConverter.convertFrom`. -/
def convertFrom (code : CodeListValueType) : String := code.value

end StringToCodeListValueConverter

/-- `StringToCodeTypeConverter.convertTo`, and `StringToCodeWithAuthorityTypeConverter.convertTo`,
whose type has the same fields. -/
def codeOf (codeSpace str : String) : CodeType := (stringToCodeType codeSpace str).1

/-- A date, and then the customization that writes null as an unknown position. -/
def writeDateOrUnknown (date : Option Instant) :
    Except ConversionException (Option TimePositionType) := do
  let time ← writeDate date
  return if date = none then some unknownPosition else time

/-- Effective dates, through `validTimeConverter`. -/
def writeValidTime (dates : Option EffectiveDates) :
    Except ConversionException (Option TimePeriodType) :=
  mapField (fun dates => (TimePeriodType.mapBtoA dates).map some) dates

/-- A valid time, through `validTimeConverter`. -/
def readValidTime (period : Option TimePeriodType) :
    Except ConversionException (Option EffectiveDates) :=
  mapField (fun period => period.mapAtoB.map some) period

/-! ## Elements -/

/-- What a class map does with the fields that it has no line for, or with a part of a log that has
a mapper of its own.  It is assumed that what was written can be read. -/
structure ByDefault (I R : Type) where
  write : I → Except ConversionException R
  read : R → Except ConversionException I
  reads : ∀ x r, write x = .ok r → ∃ y, read r = .ok y

/-- The mapper of an element, either way of which may throw. -/
structure ElementMapper (T δ : Type) (c : LogItemClass) where
  toB : T → Except ConversionException (LogItem δ c)
  fromB : LogItem δ c → Except ConversionException T

/-- `GnssReceiverType`. -/
structure GnssReceiverType (R : Type) where
  igsModelCode : Option CodeListValueType
  manufacturerSerialNumber : Option String
  satelliteSystem : List CodeType
  dateInstalled : Option TimePositionType
  dateRemoved : Option TimePositionType
  others : R

/-- `GnssAntennaType`. -/
structure GnssAntennaType (R : Type) where
  igsModelCode : Option CodeListValueType
  manufacturerSerialNumber : Option String
  antennaRadomeType : Option CodeType
  antennaReferencePoint : Option CodeType
  dateInstalled : Option TimePositionType
  dateRemoved : Option TimePositionType
  others : R

/-- `HumiditySensorType`. -/
structure HumiditySensorType (R : Type) where
  type : Option CodeType
  serialNumber : Option String
  calibrationDate : Option TimePositionType
  validTime : Option TimePeriodType
  others : R

/-- `FrequencyStandardType`. -/
structure FrequencyStandardType (R : Type) where
  standardType : Option CodeType
  validTime : Option TimePeriodType
  others : R

/-- The code space of the models of receivers and antennas. -/
def rcvrAntTab : String := "https://igscb.jpl.nasa.gov/igscb/station/general/rcvr_ant.tab"

/-- The code list of the models of receivers. -/
def receiverTypeCodes : String :=
  "http://xml.gov.au/icsm/geodesyml/codelists/" ++
    "antenna-receiver-codelists.xml#GeodesyML_GNSSReceiverTypeCode"

/-- The code list of the models of antennas. -/
def antennaTypeCodes : String :=
  "http://xml.gov.au/icsm/geodesyml/codelists/" ++
    "antenna-receiver-codelists.xml#GeodesyML_GNSSAntennaTypeCode"

/-- `GnssReceiverMapper`, with the class map of `GnssReceiverLogItem` and `GnssReceiverType`. -/
def gnssReceiverMapper (others : ByDefault (LogItem δ .gnssReceiver) R) :
    ElementMapper (GnssReceiverType R) δ .gnssReceiver where
  fromB x := do
    let rest ← others.write x
    let installed ← writeDateOrUnknown (x.get dateInstalled)
    let removed ← writeDateOrUnknown (x.get dateRemoved)
    return {
      igsModelCode := (x.get typeField).map
        (StringToCodeListValueConverter.convertTo rcvrAntTab receiverTypeCodes)
      manufacturerSerialNumber := x.get serialNumber
      satelliteSystem := ((x.get satelliteSystem).map
        (convertTo (codeOf "eGeodesy/satelliteSystem"))).getD []
      dateInstalled := installed
      dateRemoved := removed
      others := rest }
  toB t := do
    let x ← others.read t.others
    let installed ← readDate t.dateInstalled
    let removed ← readDate t.dateRemoved
    return ((((x.set typeField (t.igsModelCode.map StringToCodeListValueConverter.convertFrom)).set
      serialNumber t.manufacturerSerialNumber).set
      satelliteSystem (convertFrom CodeType.value t.satelliteSystem)).set
      dateInstalled installed).set dateRemoved removed

/-- `GnssAntennaMapper`, with the class map of `GnssAntennaLogItem` and `GnssAntennaType`. -/
def gnssAntennaMapper (others : ByDefault (LogItem δ .gnssAntenna) R) :
    ElementMapper (GnssAntennaType R) δ .gnssAntenna where
  fromB x := do
    let rest ← others.write x
    let installed ← writeDateOrUnknown (x.get dateInstalled)
    let removed ← writeDateOrUnknown (x.get dateRemoved)
    return {
      igsModelCode := (x.get typeField).map
        (StringToCodeListValueConverter.convertTo rcvrAntTab antennaTypeCodes)
      manufacturerSerialNumber := x.get serialNumber
      antennaRadomeType := (x.get ⟨"antennaRadomeType", .string⟩).map
        (codeOf "eGeodesy/antennaRadomeType")
      antennaReferencePoint := (x.get ⟨"antennaReferencePoint", .string⟩).map
        (codeOf "eGeodesy/antennaReferencePoint")
      dateInstalled := installed
      dateRemoved := removed
      others := rest }
  toB t := do
    let x ← others.read t.others
    let installed ← readDate t.dateInstalled
    let removed ← readDate t.dateRemoved
    return (((((x.set typeField (t.igsModelCode.map StringToCodeListValueConverter.convertFrom)).set
      serialNumber t.manufacturerSerialNumber).set
      ⟨"antennaRadomeType", .string⟩ (t.antennaRadomeType.map CodeType.value)).set
      ⟨"antennaReferencePoint", .string⟩ (t.antennaReferencePoint.map CodeType.value)).set
      dateInstalled installed).set dateRemoved removed

/-- `HumiditySensorMapper`, with the class maps of `HumiditySensorType` and
`BaseSensorEquipmentType`. -/
def humiditySensorMapper (others : ByDefault (LogItem δ .humiditySensor) R) :
    ElementMapper (HumiditySensorType R) δ .humiditySensor where
  fromB x := do
    let rest ← others.write x
    let calibration ← writeDateOrUnknown (x.get calibrationDate)
    let validTime ← writeValidTime (x.get effectiveDatesField)
    return {
      type := (x.get typeField).map (codeOf "eGeodesy/type")
      serialNumber := x.get serialNumber
      calibrationDate := calibration
      validTime := validTime
      others := rest }
  toB t := do
    let x ← others.read t.others
    let calibration ← readDate t.calibrationDate
    let dates ← readValidTime t.validTime
    return (((x.set typeField (t.type.map CodeType.value)).set serialNumber t.serialNumber).set
      calibrationDate calibration).set effectiveDatesField dates

/-- `FrequencyStandardMapper`, with the class map of `FrequencyStandardType`. -/
def frequencyStandardMapper (others : ByDefault (LogItem δ .frequencyStandard) R) :
    ElementMapper (FrequencyStandardType R) δ .frequencyStandard where
  fromB x := do
    let rest ← others.write x
    let validTime ← writeValidTime (x.get effectiveDatesField)
    return {
      standardType := (x.get typeField).map (codeOf "eGeodesy/frequencyStandardType")
      validTime := validTime
      others := rest }
  toB t := do
    let x ← others.read t.others
    let dates ← readValidTime t.validTime
    return (x.set typeField (t.standardType.map CodeType.value)).set effectiveDatesField dates

namespace ElementMapper

/-- `LogItemPropertyTypeMapper.to`. -/
def toLogItem (m : ElementMapper T δ c) (p : LogItemPropertyType T) :
    Except ConversionException (LogItem δ c) := do
  let x ← m.toB p.targetElement
  LogItemPropertyTypeMapper.mapAtoB p x

/-- `LogItemPropertyTypeMapper.from`. -/
def fromLogItem (m : ElementMapper T δ c) (x : LogItem δ c) :
    Except ConversionException (LogItemPropertyType T) := do
  let t ← m.fromB x
  LogItemPropertyTypeMapper.mapBtoA x (GMLPropertyTypeMapper.fromB t)

/-- `ListToSet.to`, the objects of the set. -/
def toItems (m : ElementMapper T δ c) (list : List (LogItemPropertyType T)) :
    Except ConversionException (List (LogItem δ c)) := do
  let items ← list.mapM m.toLogItem
  return (toSet (allocate items)).map (·.object)

/-- `ListToSet.from`, where the objects of the set are iterated in the order of the list. -/
def fromItems [LinearOrder δ] (m : ElementMapper T δ c) (set : List (LogItem δ c)) :
    Except ConversionException (List (LogItemPropertyType T)) :=
  (ListToSet.fromSet m.fromLogItem set).mapM id

end ElementMapper

/-! ## What is read back -/

open InstantToTimePositionConverter in
/-- A date that was written is read back in whole milliseconds. -/
lemma readDate_of_writeDate {date : Option Instant} {time : Option TimePositionType}
    (h : writeDate date = .ok time) : readDate time = .ok (date.map truncatedToMillis) := by
  rcases date with _ | i
  · cases h
    rfl
  · rw [writeDate, mapField] at h
    by_cases hyear : ValidYear (yearOf i)
    · obtain ⟨time', hto, hfrom⟩ := convertFrom_convertTo hyear
      rw [hto] at h
      cases h
      exact hfrom
    · rw [convertTo_error hyear] at h
      cases h

lemma readDate_of_writeDateOrUnknown {date : Option Instant} {time : Option TimePositionType}
    (h : writeDateOrUnknown date = .ok time) :
    readDate time = .ok (date.map truncatedToMillis) := by
  obtain ⟨time', htime', h⟩ := Except.bind_eq_ok_iff.mp h
  cases h
  rcases date with _ | i
  · rfl
  · exact readDate_of_writeDate htime'

/-- A date that is read is in whole milliseconds. -/
lemma map_truncatedToMillis_of_readDate {time : Option TimePositionType} {date : Option Instant}
    (h : readDate time = .ok date) : date.map truncatedToMillis = date := by
  rcases date with _ | ⟨seconds, nanos, hnanos⟩
  · rfl
  · rcases time with _ | time
    · cases h
    · have hmillis : nanos % 1000000 = 0 := nanos_of_convertFrom h
      simp only [Option.map_some, truncatedToMillis, Option.some.injEq, Instant.mk.injEq, true_and]
      omega

/-- Effective dates, in whole milliseconds. -/
def toMillis (dates : EffectiveDates) : EffectiveDates :=
  ⟨dates.effectiveFrom.map truncatedToMillis, dates.effectiveTo.map truncatedToMillis⟩

/-- The customization of the class map is that of each of its two fields. -/
lemma mapBtoA_eq (dates : EffectiveDates) : TimePeriodType.mapBtoA dates = (do
    let beginPosition ← writeDateOrUnknown dates.effectiveFrom
    let endPosition ← writeDateOrUnknown dates.effectiveTo
    return ⟨beginPosition, endPosition⟩) := by
  unfold TimePeriodType.mapBtoA writeDateOrUnknown
  rcases writeDate dates.effectiveFrom with _ | beginPosition
  · rfl
  · rcases writeDate dates.effectiveTo with _ | endPosition
    · rfl
    · rcases dates with ⟨_ | _, _ | _⟩ <;> rfl

lemma readValidTime_of_writeValidTime {dates : Option EffectiveDates}
    {period : Option TimePeriodType} (h : writeValidTime dates = .ok period) :
    readValidTime period = .ok (dates.map toMillis) := by
  rcases dates with _ | dates
  · cases h
    rfl
  · obtain ⟨written, hwritten, h⟩ := Except.bind_eq_ok_iff.mp h
    cases h
    rw [mapBtoA_eq] at hwritten
    obtain ⟨beginPosition, hbegin, hwritten⟩ := Except.bind_eq_ok_iff.mp hwritten
    obtain ⟨endPosition, hend, hwritten⟩ := Except.bind_eq_ok_iff.mp hwritten
    cases hwritten
    simp only [readValidTime, mapField, TimePeriodType.mapAtoB,
      readDate_of_writeDateOrUnknown hbegin, readDate_of_writeDateOrUnknown hend]
    rfl

lemma map_toMillis_of_readValidTime {period : Option TimePeriodType}
    {dates : Option EffectiveDates} (h : readValidTime period = .ok dates) :
    dates.map toMillis = dates := by
  rcases period with _ | period
  · cases h
    rfl
  · obtain ⟨read, hread, h⟩ := Except.bind_eq_ok_iff.mp h
    cases h
    obtain ⟨effectiveFrom, hfrom, hread⟩ := Except.bind_eq_ok_iff.mp hread
    obtain ⟨effectiveTo, hto, hread⟩ := Except.bind_eq_ok_iff.mp hread
    cases hread
    simp only [Option.map_some, toMillis, map_truncatedToMillis_of_readDate hfrom,
      map_truncatedToMillis_of_readDate hto]

/-! ## Elements -/

/-- What the services see of an item, in whole milliseconds, is what they see of the other. -/
structure SameItem (x y : LogItem δ c) : Prop where
  type : y.get typeField = x.get typeField
  serialNumber : y.get serialNumber = x.get serialNumber
  effectiveDates : y.getEffectiveDates = x.getEffectiveDates.map toMillis

/-- The mapper reads back what the services see of an item, and reads dates in whole
milliseconds. -/
structure ElementMapper.Faithful (m : ElementMapper T δ c) : Prop where
  restores : ∀ x t, m.fromB x = .ok t → ∃ y, m.toB t = .ok y ∧ SameItem x y
  reads : ∀ t y, m.toB t = .ok y → y.getEffectiveDates.map toMillis = y.getEffectiveDates

/-- What was written by default can be read, and then the two fields `a` and `b`. -/
lemma ByDefault.exists_read {I A B J : Type} (others : ByDefault I R) {x : I} {rest : R}
    (h : others.write x = .ok rest) {readA : Except ConversionException A} {a : A}
    (ha : readA = .ok a) {readB : Except ConversionException B} {b : B} (hb : readB = .ok b)
    (f : I → A → B → J) : ∃ y, (do
      let y ← others.read rest
      let a ← readA
      let b ← readB
      return f y a b) = Except.ok (f y a b) := by
  obtain ⟨y, hy⟩ := others.reads x rest h
  exact ⟨y, Except.bind_eq_ok_iff.mpr ⟨y, hy, Except.bind_eq_ok_iff.mpr
    ⟨a, ha, Except.bind_eq_ok_iff.mpr ⟨b, hb, rfl⟩⟩⟩⟩

lemma gnssReceiverMapper_faithful (others : ByDefault (LogItem δ .gnssReceiver) R) :
    (gnssReceiverMapper others).Faithful where
  restores x t h := by
    obtain ⟨rest, hrest, h⟩ := Except.bind_eq_ok_iff.mp h
    obtain ⟨installed, hinstalled, h⟩ := Except.bind_eq_ok_iff.mp h
    obtain ⟨removed, hremoved, h⟩ := Except.bind_eq_ok_iff.mp h
    cases h
    obtain ⟨y, hy⟩ := others.exists_read hrest (readDate_of_writeDateOrUnknown hinstalled)
      (readDate_of_writeDateOrUnknown hremoved) _
    refine ⟨_, hy, ?_, ?_, ?_⟩
    · simp (disch := decide) only [LogItem.get_set_self, LogItem.get_set_of_ne]
      rcases x.get typeField with _ | type <;> rfl
    · simp (disch := decide) only [LogItem.get_set_self, LogItem.get_set_of_ne]
    · simp (disch := decide) only [LogItem.getEffectiveDates, LogItem.get_set_self,
        LogItem.get_set_of_ne]
      rfl
  reads t y h := by
    obtain ⟨x, -, h⟩ := Except.bind_eq_ok_iff.mp h
    obtain ⟨installed, hinstalled, h⟩ := Except.bind_eq_ok_iff.mp h
    obtain ⟨removed, hremoved, h⟩ := Except.bind_eq_ok_iff.mp h
    cases h
    simp (disch := decide) only [LogItem.getEffectiveDates, LogItem.get_set_self,
      LogItem.get_set_of_ne, Option.map_some, toMillis,
      map_truncatedToMillis_of_readDate hinstalled, map_truncatedToMillis_of_readDate hremoved]

lemma gnssAntennaMapper_faithful (others : ByDefault (LogItem δ .gnssAntenna) R) :
    (gnssAntennaMapper others).Faithful where
  restores x t h := by
    obtain ⟨rest, hrest, h⟩ := Except.bind_eq_ok_iff.mp h
    obtain ⟨installed, hinstalled, h⟩ := Except.bind_eq_ok_iff.mp h
    obtain ⟨removed, hremoved, h⟩ := Except.bind_eq_ok_iff.mp h
    cases h
    obtain ⟨y, hy⟩ := others.exists_read hrest (readDate_of_writeDateOrUnknown hinstalled)
      (readDate_of_writeDateOrUnknown hremoved) _
    refine ⟨_, hy, ?_, ?_, ?_⟩
    · simp (disch := decide) only [LogItem.get_set_self, LogItem.get_set_of_ne]
      rcases x.get typeField with _ | type <;> rfl
    · simp (disch := decide) only [LogItem.get_set_self, LogItem.get_set_of_ne]
    · simp (disch := decide) only [LogItem.getEffectiveDates, LogItem.get_set_self,
        LogItem.get_set_of_ne]
      rfl
  reads t y h := by
    obtain ⟨x, -, h⟩ := Except.bind_eq_ok_iff.mp h
    obtain ⟨installed, hinstalled, h⟩ := Except.bind_eq_ok_iff.mp h
    obtain ⟨removed, hremoved, h⟩ := Except.bind_eq_ok_iff.mp h
    cases h
    simp (disch := decide) only [LogItem.getEffectiveDates, LogItem.get_set_self,
      LogItem.get_set_of_ne, Option.map_some, toMillis,
      map_truncatedToMillis_of_readDate hinstalled, map_truncatedToMillis_of_readDate hremoved]

lemma humiditySensorMapper_faithful (others : ByDefault (LogItem δ .humiditySensor) R) :
    (humiditySensorMapper others).Faithful where
  restores x t h := by
    obtain ⟨rest, hrest, h⟩ := Except.bind_eq_ok_iff.mp h
    obtain ⟨calibration, hcalibration, h⟩ := Except.bind_eq_ok_iff.mp h
    obtain ⟨validTime, hvalidTime, h⟩ := Except.bind_eq_ok_iff.mp h
    cases h
    obtain ⟨y, hy⟩ := others.exists_read hrest (readDate_of_writeDateOrUnknown hcalibration)
      (readValidTime_of_writeValidTime hvalidTime) _
    refine ⟨_, hy, ?_, ?_, ?_⟩
    · simp (disch := decide) only [LogItem.get_set_self, LogItem.get_set_of_ne]
      rcases x.get typeField with _ | type <;> rfl
    · simp (disch := decide) only [LogItem.get_set_self, LogItem.get_set_of_ne]
    · simp (disch := decide) only [LogItem.getEffectiveDates, LogItem.get_set_self]
  reads t y h := by
    obtain ⟨x, -, h⟩ := Except.bind_eq_ok_iff.mp h
    obtain ⟨calibration, -, h⟩ := Except.bind_eq_ok_iff.mp h
    obtain ⟨dates, hdates, h⟩ := Except.bind_eq_ok_iff.mp h
    cases h
    simp (disch := decide) only [LogItem.getEffectiveDates, LogItem.get_set_self]
    exact map_toMillis_of_readValidTime hdates

lemma frequencyStandardMapper_faithful (others : ByDefault (LogItem δ .frequencyStandard) R) :
    (frequencyStandardMapper others).Faithful where
  restores x t h := by
    obtain ⟨rest, hrest, h⟩ := Except.bind_eq_ok_iff.mp h
    obtain ⟨validTime, hvalidTime, h⟩ := Except.bind_eq_ok_iff.mp h
    cases h
    obtain ⟨y, hy⟩ := others.reads x rest hrest
    refine ⟨_, Except.bind_eq_ok_iff.mpr ⟨y, hy, Except.bind_eq_ok_iff.mpr
      ⟨_, readValidTime_of_writeValidTime hvalidTime, rfl⟩⟩, ?_, ?_, ?_⟩
    · simp (disch := decide) only [LogItem.get_set_self, LogItem.get_set_of_ne]
      rcases x.get typeField with _ | type <;> rfl
    · -- a frequency standard has no such field
      rw [LogItem.get_of_notMem _ _ (by decide), LogItem.get_of_notMem _ _ (by decide)]
    · simp (disch := decide) only [LogItem.getEffectiveDates, LogItem.get_set_self]
  reads t y h := by
    obtain ⟨x, -, h⟩ := Except.bind_eq_ok_iff.mp h
    obtain ⟨dates, hdates, h⟩ := Except.bind_eq_ok_iff.mp h
    cases h
    simp (disch := decide) only [LogItem.getEffectiveDates, LogItem.get_set_self]
    exact map_toMillis_of_readValidTime hdates

/-! ## Properties and sets -/

/-- Also whether the item was deleted is what it was. -/
structure Restored (x y : LogItem δ c) : Prop extends SameItem x y where
  dateDeleted : y.get dateDeleted = (x.get dateDeleted).map truncatedToMillis

/-- The dates of an item are not among its tracking fields. -/
lemma getEffectiveDates_congr {x y : LogItem δ c} (h : ∀ f, f ∉ logItemFields → y.get f = x.get f) :
    y.getEffectiveDates = x.getEffectiveDates := by
  cases c <;> simp (disch := decide) only [LogItem.getEffectiveDates, h]

/-- The tracking dates of a written property are read back. -/
lemma readDates_of_mapBtoA {x : LogItem δ c} {t : T} {p : LogItemPropertyType T}
    (h : LogItemPropertyTypeMapper.mapBtoA x (GMLPropertyTypeMapper.fromB t) = .ok p) :
    p.targetElement = t ∧
      readDate p.dateInserted = .ok ((x.get dateInserted).map truncatedToMillis) ∧
      readDate p.dateDeleted = .ok ((x.get dateDeleted).map truncatedToMillis) := by
  obtain ⟨inserted, hinserted, h⟩ := Except.bind_eq_ok_iff.mp h
  obtain ⟨deleted, hdeleted, h⟩ := Except.bind_eq_ok_iff.mp h
  replace h := Except.ok.inj h
  dsimp only at h
  by_cases hnone : x.get dateInserted = none
  · rw [if_pos hnone] at h
    subst h
    refine ⟨rfl, ?_, readDate_of_writeDate hdeleted⟩
    rw [hnone]
    rfl
  · rw [if_neg hnone] at h
    subst h
    exact ⟨rfl, readDate_of_writeDate hinserted, readDate_of_writeDate hdeleted⟩

namespace ElementMapper

variable {m : ElementMapper T δ c}

/-- An item is restored from its property. -/
lemma Faithful.exists_toLogItem (hm : m.Faithful) {x : LogItem δ c} {p : LogItemPropertyType T}
    (h : m.fromLogItem x = .ok p) : ∃ y, m.toLogItem p = .ok y ∧ Restored x y := by
  obtain ⟨t, ht, h⟩ := Except.bind_eq_ok_iff.mp h
  obtain ⟨rfl, hinserted, hdeleted⟩ := readDates_of_mapBtoA h
  obtain ⟨y, hy, hsame⟩ := hm.restores x _ ht
  refine ⟨_, Except.bind_eq_ok_iff.mpr ⟨y, hy, Except.bind_eq_ok_iff.mpr
    ⟨_, hinserted, Except.bind_eq_ok_iff.mpr ⟨_, hdeleted, rfl⟩⟩⟩, ?_⟩
  obtain ⟨-, hget, -, hothers⟩ := get_tracked y ((x.get dateInserted).map truncatedToMillis)
    ((x.get dateDeleted).map truncatedToMillis) p.deletedReason
  exact ⟨⟨(hothers _ (by decide)).trans hsame.type,
    (hothers _ (by decide)).trans hsame.serialNumber,
    (getEffectiveDates_congr hothers).trans hsame.effectiveDates⟩, hget⟩

/-- What is read has dates in whole milliseconds. -/
lemma Faithful.toMillis_of_toLogItem (hm : m.Faithful) {p : LogItemPropertyType T}
    {y : LogItem δ c} (h : m.toLogItem p = .ok y) :
    y.getEffectiveDates.map toMillis = y.getEffectiveDates := by
  obtain ⟨x, hx, h⟩ := Except.bind_eq_ok_iff.mp h
  obtain ⟨inserted, -, h⟩ := Except.bind_eq_ok_iff.mp h
  obtain ⟨deleted, -, h⟩ := Except.bind_eq_ok_iff.mp h
  cases h
  obtain ⟨-, -, -, hothers⟩ := get_tracked x inserted deleted p.deletedReason
  rw [getEffectiveDates_congr hothers]
  exact hm.reads _ x hx

/-- Every property becomes an object of its own. -/
lemma toItems_eq_ok_iff {list : List (LogItemPropertyType T)} {items : List (LogItem δ c)} :
    m.toItems list = .ok items ↔ list.mapM m.toLogItem = .ok items := by
  rw [toItems, Except.bind_eq_ok_iff]
  simp only [toSet_of_nodup (nodup_id_allocate _), map_object_allocate]
  constructor
  · rintro ⟨ys, hys, h⟩
    cases h
    exact hys
  · exact fun h => ⟨items, h, rfl⟩

/-- A set of items is restored from its properties. -/
lemma Faithful.exists_toItems [LinearOrder δ] (hm : m.Faithful) {set : List (LogItem δ c)}
    {list : List (LogItemPropertyType T)} (h : m.fromItems set = .ok list) :
    ∃ items, m.toItems list = .ok items ∧
      ∃ order, order.Perm set ∧ List.Forall₂ Restored order items := by
  rw [fromItems, ListToSet.fromSet, List.mapM_map] at h
  have hwritten := List.Forall₂.of_mapM_eq_ok h
  have hread : ∀ p ∈ list, ∃ y, m.toLogItem p = .ok y ∧ True := by
    intro p hp
    obtain ⟨x, -, hx⟩ := hwritten.exists_left hp
    obtain ⟨y, hy, -⟩ := hm.exists_toLogItem hx
    exact ⟨y, hy, trivial⟩
  obtain ⟨items, hitems, hmatched⟩ := List.Forall₂.exists_mapM_eq_ok hread
  refine ⟨items, toItems_eq_ok_iff.mpr hitems, _,
    StableSort.sorted_perm LogItem.compareTo set, (hwritten.comp hmatched).imp ?_⟩
  rintro x y ⟨p, hx, hy, -⟩
  obtain ⟨y', hy', hrestored⟩ := hm.exists_toLogItem hx
  obtain rfl : y = y' := Except.ok.inj (hy.symm.trans hy')
  exact hrestored

/-- What is read has dates in whole milliseconds. -/
lemma Faithful.toMillis_of_toItems (hm : m.Faithful) {list : List (LogItemPropertyType T)}
    {items : List (LogItem δ c)} (h : m.toItems list = .ok items) :
    ∀ y ∈ items, y.getEffectiveDates.map toMillis = y.getEffectiveDates := by
  intro y hy
  obtain ⟨p, -, hp⟩ := (List.Forall₂.of_mapM_eq_ok (toItems_eq_ok_iff.mp h)).exists_left hy
  exact hm.toMillis_of_toLogItem hp

end ElementMapper

/-! ## Site logs -/

/-- A stored `SiteLog`, with all the fields of its equipment. -/
structure SiteLogEntity (δ O : Type) where
  siteIdentification : SiteIdentification
  gnssReceivers : List (LogItem δ .gnssReceiver)
  gnssAntennas : List (LogItem δ .gnssAntenna)
  humiditySensors : List (LogItem δ .humiditySensor)
  frequencyStandards : List (LogItem δ .frequencyStandard)
  otherParts : O
  siteLogText : String

variable {O P S : Type} {Rs : EquipmentClass → Type}

/-- What the services see of it. -/
def SiteLogEntity.toSiteLog (bits : δ → Double) (e : SiteLogEntity δ O) : SiteLog where
  siteIdentification := e.siteIdentification
  gnssReceivers := e.gnssReceivers.map (·.toGnssReceiver)
  gnssAntennas := e.gnssAntennas.map (·.toGnssAntenna bits)
  humiditySensors := e.humiditySensors.map (·.toHumiditySensor)
  frequencyStandards := e.frequencyStandards.map (·.toFrequencyStandard)
  siteLogText := e.siteLogText

/-- The log items of a class of equipment. -/
def SiteLogEntity.items (e : SiteLogEntity δ O) : (k : EquipmentClass) →
    List (LogItem δ (logItemClass k))
  | .gnssReceiver => e.gnssReceivers
  | .gnssAntenna => e.gnssAntennas
  | .humiditySensor => e.humiditySensors
  | .clock => e.frequencyStandards

/-- The dates of the equipment are in whole milliseconds. -/
def SiteLogEntity.WholeMillis (e : SiteLogEntity δ O) : Prop :=
  ∀ k, ∀ x ∈ e.items k, x.getEffectiveDates.map toMillis = x.getEffectiveDates

/-- The items of another log are those of this one, restored. -/
def SiteLogEntity.RestoredAs (e e' : SiteLogEntity δ O) : Prop :=
  ∀ k, ∃ order, order.Perm (e.items k) ∧ List.Forall₂ Restored order (e'.items k)

namespace SiteLogMapper

/-- `SiteIdentificationType`.  The height of the monument, a number there, is among the others. -/
structure SiteIdentificationType (S : Type) where
  fourCharacterID : String
  monumentDescription : Option CodeType
  others : S

/-- `SiteLogType`, with its site identification and its equipment. -/
structure SiteLogType (S P : Type) (Rs : EquipmentClass → Type) where
  siteIdentification : SiteIdentificationType S
  gnssReceivers : List (LogItemPropertyType (GnssReceiverType (Rs .gnssReceiver)))
  gnssAntennas : List (LogItemPropertyType (GnssAntennaType (Rs .gnssAntenna)))
  humiditySensors : List (LogItemPropertyType (HumiditySensorType (Rs .humiditySensor)))
  frequencyStandards : List (LogItemPropertyType (FrequencyStandardType (Rs .clock)))
  otherParts : P

/-- What the class maps do with the other fields, and the mappers of the other parts of a log:
`SiteLocationMapper`, `ResponsiblePartiesMapper`, those of the other log items and so on. -/
structure Others (δ O S P : Type) (Rs : EquipmentClass → Type) where
  siteIdentification : ByDefault SiteIdentification S
  equipment : ∀ k, ByDefault (LogItem δ (logItemClass k)) (Rs k)
  otherParts : ByDefault O P

/-- `SiteIdentificationMapper.from`. -/
def fromSiteIdentification (others : ByDefault SiteIdentification S) (id : SiteIdentification) :
    Except ConversionException (SiteIdentificationType S) := do
  let rest ← others.write id
  return ⟨id.fourCharacterId, id.monumentDescription.map (codeOf "eGeodesy/monumentDescription"),
    rest⟩

/-- `SiteIdentificationMapper.to`. -/
def toSiteIdentification (others : ByDefault SiteIdentification S)
    (id : SiteIdentificationType S) : Except ConversionException SiteIdentification := do
  let rest ← others.read id.others
  return { rest with
    fourCharacterId := id.fourCharacterID
    monumentDescription := id.monumentDescription.map CodeType.value }

/-- `SiteLogMapper.from`. -/
def fromEntity [LinearOrder δ] (others : Others δ O S P Rs) (e : SiteLogEntity δ O) :
    Except ConversionException (SiteLogType S P Rs) := do
  let siteIdentification ←
    fromSiteIdentification others.siteIdentification e.siteIdentification
  let gnssReceivers ←
    (gnssReceiverMapper (others.equipment .gnssReceiver)).fromItems e.gnssReceivers
  let gnssAntennas ←
    (gnssAntennaMapper (others.equipment .gnssAntenna)).fromItems e.gnssAntennas
  let humiditySensors ←
    (humiditySensorMapper (others.equipment .humiditySensor)).fromItems e.humiditySensors
  let frequencyStandards ←
    (frequencyStandardMapper (others.equipment .clock)).fromItems e.frequencyStandards
  let otherParts ← others.otherParts.write e.otherParts
  return { siteIdentification, gnssReceivers, gnssAntennas, humiditySensors, frequencyStandards,
           otherParts }

/-- `SiteLogMapper.to`, and then `SiteLogReader.getSiteLog`, which sets the text. -/
def toEntity (others : Others δ O S P Rs) (siteLogText : String) (log : SiteLogType S P Rs) :
    Except ConversionException (SiteLogEntity δ O) := do
  let siteIdentification ←
    toSiteIdentification others.siteIdentification log.siteIdentification
  let gnssReceivers ←
    (gnssReceiverMapper (others.equipment .gnssReceiver)).toItems log.gnssReceivers
  let gnssAntennas ←
    (gnssAntennaMapper (others.equipment .gnssAntenna)).toItems log.gnssAntennas
  let humiditySensors ←
    (humiditySensorMapper (others.equipment .humiditySensor)).toItems log.humiditySensors
  let frequencyStandards ←
    (frequencyStandardMapper (others.equipment .clock)).toItems log.frequencyStandards
  let otherParts ← others.otherParts.read log.otherParts
  return { siteIdentification, gnssReceivers, gnssAntennas, humiditySensors, frequencyStandards,
           otherParts, siteLogText }

lemma fourCharacterId_toSiteIdentification {others : ByDefault SiteIdentification S}
    {id : SiteIdentification} {written : SiteIdentificationType S}
    (h : fromSiteIdentification others id = .ok written) :
    ∃ read, toSiteIdentification others written = .ok read ∧
      read.fourCharacterId = id.fourCharacterId := by
  obtain ⟨rest, hrest, h⟩ := Except.bind_eq_ok_iff.mp h
  cases h
  obtain ⟨read, hread⟩ := others.reads id rest hrest
  exact ⟨_, Except.bind_eq_ok_iff.mpr ⟨read, hread, rfl⟩, rfl⟩

/-- **What was written is read back**: a log of the same station, with its equipment restored. -/
theorem exists_toEntity [LinearOrder δ] {others : Others δ O S P Rs} {e : SiteLogEntity δ O}
    {log : SiteLogType S P Rs} (h : fromEntity others e = .ok log) (siteLogText : String) :
    ∃ e', toEntity others siteLogText log = .ok e' ∧
      e'.siteIdentification.fourCharacterId = e.siteIdentification.fourCharacterId ∧
      e'.siteLogText = siteLogText ∧ e.RestoredAs e' := by
  obtain ⟨id, hid, h⟩ := Except.bind_eq_ok_iff.mp h
  obtain ⟨receivers, hreceivers, h⟩ := Except.bind_eq_ok_iff.mp h
  obtain ⟨antennas, hantennas, h⟩ := Except.bind_eq_ok_iff.mp h
  obtain ⟨sensors, hsensors, h⟩ := Except.bind_eq_ok_iff.mp h
  obtain ⟨standards, hstandards, h⟩ := Except.bind_eq_ok_iff.mp h
  obtain ⟨parts, hparts, h⟩ := Except.bind_eq_ok_iff.mp h
  cases h
  obtain ⟨id', hid', hsame⟩ := fourCharacterId_toSiteIdentification hid
  obtain ⟨receivers', hreceivers', hreceiver⟩ :=
    (gnssReceiverMapper_faithful _).exists_toItems hreceivers
  obtain ⟨antennas', hantennas', hantenna⟩ :=
    (gnssAntennaMapper_faithful _).exists_toItems hantennas
  obtain ⟨sensors', hsensors', hsensor⟩ :=
    (humiditySensorMapper_faithful _).exists_toItems hsensors
  obtain ⟨standards', hstandards', hstandard⟩ :=
    (frequencyStandardMapper_faithful _).exists_toItems hstandards
  obtain ⟨parts', hparts'⟩ := others.otherParts.reads e.otherParts parts hparts
  refine ⟨⟨id', receivers', antennas', sensors', standards', parts', siteLogText⟩,
    Except.bind_eq_ok_iff.mpr ⟨id', hid', Except.bind_eq_ok_iff.mpr ⟨receivers', hreceivers',
      Except.bind_eq_ok_iff.mpr ⟨antennas', hantennas', Except.bind_eq_ok_iff.mpr ⟨sensors',
        hsensors', Except.bind_eq_ok_iff.mpr ⟨standards', hstandards',
          Except.bind_eq_ok_iff.mpr ⟨parts', hparts', rfl⟩⟩⟩⟩⟩⟩,
    hsame, rfl, ?_⟩
  intro k
  cases k with
  | gnssReceiver => exact hreceiver
  | gnssAntenna => exact hantenna
  | humiditySensor => exact hsensor
  | clock => exact hstandard

/-- **A log that was read has dates in whole milliseconds.** -/
theorem wholeMillis_of_toEntity {others : Others δ O S P Rs} {e : SiteLogEntity δ O}
    {siteLogText : String} {log : SiteLogType S P Rs}
    (h : toEntity others siteLogText log = .ok e) : e.WholeMillis := by
  obtain ⟨id, -, h⟩ := Except.bind_eq_ok_iff.mp h
  obtain ⟨receivers, hreceivers, h⟩ := Except.bind_eq_ok_iff.mp h
  obtain ⟨antennas, hantennas, h⟩ := Except.bind_eq_ok_iff.mp h
  obtain ⟨sensors, hsensors, h⟩ := Except.bind_eq_ok_iff.mp h
  obtain ⟨standards, hstandards, h⟩ := Except.bind_eq_ok_iff.mp h
  obtain ⟨parts, -, h⟩ := Except.bind_eq_ok_iff.mp h
  cases h
  intro k
  cases k with
  | gnssReceiver => exact (gnssReceiverMapper_faithful _).toMillis_of_toItems hreceivers
  | gnssAntenna => exact (gnssAntennaMapper_faithful _).toMillis_of_toItems hantennas
  | humiditySensor => exact (humiditySensorMapper_faithful _).toMillis_of_toItems hsensors
  | clock => exact (frequencyStandardMapper_faithful _).toMillis_of_toItems hstandards

end SiteLogMapper

end Geodesy.Mapper
