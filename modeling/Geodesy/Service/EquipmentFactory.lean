import Geodesy.Domain.Store

/-!
# The equipment factory

`EquipmentFactory.create` turns a log item into an equipment row and a configuration.  Both are
looked up and, when not found, created; the configuration that is found is overwritten in place.
The four `visit` methods differ in the lookup of the equipment (clocks are compared in memory, by
type) and in the columns they copy.

`create` leaves saving to its caller: a new configuration has no key yet, which `Created` records
with an empty `configurationId`.
-/

namespace Geodesy

/-- The pair that `EquipmentFactory.create` returns. -/
structure Created where
  equipment : Equipment
  configurationId : Option ℕ
  configuration : EquipmentConfiguration

namespace EquipmentFactory

/-- `EquipmentCreator.getEquipment`: a new equipment is saved at once, to get its id. -/
def getEquipment (equipmentClass : EquipmentClass) (logItem : EquipmentLogItem) (st : Store) :
    Equipment × Store :=
  match st.findOneEquipment equipmentClass logItem.type logItem.serialNumber with
  | some e => (e, st)
  | none =>
    let e : Equipment := ⟨st.nextId, equipmentClass, logItem.type, logItem.serialNumber, none⟩
    (e, { st with nextId := st.nextId + 1, equipment := st.equipment ++ [e] })

/-- `Clock.equals`: by type alone. -/
def clockEquals (c : Equipment) (type : Option String) : Bool := decide (c.type = type)

/-- The lookup in `EquipmentCreator.visit(FrequencyStandardLogItem)`: all clocks are read and the
first with the same type is taken. -/
def getClock (logItem : FrequencyStandardLogItem) (st : Store) : Equipment × Store :=
  match (st.findByEquipmentType .clock).find? (clockEquals · logItem.type) with
  | some clock => (clock, st)
  | none =>
    let clock : Equipment := ⟨st.nextId, .clock, logItem.type, none, none⟩
    (clock, { st with nextId := st.nextId + 1, equipment := st.equipment ++ [clock] })

/-- `EquipmentCreator.getConfiguration`: looked up by equipment and start date, but only when there
is a start date. -/
def getConfiguration (blank : ConfigurationDetails) (equipId : ℕ) (logItem : EquipmentLogItem)
    (st : Store) : Option ℕ × EquipmentConfiguration :=
  let effectiveFrom := logItem.effectiveFrom
  let c := if effectiveFrom ≠ none then
      st.findOneConfiguration blank.equipmentClass equipId effectiveFrom
    else none
  match c with
  | some c => (some c.id, c.config)
  | none => (none, ⟨equipId, effectiveFrom, blank⟩)

/-- `EquipmentCreator.visit(GnssReceiverLogItem)`. -/
def visitGnssReceiver (logItem : GnssReceiverLogItem) (st : Store) : Created × Store :=
  let (receiver, st) := getEquipment .gnssReceiver (.gnssReceiver logItem) st
  let (id, config) := getConfiguration (.gnssReceiver ⟨none, none, none, none, none⟩) receiver.id
    (.gnssReceiver logItem) st
  let details : GnssReceiverConfiguration :=
    { satelliteSystem := logItem.satelliteSystem
      firmwareVersion := logItem.firmwareVersion
      elevetionCutoffSetting := logItem.elevationCutoffSetting
      temperatureStabilization := logItem.temperatureStabilization
      notes := logItem.notes }
  (⟨receiver, id, { config with details := .gnssReceiver details }⟩, st)

/-- `EquipmentCreator.visit(GnssAntennaLogItem)`. -/
def visitGnssAntenna (logItem : GnssAntennaLogItem) (st : Store) : Created × Store :=
  let (antenna, st) := getEquipment .gnssAntenna (.gnssAntenna logItem) st
  let (id, config) := getConfiguration (.gnssAntenna ⟨none, none, none, none⟩) antenna.id
    (.gnssAntenna logItem) st
  let details : GnssAntennaConfiguration :=
    { alignmentFromTrueNorth := logItem.alignmentFromTrueNorth
      markerArpUpEccentricity := logItem.markerArpUpEcc
      markerArpNorthEccentricity := logItem.markerArpNorthEcc
      markerArpEastEccentricity := logItem.markerArpEastEcc }
  (⟨antenna, id, { config with details := .gnssAntenna details }⟩, st)

/-- `EquipmentCreator.visit(HumiditySensorLogItem)`: the aspiration goes to the equipment row. -/
def visitHumiditySensor (logItem : HumiditySensorLogItem) (st : Store) : Created × Store :=
  let (sensor, st) := getEquipment .humiditySensor (.humiditySensor logItem) st
  let (id, config) := getConfiguration (.humiditySensor ⟨none⟩) sensor.id
    (.humiditySensor logItem) st
  let sensor := { sensor with aspiration := logItem.aspiration }
  let details : HumiditySensorConfiguration :=
    { heightDiffToAntenna := logItem.heightDiffToAntenna }
  (⟨sensor, id, { config with details := .humiditySensor details }⟩, st)

/-- `EquipmentCreator.visit(FrequencyStandardLogItem)`. -/
def visitFrequencyStandard (logItem : FrequencyStandardLogItem) (st : Store) : Created × Store :=
  let (clock, st) := getClock logItem st
  let (id, config) := getConfiguration (.clock ⟨none⟩) clock.id (.frequencyStandard logItem) st
  let details : ClockConfiguration := { inputFrequency := logItem.inputFrequency }
  (⟨clock, id, { config with details := .clock details }⟩, st)

/-- `EquipmentFactory.create`. -/
def create : EquipmentLogItem → Store → Created × Store
  | .gnssReceiver i => visitGnssReceiver i
  | .gnssAntenna i => visitGnssAntenna i
  | .humiditySensor i => visitHumiditySensor i
  | .frequencyStandard i => visitFrequencyStandard i

end EquipmentFactory

/-! ## Saving -/

/-- `EquipmentRepository.save` of an equipment that has its id. -/
def Store.saveEquipment (st : Store) (e : Equipment) : Store :=
  { st with equipment := st.equipment.map fun r => if r.id = e.id then e else r }

/-- `EquipmentConfigurationRepository.saveAndFlush`: the id of the row, new or existing. -/
def Store.saveConfiguration (st : Store) (id : Option ℕ) (c : EquipmentConfiguration) : ℕ × Store :=
  match id with
  | some id =>
    (id, { st with
      configurations := st.configurations.map fun r => if r.id = id then ⟨id, c⟩ else r })
  | none =>
    (st.nextId, { st with
      nextId := st.nextId + 1, configurations := st.configurations ++ [⟨st.nextId, c⟩] })

end Geodesy
