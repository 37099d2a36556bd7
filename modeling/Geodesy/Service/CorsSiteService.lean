import Geodesy.Service.EquipmentFactory

/-!
# Site logs become setups

`CorsSiteLogService.upload` replaces the current log of a site; `CorsSiteService.handle` turns the
current log into the setups of the site.  The setups are computed from scratch (`getSetups`) and
compared with the valid ones: what both lists contain is kept, the other old ones are invalidated
and the other new ones inserted (`replaceSetups`).

`ListUtils.intersection` is a library function and a parameter here, with its documented property.
-/

namespace Geodesy

/-- `org.apache.commons.collections.ListUtils`, as far as the service relies on it: the
intersection holds the elements that are contained in both lists. -/
structure ListUtils where
  intersection : List Setup → List Setup → List Setup
  mem_intersection : ∀ xs ys s, s ∈ intersection xs ys ↔ s ∈ xs ∧ s ∈ ys

/-- The elements of the second list that the first list contains. -/
def ListUtils.ofContains : ListUtils where
  intersection xs ys := ys.filter (· ∈ xs)
  mem_intersection xs ys s := by simp [and_comm]

/-! ## Upload -/

namespace CorsSiteLogService

/-- `SiteLogRepositoryImpl.delete`. -/
def delete (fourCharacterId : String) (st : Store) : Except JavaException Store := do
  match ← st.findSiteLog fourCharacterId with
  | none => return st
  | some _ =>
    return { st with siteLogs := st.siteLogs.filter (·.fourCharacterId ≠ fourCharacterId) }

/-- `CorsSiteLogService.upload`. -/
def upload (siteLog : SiteLog) (st : Store) : Except JavaException Store := do
  let id := siteLog.fourCharacterId
  let st ← delete id st
  return { st with
    siteLogs := st.siteLogs ++ [siteLog.reload]
    published := st.published ++ [.siteLogReceived ⟨id, siteLog.siteLogText⟩] }

end CorsSiteLogService

/-! ## Handling a received site log -/

namespace CorsSiteService

/-- `CorsSiteService.gnssCorsSetupName`. -/
def gnssCorsSetupName : String := "GNSS CORS Setup"

/-- The setters that copy the site identification to the site. -/
def describe (site : CorsSite) (siteId : SiteIdentification) : CorsSite :=
  { site with
    name := siteId.siteName
    domesNumber := siteId.iersDOMESNumber
    dateInstalled := siteId.dateInstalled
    monument :=
      { description := siteId.monumentDescription
        height := siteId.heightOfMonument
        foundation := siteId.monumentFoundation
        markerDescription := siteId.markerDescription } }

/-- The site of the log, found or created, with the log's description; saved and flushed. -/
def saveCorsSite (fourCharacterId : String) (siteLog : SiteLog) (st : Store) : CorsSite × Store :=
  match st.findCorsSite fourCharacterId with
  | some site =>
    let site := describe site siteLog.siteIdentification
    (site, { st with corsSites := st.corsSites.map fun r => if r.id = site.id then site else r })
  | none =>
    let site := describe ⟨st.nextId, fourCharacterId, none, none, none, ⟨none, none, none, none⟩⟩
      siteLog.siteIdentification
    (site, { st with nextId := st.nextId + 1, corsSites := st.corsSites ++ [site] })

/-- The sorted set `datesOfChange` of `getSetups`. -/
def datesOfChange (equipmentLogItems : List EquipmentLogItem) : List Instant :=
  (equipmentLogItems.flatMap fun x =>
    x.effectiveFrom.toList ++ x.effectiveTo.toList).dedup.insertionSort (· ≤ ·)

/-- The do-while loop of `getSetups`: two iterators one step apart. -/
def consecutivePeriods (dates : List Instant) : List EffectiveDates :=
  List.zipWith (fun from' to' => ⟨some from', some to'⟩) dates dates.tail

/-- The periods of the setups that `getSetups` creates. -/
def setupPeriods (datesOfChange : List Instant) : List EffectiveDates :=
  match datesOfChange with
  | [] => []
  | [d] => [⟨some d, none⟩]
  | _ =>
    let periods := consecutivePeriods datesOfChange
    match periods.getLast?.bind EffectiveDates.effectiveTo with
    | some lastTo => periods ++ [⟨some lastTo, none⟩]
    | none => periods

/-- `CorsSiteService.addEquipment(EquipmentLogItem, Setup)`. -/
def addEquipmentToSetup (logItem : EquipmentLogItem) (s : Setup) (st : Store) : Setup × Store :=
  let (ec, st) := EquipmentFactory.create logItem st
  let st := st.saveEquipment ec.equipment
  let (configId, st) := st.saveConfiguration ec.configurationId ec.configuration
  let inUse : EquipmentInUse := ⟨ec.equipment.id, configId, logItem.effectiveDates⟩
  ({ s with equipmentInUse := s.equipmentInUse ++ [inUse] }, st)

/-- The loop that adds an item to each setup of a stretch of the list. -/
def addEquipmentToSetups (logItem : EquipmentLogItem) : List Setup → Store → List Setup × Store
  | [], st => ([], st)
  | s :: rest, st =>
    let (s, st) := addEquipmentToSetup logItem s st
    let (rest, st) := addEquipmentToSetups logItem rest st
    (s :: rest, st)

/-- The `while (true)` search for the setup that starts at the item's from.  Running off the list
is `setups.get(i)` out of bounds. -/
def searchFrom (equipmentFrom : Option Instant) : List Setup → Except JavaException ℕ
  | [] => .error .indexOutOfBounds
  | s :: rest =>
    let setupFrom := s.effectivePeriod.effectiveFrom
    if setupFrom ≠ none ∧ setupFrom = equipmentFrom then .ok 0
    else (searchFrom equipmentFrom rest).map (· + 1)

/-- The do-while search for the setup that ends at the item's to: how many setups it passes. -/
def searchTo (equipmentTo : Instant) : List Setup → Except JavaException ℕ
  | [] => .error .indexOutOfBounds
  | s :: rest =>
    let setupTo := s.effectivePeriod.effectiveTo
    if setupTo ≠ none ∧ setupTo ≠ some equipmentTo then (searchTo equipmentTo rest).map (· + 1)
    else .ok 1

/-- The indices `i` and `j` between which `addEquipment` adds the item. -/
def placement (logItem : EquipmentLogItem) (setups : List Setup) : Except JavaException (ℕ × ℕ) :=
  match logItem.effectiveDates with
  | none => .ok (0, setups.length)
  | some period =>
    -- equipment log entries with empty periods are corrections
    if period.effectiveFrom ≠ none ∧ period.effectiveFrom = period.effectiveTo then .ok (0, 0)
    else if period.effectiveFrom = none ∧ period.effectiveTo = none then .ok (0, setups.length)
    else do
      let i ← searchFrom period.effectiveFrom setups
      match period.effectiveTo with
      | none => return (i, setups.length)
      | some equipmentTo =>
        let passed ← searchTo equipmentTo (setups.drop i)
        return (i, i + passed)

/-- `CorsSiteService.addEquipment(EquipmentLogItem, List<Setup>)`. -/
def addEquipment (logItem : EquipmentLogItem) (setups : List Setup) (st : Store) :
    Except JavaException (List Setup × Store) := do
  let (i, j) ← placement logItem setups
  let (placed, st) := addEquipmentToSetups logItem ((setups.take j).drop i) st
  return (setups.take i ++ placed ++ setups.drop j, st)

/-- The last loop of `getSetups`. -/
def addAllEquipment : List EquipmentLogItem → List Setup → Store →
    Except JavaException (List Setup × Store)
  | [], setups, st => return (setups, st)
  | logItem :: rest, setups, st => do
    let (setups, st) ← addEquipment logItem setups st
    addAllEquipment rest setups st

/-- `CorsSiteService.getSetups`. -/
def getSetups (siteId : ℕ) (siteLog : SiteLog) (st : Store) :
    Except JavaException (List Setup × Store) :=
  let equipmentLogItems := siteLog.equipmentLogItems
  let setups := (setupPeriods (datesOfChange equipmentLogItems)).map fun p =>
    (⟨siteId, gnssCorsSetupName, p, []⟩ : Setup)
  addAllEquipment equipmentLogItems setups st

/-- `Collection.contains`, by `Setup.equals`. -/
def contains (setups : List Setup) (s : Setup) : Bool := setups.any (s.equals ·)

/-- The part of `handle` from `findBySiteId` to the two saves.  Saving a setup saves its equipment
in use along with it, whose own keys nothing reads. -/
def replaceSetups (lib : ListUtils) (rows : RowOrder) (siteId : ℕ) (newSetups : List Setup)
    (st : Store) : Store :=
  let oldSetups := rows.arrange (st.findSetupsBySiteId siteId)
  let commonSetups := lib.intersection (oldSetups.map (·.setup)) newSetups
  let newSetups := newSetups.filter (!contains commonSetups ·)
  let oldSetups := oldSetups.filter (!contains commonSetups ·.setup)
  { st with
    nextId := st.nextId + newSetups.length
    setups := (st.setups.map fun r =>
        if r.id ∈ oldSetups.map (·.id) then { r with invalidated := true } else r)
      ++ Rows.insertAll SetupRow.fresh st.nextId newSetups }

/-- `CorsSiteService.handle`. -/
def handle (lib : ListUtils) (load : LoadOrder) (rows : RowOrder) (e : SiteLogReceived)
    (st : Store) : Except JavaException Store := do
  let some siteLog ← st.findSiteLog e.fourCharacterId | throw .nullPointer
  let siteLog := load.load siteLog
  let (corsSite, st) := saveCorsSite e.fourCharacterId siteLog st
  let (newSetups, st) ← getSetups corsSite.id siteLog st
  let newSetups := newSetups.map fun s => { s with siteId := corsSite.id }
  let st := replaceSetups lib rows corsSite.id newSetups st
  return { st with
    handled := st.handled ++ [.siteLogReceived e]
    published := st.published ++ [.siteUpdated ⟨e.fourCharacterId⟩] }

end CorsSiteService

end Geodesy
