import Geodesy.Domain.SiteLog
import Geodesy.Library.Rows

/-!
# The store

The tables the services work on, with the repository queries over them.  Every table takes its
keys from the one sequence `seq_surrogate_keys`; a query is a filter over the rows, and a query
with a single result throws when it finds several.

`Setup` holds the fields that `Setup.equals` compares and `SetupRow` adds the key and the
`invalidated` flag, which it ignores; so two setups are equal in the sense of the source exactly
when they are equal (`Setup.equals_iff`).
-/

namespace Geodesy

/-- What a repository or a service can throw. -/
inductive JavaException
  | nullPointer
  | indexOutOfBounds
  | noSuchElement
  | incorrectResultSize
  | noResult
  deriving DecidableEq, Repr

/-- SQL equality: null is not equal to anything, not even to null. -/
def sqlEq {α : Type*} [DecidableEq α] : Option α → Option α → Bool
  | some a, some b => decide (a = b)
  | _, _ => false

@[simp] lemma sqlEq_null {α : Type*} [DecidableEq α] (a : Option α) : sqlEq a none = false := by
  cases a <;> rfl

@[simp] lemma sqlEq_iff {α : Type*} [DecidableEq α] {a b : Option α} :
    sqlEq a b = true ↔ a = b ∧ b ≠ none := by
  rcases a with _ | a <;> rcases b with _ | b <;> simp [sqlEq]

/-! ## Rows -/

/-- A row of `EQUIPMENT`.  `aspiration` is the column of the secondary table `HUMIDITY_SENSOR`,
null for the other classes. -/
structure Equipment where
  id : ℕ
  equipmentClass : EquipmentClass
  type : Option String
  serialNumber : Option String
  aspiration : Option String
  deriving DecidableEq, Repr

/-- An `EquipmentConfiguration` before it is saved. -/
structure EquipmentConfiguration where
  equipmentId : ℕ
  configurationTime : Option Instant
  details : ConfigurationDetails
  deriving DecidableEq, Repr

/-- A row of `EQUIPMENT_CONFIGURATION`, joined with the table of its class. -/
structure EquipmentConfigurationRow where
  id : ℕ
  config : EquipmentConfiguration
  deriving DecidableEq, Repr

/-- `EquipmentInUse`, without its own surrogate key, which nothing reads. -/
structure EquipmentInUse where
  equipmentId : ℕ
  configurationId : ℕ
  period : Option EffectiveDates
  deriving DecidableEq, Repr

/-- A `Setup` as `Setup.equals` sees it. -/
structure Setup where
  siteId : ℕ
  name : String
  effectivePeriod : EffectiveDates
  equipmentInUse : List EquipmentInUse
  deriving DecidableEq, Repr

/-- `Setup.areEqual`: the two lists are compared element by element. -/
def Setup.areEqual : List EquipmentInUse → List EquipmentInUse → Bool
  | [], [] => true
  | a :: as, b :: bs => decide (a = b) && areEqual as bs
  | _, _ => false

/-- `Setup.equals`. -/
def Setup.equals (a b : Setup) : Bool :=
  decide (a.siteId = b.siteId) && decide (a.name = b.name)
    && decide (a.effectivePeriod = b.effectivePeriod)
    && areEqual a.equipmentInUse b.equipmentInUse

lemma Setup.areEqual_iff : ∀ as bs : List EquipmentInUse, areEqual as bs = true ↔ as = bs
  | [], [] => by simp [areEqual]
  | [], _ :: _ => by simp [areEqual]
  | _ :: _, [] => by simp [areEqual]
  | a :: as, b :: bs => by simp [areEqual, areEqual_iff as bs]

/-- `Setup.equals` is equality of the fields other than the key and the flag. -/
lemma Setup.equals_iff (a b : Setup) : a.equals b = true ↔ a = b := by
  obtain ⟨i, n, p, u⟩ := a
  obtain ⟨j, m, q, v⟩ := b
  simp [equals, areEqual_iff, and_assoc]

/-- A row of `SETUP`.  Its entries are a bag in the database: here they stand as they were saved or,
where a query may list them otherwise (`EntryOrder`), as they were listed last. -/
structure SetupRow where
  id : ℕ
  setup : Setup
  invalidated : Bool
  deriving DecidableEq, Repr

/-- The row of a setup that is saved for the first time. -/
def SetupRow.fresh (id : ℕ) (s : Setup) : SetupRow := ⟨id, s, false⟩

@[simp] lemma SetupRow.fresh_id (id : ℕ) (s : Setup) : (fresh id s).id = id := rfl
@[simp] lemma SetupRow.fresh_setup (id : ℕ) (s : Setup) : (fresh id s).setup = s := rfl
@[simp] lemma SetupRow.fresh_invalidated (id : ℕ) (s : Setup) :
    (fresh id s).invalidated = false := rfl

/-- A row of `NODE`. -/
structure Node where
  id : ℕ
  siteId : ℕ
  setupId : ℕ
  effectivePeriod : Option EffectiveDates
  invalidated : Bool
  deriving DecidableEq, Repr

/-- `Monument`. -/
structure Monument where
  description : Option String
  height : Option String
  foundation : Option String
  markerDescription : Option String
  deriving DecidableEq, Repr

/-- A row of `CORS_SITE`, joined with `SITE` and its monument. -/
structure CorsSite where
  id : ℕ
  fourCharacterId : String
  name : Option String
  domesNumber : Option String
  dateInstalled : Option Instant
  monument : Monument
  deriving DecidableEq, Repr

/-- `SiteLogReceived`. -/
structure SiteLogReceived where
  fourCharacterId : String
  siteLogText : String
  deriving DecidableEq, Repr

/-- `SiteUpdated`. -/
structure SiteUpdated where
  fourCharacterId : String
  deriving DecidableEq, Repr

/-- The events that the services publish and report as handled. -/
inductive DomainEvent
  | siteLogReceived (e : SiteLogReceived)
  | siteUpdated (e : SiteUpdated)
  deriving DecidableEq, Repr

/-- The database.  `published` and `handled` list the calls made on the event publisher. -/
structure Store where
  nextId : ℕ
  siteLogs : List SiteLog
  corsSites : List CorsSite
  equipment : List Equipment
  configurations : List EquipmentConfigurationRow
  setups : List SetupRow
  nodes : List Node
  published : List DomainEvent
  handled : List DomainEvent
  deriving DecidableEq, Repr

/-- The empty database. -/
def Store.empty : Store := ⟨1, [], [], [], [], [], [], [], []⟩

/-! ## Queries -/

namespace Store

/-- `SiteLogRepository.findByFourCharacterId`. -/
def findSiteLog (st : Store) (id : String) : Except JavaException (Option SiteLog) :=
  match st.siteLogs.filter (·.fourCharacterId = id) with
  | [] => .ok none
  | [l] => .ok (some l)
  | _ => .error .incorrectResultSize

/-- `CorsSiteRepository.findByFourCharacterId`; the column is unique. -/
def findCorsSite (st : Store) (id : String) : Option CorsSite :=
  st.corsSites.find? (·.fourCharacterId = id)

/-- `EquipmentRepository.findOne` by key. -/
def findEquipment (st : Store) (id : ℕ) : Option Equipment :=
  st.equipment.find? (·.id = id)

/-- `EquipmentConfigurationRepository.findOne` by key. -/
def findConfiguration (st : Store) (id : ℕ) : Option EquipmentConfigurationRow :=
  st.configurations.find? (·.id = id)

/-- `EquipmentRepositoryImpl.findOne(equipmentType, type, serialNumber)`: the first result, if
any.  The comparisons are SQL's, so a null type or serial number finds nothing. -/
def findOneEquipment (st : Store) (equipmentClass : EquipmentClass)
    (type serialNumber : Option String) : Option Equipment :=
  st.equipment.find? fun e =>
    e.equipmentClass = equipmentClass && sqlEq e.type type && sqlEq e.serialNumber serialNumber

/-- `EquipmentRepositoryImpl.findByEquipmentType`. -/
def findByEquipmentType (st : Store) (equipmentClass : EquipmentClass) : List Equipment :=
  st.equipment.filter (·.equipmentClass = equipmentClass)

/-- `EquipmentConfigurationRepositoryImpl.findOne`. -/
def findOneConfiguration (st : Store) (configClass : EquipmentClass) (equipId : ℕ)
    (configurationTime : Option Instant) : Option EquipmentConfigurationRow :=
  st.configurations.find? fun c =>
    c.config.details.equipmentClass = configClass && c.config.equipmentId = equipId
      && sqlEq c.config.configurationTime configurationTime

/-- `SetupRepository.findBySiteId`: the valid setups of a site, in table order, with the entries in
the order of their rows. -/
def findSetupsBySiteId (st : Store) (siteId : ℕ) : List SetupRow :=
  st.setups.filter fun r => r.setup.siteId = siteId && !r.invalidated

/-- `SetupRepository.findInvalidatedBySiteId`. -/
def findInvalidatedBySiteId (st : Store) (siteId : ℕ) : List SetupRow :=
  st.setups.filter fun r => r.setup.siteId = siteId && r.invalidated

/-- `SetupRepositoryImpl.findCurrentBySiteId`: a single result or an exception. -/
def findCurrentBySiteId (st : Store) (siteId : ℕ) : Except JavaException SetupRow :=
  match st.setups.filter fun r =>
      r.setup.siteId = siteId && r.setup.effectivePeriod.effectiveTo = none && !r.invalidated with
  | [r] => .ok r
  | [] => .error .noResult
  | _ => .error .incorrectResultSize

/-- `NodeRepository.findBySetupId`. -/
def findBySetupId (st : Store) (setupId : ℕ) : Except JavaException (Option Node) :=
  match st.nodes.filter (·.setupId = setupId) with
  | [] => .ok none
  | [n] => .ok (some n)
  | _ => .error .incorrectResultSize

/-- `NodeRepository.findBySiteId`, without the invalidated ones. -/
def validNodes (st : Store) (siteId : ℕ) : List Node :=
  st.nodes.filter fun n => n.siteId = siteId && !n.invalidated

end Store

/-- The order in which a query over `SETUP` lists its rows; none of the queries has an
`order by`. -/
structure RowOrder where
  arrange : List SetupRow → List SetupRow
  arrange_perm : ∀ rows, (arrange rows).Perm rows

namespace RowOrder

/-- Table order. -/
def asStored : RowOrder := ⟨id, fun _ => .refl _⟩

/-- `r` starts no later than `s`, a null from counting as earliest. -/
def StartsNoLater (r s : SetupRow) : Prop :=
  EffectiveDates.lowBound r.setup.effectivePeriod.effectiveFrom
    ≤ EffectiveDates.lowBound s.setup.effectivePeriod.effectiveFrom

instance : DecidableRel StartsNoLater := fun _ _ => inferInstanceAs (Decidable (_ ≤ _))
instance : Std.Total StartsNoLater := ⟨fun _ _ => le_total _ _⟩
instance : IsTrans SetupRow StartsNoLater := ⟨fun _ _ _ => le_trans⟩

/-- The rows come in ascending order of `effectivePeriod.from`. -/
def Ascending (o : RowOrder) : Prop := ∀ rows, (o.arrange rows).Pairwise StartsNoLater

/-- An ascending order. -/
def chronological : RowOrder :=
  ⟨fun rows => rows.insertionSort StartsNoLater, fun rows => rows.perm_insertionSort _⟩

lemma chronological_ascending : chronological.Ascending :=
  fun rows => rows.pairwise_insertionSort _

end RowOrder

end Geodesy
