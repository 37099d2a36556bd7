import Geodesy.Service.CorsSiteService

/-!
# Setups become nodes

`NodeService.handle` invalidates the nodes of the site's invalidated setups and then walks over its
valid setups.  A setup with a receiver and an antenna gets a node, whose period is the common
period of its significant equipment.  The walk remembers the last period it computed: it stops
when that period is open and skips a setup that starts before the period's end, where "before" is
`compareTo(…) == 1`.
-/

namespace Geodesy.NodeService

/-- `NodeService.significantEquipment`. -/
def significantEquipment : List EquipmentClass := [.gnssReceiver, .gnssAntenna, .clock]

/-- `NodeService.getEquipmentInUse`: the entries of a setup whose equipment is of the class.  An
entry without an equipment row is a null pointer. -/
def getEquipmentInUse (st : Store) (setup : Setup) (equipmentClass : EquipmentClass) :
    Except JavaException (List EquipmentInUse) :=
  setup.equipmentInUse.filterM fun inUse =>
    match st.findEquipment inUse.equipmentId with
    | some e => .ok (decide (e.equipmentClass = equipmentClass))
    | none => .error .nullPointer

/-- `NodeService.getOneEquipmentInUse`: the first of them, also when there are several. -/
def getOneEquipmentInUse (st : Store) (setup : Setup) (equipmentClass : EquipmentClass) :
    Except JavaException (Option EquipmentInUse) := do
  let inUse ← getEquipmentInUse st setup equipmentClass
  return inUse.head?

/-- `NodeService.isCompleteCorsSetup`. -/
def isCompleteCorsSetup (st : Store) (setup : Setup) : Except JavaException Bool := do
  let receiver ← getOneEquipmentInUse st setup .gnssReceiver
  if receiver.isSome then
    let antenna ← getOneEquipmentInUse st setup .gnssAntenna
    return antenna.isSome
  else return false

/-- The inner loop of `handle`: the periods of the significant equipment of a setup. -/
def significantDates (st : Store) (setup : Setup) :
    List EquipmentClass → Except JavaException (List (Option EffectiveDates))
  | [] => return []
  | equipmentType :: rest => do
    let inUse ← getOneEquipmentInUse st setup equipmentType
    let dates ← significantDates st setup rest
    return inUse.toList.map (·.period) ++ dates

/-- The period of the node of a setup. -/
def nodePeriodOf (st : Store) (setup : Setup) : Except JavaException EffectiveDates := do
  let dates ← significantDates st setup significantEquipment
  match lcd dates with
  | some p => return p
  | none => throw .noSuchElement

/-- The `stream().forEach` that invalidates the nodes of invalidated setups. -/
def invalidateNodes : List SetupRow → Store → Except JavaException Store
  | [], st => return st
  | s :: rest, st => do
    match ← st.findBySetupId s.id with
    | none => invalidateNodes rest st
    | some n =>
      invalidateNodes rest { st with
        nodes := st.nodes.map fun r => if r.id = n.id then { n with invalidated := true } else r }

/-- What the remembered node period makes the loop do with the next setup. -/
inductive Decision
  | stop
  | skip
  | proceed
  deriving DecidableEq, Repr

/-- The `break` and the `continue` at the head of the loop. -/
def decision (nodePeriod : Option EffectiveDates) (setupFrom : Option Instant) :
    Except JavaException Decision :=
  match nodePeriod with
  | none => .ok .proceed
  | some nodePeriod =>
    match nodePeriod.effectiveTo, setupFrom with
    | none, _ => .ok .stop
    | some _, none => .error .nullPointer
    | some nodeEffectiveTo, some setupFrom =>
      .ok (if nodeEffectiveTo.compareTo setupFrom = 1 then .skip else .proceed)

/-- The loop of `handle` over the valid setups. -/
def createNodes (siteId : ℕ) : List SetupRow → Option EffectiveDates → Store →
    Except JavaException Store
  | [], _, st => return st
  | setup :: rest, nodePeriod, st => do
    match ← decision nodePeriod setup.setup.effectivePeriod.effectiveFrom with
    | .stop => return st
    | .skip => createNodes siteId rest nodePeriod st
    | .proceed =>
      if ← isCompleteCorsSetup st setup.setup then
        let nodePeriod ← nodePeriodOf st setup.setup
        match ← st.findBySetupId setup.id with
        | some _ => createNodes siteId rest (some nodePeriod) st
        | none =>
          createNodes siteId rest (some nodePeriod) { st with
            nextId := st.nextId + 1
            nodes := st.nodes
              ++ [⟨st.nextId, siteId, setup.id, EffectiveDates.reload (some nodePeriod), false⟩] }
      else createNodes siteId rest nodePeriod st

/-- `NodeService.handle`.  The two queries over `SETUP` list their rows in the given order. -/
def handle (rows : RowOrder) (e : SiteUpdated) (st : Store) : Except JavaException Store := do
  let some site := st.findCorsSite e.fourCharacterId | throw .nullPointer
  let st ← invalidateNodes (rows.arrange (st.findInvalidatedBySiteId site.id)) st
  let st ← createNodes site.id (rows.arrange (st.findSetupsBySiteId site.id)) none st
  return { st with handled := st.handled ++ [.siteUpdated e] }

end Geodesy.NodeService
