import Geodesy.Service.NodeService
import Geodesy.Library.TransitionSystem

/-!
# The system

Uploads come from requests; the two handlers run in the single event loop, each in a transaction of
its own.  A `Step` is one of these with the choices the code leaves open: the iteration order of
the loaded item sets and the order in which the queries list their rows.  A step that throws is
rolled back, so only steps that return normally change the store.

A `World` is the store with two records of what happened: which log was current when a site's log
was last handled, and whether `NodeService` has handled the site since.  Nothing in the services
reads them.
-/

namespace Geodesy

/-- One step of the system. -/
inductive Step
  | upload (siteLog : SiteLog)
  | siteLogReceived (load : LoadOrder) (rows : RowOrder) (e : SiteLogReceived)
  | siteUpdated (rows : RowOrder) (e : SiteUpdated)

/-- What a step does to the store. -/
def Step.run (lib : ListUtils) : Step → Store → Except JavaException Store
  | upload siteLog, st => CorsSiteLogService.upload siteLog st
  | siteLogReceived load rows e, st => CorsSiteService.handle lib load rows e st
  | siteUpdated rows e, st => NodeService.handle rows e st

/-- The store, and for each four character id the log that was last handled, as it was iterated,
and whether the nodes have been updated since. -/
structure World where
  store : Store
  lastLog : String → Option SiteLog
  nodesUpdated : String → Bool

namespace World

/-- Nothing stored, nothing handled. -/
def init : World := ⟨Store.empty, fun _ => none, fun _ => false⟩

/-- The log that a handler reads. -/
def readLog (w : World) (load : LoadOrder) (id : String) : Option SiteLog :=
  match w.store.findSiteLog id with
  | .ok (some l) => some (load.load l)
  | _ => none

/-- The world after a step that leaves the given store. -/
def after (w : World) (a : Step) (st : Store) : World :=
  match a with
  | .upload _ => { w with store := st }
  | .siteLogReceived load _ e =>
    { store := st
      lastLog := Function.update w.lastLog e.fourCharacterId (w.readLog load e.fourCharacterId)
      nodesUpdated := Function.update w.nodesUpdated e.fourCharacterId false }
  | .siteUpdated _ e =>
    { w with store := st, nodesUpdated := Function.update w.nodesUpdated e.fourCharacterId true }

/-- A step that returns normally. -/
def Takes (lib : ListUtils) (w : World) (a : Step) (w' : World) : Prop :=
  ∃ st, a.run lib w.store = .ok st ∧ w' = w.after a st

/-- The worlds that a run of steps satisfying `P` leads to. -/
def Reachable (lib : ListUtils) (P : Step → Prop) (w : World) : Prop :=
  ∃ as, TransitionSystem.Run (Takes lib) init as w ∧ ∀ a ∈ as, P a

/-- One more step. -/
lemma Reachable.step {lib : ListUtils} {P : Step → Prop} {w w' : World} {a : Step}
    (h : Reachable lib P w) (ha : P a) (hstep : Takes lib w a w') : Reachable lib P w' := by
  obtain ⟨as, hrun, hP⟩ := h
  refine ⟨as ++ [a], hrun.snoc hstep, ?_⟩
  intro b hb
  rcases List.mem_append.mp hb with hb | hb
  · exact hP b hb
  · rw [List.mem_singleton.mp hb]
    exact ha

lemma Reachable.init {lib : ListUtils} {P : Step → Prop} : Reachable lib P World.init :=
  ⟨[], .nil _, by simp⟩

/-- Fewer conditions on the steps, more reachable worlds. -/
lemma Reachable.mono {lib : ListUtils} {P Q : Step → Prop} {w : World} (hPQ : ∀ a, P a → Q a)
    (h : Reachable lib P w) : Reachable lib Q w := by
  obtain ⟨as, hrun, hP⟩ := h
  exact ⟨as, hrun, fun a ha => hPQ a (hP a ha)⟩

/-- What holds initially and is preserved by every admissible step holds in every reachable
world. -/
theorem Reachable.invariant {lib : ListUtils} {P : Step → Prop} {I : World → Prop}
    (hinit : I World.init) (hstep : ∀ w a w', P a → I w → Takes lib w a w' → I w')
    {w : World} (h : Reachable lib P w) : I w := by
  obtain ⟨as, hrun, hP⟩ := h
  exact hrun.invariant hstep hP hinit

/-- Performing a step: one that throws is rolled back. -/
def perform (lib : ListUtils) (w : World) (a : Step) : World :=
  match a.run lib w.store with
  | .ok st => w.after a st
  | .error _ => w

/-- A step that returns normally is performed. -/
lemma run_eq_perform {lib : ListUtils} {w : World} {a : Step}
    (h : (a.run lib w.store).isOk = true) : a.run lib w.store = .ok (w.perform lib a).store := by
  unfold World.perform
  cases hok : a.run lib w.store with
  | ok st => cases a <;> rfl
  | error _ => simp [hok, Except.isOk, Except.toBool] at h

/-- The world after the steps, one after the other. -/
def performAll (lib : ListUtils) (as : List Step) : World := as.foldl (perform lib) init

lemma Reachable.perform {lib : ListUtils} {P : Step → Prop} {w : World} {a : Step}
    (h : Reachable lib P w) (ha : P a) : Reachable lib P (w.perform lib a) := by
  unfold World.perform
  cases hok : a.run lib w.store with
  | ok st => exact h.step ha ⟨st, hok, rfl⟩
  | error _ => exact h

/-- Performing admissible steps leads to a reachable world. -/
lemma reachable_performAll {lib : ListUtils} {P : Step → Prop} {as : List Step}
    (hP : ∀ a ∈ as, P a) : Reachable lib P (performAll lib as) :=
  List.foldlRecOn as _ Reachable.init fun _ hw a ha => hw.perform (hP a ha)

/-- Whether the steps all return normally, one after the other. -/
def performs (lib : ListUtils) : World → List Step → Bool
  | _, [] => true
  | w, a :: as => (a.run lib w.store).isOk && performs lib (w.perform lib a) as

/-- A step that returns normally is taken. -/
lemma takes_perform {lib : ListUtils} {w : World} {a : Step}
    (h : (a.run lib w.store).isOk = true) : Takes lib w a (w.perform lib a) := by
  have hok := run_eq_perform h
  refine ⟨_, hok, ?_⟩
  conv_lhs => rw [World.perform, hok]

/-- Steps that all return normally are a run. -/
lemma run_of_performs {lib : ListUtils} : ∀ {as : List Step} {w : World}, performs lib w as = true →
    TransitionSystem.Run (Takes lib) w as (as.foldl (perform lib) w)
  | [], w, _ => .nil w
  | a :: as, w, h => by
      simp only [performs, Bool.and_eq_true] at h
      exact (TransitionSystem.Run.single (takes_perform h.1)).append (run_of_performs h.2)

end World

/-- A node update of the step lists the setups in ascending order. -/
def Step.ListsAscending : Step → Prop
  | siteUpdated rows _ => rows.Ascending
  | _ => True

/-! ## Sample logs

Logs that differ only in their equipment, for running the model on concrete input.
-/

namespace SiteLog

/-- Dates in whole seconds. -/
def sampleDates (from' : ℤ) (to' : Option ℤ) : Option EffectiveDates :=
  some ⟨some (Instant.ofEpochSecond from'), to'.map Instant.ofEpochSecond⟩

/-- A receiver with the given serial number. -/
def sampleReceiver (serialNumber : Option String) (dates : Option EffectiveDates) :
    GnssReceiverLogItem :=
  { type := some "LEICA GR10", satelliteSystem := some "GPS", serialNumber, firmwareVersion := none,
    elevationCutoffSetting := none, temperatureStabilization := none, notes := none,
    effectiveDates := dates, dateDeleted := none }

/-- An antenna. -/
def sampleAntenna (dates : Option EffectiveDates) : GnssAntennaLogItem :=
  { type := some "LEIAR25", serialNumber := some "A1", markerArpUpEcc := none,
    markerArpNorthEcc := none, markerArpEastEcc := none, alignmentFromTrueNorth := none,
    effectiveDates := dates, dateDeleted := none }

/-- A frequency standard with the given input frequency. -/
def sampleFrequencyStandard (inputFrequency : String) (dates : Option EffectiveDates) :
    FrequencyStandardLogItem :=
  { type := some "EXTERNAL RUBIDIUM", inputFrequency := some inputFrequency,
    effectiveDates := dates, dateDeleted := none }

/-- The log of a site with the given equipment. -/
def sample (id : String) (receivers : List GnssReceiverLogItem)
    (antennas : List GnssAntennaLogItem) (standards : List FrequencyStandardLogItem) : SiteLog :=
  { siteIdentification := ⟨id, none, none, none, none, none, none, none⟩
    gnssReceivers := receivers
    gnssAntennas := antennas
    humiditySensors := []
    frequencyStandards := standards
    siteLogText := "" }

/-- A receiver and an antenna, with a clock for the first quarter of their time. -/
def clockRemoved : SiteLog :=
  sample "ADE1" [sampleReceiver (some "R1") (sampleDates 0 (some 20))]
    [sampleAntenna (sampleDates 0 (some 20))]
    [sampleFrequencyStandard "5 MHz" (sampleDates 0 (some 5))]

/-- A receiver and an antenna with two clocks, one after the other. -/
def clockReplaced : SiteLog :=
  sample "ADE1" [sampleReceiver (some "R1") (sampleDates 0 (some 10))]
    [sampleAntenna (sampleDates 0 (some 10))]
    [sampleFrequencyStandard "5 MHz" (sampleDates 0 (some 5)),
      sampleFrequencyStandard "5 MHz" (sampleDates 5 (some 10))]

/-- The same equipment without the first clock. -/
def clockAdded : SiteLog :=
  sample "ADE1" [sampleReceiver (some "R1") (sampleDates 0 (some 10))]
    [sampleAntenna (sampleDates 0 (some 10))]
    [sampleFrequencyStandard "5 MHz" (sampleDates 5 (some 10))]

/-- A receiver and an antenna for the whole time. -/
def clockless : SiteLog :=
  sample "ADE1" [sampleReceiver (some "R1") (sampleDates 0 (some 20))]
    [sampleAntenna (sampleDates 0 (some 20))] []

/-- A clock of the same type at another site. -/
def otherSite : SiteLog :=
  sample "ADE2" [] [] [sampleFrequencyStandard "10 MHz" (sampleDates 0 (some 5))]

/-- A receiver without a serial number, and an antenna. -/
def serialless : SiteLog :=
  sample "ADE1" [sampleReceiver none (sampleDates 0 none)] [sampleAntenna (sampleDates 0 none)] []

end SiteLog

/-- A log is uploaded and its setups are computed. -/
def Step.received (l : SiteLog) : List Step :=
  [.upload l, .siteLogReceived .asListed .asStored ⟨l.fourCharacterId, l.siteLogText⟩]

/-- A log is uploaded, its setups are computed and its nodes updated, in ascending order. -/
def Step.receivedAndUpdated (l : SiteLog) : List Step :=
  Step.received l ++ [.siteUpdated .chronological ⟨l.fourCharacterId⟩]

lemma Step.forall_receivedAndUpdated {P : Step → Prop} {l : SiteLog} :
    (∀ a ∈ receivedAndUpdated l, P a) ↔ P (.upload l) ∧
      P (.siteLogReceived .asListed .asStored ⟨l.fourCharacterId, l.siteLogText⟩) ∧
      P (.siteUpdated .chronological ⟨l.fourCharacterId⟩) := by
  simp [receivedAndUpdated, received]

end Geodesy
