import Geodesy.Mapper.SiteLogs
import Geodesy.Setups.SameEquipment

/-!
# Downloading a site log and uploading it again

A client takes the site log of a station in GeodesyML, changes it and uploads it.  If it changes
nothing, the log that comes back is still another one: the items are new objects in another order,
and numbers may be written in another way.  The services do not mind
(`downloaded_log_unchanged`): the setups answer as before at every instant, and where there is one
item of each class at a time and entries are listed class by class they all stay.
-/

namespace Geodesy.Mapper

open LogItems SiteLogMapper EquipmentLogItem

variable {δ O S P : Type} {Rs : EquipmentClass → Type}

/-- The items of a log, class by class. -/
lemma getEquipmentLogItems_toSiteLog (bits : δ → Double) (e : SiteLogEntity δ O) :
    (e.toSiteLog bits).getEquipmentLogItems =
      [.gnssReceiver, .gnssAntenna, .humiditySensor, .clock].flatMap fun k =>
        (e.items k).map (·.toEquipment bits k) := by
  simp [SiteLog.getEquipmentLogItems, SiteLogEntity.toSiteLog, SiteLogEntity.items,
    LogItem.toEquipment, Function.comp_def]

lemma key_reload_toEquipment (bits : δ → Double) {k : EquipmentClass}
    (x : LogItem δ (logItemClass k)) : (x.toEquipment bits k).reload.key =
      (k, x.get typeField, x.get serialNumber, EffectiveDates.reload x.getEffectiveDates) := by
  have hreload : ∀ y : EquipmentLogItem, y.reload.key =
      (y.equipmentClass, y.type, y.serialNumber, EffectiveDates.reload y.effectiveDates) := by
    intro y
    cases y <;> rfl
  rw [hreload, LogItem.equipmentClass_toEquipment, LogItem.type_toEquipment,
    LogItem.serialNumber_toEquipment, LogItem.effectiveDates_toEquipment]

/-- The keys of the items that were not deleted, class by class. -/
lemma map_key_equipmentLogItems (bits : δ → Double) (e : SiteLogEntity δ O) :
    (e.toSiteLog bits).reload.equipmentLogItems.map key =
      [.gnssReceiver, .gnssAntenna, .humiditySensor, .clock].flatMap fun k =>
        ((e.items k).filter (·.get dateDeleted = none)).map fun x =>
          (x.toEquipment bits k).reload.key := by
  rw [SiteLog.equipmentLogItems_reload, SiteLog.equipmentLogItems, getEquipmentLogItems_toSiteLog,
    List.filter_flatMap, List.map_map, List.map_flatMap]
  refine List.flatMap_congr fun k _ => ?_
  rw [List.filter_map, List.map_map]
  simp [Function.comp_def]

/-- A restored log has the same equipment. -/
lemma sameEquipment_of_restored (bits : δ → Double) {e e' : SiteLogEntity δ O}
    (hmillis : e.WholeMillis) (h : e.RestoredAs e') :
    (e'.toSiteLog bits).reload.SameEquipment (e.toSiteLog bits).reload := by
  rw [SiteLog.SameEquipment, map_key_equipmentLogItems, map_key_equipmentLogItems]
  refine List.Perm.flatMap_left _ fun k _ => ?_
  obtain ⟨order, hperm, hmatched⟩ := h k
  have hsame : List.Forall₂ (fun x y =>
      (y.get dateDeleted = none ↔ x.get dateDeleted = none) ∧
        (x.toEquipment bits k).reload.key = (y.toEquipment bits k).reload.key)
      order (e'.items k) := by
    refine hmatched.imp_of_mem ?_
    intro x hx y _ hxy
    refine ⟨by rw [hxy.dateDeleted, Option.map_eq_none_iff], ?_⟩
    rw [key_reload_toEquipment, key_reload_toEquipment, hxy.type, hxy.serialNumber,
      hxy.effectiveDates, hmillis k x (hperm.subset hx)]
  have hfilter := List.rel_filter (p := fun x => decide (x.get dateDeleted = none))
    (q := fun y => decide (y.get dateDeleted = none)) (fun x y hxy => by simp [hxy.1]) hsame
  rw [← hfilter.map_eq_map fun _ _ hxy => hxy.2]
  exact (hperm.filter _).map _

/-- **A downloaded log that is uploaded again changes nothing.**  The stored log of a station, whose
dates are in whole milliseconds, was handled and is written in GeodesyML.  Then it can be read,
uploaded and handled, and at every instant the setups list the equipment that they listed before, in
whichever order queries list the entries of setups.  If the equipment can be found again, there is
one item of each class at a time, and the setups of the station are listed with their entries class
by class, no setup is invalidated and no setup, equipment or configuration is created. -/
theorem downloaded_log_unchanged [LinearOrder δ] {lib : ListUtils} {w : World}
    (hw : World.ReachableListed lib (fun _ _ => True) w) (bits : δ → Double)
    {others : Others δ O S P Rs} {e : SiteLogEntity δ O} {id : String}
    (hid : e.siteIdentification.fourCharacterId = id)
    (hstored : w.store.findSiteLog id = .ok (some (e.toSiteLog bits).reload))
    {load : LoadOrder} (hhandled : w.lastLog id = w.readLog load id) (hmillis : e.WholeMillis)
    {log : SiteLogMapper.SiteLogType S P Rs} (hlog : fromEntity others e = .ok log)
    (siteLogText : String) :
    ∃ e', toEntity others siteLogText log = .ok e' ∧
      ∀ (load' : LoadOrder) (rows : RowOrder) (entries : EntryOrder), ∃ w₁ w₂,
        World.Takes lib w (.upload (e'.toSiteLog bits)) w₁ ∧
        World.TakesListed lib w₁ ⟨entries, .siteLogReceived load' rows ⟨id, siteLogText⟩⟩ w₂ ∧
        (∀ k, w.store.siteId id = some k → ∀ t,
          List.Forall₂ (SameContents w.store w₂.store)
            (w.store.setupsAt k t) (w₂.store.setupsAt k t)) ∧
        ((∀ x ∈ (load.load (e.toSiteLog bits).reload).placements, x.Lookupable) →
          (load.load (e.toSiteLog bits).reload).OneOfEachClass →
          (∀ k, w.store.siteId id = some k → (w.store.listed entries).ListsByClass k) →
            NothingNew (w.store.listed entries) w₂.store) := by
  obtain ⟨e', hread, hid', htext, hrestored⟩ := exists_toEntity hlog siteLogText
  have hlast : w.lastLog (e'.toSiteLog bits).fourCharacterId =
      some (load.load (e.toSiteLog bits).reload) := by
    change w.lastLog e'.siteIdentification.fourCharacterId = _
    rw [hid', hid, hhandled, World.readLog, hstored]
  have hsame : (e'.toSiteLog bits).reload.SameEquipment (load.load (e.toSiteLog bits).reload) :=
    (sameEquipment_of_restored bits hmillis hrestored).trans
      (load.load_iterates _).symm.sameEquipment
  refine ⟨e', hread, fun load' rows entries => ?_⟩
  have hdone := SiteLog.SameEquipment.exists_handled hw hlast hsame load' rows entries
  have hstation : (e'.toSiteLog bits).fourCharacterId = id := hid'.trans hid
  have htext' : (e'.toSiteLog bits).siteLogText = siteLogText := htext
  rwa [hstation, htext'] at hdone

/-- Class maps without other fields, and logs without other parts. -/
def withoutOthers : Others ℤ Unit Unit Unit fun _ => Unit where
  siteIdentification := ⟨fun _ => .ok (),
    fun _ => .ok ⟨"", none, none, none, none, none, none, none⟩, fun _ _ _ => ⟨_, rfl⟩⟩
  equipment _ := ⟨fun _ => .ok (), fun _ => .ok (.ofValues _ fun _ => none), fun _ _ _ => ⟨_, rfl⟩⟩
  otherParts := ⟨fun _ => .ok (), fun _ => .ok (), fun _ _ _ => ⟨_, rfl⟩⟩

/-- A log with a receiver, and an antenna that stood before it did. -/
def receiverAndAntenna : SiteLogEntity ℤ Unit where
  siteIdentification := ⟨"ADE1", none, none, none, none, none, none, none⟩
  gnssReceivers := [(((LogItem.ofValues _ fun _ => none).set typeField (some "LEICA GR10")).set
    serialNumber (some "R1")).set dateInstalled (some (.ofEpochSecond 5))]
  gnssAntennas := [(((LogItem.ofValues _ fun _ => none).set typeField (some "LEIAR25")).set
    serialNumber (some "A1")).set dateInstalled (some (.ofEpochSecond 0))]
  humiditySensors := []
  frequencyStandards := []
  otherParts := ()
  siteLogText := ""

/-- The world that has handled it. -/
def receiverHandled : World :=
  World.performAll .ofContains (Step.received (receiverAndAntenna.toSiteLog fun _ => 0))

/-- Two setups, which both stay where their entries are listed as they were saved. -/
theorem downloaded_log_unchanged_receiver :
    receiverHandled.store.setups.length = 2 ∧
      ∃ log e', fromEntity withoutOthers receiverAndAntenna = .ok log ∧
        toEntity withoutOthers "<xml/>" log = .ok e' ∧ ∃ w₁ w₂,
          World.Takes .ofContains receiverHandled (.upload (e'.toSiteLog fun _ => 0)) w₁ ∧
          World.TakesListed .ofContains w₁
            ⟨.asSaved, .siteLogReceived .asListed .asStored ⟨"ADE1", "<xml/>"⟩⟩ w₂ ∧
          NothingNew receiverHandled.store w₂.store := by
  have hwritten : (fromEntity withoutOthers receiverAndAntenna).isOk = true := by decide +kernel
  obtain ⟨log, hlog⟩ : ∃ log, fromEntity withoutOthers receiverAndAntenna = .ok log := by
    cases h : fromEntity withoutOthers receiverAndAntenna with
    | ok log => exact ⟨log, rfl⟩
    | error _ =>
        rw [h] at hwritten
        cases hwritten
  have hmillis : receiverAndAntenna.WholeMillis := by
    intro k
    cases k <;> decide
  have hreach : World.Reachable .ofContains (fun _ => True) receiverHandled :=
    World.reachable_performAll fun _ _ => trivial
  have hstored : receiverHandled.store.findSiteLog "ADE1" =
      .ok (some (receiverAndAntenna.toSiteLog fun _ => 0).reload) := by decide +kernel
  have hhandled : receiverHandled.lastLog "ADE1" =
      receiverHandled.readLog .asListed "ADE1" := by decide +kernel
  obtain ⟨e', hread, hall⟩ := downloaded_log_unchanged (hreach.listed.mono fun _ _ _ => trivial)
    (fun _ => 0) rfl hstored hhandled hmillis hlog "<xml/>"
  obtain ⟨w₁, w₂, hupload, hreceived, -, hnew⟩ := hall .asListed .asStored .asSaved
  have hlisted : ∀ k, receiverHandled.store.siteId "ADE1" = some k →
      (receiverHandled.store.listed .asSaved).ListsByClass k := by
    intro k hk
    obtain rfl : k = 1 := Option.some.inj (hk.symm.trans (by decide +kernel))
    unfold Store.ListsByClass
    decide +kernel
  have hkept := hnew (by decide +kernel) (by unfold SiteLog.OneOfEachClass; decide +kernel) hlisted
  rw [Store.listed_asSaved] at hkept
  exact ⟨by decide +kernel, log, e', hlog, hread, w₁, w₂, hupload, hreceived, hkept⟩

end Geodesy.Mapper
