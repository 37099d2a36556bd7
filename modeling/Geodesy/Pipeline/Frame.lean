import Geodesy.Nodes.History

/-!
# What the handlers read

`CorsSiteService.handle` reads one site log and no published event, and `NodeService.handle` reads
neither.  So in a store with other logs and other published events (`Store.withLogs`) they do the
same to the other tables, as long as the log of the station is the same.
-/

namespace Geodesy

/-- The store with other site logs and published events. -/
def Store.withLogs (st : Store) (siteLogs : List SiteLog) (published : List DomainEvent) : Store :=
  { st with siteLogs, published }

variable {st : Store} {siteLogs : List SiteLog} {published : List DomainEvent}

@[simp] lemma Store.withLogs_withLogs (siteLogs' : List SiteLog) (published' : List DomainEvent) :
    (st.withLogs siteLogs' published').withLogs siteLogs published =
      st.withLogs siteLogs published := rfl

lemma Store.withLogs_self (st : Store) : st.withLogs st.siteLogs st.published = st := rfl

namespace EquipmentFactory

lemma getEquipment_withLogs (c : EquipmentClass) (x : EquipmentLogItem) :
    getEquipment c x (st.withLogs siteLogs published) =
      ((getEquipment c x st).1, (getEquipment c x st).2.withLogs siteLogs published) := by
  have hfind : (st.withLogs siteLogs published).findOneEquipment c x.type x.serialNumber =
      st.findOneEquipment c x.type x.serialNumber := rfl
  simp only [getEquipment, hfind]
  split <;> rfl

lemma getClock_withLogs (i : FrequencyStandardLogItem) :
    getClock i (st.withLogs siteLogs published) =
      ((getClock i st).1, (getClock i st).2.withLogs siteLogs published) := by
  have hfind : (st.withLogs siteLogs published).findByEquipmentType .clock =
      st.findByEquipmentType .clock := rfl
  simp only [getClock, hfind]
  split <;> rfl

lemma getConfiguration_withLogs (blank : ConfigurationDetails) (equipId : ℕ)
    (x : EquipmentLogItem) : getConfiguration blank equipId x (st.withLogs siteLogs published) =
      getConfiguration blank equipId x st := rfl

/-- An item becomes the same equipment and configuration. -/
lemma create_withLogs (x : EquipmentLogItem) : create x (st.withLogs siteLogs published) =
    ((create x st).1, (create x st).2.withLogs siteLogs published) := by
  cases x with
  | gnssReceiver i =>
      simp only [create, visitGnssReceiver, getEquipment_withLogs, getConfiguration_withLogs]
  | gnssAntenna i =>
      simp only [create, visitGnssAntenna, getEquipment_withLogs, getConfiguration_withLogs]
  | humiditySensor i =>
      simp only [create, visitHumiditySensor, getEquipment_withLogs, getConfiguration_withLogs]
  | frequencyStandard i =>
      simp only [create, visitFrequencyStandard, getClock_withLogs, getConfiguration_withLogs]

end EquipmentFactory

namespace CorsSiteService

lemma addEquipmentToSetup_withLogs (x : EquipmentLogItem) (s : Setup) :
    addEquipmentToSetup x s (st.withLogs siteLogs published) =
      ((addEquipmentToSetup x s st).1,
        (addEquipmentToSetup x s st).2.withLogs siteLogs published) := by
  simp only [addEquipmentToSetup, EquipmentFactory.create_withLogs]
  cases (EquipmentFactory.create x st).1.configurationId <;> rfl

lemma addEquipmentToSetups_withLogs (x : EquipmentLogItem) (setups : List Setup) (st : Store) :
    addEquipmentToSetups x setups (st.withLogs siteLogs published) =
      ((addEquipmentToSetups x setups st).1,
        (addEquipmentToSetups x setups st).2.withLogs siteLogs published) := by
  induction setups generalizing st with
  | nil => rfl
  | cons s rest ih => simp only [addEquipmentToSetups, addEquipmentToSetup_withLogs, ih]

/-- The items are placed in the same setups, or run off the list as they did. -/
lemma addAllEquipment_withLogs (xs : List EquipmentLogItem) (setups : List Setup) (st : Store) :
    addAllEquipment xs setups (st.withLogs siteLogs published) =
      (addAllEquipment xs setups st).map fun r => (r.1, r.2.withLogs siteLogs published) := by
  induction xs generalizing setups st with
  | nil => rfl
  | cons x rest ih =>
      simp only [addAllEquipment, addEquipment, bind, Except.bind, pure, Except.pure]
      cases placement x setups with
      | error ex => rfl
      | ok placed => simp only [addEquipmentToSetups_withLogs, ih]

lemma saveCorsSite_withLogs (id : String) (l : SiteLog) :
    saveCorsSite id l (st.withLogs siteLogs published) =
      ((saveCorsSite id l st).1, (saveCorsSite id l st).2.withLogs siteLogs published) := by
  have hfind : (st.withLogs siteLogs published).findCorsSite id = st.findCorsSite id := rfl
  simp only [saveCorsSite, hfind]
  split <;> rfl

/-- **A received log is handled the same** where the log of its station is the same. -/
theorem handle_withLogs (lib : ListUtils) (load : LoadOrder) (rows : RowOrder)
    (e : SiteLogReceived)
    (hread : (st.withLogs siteLogs published).findSiteLog e.fourCharacterId =
      st.findSiteLog e.fourCharacterId) :
    handle lib load rows e (st.withLogs siteLogs published) =
      (handle lib load rows e st).map fun st' =>
        st'.withLogs siteLogs (published ++ [.siteUpdated ⟨e.fourCharacterId⟩]) := by
  simp only [handle, hread, bind, Except.bind, pure, Except.pure]
  cases hlog : st.findSiteLog e.fourCharacterId with
  | error ex => rfl
  | ok found =>
      cases found with
      | none => rfl
      | some log =>
          simp only [saveCorsSite_withLogs, getSetups, addAllEquipment_withLogs]
          cases addAllEquipment (load.load log).equipmentLogItems _
            (saveCorsSite e.fourCharacterId (load.load log) st).2 with
          | error ex => rfl
          | ok placed => rfl

end CorsSiteService

/-- **The nodes of a station are updated the same.** -/
theorem nodeService_withLogs {rows : RowOrder} {e : SiteUpdated} (h : NodeReady st) :
    NodeService.handle rows e (st.withLogs siteLogs published) =
      (NodeService.handle rows e st).map (·.withLogs siteLogs published) := by
  have h' : NodeReady (st.withLogs siteLogs published) :=
    ⟨h.nodeKeys, h.unique, h.setupKeys, h.furnished, h.started⟩
  cases hsite : st.findCorsSite e.fourCharacterId with
  | none =>
      rw [nodeService_of_none hsite, nodeService_of_none]
      · rfl
      · exact hsite
  | some site =>
      rw [nodeService_eq h hsite, nodeService_eq h' hsite]
      rfl

end Geodesy
