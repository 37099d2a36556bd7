import Geodesy.Setups.Contributions
import Geodesy.Setups.OtherSites
import Geodesy.Setups.Timeline

/-!
# The setups show the log

After a log was handled, an item is in every valid setup within its dates, and the rows behind its
entry say what the log says.  The setups that are kept from an earlier log are not written, so this
rests on the configuration: it is looked up by equipment and start date and overwritten in place
while the new setups are computed.  An entry `Shows` its item when the configuration has the item's
details, and only an item with the same `lookupKey` can change that.
-/

namespace Geodesy

open CorsSiteService EquipmentLogItem

/-- What the lookups of equipment and configuration go by; frequency standards have no serial
number. -/
def EquipmentLogItem.lookupKey (x : EquipmentLogItem) :
    EquipmentClass × Option String × Option String × Option Instant :=
  (x.equipmentClass, x.type, x.serialNumber, x.effectiveFrom)

/-- The entry represents the item, and its configuration has the details of the item. -/
structure Shows (st : Store) (u : EquipmentInUse) (x : EquipmentLogItem) : Prop where
  represents : Represents st u x
  details : ∃ c ∈ st.configurations, c.id = u.configurationId ∧ c.config.details = x.details ∧
    c.config.equipmentId = u.equipmentId ∧ c.config.configurationTime = x.effectiveFrom

/-- The entry that placing an item adds shows the item. -/
lemma shows_inUse (x : EquipmentLogItem) (st : Store) : Shows (x.place st) (x.inUse st) x where
  represents := represents_inUse x st
  details := by
    cases hfind : st.configurations.find? (x.configures (x.equipmentId st)) with
    | some c =>
        have hc := List.mem_of_find?_eq_some hfind
        have hconf : x.configures (x.equipmentId st) c := List.find?_some hfind
        refine ⟨x.reconfigure (x.equipmentId st) c,
          List.mem_append_left _ (List.mem_map_of_mem hc), ?_, ?_, ?_⟩
        · simp [inUse, configurationId, hfind]
        · simp [reconfigure, hconf]
        · simp only [configures, Bool.and_eq_true, decide_eq_true_eq, sqlEq_iff] at hconf
          simp [inUse, hconf]
    | none =>
        refine ⟨_, List.mem_append_right _ (mem_newConfiguration.mpr ⟨?_, rfl⟩), ?_⟩
        · exact List.find?_eq_none.mp hfind
        · simp [inUse, configurationId, hfind]

/-- An item that finds the configuration of an entry has the lookup key of the item that the entry
represents. -/
lemma Represents.lookupKey_eq {st : Store} (hreg : Registry st) {u : EquipmentInUse}
    {x y : EquipmentLogItem} (h : Represents st u x) {c : EquipmentConfigurationRow}
    (hc : c ∈ st.configurations) (hequipment : c.config.equipmentId = u.equipmentId)
    (htime : c.config.configurationTime = x.effectiveFrom)
    (hy : y.configures (y.equipmentId st) c = true) : y.lookupKey = x.lookupKey := by
  obtain ⟨e, he, hid, hclass⟩ := hreg.owner c hc
  obtain ⟨e', he', hid', hclass', htype', hserial'⟩ := h.equipment
  obtain rfl := hreg.equipmentKeys.eq_of_key he he' (hid.trans (hequipment.trans hid'.symm))
  rw [configures_iff_finds hreg he hid hclass, finds, Bool.and_eq_true, sqlEq_iff] at hy
  obtain ⟨href, hfrom, -⟩ := hy
  obtain ⟨hyclass, hytype, hyserial⟩ := (y.refersTo_iff e).mp href
  have hsame : y.equipmentClass = x.equipmentClass := hyclass.symm.trans hclass'
  have hserials : y.serialNumber = x.serialNumber := by
    by_cases hclock : x.equipmentClass = .clock
    · rw [serialNumber_of_clock hclock, serialNumber_of_clock (hsame.trans hclock)]
    · have hx := hserial'.resolve_left hclock
      have hy := (hyserial.resolve_left (hsame ▸ hclock)).1
      exact hy.symm.trans hx
  simp only [lookupKey, Prod.mk.injEq]
  exact ⟨hsame, hytype.symm.trans htype', hserials, hfrom.symm.trans htime⟩

/-- While items with different lookup keys are placed, the entries go on showing their items. -/
lemma kept_shows {xs : List EquipmentLogItem} (hkeys : (xs.map lookupKey).Nodup) :
    Kept Registry (· ∈ xs) Shows where
  invariant s _ hreg := by
    rw [addEquipmentToSetup_eq hreg]
    exact hreg.place _
  added s _ hreg := by
    rw [addEquipmentToSetup_eq hreg]
    exact ⟨_, rfl, shows_inUse _ _⟩
  kept := by
    intro x y st u s hx hy hreg h
    rw [addEquipmentToSetup_eq hreg]
    refine ⟨h.represents.mono (extends_place y st), ?_⟩
    obtain ⟨c, hc, hid, hdetails, hequipment, htime⟩ := h.details
    refine ⟨y.reconfigure (y.equipmentId st) c, List.mem_append_left _ (List.mem_map_of_mem hc),
      by simpa using hid, ?_, by simpa using hequipment, by simpa using htime⟩
    by_cases hconf : y.configures (y.equipmentId st) c = true
    · -- only the item itself finds the configuration, and it writes what is there
      have hkey := h.represents.lookupKey_eq hreg hc hequipment htime hconf
      obtain rfl := List.inj_on_of_nodup_map hkeys hy hx hkey
      simp [reconfigure, hconf]
    · simpa [reconfigure, hconf] using hdetails

/-! ## After the call -/

/-- What the queries by key find behind an entry: the item's class and type, its serial number
except for clocks, and in the configuration everything that the item's `visit` method copies. -/
structure Projects (st : Store) (u : EquipmentInUse) (x : EquipmentLogItem) : Prop where
  period : u.period = x.effectiveDates
  equipment : ∃ e, st.findEquipment u.equipmentId = some e ∧
    e.equipmentClass = x.equipmentClass ∧ e.type = x.type ∧
    (x.equipmentClass = .clock ∨ e.serialNumber = x.serialNumber)
  configuration : ∃ c, st.findConfiguration u.configurationId = some c ∧
    c.config.details = x.details

lemma Shows.projects {st : Store} (hreg : Registry st) {u : EquipmentInUse} {x : EquipmentLogItem}
    (h : Shows st u x) : Projects st u x where
  period := h.represents.period
  equipment := by
    obtain ⟨e, he, hid, hvalues⟩ := h.represents.equipment
    exact ⟨e, hid ▸ findEquipment_eq hreg he, hvalues⟩
  configuration := by
    obtain ⟨c, hc, hid, hdetails, -⟩ := h.details
    exact ⟨c, hid ▸ findConfiguration_eq hreg hc, hdetails⟩

/-- **The setups of a site show the log that was handled last.**  When no two items of the log have
the same lookup key and their dates are in order, then right after the call every item that is no
correction has, in each valid setup of the site within its dates, an entry that projects it.  The
setups that were kept, although an earlier log had other details, are no exception. -/
theorem handled_log_is_projected {lib : ListUtils} {w : World}
    (hw : World.Reachable lib (fun _ => True) w) {load : LoadOrder} {rows : RowOrder}
    {e : SiteLogReceived} {st' : Store} (hok : handle lib load rows e w.store = .ok st')
    {log : SiteLog} (hread : w.store.findSiteLog e.fourCharacterId = .ok (some log))
    (hkeys : (log.equipmentLogItems.map lookupKey).Nodup)
    (hdated : ∀ x ∈ log.equipmentLogItems, x.DatedInOrder) {k : ℕ}
    (hk : st'.siteId e.fourCharacterId = some k) :
    ∀ x ∈ log.equipmentLogItems, ¬ x.IsCorrection → ∀ r ∈ st'.findSetupsBySiteId k,
      EffectiveDates.toPeriod (some r.setup.effectivePeriod)
        ≤ EffectiveDates.toPeriod x.effectiveDates →
      ∃ u ∈ r.setup.equipmentInUse, Projects st' u x := by
  obtain ⟨l, site, saved, N, hby⟩ := handle_inv hw.tracks.tables hok
  obtain ⟨log', hread', rfl⟩ := hby.read
  obtain rfl : log = log' := by
    rw [hread] at hread'
    exact Option.some.inj (Except.ok.inj hread')
  have hperm := (load.load_iterates log).perm_equipmentLogItems
  have hkeys' : ((load.load log).equipmentLogItems.map lookupKey).Nodup :=
    (hperm.map _).nodup_iff.mpr hkeys
  -- what the computed setups hold, over the store in which they were computed
  obtain ⟨N', placed, hget, -, hshows⟩ := getSetups_receives (kept_shows hkeys') site.id _
    (hby.siteSaved.registry hw.tracks.tables.registry) (fun _ hx => hx) hby.accepted
  obtain ⟨rfl, rfl⟩ := Prod.mk.inj (Except.ok.inj (hby.getSetups_eq.symm.trans hget))
  intro x hx hcorrection r hr hwithin
  have hsite : k = site.id := by
    rw [hby.siteId_eq, hby.siteSaved.siteId_eq] at hk
    exact (Option.some.inj hk).symm
  have hmem : r.setup ∈ N :=
    (hby.replacesSetups hw.tracks).valid.subset (List.mem_map_of_mem (hsite ▸ hr))
  have heffect : x ∈ (load.load log).equipmentLogItems.filter
      (·.inEffectDuring r.setup.effectivePeriod) := by
    refine List.mem_filter.mpr ⟨hperm.mem_iff.mpr hx, ?_⟩
    exact ((hdated x hx).inEffectDuring_iff _).mpr ⟨hcorrection, hwithin⟩
  obtain ⟨u, hu, hshow⟩ := (hshows _ hmem).exists_left heffect
  obtain ⟨hperiod, hequipment, hconfiguration⟩ := hshow.projects (hby.registry_placed
    hw.tracks.tables)
  refine ⟨u, hu, hperiod, ?_, ?_⟩
  · rw [hby.result]
    exact hequipment
  · rw [hby.result]
    exact hconfiguration

/-- A clock that is taken away, with another input frequency. -/
def SiteLog.clockRetuned : SiteLog :=
  sample "ADE1" [sampleReceiver (some "R1") (sampleDates 0 (some 20))]
    [sampleAntenna (sampleDates 0 (some 20))]
    [sampleFrequencyStandard "10 MHz" (sampleDates 0 (some 5))]

/-- The setups of a site were computed, and its log was uploaded with another input frequency. -/
def retuned : World :=
  World.performAll .ofContains
    (Step.received SiteLog.clockRemoved ++ [.upload SiteLog.clockRetuned])

/-- The second log was handled. -/
def retunedHandled : World :=
  retuned.perform .ofContains (.siteLogReceived .asListed .asStored ⟨"ADE1", ""⟩)

/-- No setup is replaced, and the clock of the first one has the new input frequency. -/
theorem handled_log_is_projected_retuned :
    retunedHandled.store.setups = retuned.store.setups ∧
    ∀ x ∈ SiteLog.clockRetuned.equipmentLogItems, ¬ x.IsCorrection →
      ∀ r ∈ retunedHandled.store.findSetupsBySiteId 1,
        EffectiveDates.toPeriod (some r.setup.effectivePeriod)
          ≤ EffectiveDates.toPeriod x.effectiveDates →
        ∃ u ∈ r.setup.equipmentInUse, Projects retunedHandled.store u x := by
  have hreach : World.Reachable .ofContains (fun _ => True) retuned :=
    World.reachable_performAll fun _ _ => trivial
  refine ⟨by decide +kernel, handled_log_is_projected hreach
    (World.run_eq_perform (a := .siteLogReceived .asListed .asStored ⟨"ADE1", ""⟩)
      (by decide +kernel)) ?_ (by decide) (by decide) ?_⟩
  · decide +kernel
  · decide +kernel

end Geodesy
