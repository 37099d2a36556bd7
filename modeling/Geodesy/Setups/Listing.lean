import Geodesy.Service.Listing
import Geodesy.Setups.History

/-!
# Whole runs whose queries list entries in any order

Listed in another order a setup no longer realises its plan entry by entry, but its entries still
stand for the planned items (`Equips`).  `TracksListed` is the invariant of `Tracks` with this
weaker relation; it survives a listing in any order, and every step keeps it.
-/

namespace Geodesy

/-- The setup is the planned one: its entries represent the planned items, in some order. -/
structure Equips (st : Store) (siteId : ℕ) (s : Setup) (p : PlannedSetup) : Prop where
  siteId_eq : s.siteId = siteId
  name_eq : s.name = CorsSiteService.gnssCorsSetupName
  period_eq : s.effectivePeriod = p.period
  represents : ∃ items, items.Perm p.items ∧ List.Forall₂ (Represents st) s.equipmentInUse items

/-- The valid setups of the site are those that the log plans, one for each. -/
def SetupsEquip (st : Store) (siteId : ℕ) (l : SiteLog) : Prop :=
  ∃ plans, plans.Perm l.plan ∧
    List.Forall₂ (fun (r : SetupRow) p => Equips st siteId r.setup p)
      (st.findSetupsBySiteId siteId) plans

section Equips

variable {st st' : Store} {k : ℕ} {s : Setup} {p : PlannedSetup} {l : SiteLog}

lemma Realises.equips (h : Realises st k s p) : Equips st k s p :=
  ⟨h.siteId_eq, h.name_eq, h.period_eq, p.items, .refl _, h.represents⟩

lemma Equips.mono (h : Equips st k s p) (hext : Extends st st') : Equips st' k s p := by
  obtain ⟨items, hperm, hitems⟩ := h.represents
  exact { h with represents := ⟨items, hperm, hitems.imp fun _ _ hu => hu.mono hext⟩ }

/-- What an entry stands for does not depend on how entries are listed. -/
lemma Represents.listed_iff {entries : EntryOrder} {u : EquipmentInUse} {x : EquipmentLogItem} :
    Represents (st.listed entries) u x ↔ Represents st u x :=
  ⟨fun h => ⟨h.period, h.equipment, h.configuration⟩,
    fun h => ⟨h.period, h.equipment, h.configuration⟩⟩

/-- A setup stands for the same items however its entries are listed. -/
lemma Equips.listed {r : SetupRow} (h : Equips st k r.setup p) (entries : EntryOrder) :
    Equips (st.listed entries) k (entries.read r).setup p := by
  obtain ⟨items, hperm, hitems⟩ := h.represents
  obtain ⟨items', hitems', hperm'⟩ := List.perm_comp_forall₂ (entries.read_perm r) hitems
  exact ⟨h.siteId_eq, h.name_eq, h.period_eq, items', hperm'.trans hperm,
    hitems'.imp fun _ _ hu => Represents.listed_iff.mpr hu⟩

lemma SetupsRealise.equip (h : SetupsRealise st k l) : SetupsEquip st k l := by
  obtain ⟨N, hperm, hreal⟩ := h
  obtain ⟨plans, hplans, hperm'⟩ := List.perm_comp_forall₂ hperm hreal
  rw [List.forall₂_map_left_iff] at hplans
  exact ⟨plans, hperm', hplans.imp fun _ _ hr => hr.equips⟩

namespace SetupsEquip

lemma mono (h : SetupsEquip st k l) (hext : Extends st st')
    (hvalid : st'.findSetupsBySiteId k = st.findSetupsBySiteId k) : SetupsEquip st' k l := by
  obtain ⟨plans, hperm, hplans⟩ := h
  exact ⟨plans, hperm, hvalid ▸ hplans.imp fun _ _ hr => hr.mono hext⟩

lemma listed (h : SetupsEquip st k l) (entries : EntryOrder) :
    SetupsEquip (st.listed entries) k l := by
  obtain ⟨plans, hperm, hplans⟩ := h
  refine ⟨plans, hperm, ?_⟩
  rw [st.findSetupsBySiteId_listed, List.forall₂_map_left_iff]
  exact hplans.imp fun _ _ hr => hr.listed entries

/-- The periods are those of the log. -/
lemma map_period_perm (h : SetupsEquip st k l) :
    ((st.findSetupsBySiteId k).map (·.setup.effectivePeriod)).Perm l.periods := by
  obtain ⟨plans, hperm, hplans⟩ := h
  rw [hplans.map_eq_map fun _ _ hr => hr.period_eq, ← l.map_period_plan]
  exact hperm.map _

/-- No two valid setups start together. -/
lemma nodup_from (h : SetupsEquip st k l) :
    ((st.findSetupsBySiteId k).map (·.setup.effectivePeriod.effectiveFrom)).Nodup := by
  have hfroms : (l.periods.map (·.effectiveFrom)).Nodup := by
    rw [SiteLog.periods, map_effectiveFrom_setupPeriods]
    exact (l.pairwise_dates.imp ne_of_lt).map _ fun _ _ hne => by simpa using hne
  have hperm := h.map_period_perm.map (·.effectiveFrom)
  rw [List.map_map] at hperm
  exact hperm.nodup_iff.mpr hfroms

lemma nodup (h : SetupsEquip st k l) : ((st.findSetupsBySiteId k).map (·.setup)).Nodup := by
  refine List.Nodup.of_map (fun s : Setup => s.effectivePeriod.effectiveFrom) ?_
  rw [List.map_map]
  exact h.nodup_from

/-- A valid setup is planned, for the period that it has. -/
lemma equips (h : SetupsEquip st k l) {r : SetupRow} (hr : r ∈ st.findSetupsBySiteId k) :
    r.setup.effectivePeriod ∈ l.periods ∧
      Equips st k r.setup (l.planned r.setup.effectivePeriod) := by
  obtain ⟨plans, hperm, hplans⟩ := h
  obtain ⟨p, hp, hequips⟩ := hplans.exists_right hr
  obtain ⟨hper, hplanned⟩ := SiteLog.mem_plan.mp (hperm.subset hp)
  rw [hequips.period_eq]
  exact ⟨hper, hplanned ▸ hequips⟩

/-- Every period of the log has its setup. -/
lemma exists_of_period (h : SetupsEquip st k l) {d : EffectiveDates} (hd : d ∈ l.periods) :
    ∃ r ∈ st.findSetupsBySiteId k, r.setup.effectivePeriod = d := by
  have hmem := h.map_period_perm.symm.subset hd
  obtain ⟨r, hr, rfl⟩ := List.mem_map.mp hmem
  exact ⟨r, hr, rfl⟩

end SetupsEquip

end Equips

/-! ## The invariant -/

/-- The invariant of worlds whose queries list entries in any order. -/
structure TracksListed (w : World) : Prop where
  tables : Tables w.store
  owned : w.store.Owned
  unhandled : ∀ id, w.store.siteId id = none → w.lastLog id = none
  handled : ∀ id k, w.store.siteId id = some k →
    ∃ l, w.lastLog id = some l ∧ l.Accepted ∧ SetupsEquip w.store k l

namespace TracksListed

variable {lib : ListUtils} {w w' : World} {a : Step}

/-- Listing the entries otherwise keeps it. -/
lemma listed (h : TracksListed w) (entries : EntryOrder) : TracksListed (w.listed entries) where
  tables := by
    refine ⟨h.tables.registry.congr le_rfl rfl rfl, ⟨h.tables.sites.keys, h.tables.sites.unique⟩,
      ?_, h.tables.siteLogs⟩
    have hids : (w.listed entries).store.setups.map (·.id) = w.store.setups.map (·.id) := by
      simp [World.listed, Store.listed, Function.comp_def]
    exact hids ▸ h.tables.setupKeys
  owned r hr := by
    obtain ⟨q, hq, rfl⟩ := List.mem_map.mp hr
    exact h.owned q hq
  unhandled := h.unhandled
  handled id k hk := by
    obtain ⟨l, hl, hacc, hequip⟩ := h.handled id k hk
    exact ⟨l, hl, hacc, hequip.listed entries⟩

/-- The site of a log that was handled before is there. -/
lemma site_of_lastLog (h : TracksListed w) {id : String} {l : SiteLog}
    (hlast : w.lastLog id = some l) :
    ∃ k, w.store.siteId id = some k ∧ l.Accepted ∧ SetupsEquip w.store k l := by
  cases hid : w.store.siteId id with
  | none => cases (h.unhandled _ hid).symm.trans hlast
  | some k =>
      obtain ⟨l₀, hl₀, hacc, hequip⟩ := h.handled _ _ hid
      obtain rfl := Option.some.inj (hl₀.symm.trans hlast)
      exact ⟨k, rfl, hacc, hequip⟩

/-- A step that leaves sites, setups and equipment alone. -/
lemma congr {st : Store} (h : TracksListed w) (htables : Tables st)
    (hext : Extends w.store st) (hsites : st.corsSites = w.store.corsSites)
    (hsetups : st.setups = w.store.setups) {b : String → Bool} :
    TracksListed ⟨st, w.lastLog, b⟩ := by
  have hsiteId : st.siteId = w.store.siteId := by
    funext id
    simp only [Store.siteId, Store.findCorsSite, hsites]
  refine ⟨htables, fun r hr => ?_, fun id hid => ?_, fun id k hk => ?_⟩
  · rw [hsiteId]
    exact h.owned r (hsetups ▸ hr)
  · exact h.unhandled id (hsiteId ▸ hid)
  · obtain ⟨l, hl, hacc, hequip⟩ := h.handled id k (hsiteId ▸ hk)
    exact ⟨l, hl, hacc, hequip.mono hext (by simp only [Store.findSetupsBySiteId, hsetups])⟩

/-- Handling a log keeps it. -/
lemma handledBy {load : LoadOrder} (rows : RowOrder) {e : SiteLogReceived} {st' saved : Store}
    {l : SiteLog} {site : CorsSite} {N : List Setup} (h : TracksListed w)
    (hby : HandledBy load e w.store st' l site saved N) :
    TracksListed (w.after (.siteLogReceived load rows e) st') where
  tables := hby.tables h.tables
  owned := hby.owned h.owned
  unhandled := hby.unhandled_after rows h.unhandled
  handled := by
    have hold : ((w.store.findSetupsBySiteId site.id).map (·.setup)).Nodup := by
      refine hby.nodup_valid h.tables h.owned fun k hk => ?_
      obtain ⟨l', -, -, hequip⟩ := h.handled _ k hk
      exact hequip.nodup
    exact hby.handled_after SetupsEquip.mono (hby.setupsRealise hold).equip rows h.handled

/-- **Every step keeps it.** -/
theorem step (h : TracksListed w) (hstep : World.Takes lib w a w') : TracksListed w' := by
  obtain ⟨st, hok, rfl⟩ := hstep
  cases a with
  | upload l =>
      have htables := h.tables.upload hok
      obtain ⟨-, hframe⟩ := upload_inv h.tables.siteLogs hok
      exact h.congr htables (Extends.of_eq (by rw [hframe]) (by rw [hframe]) (by rw [hframe]))
        (by rw [hframe]) (by rw [hframe])
  | siteLogReceived load rows e =>
      obtain ⟨l, site, saved, N, hby⟩ := handle_inv h.tables hok
      exact h.handledBy rows hby
  | siteUpdated rows e =>
      obtain ⟨hle, hframe⟩ := nodeService_frame hok
      refine h.congr ?_ (Extends.of_eq hle (by rw [hframe]) (by rw [hframe])) (by rw [hframe])
        (by rw [hframe])
      rw [hframe]
      exact h.tables.congr hle rfl rfl rfl rfl h.tables.siteLogs

end TracksListed

lemma Tracks.listed {w : World} (h : Tracks w) : TracksListed w where
  tables := h.tables
  owned := h.owned
  unhandled := h.unhandled
  handled id k hk := by
    obtain ⟨l, hl, hacc, hreal⟩ := h.handled id k hk
    exact ⟨l, hl, hacc, hreal.equip⟩

/-- **Every world tracks its logs, however entries are listed on the way.** -/
theorem World.ReachableListed.tracksListed {lib : ListUtils} {P : World → ListedStep → Prop}
    {w : World} (h : World.ReachableListed lib P w) : TracksListed w :=
  h.invariant tracks_init.listed (fun _ a _ hw => hw.listed a.entries)
    fun _ _ _ _ hw hstep => hw.step hstep

end Geodesy
