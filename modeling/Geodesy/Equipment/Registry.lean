import Geodesy.Equipment.FindOrCreate

/-!
# The registry of equipment over time

Three facts about placing an item, each a consequence of its exact effect (`place`):

* the registry stays unambiguous (`Registry.place`);
* rows are never removed and never change what the lookups read (`Extends`);
* afterwards the new entry represents the item (`Represents`), and stays to do so.

An item is `Lookupable` when the lookups can find it again.  For such an item the entry that
represents it is unique, and placing it once more creates nothing; any other item takes a new key
every time it is placed.
-/

namespace Geodesy

open Rows EquipmentLogItem

/-! ## The registry stays unambiguous -/

/-- A row refers to an item as the row created for that item would. -/
lemma EquipmentLogItem.refersTo_of_fresh {x y : EquipmentLogItem} {i : ℕ} {e : Equipment}
    (hy : y.refersTo (x.freshEquipment i)) (he : y.refersTo e) : x.refersTo e := by
  obtain ⟨hclass, htype, hserial⟩ := (y.refersTo_iff _).mp hy
  obtain ⟨hclass', htype', hserial'⟩ := (y.refersTo_iff _).mp he
  simp only [freshEquipment] at hclass htype hserial
  refine (x.refersTo_iff e).mpr ⟨hclass'.trans hclass.symm, htype'.trans htype.symm, ?_⟩
  rcases hserial with hclock | ⟨hs, hne⟩
  · exact Or.inl (hclass.trans hclock)
  · rcases hserial' with hclock | ⟨hs', -⟩
    · exact Or.inl (hclass.trans hclock)
    · exact Or.inr ⟨hs'.trans hs.symm, htype ▸ hne.1, hs ▸ hne.2⟩

lemma EquipmentLogItem.map_id_place_equipment (x : EquipmentLogItem) (st : Store) :
    (x.place st).equipment.map (·.id)
      = st.equipment.map (·.id) ++ (x.newEquipment st).map (·.id) := by
  simp [place, Function.comp_def]

lemma EquipmentLogItem.map_id_place_configurations (x : EquipmentLogItem) (st : Store) :
    (x.place st).configurations.map (·.id)
      = st.configurations.map (·.id) ++ (x.newConfiguration st).map (·.id) := by
  simp [place, Function.comp_def]

/-- A new equipment row is the touched fresh one, and no row was referred to before. -/
lemma EquipmentLogItem.mem_newEquipment {x : EquipmentLogItem} {st : Store} {e : Equipment} :
    e ∈ x.newEquipment st ↔
      (∀ r ∈ st.equipment, ¬x.refersTo r) ∧ e = x.touch (x.freshEquipment st.nextId) := by
  unfold newEquipment
  split_ifs with h
  · obtain ⟨r, hr, href⟩ := List.any_eq_true.mp h
    simp only [List.not_mem_nil, false_iff, not_and]
    exact fun hnone => absurd href (hnone r hr)
  · have hnone : ∀ r ∈ st.equipment, ¬x.refersTo r = true := by simpa using h
    simpa using fun _ => hnone

lemma EquipmentLogItem.mem_newConfiguration {x : EquipmentLogItem} {st : Store}
    {c : EquipmentConfigurationRow} :
    c ∈ x.newConfiguration st ↔
      (∀ r ∈ st.configurations, ¬x.configures (x.equipmentId st) r) ∧
      c = ⟨x.nextConfigurationId st, ⟨x.equipmentId st, x.effectiveFrom, x.details⟩⟩ := by
  unfold newConfiguration
  split_ifs with h
  · obtain ⟨r, hr, hconf⟩ := List.any_eq_true.mp h
    simp only [List.not_mem_nil, false_iff, not_and]
    exact fun hnone => absurd hconf (hnone r hr)
  · have hnone : ∀ r ∈ st.configurations, ¬x.configures (x.equipmentId st) r = true := by
      simpa using h
    simpa using fun _ => hnone

/-- Whatever looks up a new configuration looks up what the placed item does, which is not there. -/
lemma EquipmentLogItem.not_configures_of_newConfiguration {x y : EquipmentLogItem} {st : Store}
    {i : ℕ} {c r : EquipmentConfigurationRow} (hc : c ∈ x.newConfiguration st)
    (hr : r ∈ st.configurations) (hy : y.configures i c) : ¬y.configures i r := by
  intro hyr
  obtain ⟨hnone, rfl⟩ := mem_newConfiguration.mp hc
  refine hnone r hr ?_
  simp only [configures, Bool.and_eq_true, decide_eq_true_eq, sqlEq_iff,
    details_equipmentClass] at hy hyr ⊢
  obtain ⟨⟨hc1, hc2⟩, hc3, -⟩ := hy
  obtain ⟨⟨hr1, hr2⟩, hr3, hr4⟩ := hyr
  exact ⟨⟨hr1.trans hc1.symm, hr2.trans hc2.symm⟩, hr3.trans hc3.symm, hc3 ▸ hr4⟩

/-- The equipment that the item is placed with is in the table afterwards. -/
lemma exists_equipment_place (x : EquipmentLogItem) (st : Store) :
    ∃ e ∈ (x.place st).equipment, e.id = x.equipmentId st ∧
      e.equipmentClass = x.equipmentClass ∧ e.type = x.type ∧
      (x.equipmentClass = .clock ∨ e.serialNumber = x.serialNumber) := by
  cases hfind : st.equipment.find? x.refersTo with
  | some r =>
      have hr : r ∈ st.equipment := List.mem_of_find?_eq_some hfind
      have href : x.refersTo r := List.find?_some hfind
      obtain ⟨hclass, htype, hserial⟩ := (x.refersTo_iff r).mp href
      refine ⟨x.overwrite r, ?_, ?_, ?_⟩
      · exact List.mem_append_left _ (List.mem_map_of_mem hr)
      · simp [equipmentId, hfind]
      · exact ⟨by simpa using hclass, by simpa using htype,
          hserial.imp_right fun h => by simpa using h.1⟩
  | none =>
      refine ⟨x.touch (x.freshEquipment st.nextId), ?_, ?_, ?_⟩
      · refine List.mem_append_right _ (mem_newEquipment.mpr ⟨?_, rfl⟩)
        exact List.find?_eq_none.mp hfind
      · simp [equipmentId, hfind, freshEquipment]
      · simp [freshEquipment]

/-- **Placing an item keeps the registry unambiguous.** -/
theorem Registry.place {st : Store} (h : Registry st) (x : EquipmentLogItem) :
    Registry (x.place st) where
  equipmentKeys := by
    rw [map_id_place_equipment]
    refine Allocated.mono (m := x.nextConfigurationId st) ?_ (Nat.le_add_right _ _)
    unfold nextConfigurationId newEquipment
    split_ifs
    · simpa using h.equipmentKeys
    · simpa [freshEquipment] using h.equipmentKeys.append_next
  configurationKeys := by
    rw [map_id_place_configurations]
    have hkeys : Allocated (st.configurations.map (·.id)) (x.nextConfigurationId st) :=
      h.configurationKeys.mono (Nat.le_add_right _ _)
    simp only [EquipmentLogItem.place]
    unfold newConfiguration
    split_ifs
    · simpa using hkeys
    · simpa using hkeys.append_next
  refersTo_unique := by
    intro y e he e' he' hy hy'
    rcases List.mem_append.mp he with he | he <;> rcases List.mem_append.mp he' with he' | he'
    · obtain ⟨r, hr, rfl⟩ := List.mem_map.mp he
      obtain ⟨r', hr', rfl⟩ := List.mem_map.mp he'
      rw [h.refersTo_unique y r hr r' hr' (by simpa using hy) (by simpa using hy')]
    · obtain ⟨r, hr, rfl⟩ := List.mem_map.mp he
      obtain ⟨hnone, rfl⟩ := mem_newEquipment.mp he'
      exact absurd (refersTo_of_fresh (by simpa using hy') (by simpa using hy)) (hnone r hr)
    · obtain ⟨r, hr, rfl⟩ := List.mem_map.mp he'
      obtain ⟨hnone, rfl⟩ := mem_newEquipment.mp he
      exact absurd (refersTo_of_fresh (by simpa using hy) (by simpa using hy')) (hnone r hr)
    · rw [(mem_newEquipment.mp he).2, (mem_newEquipment.mp he').2]
  configures_unique := by
    intro y i c hc c' hc' hy hy'
    rcases List.mem_append.mp hc with hc | hc <;> rcases List.mem_append.mp hc' with hc' | hc'
    · obtain ⟨r, hr, rfl⟩ := List.mem_map.mp hc
      obtain ⟨r', hr', rfl⟩ := List.mem_map.mp hc'
      rw [h.configures_unique y i r hr r' hr' (by simpa using hy) (by simpa using hy')]
    · obtain ⟨r, hr, rfl⟩ := List.mem_map.mp hc
      exact absurd (by simpa using hy) (not_configures_of_newConfiguration hc' hr hy')
    · obtain ⟨r, hr, rfl⟩ := List.mem_map.mp hc'
      exact absurd (by simpa using hy') (not_configures_of_newConfiguration hc hr hy)
    · rw [(mem_newConfiguration.mp hc).2, (mem_newConfiguration.mp hc').2]
  owner := by
    intro c hc
    rcases List.mem_append.mp hc with hc | hc
    · obtain ⟨r, hr, rfl⟩ := List.mem_map.mp hc
      obtain ⟨e, he, hid, hclass⟩ := h.owner r hr
      refine ⟨x.overwrite e, List.mem_append_left _ (List.mem_map_of_mem he), ?_, ?_⟩
      · simpa using hid
      · simpa using hclass
    · obtain ⟨-, rfl⟩ := mem_newConfiguration.mp hc
      obtain ⟨e, he, hid, hclass, -⟩ := exists_equipment_place x st
      exact ⟨e, he, hid, by simpa using hclass⟩

/-- Steps that leave both tables alone keep the registry. -/
lemma Registry.congr {st st' : Store} (h : Registry st) (hnext : st.nextId ≤ st'.nextId)
    (hequipment : st'.equipment = st.equipment)
    (hconfigurations : st'.configurations = st.configurations) : Registry st' :=
  ⟨hequipment ▸ h.equipmentKeys.mono hnext, hconfigurations ▸ h.configurationKeys.mono hnext,
    hequipment ▸ h.refersTo_unique, hconfigurations ▸ h.configures_unique,
    hequipment ▸ hconfigurations ▸ h.owner⟩

/-- By key, the query finds the row. -/
lemma findEquipment_eq {st : Store} (h : Registry st) {e : Equipment} (he : e ∈ st.equipment) :
    st.findEquipment e.id = some e :=
  find?_eq_some_of_nodup h.equipmentKeys.nodup he

/-! ## Rows stay -/

/-- `st'` has all the equipment and configurations of `st`, with the same keys and with the same
values in the columns that the lookups read. -/
structure Extends (st st' : Store) : Prop where
  nextId_le : st.nextId ≤ st'.nextId
  equipment : ∀ e ∈ st.equipment, ∃ e' ∈ st'.equipment, e'.id = e.id ∧
    e'.equipmentClass = e.equipmentClass ∧ e'.type = e.type ∧ e'.serialNumber = e.serialNumber
  configurations : ∀ c ∈ st.configurations, ∃ c' ∈ st'.configurations, c'.id = c.id ∧
    c'.config.details.equipmentClass = c.config.details.equipmentClass ∧
    c'.config.equipmentId = c.config.equipmentId ∧
    c'.config.configurationTime = c.config.configurationTime

lemma Extends.refl (st : Store) : Extends st st :=
  ⟨le_rfl, fun e he => ⟨e, he, rfl, rfl, rfl, rfl⟩, fun c hc => ⟨c, hc, rfl, rfl, rfl, rfl⟩⟩

lemma Extends.trans {st st' st'' : Store} (h : Extends st st') (h' : Extends st' st'') :
    Extends st st'' where
  nextId_le := h.nextId_le.trans h'.nextId_le
  equipment e he := by
    obtain ⟨e', he', h1, h2, h3, h4⟩ := h.equipment e he
    obtain ⟨e'', he'', h1', h2', h3', h4'⟩ := h'.equipment e' he'
    exact ⟨e'', he'', h1'.trans h1, h2'.trans h2, h3'.trans h3, h4'.trans h4⟩
  configurations c hc := by
    obtain ⟨c', hc', h1, h2, h3, h4⟩ := h.configurations c hc
    obtain ⟨c'', hc'', h1', h2', h3', h4'⟩ := h'.configurations c' hc'
    exact ⟨c'', hc'', h1'.trans h1, h2'.trans h2, h3'.trans h3, h4'.trans h4⟩

/-- A step that leaves both tables alone extends them. -/
lemma Extends.of_eq {st st' : Store} (hnext : st.nextId ≤ st'.nextId)
    (he : st'.equipment = st.equipment) (hc : st'.configurations = st.configurations) :
    Extends st st' := by
  refine ⟨hnext, fun e h => ⟨e, he ▸ h, rfl, rfl, rfl, rfl⟩, fun c h => ⟨c, hc ▸ h, rfl, rfl, rfl,
    rfl⟩⟩

lemma extends_place (x : EquipmentLogItem) (st : Store) : Extends st (x.place st) where
  nextId_le := by
    simp only [place, nextConfigurationId]
    omega
  equipment e he := ⟨x.overwrite e, List.mem_append_left _ (List.mem_map_of_mem he), by simp⟩
  configurations c hc :=
    ⟨x.reconfigure _ c, List.mem_append_left _ (List.mem_map_of_mem hc), by simp⟩

/-! ## What an entry says -/

/-- The entry `u` represents the item `x`: its equipment and its configuration are rows of the
item's class with the item's type, serial number and start date, and its period is the item's. -/
structure Represents (st : Store) (u : EquipmentInUse) (x : EquipmentLogItem) : Prop where
  period : u.period = x.effectiveDates
  equipment : ∃ e ∈ st.equipment, e.id = u.equipmentId ∧ e.equipmentClass = x.equipmentClass ∧
    e.type = x.type ∧ (x.equipmentClass = .clock ∨ e.serialNumber = x.serialNumber)
  configuration : ∃ c ∈ st.configurations, c.id = u.configurationId ∧
    c.config.details.equipmentClass = x.equipmentClass ∧
    c.config.equipmentId = u.equipmentId ∧ c.config.configurationTime = x.effectiveFrom

/-- An entry goes on representing its item. -/
lemma Represents.mono {st st' : Store} {u : EquipmentInUse} {x : EquipmentLogItem}
    (h : Represents st u x) (hext : Extends st st') : Represents st' u x where
  period := h.period
  equipment := by
    obtain ⟨e, he, h1, h2, h3, h4⟩ := h.equipment
    obtain ⟨e', he', h1', h2', h3', h4'⟩ := hext.equipment e he
    exact ⟨e', he', h1'.trans h1, h2'.trans h2, h3'.trans h3, h4.imp_right h4'.trans⟩
  configuration := by
    obtain ⟨c, hc, h1, h2, h3, h4⟩ := h.configuration
    obtain ⟨c', hc', h1', h2', h3', h4'⟩ := hext.configurations c hc
    exact ⟨c', hc', h1'.trans h1, h2'.trans h2, h3'.trans h3, h4'.trans h4⟩

/-- The entry that placing an item adds represents the item. -/
lemma represents_inUse (x : EquipmentLogItem) (st : Store) :
    Represents (x.place st) (x.inUse st) x where
  period := rfl
  equipment := exists_equipment_place x st
  configuration := by
    cases hfind : st.configurations.find? (x.configures (x.equipmentId st)) with
    | some r =>
        have hr := List.mem_of_find?_eq_some hfind
        have hconf : x.configures (x.equipmentId st) r := List.find?_some hfind
        refine ⟨x.reconfigure (x.equipmentId st) r,
          List.mem_append_left _ (List.mem_map_of_mem hr), ?_⟩
        simp only [configures, Bool.and_eq_true, decide_eq_true_eq, sqlEq_iff] at hconf
        simp [inUse, configurationId, hfind, hconf]
    | none =>
        refine ⟨_, List.mem_append_right _ (mem_newConfiguration.mpr ⟨?_, rfl⟩), ?_⟩
        · exact List.find?_eq_none.mp hfind
        · simp [inUse, configurationId, hfind]

/-! ## Items that are found again -/

/-- The lookups can find the item again: it has a start date and, unless it is a frequency
standard, a type and a serial number. -/
def EquipmentLogItem.Lookupable (x : EquipmentLogItem) : Prop :=
  x.effectiveFrom ≠ none ∧ (x.equipmentClass = .clock ∨ x.type ≠ none ∧ x.serialNumber ≠ none)

instance (x : EquipmentLogItem) : Decidable x.Lookupable :=
  inferInstanceAs (Decidable (_ ∧ _))

/-- A lookupable item finds what represents it. -/
lemma Represents.lookup {st : Store} {u : EquipmentInUse} {x : EquipmentLogItem}
    (h : Represents st u x) (hx : x.Lookupable) :
    (∃ e ∈ st.equipment, e.id = u.equipmentId ∧ x.refersTo e) ∧
    (∃ c ∈ st.configurations, c.id = u.configurationId ∧ x.configures u.equipmentId c) := by
  obtain ⟨e, he, hid, hclass, htype, hserial⟩ := h.equipment
  obtain ⟨c, hc, hcid, hcclass, hceq, hctime⟩ := h.configuration
  refine ⟨⟨e, he, hid, (x.refersTo_iff e).mpr ⟨hclass, htype, ?_⟩⟩, c, hc, hcid, ?_⟩
  · rcases hx.2 with hclock | ⟨ht, hs⟩
    · exact Or.inl hclock
    · exact hserial.imp_right fun h => ⟨h, ht, hs⟩
  · simp only [configures, Bool.and_eq_true, decide_eq_true_eq, sqlEq_iff]
    exact ⟨⟨hcclass, hceq⟩, hctime, hx.1⟩

/-- The keys that a lookupable item is placed with are those of the entry that represents it. -/
lemma Represents.inUse_eq {st : Store} {u : EquipmentInUse} {x : EquipmentLogItem}
    (hreg : Registry st) (h : Represents st u x) (hx : x.Lookupable) : x.inUse st = u := by
  obtain ⟨⟨e, he, hid, href⟩, c, hc, hcid, hconf⟩ := h.lookup hx
  have heq : x.equipmentId st = u.equipmentId := by
    have hfind : st.equipment.find? x.refersTo = some e :=
      find?_eq_some_of_unique he href fun e' he' href' =>
        hreg.refersTo_unique x e' he' e he href' href
    simp [equipmentId, hfind, hid]
  have hceq : x.configurationId st = u.configurationId := by
    rw [← heq] at hconf
    have hfind : st.configurations.find? (x.configures (x.equipmentId st)) = some c :=
      find?_eq_some_of_unique hc hconf fun c' hc' hconf' =>
        hreg.configures_unique x _ c' hc' c hc hconf' hconf
    simp [configurationId, hfind, hcid]
  obtain ⟨ui, uc, up⟩ := u
  simp only [inUse, heq, hceq, ← h.period]

/-- **A lookupable item is represented by one entry only.** -/
lemma Represents.unique {st : Store} {u v : EquipmentInUse} {x : EquipmentLogItem}
    (hreg : Registry st) (hu : Represents st u x) (hv : Represents st v x) (hx : x.Lookupable) :
    u = v :=
  (hu.inUse_eq hreg hx).symm.trans (hv.inUse_eq hreg hx)

/-- Placing a lookupable item that is represented creates nothing. -/
lemma Represents.nextId_place {st : Store} {u : EquipmentInUse} {x : EquipmentLogItem}
    (hreg : Registry st) (h : Represents st u x) (hx : x.Lookupable) :
    (x.place st).nextId = st.nextId := by
  obtain ⟨⟨e, he, hid, href⟩, c, hc, hcid, hconf⟩ := h.lookup hx
  have heq : x.equipmentId st = u.equipmentId := congrArg EquipmentInUse.equipmentId
    (h.inUse_eq hreg hx)
  have hanyE : st.equipment.any x.refersTo = true := List.any_eq_true.mpr ⟨e, he, href⟩
  have hanyC : st.configurations.any (x.configures (x.equipmentId st)) = true :=
    List.any_eq_true.mpr ⟨c, hc, heq ▸ hconf⟩
  simp [place, nextConfigurationId, newEquipment, newConfiguration, hanyE, hanyC]

/-- A null type or serial number is equal to none, so no equipment is found. -/
lemma refersTo_eq_false_of_null {x : EquipmentLogItem} (hclock : x.equipmentClass ≠ .clock)
    (hnull : x.type = none ∨ x.serialNumber = none) (e : Equipment) : x.refersTo e = false := by
  rw [Bool.eq_false_iff]
  intro href
  obtain ⟨-, -, hserial⟩ := (x.refersTo_iff e).mp href
  rcases hserial with h | ⟨-, ht, hs⟩
  · exact hclock h
  · exact hnull.elim ht hs

/-- Without a from no configuration is looked up. -/
lemma configures_eq_false_of_from {x : EquipmentLogItem} (hx : x.effectiveFrom = none)
    (equipId : ℕ) (c : EquipmentConfigurationRow) : x.configures equipId c = false := by
  simp [configures, hx]

/-- Placing an item that is not lookupable always takes a new key. -/
lemma nextId_lt_place {st : Store} {x : EquipmentLogItem} (hx : ¬x.Lookupable) :
    st.nextId < (x.place st).nextId := by
  unfold Lookupable at hx
  push Not at hx
  simp only [place, nextConfigurationId]
  by_cases hfrom : x.effectiveFrom = none
  · have hany : st.configurations.any (x.configures (x.equipmentId st)) = false :=
      List.any_eq_false.mpr fun c _ => by simp [configures_eq_false_of_from hfrom]
    simp only [newConfiguration, hany]
    simp only [Bool.false_eq_true, if_false, List.length_singleton]
    omega
  · obtain ⟨hclock, hnull⟩ := hx hfrom
    have hany : st.equipment.any x.refersTo = false :=
      List.any_eq_false.mpr fun e _ => by
        simp [refersTo_eq_false_of_null hclock (or_iff_not_imp_left.mpr hnull)]
    simp only [newEquipment, hany]
    simp only [Bool.false_eq_true, if_false, List.length_singleton]
    omega

end Geodesy
