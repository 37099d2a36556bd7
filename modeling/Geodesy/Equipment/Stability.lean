import Geodesy.Setups.Plan

/-!
# How stable find-or-create is

`createAll xs` is the store after `EquipmentFactory.create` was called for some items, and each pair
saved as `CorsSiteService.addEquipment` does.  Items with the same class, type and serial number
(`EquipmentLogItem.typeKey`) are meant to share one row of equipment.

They do unless the type or the serial number is null (`Unfindable`): SQL equality is then false,
and each call creates a row.  A clock is compared in memory, where a null type equals a null type.
The lookup of the configuration is skipped for an item without a from.
-/

namespace Geodesy

open Rows EquipmentFactory EquipmentLogItem

/-- `EquipmentFactory.create`, and the saving of the pair in `CorsSiteService.addEquipment`: the
keys of the equipment and of the configuration. -/
def createAndSave (x : EquipmentLogItem) (st : Store) : (ℕ × ℕ) × Store :=
  let (ec, st) := create x st
  let st := st.saveEquipment ec.equipment
  let (configId, st) := st.saveConfiguration ec.configurationId ec.configuration
  ((ec.equipment.id, configId), st)

/-- The store after the items were created and saved. -/
def createAll (xs : List EquipmentLogItem) : Store :=
  xs.foldl (fun st x => (createAndSave x st).2) Store.empty

/-- Class, type and serial number. -/
def EquipmentLogItem.typeKey (x : EquipmentLogItem) :
    EquipmentClass × Option String × Option String :=
  (x.equipmentClass, x.type, x.serialNumber)

/-- Class, type and serial number. -/
def Equipment.typeKey (e : Equipment) : EquipmentClass × Option String × Option String :=
  (e.equipmentClass, e.type, e.serialNumber)

/-- The query for the equipment never finds a row. -/
def EquipmentLogItem.Unfindable (x : EquipmentLogItem) : Prop :=
  x.equipmentClass ≠ .clock ∧ (x.type = none ∨ x.serialNumber = none)

instance (x : EquipmentLogItem) : Decidable x.Unfindable := inferInstanceAs (Decidable (_ ∧ _))

/-- No two rows of equipment have the same class, type and serial number. -/
def Store.EquipmentUnique (st : Store) : Prop := (st.equipment.map (·.typeKey)).Nodup

/-- The equipment and the time of the configurations. -/
def Store.configurationKeys (st : Store) : List (ℕ × Option Instant) :=
  st.configurations.map fun c => (c.config.equipmentId, c.config.configurationTime)

/-- No two configurations of an equipment have the same time. -/
def Store.ConfigurationUnique (st : Store) : Prop := st.configurationKeys.Nodup

instance (st : Store) : Decidable st.EquipmentUnique := inferInstanceAs (Decidable (List.Nodup _))

instance (st : Store) : Decidable st.ConfigurationUnique :=
  inferInstanceAs (Decidable (List.Nodup _))

/-! ## One call -/

/-- What a call does, on a store with unambiguous lookups. -/
lemma createAndSave_eq {st : Store} (h : Registry st) (x : EquipmentLogItem) :
    createAndSave x st = ((x.equipmentId st, x.configurationId st), x.place st) := by
  have hadd := addEquipmentToSetup_eq h x ⟨0, "", ⟨none, none⟩, []⟩
  simp only [CorsSiteService.addEquipmentToSetup, Prod.mk.injEq, Setup.mk.injEq, List.nil_append,
    List.cons.injEq, inUse, EquipmentInUse.mk.injEq, true_and, and_true] at hadd
  simp only [createAndSave, Prod.mk.injEq]
  exact hadd

lemma registry_empty : Registry Store.empty :=
  ⟨allocated_nil _, allocated_nil _, by simp [Store.empty], by simp [Store.empty],
    by simp [Store.empty]⟩

lemma createAll_eq (xs : List EquipmentLogItem) : createAll xs = placeAll xs Store.empty := by
  have h : ∀ {st : Store}, Registry st →
      xs.foldl (fun st x => (createAndSave x st).2) st = placeAll xs st := by
    induction xs with
    | nil => intro st _; rfl
    | cons x xs ih =>
        intro st hst
        rw [List.foldl_cons, createAndSave_eq hst, placeAll_cons]
        exact ih (hst.place x)
  exact h registry_empty

lemma registry_createAll (xs : List EquipmentLogItem) : Registry (createAll xs) := by
  rw [createAll_eq]
  exact registry_empty.placeAll xs

lemma createAll_append (xs ys : List EquipmentLogItem) :
    createAll (xs ++ ys) = placeAll ys (createAll xs) := by
  rw [createAll_eq, createAll_eq, placeAll_append]

lemma createAll_concat (xs : List EquipmentLogItem) (x : EquipmentLogItem) :
    createAll (xs ++ [x]) = x.place (createAll xs) := by
  rw [createAll_append, placeAll_cons, placeAll_nil]

/-! ## Calling twice -/

lemma EquipmentLogItem.lookupable_iff (x : EquipmentLogItem) :
    x.Lookupable ↔ x.effectiveFrom ≠ none ∧ ¬x.Unfindable := by
  unfold Lookupable Unfindable
  rw [not_and_or, not_or, not_not]

/-- A row that the item refers to is one with its key, and then the item is findable. -/
lemma EquipmentLogItem.not_unfindable_of_refersTo {x : EquipmentLogItem} {e : Equipment}
    (h : x.refersTo e = true) : ¬x.Unfindable := by
  rintro ⟨hclock, hnull⟩
  rw [refersTo_eq_false_of_null hclock hnull] at h
  cases h

/-- The equipment of an unfindable item is always a new one. -/
lemma EquipmentLogItem.equipmentId_of_unfindable {x : EquipmentLogItem} (hx : x.Unfindable)
    (st : Store) : x.equipmentId st = st.nextId := by
  have hfind : st.equipment.find? x.refersTo = none :=
    List.find?_eq_none.mpr fun _ _ href => not_unfindable_of_refersTo href hx
  rw [equipmentId, hfind]
  rfl

/-- Without a from the configuration is always a new one. -/
lemma EquipmentLogItem.configurationId_of_from {x : EquipmentLogItem} (hx : x.effectiveFrom = none)
    (st : Store) : x.configurationId st = x.nextConfigurationId st := by
  have hfind : st.configurations.find? (x.configures (x.equipmentId st)) = none :=
    List.find?_eq_none.mpr fun c _ => by simp [configures_eq_false_of_from hx]
  rw [configurationId, hfind]
  rfl

/-- The keys of a call have been drawn from the sequence. -/
lemma keys_lt_nextId_place {st : Store} (h : Registry st) (x : EquipmentLogItem) :
    x.equipmentId st < (x.place st).nextId ∧ x.configurationId st < (x.place st).nextId := by
  have hreg := h.place x
  obtain ⟨-, ⟨e, he, (hid : e.id = x.equipmentId st), -⟩, c, hc,
    (hcid : c.id = x.configurationId st), -⟩ := represents_inUse x st
  exact ⟨hid ▸ hreg.equipmentKeys.lt_next _ (List.mem_map_of_mem he),
    hcid ▸ hreg.configurationKeys.lt_next _ (List.mem_map_of_mem hc)⟩

/-- **The keys of a second call.**  They are those of the first if and only if the item is
lookupable, whatever is created in between. -/
lemma keys_eq_iff {st : Store} (h : Registry st) (x : EquipmentLogItem)
    (ys : List EquipmentLogItem) :
    (x.equipmentId st = x.equipmentId (placeAll ys (x.place st)) ∧
      x.configurationId st = x.configurationId (placeAll ys (x.place st))) ↔ x.Lookupable := by
  have hrep : Represents (placeAll ys (x.place st)) (x.inUse st) x :=
    (represents_inUse x st).mono (extends_placeAll ys _)
  have hreg := (h.place x).placeAll ys
  constructor
  · rintro ⟨heq, hceq⟩
    obtain ⟨hlt, hclt⟩ := keys_lt_nextId_place h x
    have hle := (extends_placeAll ys (x.place st)).nextId_le
    rw [lookupable_iff]
    constructor
    · -- without a from the second configuration has a key of its own
      intro hfrom
      rw [hceq, configurationId_of_from hfrom, nextConfigurationId] at hclt
      omega
    · -- an unfindable item gets a new row of equipment
      intro hx
      rw [heq, equipmentId_of_unfindable hx] at hlt
      omega
  · intro hx
    have hinUse := hrep.inUse_eq hreg hx
    exact ⟨(congrArg EquipmentInUse.equipmentId hinUse).symm,
      (congrArg EquipmentInUse.configurationId hinUse).symm⟩

/-! ## The rows of equipment -/

@[simp] lemma key_overwrite (x : EquipmentLogItem) (e : Equipment) :
    (x.overwrite e).typeKey = e.typeKey := by
  simp [Equipment.typeKey]

lemma map_key_place (x : EquipmentLogItem) (st : Store) :
    (x.place st).equipment.map (·.typeKey) = st.equipment.map (·.typeKey) ++
      if st.equipment.any x.refersTo then [] else [x.typeKey] := by
  simp only [place, List.map_append, List.map_map, Function.comp_def, key_overwrite]
  rw [newEquipment]
  split_ifs with h
  · rfl
  · simp [Equipment.typeKey, EquipmentLogItem.typeKey, freshEquipment]

/-- The rows of equipment have the keys of the items. -/
lemma key_mem_of_createAll (xs : List EquipmentLogItem) :
    ∀ k ∈ (createAll xs).equipment.map (·.typeKey), k ∈ xs.map (·.typeKey) := by
  induction xs using List.reverseRecOn with
  | nil => intro k hk; cases hk
  | append_singleton xs x ih =>
      intro k hk
      rw [createAll_concat, map_key_place, List.mem_append] at hk
      rw [List.map_append, List.mem_append]
      refine hk.imp (ih k) fun hk => ?_
      split_ifs at hk with h
      · cases hk
      · exact hk

/-- The key of a row that represents an item; a clock has no serial number. -/
lemma key_eq_of_mem {xs : List EquipmentLogItem} {x : EquipmentLogItem} {e : Equipment}
    (he : e ∈ (createAll xs).equipment) (hclass : e.equipmentClass = x.equipmentClass)
    (htype : e.type = x.type)
    (hserial : x.equipmentClass = .clock ∨ e.serialNumber = x.serialNumber) :
    e.typeKey = x.typeKey := by
  simp only [EquipmentLogItem.typeKey, Equipment.typeKey, Prod.mk.injEq]
  refine ⟨hclass, htype, hserial.elim (fun hclock => ?_) id⟩
  obtain ⟨y, -, hy⟩ := List.mem_map.mp (key_mem_of_createAll xs _ (List.mem_map_of_mem he))
  simp only [EquipmentLogItem.typeKey, Equipment.typeKey, Prod.mk.injEq] at hy
  rw [← hy.2.2, serialNumber_of_clock hclock,
    serialNumber_of_clock (hy.1.trans (hclass.trans hclock))]

lemma key_eq_of_refersTo {xs : List EquipmentLogItem} {x : EquipmentLogItem} {e : Equipment}
    (he : e ∈ (createAll xs).equipment) (h : x.refersTo e = true) : e.typeKey = x.typeKey := by
  obtain ⟨hclass, htype, hserial⟩ := (x.refersTo_iff e).mp h
  exact key_eq_of_mem he hclass htype (hserial.imp_right And.left)

/-- A findable item refers to the rows with its key. -/
lemma refersTo_of_key {x : EquipmentLogItem} {e : Equipment} (hx : ¬x.Unfindable)
    (h : e.typeKey = x.typeKey) : x.refersTo e = true := by
  simp only [EquipmentLogItem.typeKey, Equipment.typeKey, Prod.mk.injEq] at h
  refine (x.refersTo_iff e).mpr ⟨h.1, h.2.1, ?_⟩
  unfold Unfindable at hx
  rw [not_and_or, not_or, not_not] at hx
  exact hx.imp_right fun hne => ⟨h.2.2, hne⟩

/-- Each item has a row with its key. -/
lemma key_mem_createAll_iff (xs : List EquipmentLogItem)
    (k : EquipmentClass × Option String × Option String) :
    k ∈ (createAll xs).equipment.map (·.typeKey) ↔ k ∈ xs.map (·.typeKey) := by
  refine ⟨key_mem_of_createAll xs k, ?_⟩
  induction xs using List.reverseRecOn with
  | nil => intro hk; cases hk
  | append_singleton xs x ih =>
      intro hk
      rw [List.map_append, List.mem_append] at hk
      rw [createAll_concat, map_key_place, List.mem_append]
      rcases hk with hk | hk
      · exact Or.inl (ih hk)
      · obtain rfl : k = x.typeKey := by simpa using hk
        split_ifs with h
        · obtain ⟨e, he, href⟩ := List.any_eq_true.mp h
          exact Or.inl (List.mem_map.mpr ⟨e, he, key_eq_of_refersTo he href⟩)
        · exact Or.inr (List.mem_singleton_self _)

/-- A call duplicates a row if and only if an unfindable item was created before. -/
lemma equipmentUnique_concat (xs : List EquipmentLogItem) (x : EquipmentLogItem) :
    (createAll (xs ++ [x])).EquipmentUnique ↔
      (createAll xs).EquipmentUnique ∧ ∀ y ∈ xs, ¬(x.Unfindable ∧ y.typeKey = x.typeKey) := by
  have hkey : (∀ y ∈ xs, ¬(x.Unfindable ∧ y.typeKey = x.typeKey)) ↔
      ¬(x.Unfindable ∧ x.typeKey ∈ (createAll xs).equipment.map (·.typeKey)) := by
    rw [key_mem_createAll_iff, List.mem_map]
    simp only [not_and, not_exists]
    exact ⟨fun h hx y hy => h y hy hx, fun h y hy hx => h hx y hy⟩
  rw [hkey, Store.EquipmentUnique, createAll_concat, map_key_place, Store.EquipmentUnique]
  split_ifs with h
  · obtain ⟨e, -, href⟩ := List.any_eq_true.mp h
    simp [not_unfindable_of_refersTo href]
  · have hnone : x.typeKey ∈ (createAll xs).equipment.map (·.typeKey) → x.Unfindable := by
      intro hmem
      by_contra hx
      obtain ⟨e, he, hk⟩ := List.mem_map.mp hmem
      exact h (List.any_eq_true.mpr ⟨e, he, refersTo_of_key hx hk⟩)
    rw [List.nodup_append_comm, List.singleton_append, List.nodup_cons]
    exact ⟨fun hn => ⟨hn.2, fun hx => hn.1 hx.2⟩,
      fun hn => ⟨fun hmem => hn.2 ⟨hnone hmem, hmem⟩, hn.1⟩⟩

/-- **Rows of equipment are unique** if and only if no unfindable item was created twice. -/
lemma equipmentUnique_iff (xs : List EquipmentLogItem) :
    (createAll xs).EquipmentUnique ↔
      xs.Pairwise fun y x => ¬(x.Unfindable ∧ y.typeKey = x.typeKey) := by
  induction xs using List.reverseRecOn with
  | nil => simp [createAll, Store.EquipmentUnique, Store.empty]
  | append_singleton xs x ih =>
      rw [equipmentUnique_concat, ih, List.pairwise_append]
      simp

/-! ## The configurations -/

lemma configurationKeys_place (x : EquipmentLogItem) (st : Store) :
    (x.place st).configurationKeys = st.configurationKeys ++
      if st.configurations.any (x.configures (x.equipmentId st)) then []
      else [(x.equipmentId st, x.effectiveFrom)] := by
  simp only [Store.configurationKeys, place, List.map_append, List.map_map, Function.comp_def,
    reconfigure_equipmentId, reconfigure_configurationTime]
  rw [newConfiguration]
  split_ifs <;> rfl

/-- A configuration is that of an item on the row of its equipment. -/
lemma exists_of_mem_configurationKeys (xs : List EquipmentLogItem) :
    ∀ p ∈ (createAll xs).configurationKeys, ∃ y ∈ xs, y.effectiveFrom = p.2 ∧
      ∃ e ∈ (createAll xs).equipment, e.id = p.1 ∧ e.typeKey = y.typeKey := by
  induction xs using List.reverseRecOn with
  | nil => intro p hp; cases hp
  | append_singleton xs x ih =>
      intro p hp
      rw [createAll_concat, configurationKeys_place, List.mem_append] at hp
      rcases hp with hp | hp
      · obtain ⟨y, hy, hfrom, e, he, hid, hkey⟩ := ih p hp
        refine ⟨y, List.mem_append_left _ hy, hfrom, x.overwrite e, ?_, by simpa using hid,
          by simpa using hkey⟩
        rw [createAll_concat]
        exact List.mem_append_left _ (List.mem_map_of_mem he)
      · split_ifs at hp with h
        · cases hp
        · obtain rfl := List.mem_singleton.mp hp
          obtain ⟨e, he, hid, hclass, htype, hserial⟩ := exists_equipment_place x (createAll xs)
          rw [← createAll_concat] at he
          refine ⟨x, by simp, rfl, e, he, hid, key_eq_of_mem he hclass htype hserial⟩

/-- Each item has a configuration on a row with its key. -/
lemma exists_mem_configurationKeys {xs : List EquipmentLogItem} {y : EquipmentLogItem}
    (hy : y ∈ xs) : ∃ e ∈ (createAll xs).equipment, e.typeKey = y.typeKey ∧
      (e.id, y.effectiveFrom) ∈ (createAll xs).configurationKeys := by
  obtain ⟨as, bs, rfl⟩ := List.append_of_mem hy
  have hrep : Represents (createAll (as ++ y :: bs)) (y.inUse (createAll as)) y := by
    rw [createAll_append, placeAll_cons]
    exact (represents_inUse y _).mono (extends_placeAll bs _)
  obtain ⟨-, ⟨e, he, hid, hclass, htype, hserial⟩, c, hc, -, -, hceq, htime⟩ := hrep
  refine ⟨e, he, key_eq_of_mem he hclass htype hserial, ?_⟩
  exact List.mem_map.mpr ⟨c, hc, by rw [hceq, htime, hid]⟩

/-- The row that an item is placed with is the one it refers to, if it is there already. -/
lemma refersTo_iff_id {st : Store} (h : Registry st) (x : EquipmentLogItem) {e : Equipment}
    (he : e ∈ st.equipment) : x.refersTo e = true ↔ e.id = x.equipmentId st := by
  cases hfind : st.equipment.find? x.refersTo with
  | some r =>
      have hr := List.mem_of_find?_eq_some hfind
      have href : x.refersTo r = true := List.find?_some hfind
      have hid : x.equipmentId st = r.id := by simp [equipmentId, hfind]
      rw [hid]
      constructor
      · intro hx
        rw [h.refersTo_unique x e he r hr hx href]
      · intro hid
        rwa [h.equipmentKeys.eq_of_key he hr hid]
  | none =>
      have hid : x.equipmentId st = st.nextId := by simp [equipmentId, hfind]
      have hlt := h.equipmentKeys.lt_next _ (List.mem_map_of_mem he)
      rw [hid]
      exact ⟨fun hx => absurd hx (List.find?_eq_none.mp hfind e he), fun h => absurd h hlt.ne⟩

/-- There is a configuration of the item's equipment with its time. -/
lemma mem_configurationKeys_iff (xs : List EquipmentLogItem) (x : EquipmentLogItem) :
    (x.equipmentId (createAll xs), x.effectiveFrom) ∈ (createAll xs).configurationKeys ↔
      ∃ y ∈ xs, y.effectiveFrom = x.effectiveFrom ∧ y.typeKey = x.typeKey ∧ ¬x.Unfindable := by
  have hreg := registry_createAll xs
  constructor
  · intro hmem
    obtain ⟨y, hy, hfrom, e, he, hid, hkey⟩ := exists_of_mem_configurationKeys xs _ hmem
    have href := (refersTo_iff_id hreg x he).mpr hid
    exact ⟨y, hy, hfrom, hkey.symm.trans (key_eq_of_refersTo he href),
      not_unfindable_of_refersTo href⟩
  · rintro ⟨y, hy, hfrom, hkey, hx⟩
    obtain ⟨e, he, hekey, hmem⟩ := exists_mem_configurationKeys hy
    rw [← (refersTo_iff_id hreg x he).mp (refersTo_of_key hx (hekey.trans hkey)), ← hfrom]
    exact hmem

/-- With a from the lookup finds the configuration of the item's equipment with its time. -/
lemma any_configures_iff (xs : List EquipmentLogItem) {x : EquipmentLogItem}
    (hfrom : x.effectiveFrom ≠ none) :
    (createAll xs).configurations.any (x.configures (x.equipmentId (createAll xs))) = true ↔
      (x.equipmentId (createAll xs), x.effectiveFrom) ∈ (createAll xs).configurationKeys := by
  have hreg := registry_createAll xs
  rw [List.any_eq_true, Store.configurationKeys, List.mem_map]
  refine exists_congr fun c => and_congr_right fun hc => ?_
  simp only [configures, Bool.and_eq_true, decide_eq_true_eq, sqlEq_iff, Prod.mk.injEq]
  constructor
  · rintro ⟨⟨-, hid⟩, htime, -⟩
    exact ⟨hid, htime⟩
  · rintro ⟨hid, htime⟩
    obtain ⟨e, he, heid, hclass⟩ := hreg.owner c hc
    have href := (refersTo_iff_id hreg x he).mpr (heid.trans hid)
    exact ⟨⟨hclass.symm.trans ((x.refersTo_iff e).mp href).1, hid⟩, htime, hfrom⟩

lemma configurationUnique_concat (xs : List EquipmentLogItem) (x : EquipmentLogItem) :
    (createAll (xs ++ [x])).ConfigurationUnique ↔
      (createAll xs).ConfigurationUnique ∧
        ∀ y ∈ xs, ¬(y.effectiveFrom = none ∧ x.effectiveFrom = none ∧
          y.typeKey = x.typeKey ∧ ¬x.Unfindable) := by
  have hmem := mem_configurationKeys_iff xs x
  rw [Store.ConfigurationUnique, Store.ConfigurationUnique, createAll_concat,
    configurationKeys_place]
  by_cases hfrom : x.effectiveFrom = none
  · -- nothing is looked up, so a row with the same key is a duplicate
    have hany : (createAll xs).configurations.any
        (x.configures (x.equipmentId (createAll xs))) = false :=
      List.any_eq_false.mpr fun c _ => by simp [configures_eq_false_of_from hfrom]
    rw [hany, if_neg (by simp), List.nodup_append_comm, List.singleton_append, List.nodup_cons,
      hmem, and_comm]
    refine and_congr_right fun _ => ?_
    simp only [hfrom, true_and, not_exists, not_and]
  · have hnot : ∀ y ∈ xs, ¬(y.effectiveFrom = none ∧ x.effectiveFrom = none ∧
          y.typeKey = x.typeKey ∧ ¬x.Unfindable) := fun y _ h => hfrom h.2.1
    split_ifs with h
    · simpa using fun _ => hnot
    · rw [any_configures_iff xs hfrom] at h
      rw [List.nodup_append_comm, List.singleton_append, List.nodup_cons]
      exact ⟨fun hn => ⟨hn.2, hnot⟩, fun hn => ⟨h, hn.1⟩⟩

/-- **Configurations are unique** if and only if no two items without a from share the equipment. -/
lemma configurationUnique_iff (xs : List EquipmentLogItem) :
    (createAll xs).ConfigurationUnique ↔
      xs.Pairwise fun y x => ¬(y.effectiveFrom = none ∧ x.effectiveFrom = none ∧
          y.typeKey = x.typeKey ∧ ¬x.Unfindable) := by
  induction xs using List.reverseRecOn with
  | nil => simp [createAll, Store.ConfigurationUnique, Store.configurationKeys, Store.empty]
  | append_singleton xs x ih =>
      rw [configurationUnique_concat, ih, List.pairwise_append]
      simp

/-! ## Stability -/

/-- **When find-or-create is stable.**  A second call for an item returns the keys of the first,
whatever is created in between, if and only if the item is lookupable.  The rows of equipment stay
unique along a run if and only if it creates no unfindable item twice, and the configurations if and
only if it creates no two findable items of one key without a from. -/
theorem create_stable_iff (xs ys : List EquipmentLogItem) (x : EquipmentLogItem) :
    ((createAndSave x (createAll xs)).1 = (createAndSave x (createAll (xs ++ x :: ys))).1 ↔
      x.Lookupable) ∧
    ((∀ zs, zs <+: xs → (createAll zs).EquipmentUnique) ↔
      xs.Pairwise fun y x => ¬(x.Unfindable ∧ y.typeKey = x.typeKey)) ∧
    ((∀ zs, zs <+: xs → (createAll zs).ConfigurationUnique) ↔
      xs.Pairwise fun y x => ¬(y.effectiveFrom = none ∧ x.effectiveFrom = none ∧
          y.typeKey = x.typeKey ∧ ¬x.Unfindable)) := by
  refine ⟨?_, ⟨fun h => ?_, fun h zs hzs => ?_⟩, ⟨fun h => ?_, fun h zs hzs => ?_⟩⟩
  · have hreg := registry_createAll xs
    rw [createAndSave_eq hreg, createAndSave_eq (registry_createAll _), createAll_append,
      placeAll_cons, Prod.mk.injEq]
    exact keys_eq_iff hreg x ys
  · exact (equipmentUnique_iff xs).mp (h xs List.prefix_rfl)
  · exact (equipmentUnique_iff zs).mpr (h.sublist hzs.sublist)
  · exact (configurationUnique_iff xs).mp (h xs List.prefix_rfl)
  · exact (configurationUnique_iff zs).mpr (h.sublist hzs.sublist)

/-- A receiver with the given serial number and from. -/
def sampleReceiver (serialNumber : Option String) (effectiveFrom : Option Instant) :
    EquipmentLogItem :=
  .gnssReceiver {
    type := some "LEICA"
    serialNumber
    satelliteSystem := none
    firmwareVersion := none
    elevationCutoffSetting := none
    temperatureStabilization := none
    notes := none
    effectiveDates := some ⟨effectiveFrom, none⟩
    dateDeleted := none }

/-- A receiver without a serial number gets a second row of equipment, and a receiver without a from
a second configuration. -/
theorem create_twice_serialless :
    (createAndSave (sampleReceiver none (some (.ofEpochSecond 5))) (createAll [])).1 ≠
      (createAndSave (sampleReceiver none (some (.ofEpochSecond 5)))
        (createAll [sampleReceiver none (some (.ofEpochSecond 5))])).1 ∧
    ¬(createAll [sampleReceiver none (some (.ofEpochSecond 5)),
      sampleReceiver none (some (.ofEpochSecond 5))]).EquipmentUnique ∧
    ¬(createAll [sampleReceiver (some "1") none,
      sampleReceiver (some "1") none]).ConfigurationUnique := by
  decide

end Geodesy
