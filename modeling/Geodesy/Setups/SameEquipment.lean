import Geodesy.Setups.InForce
import Geodesy.Setups.Reupload

/-!
# Logs with the same equipment

Two logs have the same equipment when their items agree in class, type, serial number and dates
(`SiteLog.SameEquipment`).  The order of the items may be another, and so may what they say of
configurations.  Such logs call for setups in the same periods with the same equipment, so handling
the one after the other leaves the answers of the setups at every instant, however queries list
entries (`SameEquipment.exists_handled`).  The setups themselves stay, too, when the equipment can
be found again, there is one item of each class at a time, and the query for the setups lists their
entries class by class.
-/

namespace Geodesy

open CorsSiteService EquipmentLogItem

/-! ## Items with one key -/

namespace EquipmentLogItem

variable {x y : EquipmentLogItem}

lemma effectiveDates_eq_of_key (h : x.key = y.key) : x.effectiveDates = y.effectiveDates :=
  congrArg (·.2.2.2) h

lemma effectiveFrom_eq_of_key (h : x.key = y.key) : x.effectiveFrom = y.effectiveFrom :=
  congrArg EffectiveDates.getFrom (effectiveDates_eq_of_key h)

lemma effectiveTo_eq_of_key (h : x.key = y.key) : x.effectiveTo = y.effectiveTo :=
  congrArg EffectiveDates.getTo (effectiveDates_eq_of_key h)

lemma equipmentClass_eq_of_key (h : x.key = y.key) : x.equipmentClass = y.equipmentClass :=
  congrArg (·.1) h

lemma lookupable_iff_of_key (h : x.key = y.key) : x.Lookupable ↔ y.Lookupable := by
  have htype : x.type = y.type := congrArg (·.2.1) h
  have hserial : x.serialNumber = y.serialNumber := congrArg (·.2.2.1) h
  rw [Lookupable, Lookupable, effectiveFrom_eq_of_key h, equipmentClass_eq_of_key h, htype, hserial]

lemma inEffectDuring_eq_of_key (h : x.key = y.key) (d : EffectiveDates) :
    x.inEffectDuring d = y.inEffectDuring d := by
  rw [inEffectDuring, inEffectDuring, effectiveFrom_eq_of_key h, effectiveTo_eq_of_key h]

lemma inForceAt_iff_of_key (h : x.key = y.key) (t : Instant) : x.InForceAt t ↔ y.InForceAt t := by
  rw [InForceAt, InForceAt, effectiveFrom_eq_of_key h, effectiveTo_eq_of_key h]

end EquipmentLogItem

/-! ## Logs -/

/-- The items agree in class, type, serial number and dates, in whichever order. -/
def SiteLog.SameEquipment (l' l : SiteLog) : Prop :=
  (l'.equipmentLogItems.map key).Perm (l.equipmentLogItems.map key)

namespace SiteLog

variable {l l' l'' : SiteLog}

lemma Iterates.sameEquipment (h : l'.Iterates l) : l'.SameEquipment l :=
  h.perm_equipmentLogItems.map key

lemma SameEquipment.trans (h : l''.SameEquipment l') (h' : l'.SameEquipment l) :
    l''.SameEquipment l := List.Perm.trans h h'

namespace SameEquipment

/-- The items of the one log in the order of the other. -/
lemma exists_order (h : l'.SameEquipment l) : ∃ xs, xs.Perm l.equipmentLogItems ∧
    List.Forall₂ (fun x y => x.key = y.key) l'.equipmentLogItems xs := by
  have hmatched : List.Forall₂ (fun k (y : EquipmentLogItem) => k = y.key)
      (l.equipmentLogItems.map key) l.equipmentLogItems := by
    rw [List.forall₂_map_left_iff]
    exact List.forall₂_same.mpr fun _ _ => rfl
  obtain ⟨xs, hxs, hperm⟩ := List.perm_comp_forall₂ h hmatched
  rw [List.forall₂_map_left_iff] at hxs
  exact ⟨xs, hperm, hxs⟩

/-- A predicate that depends on the keys selects the same items. -/
lemma filter (h : l'.SameEquipment l) {P : EquipmentLogItem → Bool}
    (hP : ∀ x y, x.key = y.key → P x = P y) :
    ((l'.equipmentLogItems.filter P).map key).Perm ((l.equipmentLogItems.filter P).map key) := by
  obtain ⟨xs, hperm, hmatched⟩ := h.exists_order
  have hfilter : List.Forall₂ (fun x y => x.key = y.key) (l'.equipmentLogItems.filter P)
      (xs.filter P) := List.rel_filter (fun x y hxy => by simp only [hP x y hxy]) hmatched
  rw [hfilter.map_eq_map fun _ _ hxy => hxy]
  exact (hperm.filter P).map key

lemma dates_eq (h : l'.SameEquipment l) : l'.dates = l.dates := by
  obtain ⟨xs, hperm, hmatched⟩ := h.exists_order
  have hdates : ∀ x y : EquipmentLogItem, x.key = y.key →
      x.effectiveFrom.toList ++ x.effectiveTo.toList =
        y.effectiveFrom.toList ++ y.effectiveTo.toList := by
    intro x y hxy
    rw [effectiveFrom_eq_of_key hxy, effectiveTo_eq_of_key hxy]
  refine Eq.trans ?_ (datesOfChange_congr hperm)
  rw [SiteLog.dates, datesOfChange, datesOfChange, List.flatMap_def, List.flatMap_def,
    hmatched.map_eq_map hdates]

lemma periods_eq (h : l'.SameEquipment l) : l'.periods = l.periods :=
  congrArg setupPeriods h.dates_eq

lemma accepted (h : l'.SameEquipment l) (hacc : l.Accepted) : l'.Accepted := by
  intro x hx
  obtain ⟨xs, hperm, hmatched⟩ := h.exists_order
  obtain ⟨y, hy, hxy⟩ := hmatched.exists_right hx
  rw [Placeable, effectiveFrom_eq_of_key hxy, effectiveTo_eq_of_key hxy]
  exact hacc y (hperm.subset hy)

/-- The setups that the logs call for have the same equipment. -/
lemma planned (h : l'.SameEquipment l) (d : EffectiveDates) :
    ((l'.planned d).items.map key).Perm ((l.planned d).items.map key) :=
  h.filter fun _ _ hxy => inEffectDuring_eq_of_key hxy d

/-- The logs have the same equipment in force at every instant. -/
lemma equipmentAt (h : l'.SameEquipment l) (t : Instant) :
    List.Forall₂ (fun xs ys => (xs.map key).Perm (ys.map key))
      (l'.equipmentAt t).toList (l.equipmentAt t).toList := by
  unfold SiteLog.equipmentAt
  rw [h.dates_eq]
  split_ifs
  · refine .cons (h.filter fun x y hxy => ?_) .nil
    rw [Bool.eq_iff_iff, decide_eq_true_iff, decide_eq_true_iff, inForceAt_iff_of_key hxy]
  · exact .nil

end SameEquipment

end SiteLog

/-! ## One item of each class -/

/-- The place of a class in `getEquipmentLogItems`. -/
def EquipmentClass.position : EquipmentClass → ℕ
  | .gnssReceiver => 0
  | .gnssAntenna => 1
  | .humiditySensor => 2
  | .clock => 3

lemma EquipmentClass.position_injective : Function.Injective EquipmentClass.position := by
  intro k k' h
  cases k <;> cases k' <;> first | rfl | cases h

namespace SiteLog

variable {l l' : SiteLog}

/-- The items are listed class by class. -/
lemma pairwise_position (l : SiteLog) : l.equipmentLogItems.Pairwise fun x y =>
    x.equipmentClass.position ≤ y.equipmentClass.position := by
  refine List.Pairwise.filter _ ?_
  simp only [getEquipmentLogItems, List.pairwise_append, List.pairwise_map, List.mem_append,
    List.mem_map]
  refine ⟨⟨⟨List.pairwise_of_forall fun _ _ => le_rfl, List.pairwise_of_forall fun _ _ => le_rfl,
    ?_⟩, List.pairwise_of_forall fun _ _ => le_rfl, ?_⟩, List.pairwise_of_forall fun _ _ => le_rfl,
    ?_⟩
  · rintro _ ⟨x, -, rfl⟩ _ ⟨y, -, rfl⟩
    exact Nat.zero_le _
  · rintro _ (⟨x, -, rfl⟩ | ⟨x, -, rfl⟩) _ ⟨y, -, rfl⟩ <;>
      simp [equipmentClass, EquipmentClass.position]
  · rintro _ ((⟨x, -, rfl⟩ | ⟨x, -, rfl⟩) | ⟨x, -, rfl⟩) _ ⟨y, -, rfl⟩ <;>
      simp [equipmentClass, EquipmentClass.position]

/-- There is one item of each class at a time. -/
def OneOfEachClass (l : SiteLog) : Prop :=
  ∀ p ∈ l.plan, (p.items.map (·.equipmentClass)).Nodup

/-- The planned items are listed class by class, too. -/
lemma pairwise_position_planned (l : SiteLog) (d : EffectiveDates) :
    ((l.planned d).items.map key).Pairwise fun k k' => k.1.position ≤ k'.1.position :=
  List.pairwise_map.mpr (l.pairwise_position.filter _)

/-- Then the classes decide the order of the items. -/
lemma pairwise_position_lt {xs : List EquipmentLogItem}
    (hsorted : (xs.map key).Pairwise fun k k' => k.1.position ≤ k'.1.position)
    (hclasses : (xs.map (·.equipmentClass)).Nodup) :
    (xs.map key).Pairwise fun k k' => k.1.position < k'.1.position := by
  rw [List.Nodup, List.pairwise_map] at hclasses
  rw [List.pairwise_map] at hsorted ⊢
  refine (hsorted.and hclasses).imp ?_
  rintro x y ⟨hle, hne⟩
  exact lt_of_le_of_ne hle fun heq => hne (EquipmentClass.position_injective heq)

namespace SameEquipment

/-- With one item of each class at a time the planned items come in the order of any list of the
same equipment class by class. -/
lemma planned_eq (h : l'.SameEquipment l) (hone : l.OneOfEachClass) {d : EffectiveDates}
    (hd : d ∈ l.periods) {xs : List EquipmentLogItem} (hxs : xs.Perm (l.planned d).items)
    (hsorted : (xs.map key).Pairwise fun k k' => k.1.position ≤ k'.1.position) :
    xs.map key = (l'.planned d).items.map key := by
  have hperm : (xs.map key).Perm ((l'.planned d).items.map key) :=
    (hxs.map key).trans (h.planned d).symm
  have hclasses : (xs.map (·.equipmentClass)).Nodup :=
    (hxs.map _).nodup_iff.mpr (hone (l.planned d) (mem_plan.mpr ⟨hd, rfl⟩))
  have hclasses' : ((l'.planned d).items.map (·.equipmentClass)).Nodup := by
    have hmap := hperm.map (·.1)
    rw [List.map_map, List.map_map] at hmap
    exact hmap.nodup_iff.mp hclasses
  exact List.Perm.eq_of_pairwise (fun a b _ _ hab hba => absurd hab hba.not_gt)
    (pairwise_position_lt hsorted hclasses)
    (pairwise_position_lt (l'.pairwise_position_planned d) hclasses') hperm

/-- The items that are placed can be found again, like those of the other log. -/
lemma lookupable (h : l'.SameEquipment l) (hlookup : ∀ x ∈ l.placements, x.Lookupable) :
    ∀ x ∈ l'.placements, x.Lookupable := by
  intro x hx
  obtain ⟨hx, d, hd, hxd⟩ := mem_placements.mp hx
  obtain ⟨xs, hperm, hmatched⟩ := h.exists_order
  obtain ⟨y, hy, hxy⟩ := hmatched.exists_right hx
  rw [lookupable_iff_of_key hxy]
  refine hlookup y (mem_placements.mpr ⟨hperm.subset hy, d, h.periods_eq ▸ hd, ?_⟩)
  rwa [← inEffectDuring_eq_of_key hxy]

end SameEquipment

end SiteLog

/-! ## Handling the one after the other -/

/-- The entries of the two setups stand for the same equipment. -/
def SameContents (st st' : Store) (r r' : SetupRow) : Prop :=
  ∃ xs xs', List.Forall₂ (Represents st) r.setup.equipmentInUse xs ∧
    List.Forall₂ (Represents st') r'.setup.equipmentInUse xs' ∧ (xs'.map key).Perm (xs.map key)

/-- Setups answer as their log does, however their entries are listed. -/
lemma SetupsEquip.setupsAt {st : Store} {k : ℕ} {l : SiteLog} (h : SetupsEquip st k l)
    (t : Instant) :
    List.Forall₂ (fun r items => ∃ xs, xs.Perm items ∧
        List.Forall₂ (Represents st) r.setup.equipmentInUse xs)
      (st.setupsAt k t) (l.equipmentAt t).toList := by
  obtain ⟨plans, hperm, hplans⟩ := h
  have hfilter : List.Forall₂ (fun (r : SetupRow) p => Equips st k r.setup p) (st.setupsAt k t)
      (plans.filter fun p => p.period.InForceAt t) := by
    refine List.rel_filter ?_ hplans
    intro r p hr
    simp only [hr.period_eq]
  have hitems : ((plans.filter fun p => p.period.InForceAt t).map (·.items)).Perm
      (l.equipmentAt t).toList := by
    rw [← l.plan_inForceAt t]
    exact (hperm.filter _).map _
  -- there is one setup at most, so the order of the plans does not matter
  have hitems : (plans.filter fun p => p.period.InForceAt t).map (·.items) =
      (l.equipmentAt t).toList := by
    cases hat : l.equipmentAt t with
    | none =>
        rw [hat] at hitems
        exact hitems.eq_nil
    | some items =>
        rw [hat] at hitems
        exact List.perm_singleton.mp hitems
  rw [← hitems, List.forall₂_map_right_iff]
  exact hfilter.imp fun _ _ hr => hr.represents

/-- Setups that stand for logs with the same equipment answer the same at every instant. -/
lemma SetupsEquip.sameContents {st st' : Store} {k : ℕ} {l l' : SiteLog}
    (h : SetupsEquip st k l) (h' : SetupsEquip st' k l') (hsame : l'.SameEquipment l)
    (t : Instant) : List.Forall₂ (SameContents st st') (st.setupsAt k t) (st'.setupsAt k t) := by
  have hmatched := ((h.setupsAt t).comp (hsame.equipmentAt t).flip).comp (h'.setupsAt t).flip
  refine hmatched.imp ?_
  rintro r r' ⟨items', ⟨items, ⟨xs, hxs, hr⟩, hperm⟩, xs', hxs', hr'⟩
  exact ⟨xs, xs', hr, hr',
    ((hxs'.map key).trans hperm).trans (hxs.map key).symm⟩

/-- The entries of the valid setups of the site are listed class by class: first the receivers, then
the antennas, the humidity sensors and the clocks. -/
def Store.ListsByClass (st : Store) (siteId : ℕ) : Prop :=
  ∀ r ∈ st.findSetupsBySiteId siteId, r.setup.equipmentInUse.Pairwise fun u v =>
    ∀ a ∈ st.keyOf u, ∀ b ∈ st.keyOf v, a.1.position ≤ b.1.position

/-- A log of equipment that can be found again, one item of each class at a time, is repeated where
entries are listed class by class. -/
lemma SiteLog.SameEquipment.repeatable {st : Store} {k : ℕ} {l l' : SiteLog} (hreg : Registry st)
    (hequip : SetupsEquip st k l) (h : l'.SameEquipment l)
    (hlookup : ∀ x ∈ l.placements, x.Lookupable) (hone : l.OneOfEachClass)
    (hlisted : st.ListsByClass k) : Repeatable st k l' where
  lookupable := h.lookupable hlookup
  sameOrder r hr := by
    obtain ⟨hd, hequips⟩ := hequip.equips hr
    obtain ⟨items, hperm, hitems⟩ := hequips.represents
    have hkeys := map_keyOf_of_represents hreg hitems
    have hsorted : (items.map key).Pairwise fun k k' => k.1.position ≤ k'.1.position := by
      have hpairwise : (r.setup.equipmentInUse.map st.keyOf).Pairwise fun k k' =>
          ∀ a ∈ k, ∀ b ∈ k', a.1.position ≤ b.1.position := List.pairwise_map.mpr (hlisted r hr)
      rw [hkeys, List.pairwise_map] at hpairwise
      exact hpairwise.imp fun hle => hle _ rfl _ rfl
    rw [hkeys, h.planned_eq hone hd hperm hsorted]

/-- **A log with the same equipment can be handled, and the setups answer as before**, at every
instant and however queries list entries.  If the equipment can be found again, there is one item of
each class at a time, and the entries are listed class by class, no setup is invalidated and nothing
is created. -/
theorem SiteLog.SameEquipment.exists_handled {lib : ListUtils} {w : World}
    (hw : World.ReachableListed lib (fun _ _ => True) w) {l L : SiteLog}
    (hlast : w.lastLog l.fourCharacterId = some L) (hsame : l.reload.SameEquipment L)
    (load : LoadOrder) (rows : RowOrder) (entries : EntryOrder) :
    ∃ w₁ w₂, World.Takes lib w (.upload l) w₁ ∧
      World.TakesListed lib w₁
        ⟨entries, .siteLogReceived load rows ⟨l.fourCharacterId, l.siteLogText⟩⟩ w₂ ∧
      (∀ k, w.store.siteId l.fourCharacterId = some k → ∀ t,
        List.Forall₂ (SameContents w.store w₂.store)
          (w.store.setupsAt k t) (w₂.store.setupsAt k t)) ∧
      ((∀ x ∈ L.placements, x.Lookupable) → L.OneOfEachClass →
        (∀ k, w.store.siteId l.fourCharacterId = some k → (w.store.listed entries).ListsByClass k) →
          NothingNew (w.store.listed entries) w₂.store) := by
  have htracks := hw.tracksListed
  obtain ⟨k, hk, hacc, hequip⟩ := htracks.site_of_lastLog hlast
  have hloaded : (load.load l.reload).SameEquipment L :=
    (load.load_iterates _).sameEquipment.trans hsame
  obtain ⟨w₁, w₂, hupload, hreceived, hiff, hlast₂, hsite₂, -, -⟩ :=
    htracks.exists_reupload hlast (hloaded.accepted hacc) hloaded.periods_eq rows entries
  have htracks₂ : TracksListed w₂ := ((htracks.step hupload).listed entries).step hreceived
  refine ⟨w₁, w₂, hupload, hreceived, ?_, ?_⟩
  · intro k' hk' t
    -- the site keeps its key, and its setups stand for the log that was read
    obtain ⟨l₂, hl₂, -, hequip₂⟩ := htracks₂.handled _ k' (hsite₂.trans hk')
    obtain rfl := Option.some.inj (hlast₂.symm.trans hl₂)
    obtain rfl := Option.some.inj (hk.symm.trans hk')
    exact hequip.sameContents hequip₂ hloaded t
  · intro hlookup hone hlisted
    refine hiff.mpr ?_
    intro site hsite
    have hid : (load.load l.reload).fourCharacterId = l.fourCharacterId :=
      congrArg (·.fourCharacterId) (load.load_iterates _).siteIdentification
    rw [hid] at hsite
    have hk' : w.store.siteId l.fourCharacterId = some site.id := by
      rw [Store.siteId, hsite, Option.map_some]
    obtain rfl := Option.some.inj (hk.symm.trans hk')
    exact hloaded.repeatable (htracks.listed entries).tables.registry (hequip.listed entries)
      hlookup hone (hlisted _ hk')

end Geodesy
