import Geodesy.Library.Matched
import Geodesy.LogItems.Export
import Geodesy.Mapper.TimePeriods
import Mathlib.Data.List.Induction

/-!
# Lists of log items in GeodesyML

A site log in GeodesyML has a list of properties for each class of log items, each with a target
element and with the dates of its insertion and deletion.  `ListToSet.to` makes a set of log items
of it, which are objects with identity, and `ListToSet.from` a list of the set, whose order is that
of `LogItem.compareTo`.

The mapper of the elements is a parameter; it knows nothing of the three tracking fields.  Then the
properties come back, in another order, with the same element and the same dates each
(`logItems_round_trip`), unless a date lies in a year that is not written.
-/

namespace Geodesy.Mapper

open InstantToTimePositionConverter LogItems

variable {T : Type} {δ : Type} {c : LogItemClass}

/-- `Iso`, with its `to` and `from`. -/
structure Iso (A B : Type) where
  toB : A → B
  fromB : B → A

/-- `Iso.compose`. -/
def Iso.compose {A B C : Type} (i : Iso A B) (j : Iso B C) : Iso A C :=
  ⟨fun a => j.toB (i.toB a), fun c => i.fromB (j.fromB c)⟩

/-- `LogItemPropertyType`: an element and its tracking data. -/
structure LogItemPropertyType (T : Type) where
  targetElement : T
  dateInserted : Option TimePositionType
  dateDeleted : Option TimePositionType
  deletedReason : Option String
  deriving DecidableEq, Repr

/-- `GMLPropertyTypeMapper`: a new property has nothing but its element. -/
def GMLPropertyTypeMapper : Iso (LogItemPropertyType T) T :=
  ⟨fun p => p.targetElement, fun t => ⟨t, none, none, none⟩⟩

namespace LogItemPropertyTypeMapper

/-- `propertyToLogItemMapper`. -/
def propertyToLogItemMapper (logItemMapper : Iso T (LogItem δ c)) :
    Iso (LogItemPropertyType T) (LogItem δ c) := GMLPropertyTypeMapper.compose logItemMapper

/-- The three fields of a property that are copied to the log item. -/
def mapAtoB (p : LogItemPropertyType T) (x : LogItem δ c) :
    Except ConversionException (LogItem δ c) := do
  let inserted ← readDate p.dateInserted
  let deleted ← readDate p.dateDeleted
  return ((x.set dateInserted inserted).set dateDeleted deleted).set deletedReason p.deletedReason

/-- The three fields of a log item that are copied to the property; an unknown date of insertion is
written as such. -/
def mapBtoA (x : LogItem δ c) (p : LogItemPropertyType T) :
    Except ConversionException (LogItemPropertyType T) := do
  let inserted ← writeDate (x.get dateInserted)
  let deleted ← writeDate (x.get dateDeleted)
  let p : LogItemPropertyType T := { p with
    dateInserted := inserted, dateDeleted := deleted, deletedReason := x.get deletedReason }
  return if x.get dateInserted = none then { p with dateInserted := some unknownPosition } else p

/-- `LogItemPropertyTypeMapper.to`. -/
def toLogItem (logItemMapper : Iso T (LogItem δ c)) (p : LogItemPropertyType T) :
    Except ConversionException (LogItem δ c) :=
  mapAtoB p ((propertyToLogItemMapper logItemMapper).toB p)

/-- `LogItemPropertyTypeMapper.from`. -/
def fromLogItem (logItemMapper : Iso T (LogItem δ c)) (x : LogItem δ c) :
    Except ConversionException (LogItemPropertyType T) :=
  mapBtoA x ((propertyToLogItemMapper logItemMapper).fromB x)

end LogItemPropertyTypeMapper

open LogItemPropertyTypeMapper

/-! ## Sets of objects -/

/-- An object on the heap. -/
structure Ref (α : Type) where
  id : ℕ
  object : α

/-- `Object.equals`, which no log item overrides. -/
def Ref.equals {α : Type} (x y : Ref α) : Bool := x.id = y.id

/-- New objects. -/
def allocate {α : Type} (xs : List α) : List (Ref α) := xs.zipIdx.map fun x => ⟨x.2, x.1⟩

/-- `Collectors.toSet`: what equals an element is not added. -/
def toSet {α : Type} (xs : List (Ref α)) : List (Ref α) :=
  xs.foldl (fun set x => if set.any x.equals then set else set ++ [x]) []

/-- `ListToSet.to`: a log item is made for each property. -/
def ListToSet.toLogItems (logItemMapper : Iso T (LogItem δ c))
    (list : List (LogItemPropertyType T)) :
    Except ConversionException (List (Ref (LogItem δ c))) := do
  let items ← list.mapM (toLogItem logItemMapper)
  return toSet (allocate items)

/-- `ListToSet.from`, where the set is iterated in the order of the list. -/
def ListToSet.fromLogItems [LinearOrder δ] (logItemMapper : Iso T (LogItem δ c))
    (set : List (Ref (LogItem δ c))) : Except ConversionException (List (LogItemPropertyType T)) :=
  (ListToSet.fromSet (fromLogItem logItemMapper) (set.map (·.object))).mapM id

lemma map_object_allocate {α : Type} (xs : List α) : (allocate xs).map (·.object) = xs := by
  rw [allocate, List.map_map]
  exact List.zipIdx_map_fst 0 xs

lemma nodup_id_allocate {α : Type} (xs : List α) : ((allocate xs).map (·.id)).Nodup := by
  have hid : (allocate xs).map (·.id) = List.range' 0 xs.length := by
    rw [allocate, List.map_map]
    exact List.zipIdx_map_snd 0 xs
  rw [hid]
  exact List.nodup_range'

/-- Different objects are all kept, equal or not. -/
lemma toSet_of_nodup {α : Type} {xs : List (Ref α)} (h : (xs.map (·.id)).Nodup) :
    toSet xs = xs := by
  induction xs using List.reverseRecOn with
  | nil => rfl
  | append_singleton xs x ih =>
      rw [List.map_append, List.map_singleton, List.nodup_append_comm, List.singleton_append,
        List.nodup_cons] at h
      have hnew : xs.any x.equals = false := by
        rw [List.any_eq_false]
        intro y hy heq
        have hid : x.id = y.id := by simpa [Ref.equals] using heq
        exact h.1 (hid ▸ List.mem_map_of_mem hy)
      have ih := ih h.2
      rw [toSet] at ih ⊢
      rw [List.foldl_append, ih, List.foldl_cons, List.foldl_nil, hnew]
      rfl

/-! ## One property -/

/-- The mapper of the elements restores an element, and it does not see the tracking fields. -/
structure ElementRoundTrip (logItemMapper : Iso T (LogItem δ c)) : Prop where
  restored : ∀ t, logItemMapper.fromB (logItemMapper.toB t) = t
  untracked : ∀ x y : LogItem δ c, (∀ f, f ∉ logItemFields → x.get f = y.get f) →
    logItemMapper.fromB x = logItemMapper.fromB y

/-- A date that is accepted, in a year that is written. -/
def AcceptedDate (time : Option TimePositionType) : Prop :=
  ∃ date, readDate time = .ok date ∧ ∀ i ∈ date, ValidYear (yearOf i)

/-- The dates of a property are accepted. -/
def LogItemPropertyType.Accepted (p : LogItemPropertyType T) : Prop :=
  AcceptedDate p.dateInserted ∧ AcceptedDate p.dateDeleted

/-- The same property, with its dates written anew. -/
structure Normalised (p q : LogItemPropertyType T) : Prop where
  targetElement : q.targetElement = p.targetElement
  dateInserted : readDate q.dateInserted = readDate p.dateInserted
  unknown : readDate p.dateInserted = .ok none → q.dateInserted = some unknownPosition
  dateDeleted : readDate q.dateDeleted = readDate p.dateDeleted
  deletedReason : q.deletedReason = p.deletedReason

/-- The log item that is made for a property. -/
structure Carries (logItemMapper : Iso T (LogItem δ c)) (p : LogItemPropertyType T)
    (x : LogItem δ c) : Prop where
  inserted : readDate p.dateInserted = .ok (x.get dateInserted)
  deleted : readDate p.dateDeleted = .ok (x.get dateDeleted)
  reason : x.get deletedReason = p.deletedReason
  element : ∀ f, f ∉ logItemFields → x.get f = (logItemMapper.toB p.targetElement).get f
  restorable_inserted : ∀ i ∈ x.get dateInserted, Restorable i
  restorable_deleted : ∀ i ∈ x.get dateDeleted, Restorable i

lemma mem_allFields_of_logItemFields : ∀ f ∈ logItemFields, f ∈ allFields c := by
  cases c <;> decide

/-- What is read is in whole milliseconds. -/
lemma restorable_of_readDate {time : Option TimePositionType} {date : Option Instant}
    (h : readDate time = .ok date) (hyear : ∀ i ∈ date, ValidYear (yearOf i)) :
    ∀ i ∈ date, Restorable i := by
  rintro i hi
  refine ⟨hyear i hi, ?_⟩
  obtain rfl := Option.mem_def.mp hi
  rcases time with _ | time
  · cases h
  · exact nanos_of_convertFrom h

/-- The three setters, one after the other. -/
lemma get_tracked (x : LogItem δ c) (inserted deleted : Option Instant) (reason : Option String) :
    let y := ((x.set dateInserted inserted).set dateDeleted deleted).set deletedReason reason
    y.get dateInserted = inserted ∧ y.get dateDeleted = deleted ∧ y.get deletedReason = reason ∧
      ∀ f, f ∉ logItemFields → y.get f = x.get f := by
  have hmem := mem_allFields_of_logItemFields (c := c)
  refine ⟨?_, ?_, ?_, fun f hf => ?_⟩
  · rw [LogItem.get_set_of_ne _ (by decide), LogItem.get_set_of_ne _ (by decide),
      LogItem.get_set_self _ (hmem _ (by decide))]
  · rw [LogItem.get_set_of_ne _ (by decide), LogItem.get_set_self _ (hmem _ (by decide))]
  · rw [LogItem.get_set_self _ (hmem _ (by decide))]
  · simp only [logItemFields, List.mem_cons, List.not_mem_nil, or_false, not_or] at hf
    rw [LogItem.get_set_of_ne _ (Ne.symm hf.2.2), LogItem.get_set_of_ne _ (Ne.symm hf.2.1),
      LogItem.get_set_of_ne _ (Ne.symm hf.1)]

/-- A log item is made for a property whose dates are accepted. -/
lemma exists_toLogItem (logItemMapper : Iso T (LogItem δ c)) {p : LogItemPropertyType T}
    (hp : p.Accepted) : ∃ x, toLogItem logItemMapper p = .ok x ∧ Carries logItemMapper p x := by
  obtain ⟨⟨inserted, hinserted, hyear⟩, ⟨deleted, hdeleted, hyear'⟩⟩ := hp
  obtain ⟨hget, hget', hreason, helement⟩ :=
    get_tracked (logItemMapper.toB p.targetElement) inserted deleted p.deletedReason
  refine ⟨_, by rw [toLogItem, mapAtoB, hinserted, hdeleted]; rfl, ?_⟩
  constructor
  · exact hinserted.trans (congrArg Except.ok hget.symm)
  · exact hdeleted.trans (congrArg Except.ok hget'.symm)
  · exact hreason
  · exact helement
  · intro i hi
    exact restorable_of_readDate hinserted hyear i (hget ▸ hi)
  · intro i hi
    exact restorable_of_readDate hdeleted hyear' i (hget' ▸ hi)

/-- A log item is written as the property that it was made for. -/
lemma exists_fromLogItem {logItemMapper : Iso T (LogItem δ c)}
    (hmapper : ElementRoundTrip logItemMapper) {p : LogItemPropertyType T} {x : LogItem δ c}
    (h : Carries logItemMapper p x) :
    ∃ q, fromLogItem logItemMapper x = .ok q ∧ Normalised p q := by
  obtain ⟨inserted, hwrite, hread⟩ := readDate_writeDate h.restorable_inserted
  obtain ⟨deleted, hwrite', hread'⟩ := readDate_writeDate h.restorable_deleted
  have htarget : logItemMapper.fromB x = p.targetElement :=
    (hmapper.untracked x _ h.element).trans (hmapper.restored p.targetElement)
  refine ⟨⟨logItemMapper.fromB x,
    if x.get dateInserted = none then some unknownPosition else inserted, deleted,
    x.get deletedReason⟩, ?_, ?_⟩
  · rw [fromLogItem, mapBtoA, hwrite, hwrite']
    by_cases hnone : x.get dateInserted = none
    · rw [if_pos hnone]
      exact congrArg Except.ok (if_pos hnone)
    · rw [if_neg hnone]
      exact congrArg Except.ok (if_neg hnone)
  · constructor
    · exact htarget
    · exact hread.trans h.inserted.symm
    · intro hnone
      exact if_pos (Except.ok.inj (h.inserted.symm.trans hnone))
    · rw [h.deleted]
      by_cases hnone : x.get dateDeleted = none
      · -- null stays null
        rw [hnone] at hwrite' ⊢
        cases hwrite'
        rfl
      · rwa [if_neg hnone] at hread'
    · exact h.reason

/-! ## Lists of properties -/

/-- **Lists of log items survive the round trip.**  A log item is made for each property, and
whatever the order in which the set of them is iterated, each is written as a property with the same
element and tracking data, in the order of `compareTo`. -/
theorem logItems_round_trip [LinearOrder δ] {logItemMapper : Iso T (LogItem δ c)}
    (hmapper : ElementRoundTrip logItemMapper) {list : List (LogItemPropertyType T)}
    (hlist : ∀ p ∈ list, p.Accepted) :
    ∃ set, ListToSet.toLogItems logItemMapper list = .ok set ∧ set.length = list.length ∧
      ∀ order, order.Perm set →
        ∃ out list', ListToSet.fromLogItems logItemMapper order = .ok out ∧
          list'.Perm list ∧ List.Forall₂ Normalised list' out ∧
          ∃ items, items.Perm (order.map (·.object)) ∧
            items.Pairwise (fun x y => x.compareTo y ≤ 0) ∧
            List.Forall₂ (fun x q => fromLogItem logItemMapper x = .ok q) items out := by
  obtain ⟨items, hitems, hcarries⟩ := List.Forall₂.exists_mapM_eq_ok
    fun p hp => exists_toLogItem logItemMapper (hlist p hp)
  have hset : ListToSet.toLogItems logItemMapper list = .ok (allocate items) := by
    rw [ListToSet.toLogItems, hitems]
    exact congrArg Except.ok (toSet_of_nodup (nodup_id_allocate items))
  have hlength : (allocate items).length = list.length := by
    rw [← List.length_map (·.object), map_object_allocate, hcarries.length_eq]
  refine ⟨allocate items, hset, hlength, fun order horder => ?_⟩
  have hobjects : (order.map (·.object)).Perm items := by
    have h := horder.map (·.object)
    rwa [map_object_allocate] at h
  -- the properties in the order in which their items are sorted
  have hsorted := (StableSort.sorted_perm LogItem.compareTo (order.map (·.object))).trans hobjects
  obtain ⟨list', hcarries', hperm⟩ := List.perm_comp_forall₂ hsorted (hcarries.flip)
  have hwritten : ∀ x ∈ StableSort.sorted LogItem.compareTo (order.map (·.object)),
      ∃ q, fromLogItem logItemMapper x = .ok q ∧
        ∀ p, Carries logItemMapper p x → Normalised p q := by
    intro x hx
    obtain ⟨p, -, -, hp⟩ := hcarries'.exists_right hx
    obtain ⟨q, hq, -⟩ := exists_fromLogItem hmapper hp
    refine ⟨q, hq, fun p' hp' => ?_⟩
    obtain ⟨q', hq', hnormalised⟩ := exists_fromLogItem hmapper hp'
    obtain rfl : q = q' := Except.ok.inj (hq.symm.trans hq')
    exact hnormalised
  obtain ⟨out, hout, hmatched⟩ := List.Forall₂.exists_mapM_eq_ok hwritten
  refine ⟨out, list', ?_, hperm, ?_, _, StableSort.sorted_perm LogItem.compareTo _,
    pairwise_sorted_compareTo _, hmatched.imp fun _ _ h => h.1⟩
  · rw [ListToSet.fromLogItems, ListToSet.fromSet, List.mapM_map]
    exact hout
  · refine (hcarries'.flip.comp hmatched).imp ?_
    rintro p q ⟨x, ⟨-, hcarries⟩, -, hnormalised⟩
    exact hnormalised p hcarries

/-- A mapper of signal obstructions, of which it has the possible source only. -/
def obstructionMapper : Iso String (LogItem ℤ .signalObstruction) :=
  ⟨obstruction, fun x => (x.get ⟨"possibleProblemSource", .string⟩).getD ""⟩

lemma obstructionMapper_roundTrip : ElementRoundTrip obstructionMapper where
  restored _ := rfl
  untracked x y h := congrArg (Option.getD · "") (h _ (by decide))

/-- A time position with a text. -/
def timePosition (dateString : String) : TimePositionType := ⟨[dateString], none⟩

/-- Two properties that are equal, and one with an unknown date of insertion. -/
def sampleProperties : List (LogItemPropertyType String) :=
  [⟨"TREE", some (timePosition "2020-01-02"), none, none⟩,
    ⟨"TREE", some (timePosition "2020-01-02"), none, none⟩,
    ⟨"TOWER", some unknownPosition, some (timePosition "2021-03-04T05:06:07.089+10:00"),
      some "removed"⟩]

lemma accepted_sampleProperties : ∀ p ∈ sampleProperties, p.Accepted := by
  have htree : AcceptedDate (some (timePosition "2020-01-02")) :=
    ⟨some ⟨1577923200, 0, by decide⟩, by decide, by decide⟩
  have htower : AcceptedDate (some (timePosition "2021-03-04T05:06:07.089+10:00")) :=
    ⟨some ⟨1614798367, 89000000, by decide⟩, by decide +kernel, by decide⟩
  have hnull : AcceptedDate none := ⟨none, rfl, nofun⟩
  have hunknown : AcceptedDate (some unknownPosition) := ⟨none, rfl, nofun⟩
  simp only [sampleProperties, List.forall_mem_cons]
  exact ⟨⟨htree, hnull⟩, ⟨htree, hnull⟩, ⟨hunknown, htower⟩, nofun⟩

theorem logItems_round_trip_three :
    ∃ set out list', ListToSet.toLogItems obstructionMapper sampleProperties = .ok set ∧
      set.length = 3 ∧ ListToSet.fromLogItems obstructionMapper set.reverse = .ok out ∧
      list'.Perm sampleProperties ∧ List.Forall₂ Normalised list' out := by
  obtain ⟨set, hset, hlength, horder⟩ :=
    logItems_round_trip obstructionMapper_roundTrip accepted_sampleProperties
  obtain ⟨out, list', hout, hperm, hnormalised, -⟩ := horder set.reverse set.reverse_perm
  exact ⟨set, out, list', hset, hlength, hout, hperm, hnormalised⟩

/-- The last moment that `OffsetDateTime` has, which is after the last year of `LocalDate`. -/
def lastOffsetDateTime : Instant := ⟨31556889832845599, 999000000, by decide⟩

/-- A property with that date. -/
def lastProperty : LogItemPropertyType String :=
  ⟨"TREE", some (timePosition "+999999999-12-31T23:59:59.999-18:00"), none, none⟩

/-- An accepted date that is not written: the set is read from the list, but cannot be written. -/
theorem lastProperty_not_written :
    readDate lastProperty.dateInserted = .ok (some lastOffsetDateTime) ∧
    ∃ set, ListToSet.toLogItems obstructionMapper [lastProperty] = .ok set ∧ set.length = 1 ∧
      ListToSet.fromLogItems obstructionMapper set = .error .dateTime := by
  have hread : readDate lastProperty.dateInserted = .ok (some lastOffsetDateTime) := by decide
  have hwrite : writeDate (some lastOffsetDateTime) = .error .dateTime := by
    rw [writeDate, mapField, convertTo_error (by decide)]
    rfl
  have hget := (get_tracked (obstruction "TREE") (some lastOffsetDateTime) none none).1
  have hitem : toLogItem obstructionMapper lastProperty =
      .ok ((((obstruction "TREE").set dateInserted (some lastOffsetDateTime)).set
        dateDeleted none).set deletedReason none) := by
    rw [toLogItem, mapAtoB, hread]
    rfl
  generalize (((obstruction "TREE").set dateInserted (some lastOffsetDateTime)).set
    dateDeleted none).set deletedReason none = x at hget hitem
  have hback : fromLogItem obstructionMapper x = .error .dateTime := by
    rw [fromLogItem, mapBtoA, hget, hwrite]
    rfl
  refine ⟨hread, allocate [x], ?_, rfl, ?_⟩
  · rw [ListToSet.toLogItems, List.mapM_cons, hitem]
    rfl
  · rw [ListToSet.fromLogItems, map_object_allocate]
    change [fromLogItem obstructionMapper x].mapM id = _
    rw [List.mapM_cons, id, hback]
    rfl

end Geodesy.Mapper
