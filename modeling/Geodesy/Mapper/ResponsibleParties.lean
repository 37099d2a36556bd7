import Geodesy.Domain.Store
import Geodesy.Library.Grouping

/-!
# Responsible parties in GeodesyML

A `SiteLogType` has an owner, a metadata custodian, a data source and any number of contacts and
data centers; a `SiteLog` has one list of parties, each with the key of its contact type.
`ResponsiblePartiesMapper` flattens the one into the other and takes it apart again by the code that
it finds under the key.

The types `P` and `D` are those of `CIResponsiblePartyType` and `ResponsibleParty`; the mapper
between them is a parameter.
-/

namespace Geodesy.Mapper

variable {P D : Type}

/-! ## Contact types -/

/-- `ContactType`, a row of `SITELOG_RESPONSIBLE_PARTY_ROLE`. -/
structure ContactType where
  id : ℕ
  code : String
  deriving DecidableEq, Repr

/-- The five contact types that the code names. -/
inductive ContactCode
  | siteOwner
  | siteContact
  | siteMetadataCustodian
  | siteDataCenter
  | siteDataSource
  deriving DecidableEq, Repr

/-- `ContactType.SITE_OWNER` and the other constants. -/
def ContactCode.code : ContactCode → String
  | siteOwner => "SiteOwner"
  | siteContact => "SiteContact"
  | siteMetadataCustodian => "SiteMetadataCustodian"
  | siteDataCenter => "SiteDataCenter"
  | siteDataSource => "SiteDataSource"

/-- The codes in the order in which `mapAtoB` adds their parties. -/
def ContactCode.all : List ContactCode :=
  [.siteOwner, .siteContact, .siteMetadataCustodian, .siteDataCenter, .siteDataSource]

lemma ContactCode.code_injective : Function.Injective ContactCode.code := by
  intro a b h
  cases a <;> cases b <;> first | rfl | exact absurd h (by decide)

/-- `ContactTypeRepository`: keys are unique, and each of the five codes has its row. -/
structure ContactTypeRepository where
  rows : List ContactType
  nodup_id : (rows.map (·.id)).Nodup
  length_filter : ∀ c : ContactCode, (rows.filter (·.code = c.code)).length = 1

namespace ContactTypeRepository

variable (contactTypes : ContactTypeRepository)

/-- `siteOwner`, `siteContact` and so on: the query for a code has a single result. -/
def findByCode (c : ContactCode) : Except JavaException (Option ContactType) :=
  match contactTypes.rows.filter (·.code = c.code) with
  | [] => .ok none
  | [r] => .ok (some r)
  | _ => .error .incorrectResultSize

/-- `findOne`. -/
def findOne (id : ℕ) : Option ContactType := contactTypes.rows.find? (·.id = id)

/-- The row of a code. -/
def row (c : ContactCode) : ContactType :=
  (contactTypes.rows.filter (·.code = c.code)).head
    (List.ne_nil_of_length_pos (by rw [contactTypes.length_filter c]; decide))

lemma filter_eq (c : ContactCode) :
    contactTypes.rows.filter (·.code = c.code) = [contactTypes.row c] := by
  obtain ⟨r, hr⟩ := List.length_eq_one_iff.mp (contactTypes.length_filter c)
  simp only [row, hr, List.head_cons]

lemma row_mem (c : ContactCode) :
    contactTypes.row c ∈ contactTypes.rows ∧ (contactTypes.row c).code = c.code := by
  have h : contactTypes.row c ∈ contactTypes.rows.filter (·.code = c.code) := by
    rw [contactTypes.filter_eq c]
    exact List.mem_singleton_self _
  simpa using h

@[simp] lemma findByCode_eq (c : ContactCode) :
    contactTypes.findByCode c = .ok (some (contactTypes.row c)) := by
  rw [findByCode, filter_eq]

@[simp] lemma findOne_row (c : ContactCode) :
    contactTypes.findOne (contactTypes.row c).id = some (contactTypes.row c) :=
  Rows.find?_eq_some_of_nodup contactTypes.nodup_id (contactTypes.row_mem c).1

@[simp] lemma code_row (c : ContactCode) : (contactTypes.row c).code = c.code :=
  (contactTypes.row_mem c).2

lemma id_row_injective : Function.Injective fun c => (contactTypes.row c).id := by
  intro a b h
  have hrow : contactTypes.row a = contactTypes.row b :=
    List.inj_on_of_nodup_map contactTypes.nodup_id (contactTypes.row_mem a).1
      (contactTypes.row_mem b).1 h
  apply ContactCode.code_injective
  rw [← contactTypes.code_row a, hrow, contactTypes.code_row]

end ContactTypeRepository

/-! ## The mapper -/

/-- `AgencyPropertyType`, with the party that it has or has not. -/
structure AgencyPropertyType (P : Type) where
  ciResponsibleParty : Option P
  deriving DecidableEq, Repr

/-- The agency has a party. -/
def AgencyPropertyType.hasParty (agency : AgencyPropertyType P) : Bool :=
  agency.ciResponsibleParty.isSome

/-- The agencies of a `SiteLogType`.  Those of the lists can be null too. -/
structure SiteLogType (P : Type) where
  siteOwner : Option (AgencyPropertyType P)
  siteContacts : List (Option (AgencyPropertyType P))
  siteMetadataCustodian : Option (AgencyPropertyType P)
  siteDataCenters : List (Option (AgencyPropertyType P))
  siteDataSource : Option (AgencyPropertyType P)
  deriving DecidableEq, Repr

/-- `new SiteLogType()`. -/
def SiteLogType.empty : SiteLogType P := ⟨none, [], none, [], none⟩

/-- A `SiteLogType` without the entries that have no party. -/
def SiteLogType.withParties (s : SiteLogType P) : SiteLogType P where
  siteOwner := s.siteOwner.filter (·.hasParty)
  siteContacts := s.siteContacts.filter (·.any (·.hasParty))
  siteMetadataCustodian := s.siteMetadataCustodian.filter (·.hasParty)
  siteDataCenters := s.siteDataCenters.filter (·.any (·.hasParty))
  siteDataSource := s.siteDataSource.filter (·.hasParty)

/-- `SiteResponsibleParty`. -/
structure SiteResponsibleParty (D : Type) where
  contactTypeId : ℕ
  party : Option D
  deriving DecidableEq, Repr

/-- `ResponsiblePartyOrikaMapper`; null is mapped to null. -/
structure PartyMapper (P D : Type) where
  mapFromDto : P → D
  mapToDto : D → P

namespace ResponsiblePartiesMapper

variable (contactTypes : ContactTypeRepository) (partyMapper : PartyMapper P D)

/-- `ResponsiblePartiesMapper.addSiteResponsibleParty`. -/
def addSiteResponsibleParty (siteResponsibleParties : List (SiteResponsibleParty D))
    (agencyProperty : Option (AgencyPropertyType P)) (contactType : Option ContactType) :
    Except JavaException (List (SiteResponsibleParty D)) :=
  match agencyProperty.bind (·.ciResponsibleParty) with
  | none => .ok siteResponsibleParties
  | some partyType =>
    match contactType with
    | none => .error .nullPointer
    | some contactType =>
      .ok (siteResponsibleParties ++ [⟨contactType.id, some (partyMapper.mapFromDto partyType)⟩])

/-- The query for a contact type, and the agency that is added under it. -/
def addAgency (c : ContactCode) (siteResponsibleParties : List (SiteResponsibleParty D))
    (agencyProperty : Option (AgencyPropertyType P)) :
    Except JavaException (List (SiteResponsibleParty D)) := do
  let contactType ← contactTypes.findByCode c
  addSiteResponsibleParty partyMapper siteResponsibleParties agencyProperty contactType

/-- `ResponsiblePartiesMapper.mapAtoB`, on the list of parties of the `SiteLog`. -/
def mapAtoB (siteLogType : SiteLogType P) (parties : List (SiteResponsibleParty D)) :
    Except JavaException (List (SiteResponsibleParty D)) := do
  let add := addAgency contactTypes partyMapper
  let parties ← add .siteOwner parties siteLogType.siteOwner
  let parties ← siteLogType.siteContacts.foldlM (add .siteContact) parties
  let parties ← add .siteMetadataCustodian parties siteLogType.siteMetadataCustodian
  let parties ← siteLogType.siteDataCenters.foldlM (add .siteDataCenter) parties
  add .siteDataSource parties siteLogType.siteDataSource

/-- The `switch` of `mapBtoA`. -/
def dispatch (siteLogType : SiteLogType P) (code : String)
    (agencyProperty : AgencyPropertyType P) : SiteLogType P :=
  if code = ContactCode.siteOwner.code then
    { siteLogType with siteOwner := some agencyProperty }
  else if code = ContactCode.siteContact.code then
    { siteLogType with siteContacts := siteLogType.siteContacts ++ [some agencyProperty] }
  else if code = ContactCode.siteMetadataCustodian.code then
    { siteLogType with siteMetadataCustodian := some agencyProperty }
  else if code = ContactCode.siteDataCenter.code then
    { siteLogType with siteDataCenters := siteLogType.siteDataCenters ++ [some agencyProperty] }
  else if code = ContactCode.siteDataSource.code then
    { siteLogType with siteDataSource := some agencyProperty }
  else siteLogType

/-- One iteration of `mapBtoA`. -/
def mapParty (siteLogType : SiteLogType P) (siteParty : SiteResponsibleParty D) :
    Except JavaException (SiteLogType P) :=
  let partyType := siteParty.party.map partyMapper.mapToDto
  let agencyProperty : AgencyPropertyType P := ⟨partyType⟩
  match contactTypes.findOne siteParty.contactTypeId with
  | none => .error .nullPointer
  | some contactType => .ok (dispatch siteLogType contactType.code agencyProperty)

/-- `ResponsiblePartiesMapper.mapBtoA`. -/
def mapBtoA (parties : List (SiteResponsibleParty D)) (siteLogType : SiteLogType P) :
    Except JavaException (SiteLogType P) :=
  parties.foldlM (mapParty contactTypes partyMapper) siteLogType

/-! ## Flattening -/

/-- A party with its contact type given by the code. -/
def tagged (q : ContactCode × Option D) : SiteResponsibleParty D := ⟨(contactTypes.row q.1).id, q.2⟩

/-- What an agency contributes to the list of parties. -/
def entry (c : ContactCode) (agencyProperty : Option (AgencyPropertyType P)) :
    List (ContactCode × Option D) :=
  (agencyProperty.bind (·.ciResponsibleParty)).toList.map fun p =>
    (c, some (partyMapper.mapFromDto p))

/-- What a `SiteLogType` contributes, in the order of `mapAtoB`. -/
def entries (siteLogType : SiteLogType P) : List (ContactCode × Option D) :=
  entry partyMapper .siteOwner siteLogType.siteOwner ++
  siteLogType.siteContacts.flatMap (entry partyMapper .siteContact) ++
  entry partyMapper .siteMetadataCustodian siteLogType.siteMetadataCustodian ++
  siteLogType.siteDataCenters.flatMap (entry partyMapper .siteDataCenter) ++
  entry partyMapper .siteDataSource siteLogType.siteDataSource

lemma addAgency_eq (c : ContactCode) (parties : List (SiteResponsibleParty D))
    (agencyProperty : Option (AgencyPropertyType P)) :
    addAgency contactTypes partyMapper c parties agencyProperty =
      .ok (parties ++ (entry partyMapper c agencyProperty).map (tagged contactTypes)) := by
  rw [addAgency, contactTypes.findByCode_eq]
  rcases agencyProperty with _ | ⟨_ | p⟩
  · simp [addSiteResponsibleParty, entry, bind, Except.bind]
  · simp [addSiteResponsibleParty, entry, bind, Except.bind]
  · simp [addSiteResponsibleParty, entry, bind, Except.bind, tagged]

lemma foldlM_addAgency (c : ContactCode) (agencies : List (Option (AgencyPropertyType P)))
    (parties : List (SiteResponsibleParty D)) :
    agencies.foldlM (addAgency contactTypes partyMapper c) parties =
      .ok (parties ++ (agencies.flatMap (entry partyMapper c)).map (tagged contactTypes)) := by
  induction agencies generalizing parties with
  | nil => simp [pure, Except.pure]
  | cons agency agencies ih =>
      rw [List.foldlM_cons, addAgency_eq]
      exact (ih _).trans (by simp)

/-- `mapAtoB` never throws, and adds the parties that there are. -/
lemma mapAtoB_eq (siteLogType : SiteLogType P) (parties : List (SiteResponsibleParty D)) :
    mapAtoB contactTypes partyMapper siteLogType parties =
      .ok (parties ++ (entries partyMapper siteLogType).map (tagged contactTypes)) := by
  simp only [mapAtoB, addAgency_eq, foldlM_addAgency, bind, Except.bind, entries, List.map_append,
    List.append_assoc]

/-! ## Taking apart -/

/-- The agencies of the parties with a code. -/
def agencies (c : ContactCode) (qs : List (ContactCode × Option D)) :
    List (AgencyPropertyType P) :=
  (qs.filter (·.1 = c)).map fun q => ⟨q.2.map partyMapper.mapToDto⟩

/-- What `mapBtoA` makes of parties with known codes.  Of several owners the last one stays. -/
def assembled (qs : List (ContactCode × Option D)) (siteLogType : SiteLogType P) :
    SiteLogType P where
  siteOwner := (agencies partyMapper .siteOwner qs).getLast?.or siteLogType.siteOwner
  siteContacts := siteLogType.siteContacts ++ (agencies partyMapper .siteContact qs).map some
  siteMetadataCustodian :=
    (agencies partyMapper .siteMetadataCustodian qs).getLast?.or siteLogType.siteMetadataCustodian
  siteDataCenters :=
    siteLogType.siteDataCenters ++ (agencies partyMapper .siteDataCenter qs).map some
  siteDataSource :=
    (agencies partyMapper .siteDataSource qs).getLast?.or siteLogType.siteDataSource

lemma agencies_cons_self (c : ContactCode) (party : Option D)
    (qs : List (ContactCode × Option D)) :
    agencies partyMapper c ((c, party) :: qs) =
      ⟨party.map partyMapper.mapToDto⟩ :: agencies partyMapper c qs := by
  simp [agencies]

lemma agencies_cons_ne {b c : ContactCode} (h : b ≠ c) (party : Option D)
    (qs : List (ContactCode × Option D)) :
    agencies partyMapper c ((b, party) :: qs) = agencies partyMapper c qs := by
  simp [agencies, h]

lemma getLast?_cons_or {α : Type*} (a : α) (l : List α) (o : Option α) :
    (a :: l).getLast?.or o = l.getLast?.or (some a) := by
  rw [List.getLast?_cons]
  cases l.getLast? <;> rfl

lemma dispatch_assembled (q : ContactCode × Option D) (qs : List (ContactCode × Option D))
    (siteLogType : SiteLogType P) :
    assembled partyMapper qs (dispatch siteLogType q.1.code ⟨q.2.map partyMapper.mapToDto⟩) =
      assembled partyMapper (q :: qs) siteLogType := by
  obtain ⟨c, party⟩ := q
  cases c <;>
    simp [assembled, dispatch, ContactCode.code, agencies_cons_self, agencies_cons_ne,
      getLast?_cons_or]

/-- `mapBtoA` of parties with known codes. -/
lemma mapBtoA_tagged (qs : List (ContactCode × Option D)) (siteLogType : SiteLogType P) :
    mapBtoA contactTypes partyMapper (qs.map (tagged contactTypes)) siteLogType =
      .ok (assembled partyMapper qs siteLogType) := by
  induction qs generalizing siteLogType with
  | nil => simp [mapBtoA, assembled, agencies, pure, Except.pure]
  | cons q qs ih =>
      rw [← dispatch_assembled, ← ih, mapBtoA, List.map_cons, List.foldlM_cons, mapParty, tagged,
        contactTypes.findOne_row]
      simp only [contactTypes.code_row]
      rfl

/-! ## Round trips -/

lemma agencies_append (c : ContactCode) (qs rs : List (ContactCode × Option D)) :
    agencies partyMapper c (qs ++ rs) = agencies partyMapper c qs ++ agencies partyMapper c rs := by
  simp [agencies]

lemma agencies_entry_ne {b c : ContactCode} (hbc : b ≠ c)
    (agency : Option (AgencyPropertyType P)) :
    agencies partyMapper c (entry partyMapper b agency) = [] := by
  rcases agency with _ | ⟨_ | p⟩
  · rfl
  · rfl
  · simp [agencies, entry, hbc]

lemma agencies_flatMap_entry_ne {b c : ContactCode} (hbc : b ≠ c)
    (as : List (Option (AgencyPropertyType P))) :
    agencies partyMapper c (as.flatMap (entry partyMapper b)) = [] := by
  induction as with
  | nil => rfl
  | cons a as ih => rw [List.flatMap_cons, agencies_append, ih, agencies_entry_ne _ hbc]; rfl

section Dto

variable {partyMapper} (h : Function.LeftInverse partyMapper.mapToDto partyMapper.mapFromDto)
include h

/-- Of an agency the party comes back. -/
lemma agencies_entry_self (c : ContactCode) (agency : Option (AgencyPropertyType P)) :
    agencies partyMapper c (entry partyMapper c agency)
      = (agency.filter AgencyPropertyType.hasParty).toList := by
  rcases agency with _ | ⟨_ | p⟩
  · rfl
  · rfl
  · simp [agencies, entry, AgencyPropertyType.hasParty, h p, Option.filter]

lemma agencies_flatMap_entry_self (c : ContactCode) (as : List (Option (AgencyPropertyType P))) :
    (agencies partyMapper c (as.flatMap (entry partyMapper c))).map some
      = as.filter (·.any AgencyPropertyType.hasParty) := by
  induction as with
  | nil => rfl
  | cons a as ih =>
      rw [List.flatMap_cons, agencies_append, List.map_append, ih, agencies_entry_self h]
      rcases a with _ | ⟨_ | p⟩ <;> rfl

/-- What is flattened is taken apart again. -/
lemma assembled_entries (s : SiteLogType P) :
    assembled partyMapper (entries partyMapper s) SiteLogType.empty = s.withParties := by
  have hgetLast : ∀ o : Option (AgencyPropertyType P), o.toList.getLast? = o := by
    rintro (_ | a) <;> rfl
  simp only [assembled, entries, agencies_append, agencies_entry_self h, ne_eq, reduceCtorEq,
    not_false_eq_true, agencies_entry_ne, agencies_flatMap_entry_ne, agencies_flatMap_entry_self h,
    SiteLogType.empty, SiteLogType.withParties, List.append_nil, List.nil_append, hgetLast,
    Option.or_none]

end Dto

section Domain

variable {partyMapper} (h : Function.RightInverse partyMapper.mapToDto partyMapper.mapFromDto)
include h

/-- The party of an agency that was made from one. -/
lemma entry_agency {q : ContactCode × Option D} (hq : q.2 ≠ none) :
    entry partyMapper q.1 (some (⟨q.2.map partyMapper.mapToDto⟩ : AgencyPropertyType P)) = [q] := by
  obtain ⟨c, _ | d⟩ := q
  · cases hq rfl
  · simp [entry, h d]

lemma flatMap_entry_agencies (c : ContactCode) {qs : List (ContactCode × Option D)}
    (hqs : ∀ q ∈ qs, q.2 ≠ none) :
    ((agencies partyMapper c qs).map some).flatMap (entry partyMapper c) = qs.filter (·.1 = c) := by
  induction qs with
  | nil => rfl
  | cons q qs ih =>
      rw [List.forall_mem_cons] at hqs
      obtain ⟨b, party⟩ := q
      by_cases hb : b = c
      · subst hb
        rw [agencies_cons_self, List.map_cons, List.flatMap_cons, ih hqs.2,
          entry_agency h hqs.1, List.filter_cons_of_pos (by simp)]
        rfl
      · rw [agencies_cons_ne _ hb, ih hqs.2, List.filter_cons_of_neg (by simpa using hb)]

/-- A role that at most one party has. -/
lemma entry_getLast? {c : ContactCode} {qs : List (ContactCode × Option D)}
    (hqs : ∀ q ∈ qs, q.2 ≠ none) (hone : (qs.filter (·.1 = c)).length ≤ 1) :
    entry partyMapper c (agencies partyMapper c qs).getLast? = qs.filter (·.1 = c) := by
  have hlist : ∀ l : List (AgencyPropertyType P), l.length ≤ 1 →
      entry partyMapper c l.getLast? = (l.map some).flatMap (entry partyMapper c) := by
    rintro (_ | ⟨a, _ | ⟨b, l⟩⟩) hl
    · rfl
    · simp
    · simp at hl
  rw [hlist _ (by rwa [agencies, List.length_map]), flatMap_entry_agencies h c hqs]

/-- What is taken apart is flattened again, grouped by the contact type. -/
lemma entries_assembled {qs : List (ContactCode × Option D)} (hqs : ∀ q ∈ qs, q.2 ≠ none)
    (hone : ∀ c ∈ [ContactCode.siteOwner, .siteMetadataCustodian, .siteDataSource],
      (qs.filter (·.1 = c)).length ≤ 1) :
    entries partyMapper (assembled partyMapper qs SiteLogType.empty)
      = Grouping.grouped ContactCode.all Prod.fst qs := by
  have howner := entry_getLast? h hqs (hone .siteOwner (by simp))
  have hcustodian := entry_getLast? h hqs (hone .siteMetadataCustodian (by simp))
  have hsource := entry_getLast? h hqs (hone .siteDataSource (by simp))
  simp only [entries, assembled, SiteLogType.empty, Option.or_none, List.nil_append,
    howner, hcustodian, hsource,
    flatMap_entry_agencies h _ hqs, Grouping.grouped, ContactCode.all, List.flatMap_cons,
    List.flatMap_nil, List.append_nil, List.append_assoc]

end Domain

/-! ## Parties with one of the five contact types -/

lemma exists_tagged {parties : List (SiteResponsibleParty D)}
    (h : ∀ p ∈ parties, p.contactTypeId ∈ ContactCode.all.map fun c => (contactTypes.row c).id) :
    ∃ qs : List (ContactCode × Option D), qs.map (tagged contactTypes) = parties := by
  induction parties with
  | nil => exact ⟨[], rfl⟩
  | cons p parties ih =>
      rw [List.forall_mem_cons] at h
      obtain ⟨qs, rfl⟩ := ih h.2
      obtain ⟨c, -, hc⟩ := List.mem_map.mp h.1
      refine ⟨(c, p.party) :: qs, ?_⟩
      rw [List.map_cons, tagged, hc]

lemma filter_tagged (c : ContactCode) (qs : List (ContactCode × Option D)) :
    (qs.map (tagged contactTypes)).filter (·.contactTypeId = (contactTypes.row c).id)
      = (qs.filter (·.1 = c)).map (tagged contactTypes) := by
  have hcode : ∀ q : ContactCode × Option D,
      (tagged contactTypes q).contactTypeId = (contactTypes.row c).id ↔ q.1 = c := fun q =>
    contactTypes.id_row_injective.eq_iff
  simp only [List.filter_map, Function.comp_def, hcode]

lemma grouped_tagged (qs : List (ContactCode × Option D)) :
    Grouping.grouped (ContactCode.all.map fun c => (contactTypes.row c).id)
        SiteResponsibleParty.contactTypeId (qs.map (tagged contactTypes))
      = (Grouping.grouped ContactCode.all Prod.fst qs).map (tagged contactTypes) := by
  simp only [Grouping.grouped, List.flatMap_map, List.map_flatMap, filter_tagged]

/-- **Responsible parties round-trip.**  A `SiteLogType` comes back without the entries that have no
party.  Parties with one of the five contact types, at most one of them the owner, one the custodian
and one the data source, come back grouped by contact type, and in their order within a type. -/
theorem responsibleParties_round_trip
    (hdto : Function.LeftInverse partyMapper.mapToDto partyMapper.mapFromDto)
    (hparty : Function.RightInverse partyMapper.mapToDto partyMapper.mapFromDto) :
    (∀ s : SiteLogType P, ∃ parties,
      mapAtoB contactTypes partyMapper s [] = .ok parties ∧
      mapBtoA contactTypes partyMapper parties SiteLogType.empty = .ok s.withParties) ∧
    ∀ parties : List (SiteResponsibleParty D),
      (∀ p ∈ parties, p.party ≠ none ∧
        p.contactTypeId ∈ ContactCode.all.map fun c => (contactTypes.row c).id) →
      (∀ c ∈ [ContactCode.siteOwner, .siteMetadataCustodian, .siteDataSource],
        (parties.filter (·.contactTypeId = (contactTypes.row c).id)).length ≤ 1) →
      ∃ s regrouped,
        mapBtoA contactTypes partyMapper parties SiteLogType.empty = .ok s ∧
        mapAtoB contactTypes partyMapper s [] = .ok regrouped ∧
        regrouped = Grouping.grouped (ContactCode.all.map fun c => (contactTypes.row c).id)
          SiteResponsibleParty.contactTypeId parties ∧
        regrouped.Perm parties := by
  constructor
  · intro s
    refine ⟨_, mapAtoB_eq contactTypes partyMapper s [], ?_⟩
    rw [List.nil_append, mapBtoA_tagged, assembled_entries hdto]
  · intro parties hparties hone
    obtain ⟨qs, rfl⟩ := exists_tagged contactTypes fun p hp => (hparties p hp).2
    have hqs : ∀ q ∈ qs, q.2 ≠ none := fun q hq => (hparties _ (List.mem_map_of_mem hq)).1
    have hone' : ∀ c ∈ [ContactCode.siteOwner, .siteMetadataCustodian, .siteDataSource],
        (qs.filter (·.1 = c)).length ≤ 1 := by
      intro c hc
      have h := hone c hc
      rwa [filter_tagged, List.length_map] at h
    refine ⟨_, _, mapBtoA_tagged contactTypes partyMapper qs SiteLogType.empty,
      mapAtoB_eq contactTypes partyMapper _ [], ?_, ?_⟩
    · rw [List.nil_append, entries_assembled hparty hqs hone', grouped_tagged]
    · rw [List.nil_append, entries_assembled hparty hqs hone']
      refine (Grouping.grouped_perm (by decide) ?_).map _
      intro q _
      cases q.1 <;> decide

/-- The rows of the five contact types. -/
def fiveContactTypes : ContactTypeRepository where
  rows := [⟨1, "SiteOwner"⟩, ⟨2, "SiteContact"⟩, ⟨3, "SiteMetadataCustodian"⟩,
    ⟨4, "SiteDataSource"⟩, ⟨5, "SiteDataCenter"⟩]
  nodup_id := by decide
  length_filter := by
    intro c
    cases c <;> decide

/-- A data center before a contact and the owner: the three come back in another order. -/
theorem responsibleParties_round_trip_three :
    ∃ s, mapBtoA fiveContactTypes (⟨id, id⟩ : PartyMapper String String)
        [⟨5, some "GA"⟩, ⟨2, some "Jane"⟩, ⟨1, some "LINZ"⟩] SiteLogType.empty = .ok s ∧
      mapAtoB fiveContactTypes (⟨id, id⟩ : PartyMapper String String) s []
        = .ok [⟨1, some "LINZ"⟩, ⟨2, some "Jane"⟩, ⟨5, some "GA"⟩] := by
  obtain ⟨s, regrouped, hs, hregrouped, rfl, -⟩ :=
    (responsibleParties_round_trip fiveContactTypes (⟨id, id⟩ : PartyMapper String String)
      (fun _ => rfl) (fun _ => rfl)).2 [⟨5, some "GA"⟩, ⟨2, some "Jane"⟩, ⟨1, some "LINZ"⟩]
      (by decide) (by decide)
  exact ⟨s, hs, hregrouped⟩

end ResponsiblePartiesMapper

end Geodesy.Mapper
