import Geodesy.Library.Separated
import Geodesy.Security.Authorities

/-!
# Lists of codes stored as one string

`StringToListConverter` keeps a list of codes, such as the satellite systems of a receiver, in one
column.  `convertFrom` joins the values of the codes with commas; `convertTo` is `String.split(",")`
and drops the empty strings at the end.

The converter of the elements is a parameter.  The one that the repository uses,
`StringToCodeTypeConverter`, is a bijection between the strings and the codes of its code space
(`stringToCodeType`).
-/

namespace Geodesy.Mapper

open Security

variable {T : Type*}

/-! ## The converter -/

/-- `StringToListConverter.convertFrom`: a pairwise reduction, which is null for the empty list. -/
def convertFrom (elementConverter : T → String) (codes : List T) : Option String :=
  match codes.map elementConverter with
  | [] => none
  | a :: values => some (values.foldl (fun a b => a ++ "," ++ b) a)

/-- `StringToListConverter.convertTo`. -/
def convertTo (elementConverter : String → T) (str : String) : List T :=
  (split str).map elementConverter

/-- `CodeType`: its value and its code space. -/
structure CodeType where
  value : String
  codeSpace : String
  deriving DecidableEq, Repr

/-- `StringToCodeTypeConverter` of a code space, both ways. -/
def stringToCodeType (codeSpace : String) :
    String ≃ { c : CodeType // c.codeSpace = codeSpace } where
  toFun str := ⟨⟨str, codeSpace⟩, rfl⟩
  invFun code := code.1.value
  left_inv _ := rfl
  right_inv := by rintro ⟨⟨value, space⟩, rfl⟩; rfl

/-! ## Both directions, on characters -/

lemma pieces_eq_splitOn (cs : List Char) : pieces cs = cs.splitOn ',' := by
  induction cs with
  | nil => rfl
  | cons c cs ih =>
      rw [List.splitOn_cons_eq_if_modifyHead]
      by_cases hc : c = ','
      · subst hc
        rw [pieces, ih]
        rfl
      · obtain ⟨p, ps, hps⟩ := List.exists_cons_of_ne_nil (List.splitOn_ne_nil ',' cs)
        rw [if_neg (by simpa using hc), pieces]
        · rw [ih, hps]
          rfl
        · exact hc

lemma toList_split (s : String) :
    (split s).map String.toList = Separated.splitTrimmed ',' s.toList := by
  by_cases hcomma : ',' ∈ s.toList
  · rw [split, if_pos hcomma, Separated.splitTrimmed_of_mem _ hcomma, pieces_eq_splitOn]
    rw [List.rdropWhile, List.rdropWhile, ← List.map_reverse, List.dropWhile_map,
      ← List.map_reverse, List.map_map]
    simp only [Function.comp_def, String.toList_ofList, List.map_id']
    congr 3
    funext piece
    exact decide_eq_decide.mpr (by rw [← String.toList_inj, String.toList_ofList]; rfl)
  · rw [split, if_neg hcomma, Separated.splitTrimmed_of_notMem _ hcomma]
    rfl

lemma toList_foldl_join (values : List String) (a : String) :
    (values.foldl (fun a b => a ++ "," ++ b) a).toList
      = [','].intercalate ((a :: values).map String.toList) := by
  induction values generalizing a with
  | nil => simp
  | cons b values ih =>
      rw [List.foldl_cons, ih, List.map_cons, List.map_cons, List.map_cons, String.toList_append,
        Separated.intercalate_append_cons, String.toList_append, List.intercalate_cons_cons]
      rfl

lemma map_toList_inj {ss ts : List String} :
    ss.map String.toList = ts.map String.toList ↔ ss = ts :=
  (List.map_injective_iff.mpr fun _ _ => String.toList_inj.mp).eq_iff

variable (elementConverter : String ≃ T)

/-- Joining strings gives `s` if and only if there are some and they join to its characters. -/
lemma convertFrom_eq_some_iff {codes : List T} {s : String} :
    convertFrom elementConverter.symm codes = some s ↔
      codes ≠ [] ∧ [','].intercalate ((codes.map elementConverter.symm).map String.toList)
        = s.toList := by
  cases codes with
  | nil => simp [convertFrom]
  | cons code codes =>
      rw [convertFrom, List.map_cons, Option.some_inj, ← String.toList_inj, toList_foldl_join]
      simp

lemma convertTo_eq_iff {codes : List T} {s : String} :
    convertTo elementConverter s = codes ↔
      Separated.splitTrimmed ',' s.toList
        = (codes.map elementConverter.symm).map String.toList := by
  rw [← toList_split, map_toList_inj]
  constructor
  · rintro rfl
    simp [convertTo, Function.comp_def]
  · intro h
    simp [convertTo, h, Function.comp_def]

/-- **What survives storing codes as one string.**  A string is read and written back unchanged if
and only if it does not end with a comma.  A non-empty list is written and read back unchanged if
and only if no value contains a comma and either the empty string is its single value or its last
value is not empty. -/
theorem stringToList_round_trips :
    (∀ s : String,
      convertFrom elementConverter.symm (convertTo elementConverter s) = some s ↔
        s.toList.getLast? ≠ some ',') ∧
    ∀ codes : List T, codes ≠ [] →
      ((convertFrom elementConverter.symm codes).map (convertTo elementConverter) = some codes ↔
        (∀ code ∈ codes, ',' ∉ (elementConverter.symm code).toList) ∧
          (codes.map elementConverter.symm = [""] ∨
            (codes.map elementConverter.symm).getLast? ≠ some "")) := by
  constructor
  · intro s
    have hpieces : Separated.splitTrimmed ',' s.toList
        = ((convertTo elementConverter s).map elementConverter.symm).map String.toList :=
      (convertTo_eq_iff elementConverter).mp rfl
    rw [convertFrom_eq_some_iff, ← hpieces, ← Separated.joined_splitTrimmed_iff, hpieces]
    simp only [ne_eq, List.map_eq_nil_iff]
  · intro codes hne
    obtain ⟨s, hs⟩ : ∃ s, convertFrom elementConverter.symm codes = some s :=
      ⟨String.ofList _, (convertFrom_eq_some_iff elementConverter).mpr
        ⟨hne, String.toList_ofList.symm⟩⟩
    have hvalues : (∀ code ∈ codes, ',' ∉ (elementConverter.symm code).toList) ↔
        ∀ value ∈ codes.map elementConverter.symm, ',' ∉ value.toList := by simp
    have hjoin := ((convertFrom_eq_some_iff elementConverter).mp hs).2
    rw [hs, Option.map_some, Option.some_inj, convertTo_eq_iff, ← hjoin,
      Separated.splitTrimmed_joined_iff ',' (by simpa using hne)]
    generalize codes.map elementConverter.symm = values at hvalues ⊢
    have hsingle : values.map String.toList = [""].map String.toList ↔ values = [""] :=
      map_toList_inj
    rw [List.map_singleton, String.toList_empty] at hsingle
    have hlast : (values.map String.toList).getLast? = some [] ↔ values.getLast? = some "" := by
      rw [List.getLast?_map, Option.map_eq_some_iff]
      simp [String.toList_eq_nil_iff]
    rw [hsingle, hvalues, ne_eq, hlast, List.forall_mem_map]

/-- Two satellite systems survive; of a string that ends with a comma the comma is lost. -/
theorem stringToList_round_trips_satelliteSystem :
    (∀ s : String,
      convertFrom (stringToCodeType "eGeodesy/satelliteSystem").symm
          (convertTo (stringToCodeType "eGeodesy/satelliteSystem") s) = some s ↔
        s.toList.getLast? ≠ some ',') ∧
    convertTo (stringToCodeType "eGeodesy/satelliteSystem") "GPS,Galileo"
      = [⟨⟨"GPS", "eGeodesy/satelliteSystem"⟩, rfl⟩,
          ⟨⟨"Galileo", "eGeodesy/satelliteSystem"⟩, rfl⟩] ∧
    ((convertFrom (stringToCodeType "eGeodesy/satelliteSystem").symm
        [⟨⟨"GPS", "eGeodesy/satelliteSystem"⟩, rfl⟩, ⟨⟨"", "eGeodesy/satelliteSystem"⟩, rfl⟩]).map
          (convertTo (stringToCodeType "eGeodesy/satelliteSystem"))
      ≠ some [⟨⟨"GPS", "eGeodesy/satelliteSystem"⟩, rfl⟩,
          ⟨⟨"", "eGeodesy/satelliteSystem"⟩, rfl⟩]) := by
  have h := stringToList_round_trips (stringToCodeType "eGeodesy/satelliteSystem")
  refine ⟨h.1, by decide, fun hsome => ?_⟩
  have hlast := ((h.2 _ (by simp)).mp hsome).2
  revert hlast
  decide

end Geodesy.Mapper
