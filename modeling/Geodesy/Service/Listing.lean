import Geodesy.Service.System

/-!
# The entries of a setup are a bag

No column of `EQUIPMENT_IN_USE` says in which order the entries of a setup were saved, so a query
for setups may list them otherwise (`EntryOrder`), while `Setup.equals` compares them one by one.  A
`ListedStep` is a step together with the order in which its queries list entries; the store keeps
them in the order in which they were listed last.  In the runs of `World.Reachable` entries are
always listed as they were saved.
-/

namespace Geodesy

/-- The order in which a query lists the entries of each setup. -/
structure EntryOrder where
  arrange : SetupRow → List EquipmentInUse
  arrange_perm : ∀ r, (arrange r).Perm r.setup.equipmentInUse

namespace EntryOrder

/-- As they were saved. -/
def asSaved : EntryOrder := ⟨fun r => r.setup.equipmentInUse, fun _ => .refl _⟩

/-- The other way round. -/
def reversed : EntryOrder := ⟨fun r => r.setup.equipmentInUse.reverse, fun _ => List.reverse_perm _⟩

/-- The row as it is listed. -/
def read (entries : EntryOrder) (r : SetupRow) : SetupRow :=
  { r with setup := { r.setup with equipmentInUse := entries.arrange r } }

section Read

variable (entries : EntryOrder) (r : SetupRow)

@[simp] lemma read_id : (entries.read r).id = r.id := rfl
@[simp] lemma read_invalidated : (entries.read r).invalidated = r.invalidated := rfl

lemma read_perm :
    (entries.read r).setup.equipmentInUse.Perm r.setup.equipmentInUse := entries.arrange_perm r

end Read

end EntryOrder

/-- The store with the entries as they are listed. -/
def Store.listed (st : Store) (entries : EntryOrder) : Store :=
  { st with setups := st.setups.map entries.read }

@[simp] lemma Store.listed_asSaved (st : Store) : st.listed .asSaved = st := by
  have hread : EntryOrder.asSaved.read = id := rfl
  simp [Store.listed, hread]

lemma Store.findSetupsBySiteId_listed (st : Store) (entries : EntryOrder) (k : ℕ) :
    (st.listed entries).findSetupsBySiteId k = (st.findSetupsBySiteId k).map entries.read := by
  rw [findSetupsBySiteId, findSetupsBySiteId, listed, List.filter_map]
  rfl

lemma Store.findInvalidatedBySiteId_listed (st : Store) (entries : EntryOrder) (k : ℕ) :
    (st.listed entries).findInvalidatedBySiteId k =
      (st.findInvalidatedBySiteId k).map entries.read := by
  rw [findInvalidatedBySiteId, findInvalidatedBySiteId, listed, List.filter_map]
  rfl

/-- A step, and the order in which its queries list the entries of setups. -/
structure ListedStep where
  entries : EntryOrder
  step : Step

namespace World

/-- The world with the entries as they are listed. -/
def listed (w : World) (entries : EntryOrder) : World :=
  { w with store := w.store.listed entries }

@[simp] lemma listed_asSaved (w : World) : w.listed .asSaved = w := by
  simp [listed]

/-- A step that returns normally, where the queries list the entries in its order. -/
def TakesListed (lib : ListUtils) (w : World) (a : ListedStep) (w' : World) : Prop :=
  Takes lib (w.listed a.entries) a.step w'

/-- The worlds that a run leads to, each of whose steps satisfies `P` where it is taken. -/
def ReachableListed (lib : ListUtils) (P : World → ListedStep → Prop) (w : World) : Prop :=
  ∃ as, TransitionSystem.Run (TakesListed lib) init as w ∧
    ∀ u a v, TransitionSystem.Passes (TakesListed lib) init as u a v → P u a

namespace ReachableListed

variable {lib : ListUtils} {P Q : World → ListedStep → Prop} {w w' : World}

/-- Fewer conditions on the steps, more worlds. -/
lemma mono (hPQ : ∀ u a, P u a → Q u a) (h : ReachableListed lib P w) :
    ReachableListed lib Q w := by
  obtain ⟨as, hrun, hP⟩ := h
  exact ⟨as, hrun, fun u a v hpass => hPQ u a (hP u a v hpass)⟩

/-- What holds at first and is kept by listing entries otherwise and by every step holds in every
world. -/
theorem invariant {I : World → Prop} (hinit : I World.init)
    (hlisted : ∀ w a, P w a → I w → I (w.listed a.entries))
    (hstep : ∀ w a w', P w a → I (w.listed a.entries) → Takes lib (w.listed a.entries) a.step w' →
      I w') (h : ReachableListed lib P w) : I w := by
  obtain ⟨as, hrun, hP⟩ := h
  exact hrun.invariant_of_passes (fun s a t hPa hI htakes =>
    hstep s a t hPa (hlisted s a hPa hI) htakes) hP hinit

end ReachableListed

/-- A run whose queries list entries as they were saved. -/
lemma Reachable.listed {lib : ListUtils} {P : Step → Prop} {w : World} (h : Reachable lib P w) :
    ReachableListed lib (fun _ a => a.entries = .asSaved ∧ P a.step) w := by
  obtain ⟨as, hrun, hP⟩ := h
  refine ⟨as.map (⟨.asSaved, ·⟩), ?_, ?_⟩
  · clear hP
    induction hrun with
    | nil => exact .nil _
    | snoc _ hlast ih =>
        rw [List.map_append]
        refine ih.snoc ?_
        rwa [TakesListed, listed_asSaved]
  · intro u a v hpass
    obtain ⟨b, hb, rfl⟩ := List.mem_map.mp hpass.mem
    exact ⟨rfl, hP b hb⟩

end World

end Geodesy
