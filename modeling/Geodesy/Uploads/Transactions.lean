import Geodesy.Library.TransitionSystem
import Geodesy.Service.System
import Mathlib.Data.Fintype.Basic

/-!
# Uploads as concurrent transactions

`CorsSiteLogService.upload` reads the log of the station, deletes it if there is one, inserts the
new log and commits.  Here these are steps, and the transactions of a finite set take them in any
order.  A read sees what is committed.  The row that a transaction has deleted is locked until it is
over: another one that deletes the same row waits, and when the row is gone then, Hibernate throws
because nothing was deleted.  `SITELOG_SITE` has no constraint on the four character id.
-/

namespace Geodesy.Uploads

open TransitionSystem

/-- A row of `SITELOG_SITE`. -/
structure SiteLogRow where
  id : ℕ
  siteLog : SiteLog
  deriving DecidableEq, Repr

/-- The station whose log the row is. -/
abbrev SiteLogRow.fourCharacterId (r : SiteLogRow) : String := r.siteLog.fourCharacterId

/-- How far a transaction has come.  `found` is the log that it read and has to delete. -/
inductive Progress
  | pending
  | read (found : Option SiteLogRow)
  | deleted (found : Option SiteLogRow)
  | inserted (found : Option SiteLogRow) (id : ℕ)
  | committed
  | rolledBack
  deriving DecidableEq, Repr

namespace Progress

/-- The log that the transaction read. -/
def found : Progress → Option SiteLogRow
  | read found | deleted found | inserted found _ => found
  | _ => none

/-- The row that the transaction has deleted and not yet committed. -/
def locks : Progress → Option SiteLogRow
  | deleted found | inserted found _ => found
  | _ => none

/-- The transaction has begun and is not over. -/
def isActive : Progress → Bool
  | read _ | deleted _ | inserted _ _ => true
  | _ => false

end Progress

/-- The committed rows, the sequence, and the transactions. -/
structure UploadState (τ : Type*) where
  rows : List SiteLogRow
  nextId : ℕ
  progress : τ → Progress

/-- The statements of the transactions.  One of them may fail for any other reason. -/
inductive UploadStep (τ : Type*)
  | read (t : τ)
  | delete (t : τ)
  | insert (t : τ)
  | commit (t : τ)
  | fail (t : τ)
  deriving DecidableEq, Repr

namespace UploadState

variable {τ : Type*}

/-- `SiteLogRepository.findByFourCharacterId`, over the committed rows. -/
def findByFourCharacterId (st : UploadState τ) (id : String) :
    Except JavaException (Option SiteLogRow) :=
  match st.rows.filter (·.fourCharacterId = id) with
  | [] => .ok none
  | [r] => .ok (some r)
  | _ => .error .incorrectResultSize

variable [DecidableEq τ]

/-- The transaction has come so far. -/
def set (st : UploadState τ) (t : τ) (p : Progress) : UploadState τ :=
  { st with progress := Function.update st.progress t p }

@[simp] lemma set_progress_self (st : UploadState τ) (t : τ) (p : Progress) :
    (st.set t p).progress t = p := by
  simp [set]

lemma set_progress_of_ne (st : UploadState τ) {t u : τ} (p : Progress) (h : u ≠ t) :
    (st.set t p).progress u = st.progress u := by
  simp [set, h]

/-- The rows after a commit: without the one that was deleted, with the one that was inserted. -/
def commitRows (st : UploadState τ) (found : Option SiteLogRow) (row : SiteLogRow) :
    List SiteLogRow :=
  match found with
  | none => st.rows ++ [row]
  | some r => st.rows.filter (·.id ≠ r.id) ++ [row]

variable [Fintype τ]

/-- One statement of one of the transactions; `uploads` are the logs that they upload. -/
def run (uploads : τ → SiteLog) (st : UploadState τ) : UploadStep τ → Option (UploadState τ)
  | .read t =>
    match st.progress t with
    | .pending =>
      match st.findByFourCharacterId (uploads t).fourCharacterId with
      | .ok found => some (st.set t (.read found))
      | .error _ => some (st.set t .rolledBack)
    | _ => none
  | .delete t =>
    match st.progress t with
    | .read none => some (st.set t (.deleted none))
    | .read (some r) =>
      -- the transaction waits for the lock
      if ∃ u, (st.progress u).locks.map (·.id) = some r.id then none
      -- a log is never changed, so the row is there or it is gone
      else if r ∈ st.rows then some (st.set t (.deleted (some r)))
      else some (st.set t .rolledBack)
    | _ => none
  | .insert t =>
    match st.progress t with
    | .deleted found =>
      some { st.set t (.inserted found st.nextId) with nextId := st.nextId + 1 }
    | _ => none
  | .commit t =>
    match st.progress t with
    | .inserted found id =>
      some { st.set t .committed with rows := st.commitRows found ⟨id, (uploads t).reload⟩ }
    | _ => none
  | .fail t => if (st.progress t).isActive then some (st.set t .rolledBack) else none

/-- The step relation. -/
def Takes (uploads : τ → SiteLog) (st : UploadState τ) (a : UploadStep τ) (st' : UploadState τ) :
    Prop :=
  st.run uploads a = some st'

/-! ## A transaction alone -/

section Alone

variable {uploads : τ → SiteLog} {st : UploadState τ} {t : τ} {found : Option SiteLogRow} {id : ℕ}

lemma takes_read (hp : st.progress t = .pending)
    (hfind : st.findByFourCharacterId (uploads t).fourCharacterId = .ok found) :
    st.Takes uploads (.read t) (st.set t (.read found)) := by
  simp [Takes, run, hp, hfind]

lemma takes_delete (hp : st.progress t = .read found)
    (hfree : ∀ u, (st.progress u).locks = none) (hmem : ∀ r ∈ found, r ∈ st.rows) :
    st.Takes uploads (.delete t) (st.set t (.deleted found)) := by
  cases found with
  | none => simp [Takes, run, hp]
  | some r => simp [Takes, run, hp, hfree, hmem r rfl]

lemma takes_insert (hp : st.progress t = .deleted found) :
    st.Takes uploads (.insert t)
      { st.set t (.inserted found st.nextId) with nextId := st.nextId + 1 } := by
  simp [Takes, run, hp]

lemma takes_commit (hp : st.progress t = .inserted found id) :
    st.Takes uploads (.commit t)
      { st.set t .committed with rows := st.commitRows found ⟨id, (uploads t).reload⟩ } := by
  simp [Takes, run, hp]

/-- The statements of a transaction, while no row is locked and none of another transaction's come
in between. -/
lemma run_alone (uploads : τ → SiteLog) (hp : st.progress t = .pending)
    (hfree : ∀ u, (st.progress u).locks = none)
    (hfind : st.findByFourCharacterId (uploads t).fourCharacterId = .ok found)
    (hmem : ∀ r ∈ found, r ∈ st.rows) :
    ∃ st', Run (Takes uploads) st [.read t, .delete t, .insert t, .commit t] st' ∧
      st'.rows = st.commitRows found ⟨st.nextId, (uploads t).reload⟩ := by
  have hfree' : ∀ u, ((st.set t (.read found)).progress u).locks = none := by
    intro u
    by_cases hut : u = t
    · subst hut
      simp [Progress.locks]
    · rw [st.set_progress_of_ne _ hut]
      exact hfree u
  have hread : st.Takes uploads (.read t) _ := takes_read hp hfind
  have hdelete := (Run.single hread).snoc
    (takes_delete (set_progress_self st t (.read found)) hfree' hmem)
  have hinsert := hdelete.snoc (takes_insert (set_progress_self _ t (.deleted found)))
  have hcommit := hinsert.snoc (takes_commit (set_progress_self _ t (.inserted found st.nextId)))
  exact ⟨_, hcommit, rfl⟩

end Alone

end UploadState

end Geodesy.Uploads
