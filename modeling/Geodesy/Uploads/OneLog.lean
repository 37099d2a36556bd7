import Geodesy.Setups.History
import Geodesy.Uploads.Transactions

/-!
# One log per station?

Two uploads that both find no log for a station both insert one, and nothing refuses the second.
`one_log_per_station_iff` says that this is the only way: the table has one log per station all
along a run exactly when no upload that found none commits after another one has.  Uploads that
found a log are safe in any order, because they have to delete the same row.  A transaction that
runs alone does what `upload` does (`upload_alone`).
-/

namespace Geodesy.Uploads

open TransitionSystem

variable {τ : Type*} {st : UploadState τ}

/-- No two committed rows are of the same station. -/
def UploadState.OneLogPerStation (st : UploadState τ) : Prop :=
  (st.rows.map (·.fourCharacterId)).Nodup

instance (st : UploadState τ) : Decidable st.OneLogPerStation :=
  inferInstanceAs (Decidable (List.Nodup _))

/-- Then, and only then, the query for the log of a station never finds several. -/
lemma oneLogPerStation_iff_find :
    st.OneLogPerStation ↔ ∀ id, ∃ found, st.findByFourCharacterId id = .ok found := by
  have hlength : ∀ id, (∃ found, st.findByFourCharacterId id = .ok found) ↔
      (st.rows.map (·.fourCharacterId)).count id ≤ 1 := by
    intro id
    have hcount : (st.rows.map (·.fourCharacterId)).count id
        = (st.rows.filter (·.fourCharacterId = id)).length := by
      rw [List.count, List.countP_map, List.countP_eq_length_filter]
      rfl
    rw [hcount, UploadState.findByFourCharacterId]
    generalize st.rows.filter (·.fourCharacterId = id) = rows
    rcases rows with _ | ⟨r, _ | ⟨s, rows⟩⟩ <;> simp
  simp only [UploadState.OneLogPerStation, List.nodup_iff_count_le_one, hlength]

/-- What the query finds is a row of the station, and the only one. -/
lemma mem_find {id : String} {found : Option SiteLogRow}
    (h : st.findByFourCharacterId id = .ok found) (r : SiteLogRow) :
    r ∈ found ↔ r ∈ st.rows ∧ r.fourCharacterId = id := by
  have hmem : r ∈ st.rows.filter (·.fourCharacterId = id) ↔
      r ∈ st.rows ∧ r.fourCharacterId = id := by
    simp
  rw [← hmem]
  unfold UploadState.findByFourCharacterId at h
  split at h
  · next hfilter =>
      obtain rfl := Except.ok.inj h
      rw [hfilter]
      simp
  · next s hfilter =>
      obtain rfl := Except.ok.inj h
      rw [hfilter, List.mem_singleton, Option.mem_some_iff, eq_comm]
  · cases h

lemma mem_commitRows {found : Option SiteLogRow} {row r : SiteLogRow} (hr : r ∈ st.rows)
    (hkept : ∀ q ∈ found, r.id ≠ q.id) : r ∈ st.commitRows found row := by
  cases found with
  | none => exact List.mem_append_left _ hr
  | some q =>
      exact List.mem_append_left _ (List.mem_filter.mpr ⟨hr, by simpa using hkept q rfl⟩)

/-- A commit removes the log of the station. -/
lemma commitRows_eq (hkeys : (st.rows.map (·.id)).Nodup) {id : String} {found : Option SiteLogRow}
    (hfind : st.findByFourCharacterId id = .ok found) (row : SiteLogRow) :
    st.commitRows found row = st.rows.filter (·.fourCharacterId ≠ id) ++ [row] := by
  cases found with
  | none =>
      have hself : st.rows.filter (·.fourCharacterId ≠ id) = st.rows := by
        refine List.filter_eq_self.mpr ?_
        intro r hr
        have hnot := (mem_find hfind r).not.mp (by simp)
        simpa [hr] using hnot
      rw [UploadState.commitRows, hself]
  | some r =>
      obtain ⟨hr, hstation⟩ := (mem_find hfind r).mp rfl
      rw [UploadState.commitRows]
      congr 1
      refine List.filter_congr ?_
      intro s hs
      have hid : s.id = r.id ↔ s.fourCharacterId = id := by
        constructor
        · intro hid
          rw [List.inj_on_of_nodup_map hkeys hs hr hid]
          exact hstation
        · intro hstation'
          have hsr : r = s := Option.some.inj ((mem_find hfind s).mpr ⟨hs, hstation'⟩)
          rw [hsr]
      simp [hid]

variable {uploads : τ → SiteLog} {st' : UploadState τ} {a : UploadStep τ}

/-! ## The locks -/

/-- What the transactions know: they found logs of their stations, and the rows that they have
deleted are still there and deleted by one of them only. -/
structure Consistent (uploads : τ → SiteLog) (st : UploadState τ) : Prop where
  found : ∀ t r, (st.progress t).found = some r →
    r.fourCharacterId = (uploads t).fourCharacterId
  locked : ∀ t r, (st.progress t).locks = some r → r ∈ st.rows
  lockedOnce : ∀ t u r s, (st.progress t).locks = some r → (st.progress u).locks = some s →
    r.id = s.id → t = u

lemma Consistent.init (h : ∀ t, st.progress t = .pending) : Consistent uploads st where
  found t r hr := by simp [h, Progress.found] at hr
  locked t r hr := by simp [h, Progress.locks] at hr
  lockedOnce t u r s hr := by simp [h, Progress.locks] at hr

/-! ## Commits -/

/-- The step commits an upload that found no log, while there is a log of the station. -/
def CommitsBlindly (uploads : τ → SiteLog) (st : UploadState τ) (a : UploadStep τ) : Prop :=
  ∃ t id, a = .commit t ∧ st.progress t = .inserted none id ∧
    ∃ r ∈ st.rows, r.fourCharacterId = (uploads t).fourCharacterId

/-- A commit keeps one log per station unless it found none and there is one. -/
lemma oneLogPerStation_commit (h : Consistent uploads st) (hone : st.OneLogPerStation) {t : τ}
    {found : Option SiteLogRow} {id : ℕ} (hp : st.progress t = .inserted found id) :
    ((st.commitRows found ⟨id, (uploads t).reload⟩).map (·.fourCharacterId)).Nodup ↔
      ¬CommitsBlindly uploads st (.commit t) := by
  cases found with
  | none =>
      have hblind : CommitsBlindly uploads st (.commit t) ↔
          ∃ r ∈ st.rows, r.fourCharacterId = (uploads t).fourCharacterId := by
        constructor
        · rintro ⟨u, i, hu, -, hr⟩
          cases hu
          exact hr
        · intro hr
          exact ⟨t, id, rfl, hp, hr⟩
      have hnodup : (st.rows.map (·.fourCharacterId)).Nodup := hone
      have hrow : (⟨id, (uploads t).reload⟩ : SiteLogRow).fourCharacterId
          = (uploads t).fourCharacterId := rfl
      rw [hblind, UploadState.commitRows, List.map_append, List.nodup_append']
      simp [hnodup, hrow, List.disjoint_singleton]
  | some r =>
      have hblind : ¬CommitsBlindly uploads st (.commit t) := by
        rintro ⟨u, i, hu, hnone, -⟩
        cases hu
        rw [hp] at hnone
        cases hnone
      refine iff_of_true ?_ hblind
      -- the log that was read is the only one of its station, and it goes
      have hmem : r ∈ st.rows := h.locked t r (by rw [hp]; rfl)
      have hstation := h.found t r (by rw [hp]; rfl)
      rw [UploadState.commitRows, List.map_append, List.nodup_append']
      refine ⟨hone.sublist (List.filter_sublist.map _), by simp, ?_⟩
      simp only [List.map_cons, List.map_nil, List.disjoint_singleton, List.mem_map]
      rintro ⟨s, hs, hsr⟩
      obtain ⟨hs, hne⟩ := List.mem_filter.mp hs
      have hsame : s = r := List.inj_on_of_nodup_map hone hs hmem (hsr.trans hstation.symm)
      simp [hsame] at hne

variable [DecidableEq τ]

/-! ## What a step does -/

/-- What a statement other than the commit does: it takes one transaction further, which has then
found a log of its station, or had before, and has locked a row that is there and not locked, or had
before. -/
structure Advances (uploads : τ → SiteLog) (st st' : UploadState τ) (t : τ) (p : Progress) : Prop
    where
  rows : st'.rows = st.rows
  progress : st'.progress = Function.update st.progress t p
  found : ∀ r, p.found = some r → (st.progress t).found = some r ∨
    r.fourCharacterId = (uploads t).fourCharacterId
  locks : ∀ r, p.locks = some r → (st.progress t).locks = some r ∨
    r ∈ st.rows ∧ ∀ u, (st.progress u).locks.map (·.id) ≠ some r.id

lemma Consistent.advance (h : Consistent uploads st) {t : τ} {p : Progress}
    (hadvance : Advances uploads st st' t p) : Consistent uploads st' where
  found u r hr := by
    rw [hadvance.progress] at hr
    by_cases hut : u = t
    · subst hut
      rw [Function.update_self] at hr
      exact (hadvance.found r hr).elim (h.found u r) id
    · rw [Function.update_of_ne hut] at hr
      exact h.found u r hr
  locked u r hr := by
    rw [hadvance.progress] at hr
    rw [hadvance.rows]
    by_cases hut : u = t
    · subst hut
      rw [Function.update_self] at hr
      exact (hadvance.locks r hr).elim (h.locked u r) And.left
    · rw [Function.update_of_ne hut] at hr
      exact h.locked u r hr
  lockedOnce u v r s hr hs hrs := by
    -- a row that another transaction has deleted is not deleted again
    have hother : ∀ w ≠ t, ∀ q, (st.progress w).locks = some q → ∀ r, p.locks = some r →
        r.id ≠ q.id := by
      intro w hw q hq r hr hrq
      rcases hadvance.locks r hr with hr | ⟨-, hfree⟩
      · exact hw (h.lockedOnce t w r q hr hq hrq).symm
      · exact hfree w (by rw [hq, hrq]; rfl)
    rw [hadvance.progress] at hr hs
    by_cases hut : u = t <;> by_cases hvt : v = t
    · rw [hut, hvt]
    · subst hut
      rw [Function.update_self] at hr
      rw [Function.update_of_ne hvt] at hs
      exact absurd hrs (hother v hvt s hs r hr)
    · subst hvt
      rw [Function.update_of_ne hut] at hr
      rw [Function.update_self] at hs
      exact absurd hrs.symm (hother u hut r hr s hs)
    · rw [Function.update_of_ne hut] at hr
      rw [Function.update_of_ne hvt] at hs
      exact h.lockedOnce u v r s hr hs hrs

lemma Consistent.commit (h : Consistent uploads st) {t : τ} {found : Option SiteLogRow} {id : ℕ}
    (hp : st.progress t = .inserted found id) (row : SiteLogRow) :
    Consistent uploads { st.set t .committed with rows := st.commitRows found row } where
  found u r hr := by
    by_cases hut : u = t
    · subst hut
      simp [Progress.found] at hr
    · rw [st.set_progress_of_ne _ hut] at hr
      exact h.found u r hr
  locked u r hr := by
    by_cases hut : u = t
    · subst hut
      simp [Progress.locks] at hr
    · rw [st.set_progress_of_ne _ hut] at hr
      refine mem_commitRows (h.locked u r hr) ?_
      intro q hq hrq
      exact hut (h.lockedOnce u t r q hr (by rw [hp]; exact hq) hrq)
  lockedOnce u v r s hr hs hrs := by
    by_cases hut : u = t
    · subst hut
      simp [Progress.locks] at hr
    · by_cases hvt : v = t
      · subst hvt
        simp [Progress.locks] at hs
      · rw [st.set_progress_of_ne _ hut] at hr
        rw [st.set_progress_of_ne _ hvt] at hs
        exact h.lockedOnce u v r s hr hs hrs

variable [Fintype τ]

/-- **What a step can do.**  A step that is no commit advances a transaction. -/
lemma takes_cases (h : st.Takes uploads a st') :
    (∃ t p, (∀ u, a ≠ .commit u) ∧ Advances uploads st st' t p) ∨
    ∃ t found id, a = .commit t ∧ st.progress t = .inserted found id ∧
      st' = { st.set t .committed with rows := st.commitRows found ⟨id, (uploads t).reload⟩ } := by
  unfold UploadState.Takes at h
  cases a with
  | read t =>
      cases hp : st.progress t <;> simp only [UploadState.run, hp, reduceCtorEq] at h
      cases hfind : st.findByFourCharacterId (uploads t).fourCharacterId with
      | error x =>
          simp only [hfind] at h
          obtain rfl := Option.some.inj h
          exact .inl ⟨t, .rolledBack, by simp, rfl, rfl, by simp [Progress.found],
            by simp [Progress.locks]⟩
      | ok found =>
          simp only [hfind] at h
          obtain rfl := Option.some.inj h
          refine .inl ⟨t, .read found, by simp, rfl, rfl, ?_, by simp [Progress.locks]⟩
          intro r hr
          exact .inr ((mem_find hfind r).mp hr).2
  | delete t =>
      cases hp : st.progress t <;> simp only [UploadState.run, hp, reduceCtorEq] at h
      next found =>
      cases found with
      | none =>
          obtain rfl := Option.some.inj h
          exact .inl ⟨t, .deleted none, by simp, rfl, rfl, by simp [Progress.found],
            by simp [Progress.locks]⟩
      | some r =>
          simp only at h
          split_ifs at h with hlocked hmem
          · obtain rfl := Option.some.inj h
            refine .inl ⟨t, .deleted (some r), by simp, rfl, rfl, ?_, ?_⟩
            · intro s hs
              exact .inl (by rw [hp]; exact hs)
            · intro s hs
              obtain rfl := Option.some.inj hs
              exact .inr ⟨hmem, fun u hu => hlocked ⟨u, hu⟩⟩
          · obtain rfl := Option.some.inj h
            exact .inl ⟨t, .rolledBack, by simp, rfl, rfl, by simp [Progress.found],
              by simp [Progress.locks]⟩
  | insert t =>
      cases hp : st.progress t <;> simp only [UploadState.run, hp, reduceCtorEq] at h
      next found =>
      obtain rfl := Option.some.inj h
      refine .inl ⟨t, .inserted found st.nextId, by simp, rfl, rfl, ?_, ?_⟩
      · intro r hr
        exact .inl (by rw [hp]; exact hr)
      · intro r hr
        exact .inl (by rw [hp]; exact hr)
  | commit t =>
      cases hp : st.progress t <;> simp only [UploadState.run, hp, reduceCtorEq] at h
      next found id =>
      exact .inr ⟨t, found, id, rfl, hp, (Option.some.inj h).symm⟩
  | fail t =>
      simp only [UploadState.run] at h
      split_ifs at h with hactive
      obtain rfl := Option.some.inj h
      exact .inl ⟨t, .rolledBack, by simp, rfl, rfl, by simp [Progress.found],
        by simp [Progress.locks]⟩

lemma Consistent.step (h : Consistent uploads st) (hstep : st.Takes uploads a st') :
    Consistent uploads st' := by
  obtain ⟨t, p, -, hadvance⟩ | ⟨t, found, id, rfl, hp, rfl⟩ := takes_cases hstep
  · exact h.advance hadvance
  · exact h.commit hp _

/-! ## Runs -/

/-- **When there is one log per station.**  For uploads that start on a table with one log per
station, and in whatever order their statements are executed, there is one log per station in every
state, and no query for the log of a station finds several, if and only if no upload that found no
log commits once there is one. -/
theorem one_log_per_station_iff (uploads : τ → SiteLog) {st : UploadState τ}
    (hpending : ∀ t, st.progress t = .pending) (hone : st.OneLogPerStation)
    (as : List (UploadStep τ)) :
    (∀ s, Visits (UploadState.Takes uploads) st as s → s.OneLogPerStation ∧
      ∀ id, ∃ found, s.findByFourCharacterId id = .ok found) ↔
    ∀ s a s', Passes (UploadState.Takes uploads) st as s a s' → ¬CommitsBlindly uploads s a := by
  have hkeep : ∀ s a s', Consistent uploads s → s.OneLogPerStation → s.Takes uploads a s' →
      (s'.OneLogPerStation ↔ ¬CommitsBlindly uploads s a) := by
    intro s a s' h hone hstep
    obtain ⟨t, p, hcommit, hadvance⟩ | ⟨t, found, id, rfl, hp, rfl⟩ := takes_cases hstep
    · have hrows : s'.OneLogPerStation := by
        rw [UploadState.OneLogPerStation, hadvance.rows]
        exact hone
      refine iff_of_true hrows ?_
      rintro ⟨u, -, hu, -⟩
      exact hcommit u hu
    · exact oneLogPerStation_commit h hone hp
  have hiff := visits_forall_iff (fun s a t h hstep => h.step hstep) hkeep
    (Consistent.init hpending) hone as
  rw [← hiff]
  refine forall₂_congr fun s _ => ?_
  rw [← oneLogPerStation_iff_find, and_self]

/-! ## A transaction alone -/

/-- **A transaction that runs alone is an upload.**  The logs that it leaves are those that `upload`
leaves in the sequential model. -/
theorem upload_alone (hone : st.OneLogPerStation) (hkeys : (st.rows.map (·.id)).Nodup)
    (hfree : ∀ u, (st.progress u).locks = none) {t : τ} (hp : st.progress t = .pending)
    {store : Store} (hrows : store.siteLogs = st.rows.map (·.siteLog)) :
    ∃ st' store',
      Run (UploadState.Takes uploads) st [.read t, .delete t, .insert t, .commit t] st' ∧
      CorsSiteLogService.upload (uploads t) store = .ok store' ∧
      st'.rows.map (·.siteLog) = store'.siteLogs := by
  obtain ⟨found, hfind⟩ := oneLogPerStation_iff_find.mp hone (uploads t).fourCharacterId
  obtain ⟨st', hrun, hrows'⟩ := UploadState.run_alone uploads hp hfree hfind
    fun r hr => ((mem_find hfind r).mp hr).1
  have hstations : (store.siteLogs.map (·.fourCharacterId)).Nodup := by
    rw [hrows, List.map_map]
    exact hone
  refine ⟨st', _, hrun, upload_eq hstations (uploads t), ?_⟩
  rw [hrows', commitRows_eq hkeys hfind, hrows, List.filter_map, List.map_append]
  rfl

/-- No rows, and no upload has begun. -/
def UploadState.empty : UploadState τ := ⟨[], 1, fun _ => .pending⟩

/-- Two uploads of the same log. -/
def twice : Bool → SiteLog := fun _ => SiteLog.otherSite

/-- Both read before either commits. -/
def interleaved : List (UploadStep Bool) :=
  [.read false, .read true, .delete false, .delete true, .insert false, .insert true,
    .commit false, .commit true]

/-- One after the other. -/
def sequential : List (UploadStep Bool) :=
  [.read false, .delete false, .insert false, .commit false,
    .read true, .delete true, .insert true, .commit true]

/-- **Two uploads leave two logs of one station.**  The query for the log of the station throws from
then on. -/
theorem uploads_leave_two_logs :
    ∃ st, Run (UploadState.Takes twice) .empty interleaved st ∧
      ¬(st.OneLogPerStation ∧ ∀ id, ∃ found, st.findByFourCharacterId id = .ok found) := by
  have hcomputed : (interleaved.foldlM (UploadState.run twice) .empty).any
      (fun st => decide ¬st.OneLogPerStation) = true := by decide +kernel
  obtain ⟨st, hrun, htwo⟩ := exists_run_of_foldlM hcomputed
  exact ⟨st, hrun, fun h => absurd h.1 (of_decide_eq_true htwo)⟩

/-- In the run of two uploads one after the other there is one log in every state. -/
theorem one_log_per_station_sequential :
    (∀ s, Visits (UploadState.Takes twice) .empty sequential s → s.OneLogPerStation ∧
      ∀ id, ∃ found, s.findByFourCharacterId id = .ok found) ↔
    ∀ s a s', Passes (UploadState.Takes twice) .empty sequential s a s' →
      ¬CommitsBlindly twice s a :=
  one_log_per_station_iff twice (fun _ => rfl) (by decide) sequential

end Geodesy.Uploads
