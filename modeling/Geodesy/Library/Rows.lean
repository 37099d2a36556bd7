import Mathlib.Data.List.Perm.Basic
import Mathlib.Data.List.Nodup
import Mathlib.Data.List.Range

/-!
# Tables as lists of rows

A table is a list of rows, each with a surrogate key taken from one sequence.  `Allocated` is what
such a sequence guarantees: no key is used twice and every key used is below the next one.

`Evolves` relates a table to a later one from which no row was deleted: some columns of a row never
change, and a flag once set stays set.

The last part is about replacing the rows of a table by a new list while keeping what is common
to both.  `keep_append_new_perm` says that keeping the common rows and adding only the others is
the same, up to order, as deleting everything and inserting the new list.
-/

namespace Rows

variable {ρ : Type*}

/-- The keys of a table fed by a sequence whose next value is `next`. -/
structure Allocated (keys : List ℕ) (next : ℕ) : Prop where
  nodup : keys.Nodup
  lt_next : ∀ k ∈ keys, k < next

@[simp] lemma allocated_nil (next : ℕ) : Allocated [] next := ⟨List.nodup_nil, by simp⟩

/-- Drawing keys from the sequence for other tables leaves this one's keys allocated. -/
lemma Allocated.mono {keys : List ℕ} {m n : ℕ} (h : Allocated keys m) (hmn : m ≤ n) :
    Allocated keys n :=
  ⟨h.nodup, fun k hk => (h.lt_next k hk).trans_le hmn⟩

/-- The next `k` values of the sequence are new keys. -/
lemma Allocated.append_range {keys : List ℕ} {n : ℕ} (h : Allocated keys n) (k : ℕ) :
    Allocated (keys ++ List.range' n k) (n + k) := by
  refine ⟨List.nodup_append'.mpr ⟨h.nodup, List.nodup_range', ?_⟩, ?_⟩
  · intro i hi hi'
    have hlt := h.lt_next i hi
    simp only [List.mem_range'_1] at hi'
    omega
  · intro i hi
    rcases List.mem_append.mp hi with hi | hi
    · exact (h.lt_next i hi).trans_le (Nat.le_add_right n k)
    · simp only [List.mem_range'_1] at hi
      exact hi.2

/-- The next value of the sequence is a new key. -/
lemma Allocated.append_next {keys : List ℕ} {n : ℕ} (h : Allocated keys n) :
    Allocated (keys ++ [n]) (n + 1) :=
  h.append_range 1

/-- A row is determined by its key. -/
lemma Allocated.eq_of_key {rows : List ρ} {key : ρ → ℕ} {n : ℕ}
    (h : Allocated (rows.map key) n) {r s : ρ} (hr : r ∈ rows) (hs : s ∈ rows)
    (hrs : key r = key s) : r = s :=
  List.inj_on_of_nodup_map h.nodup hr hs hrs

/-- The only row that satisfies a condition is what a search for it finds. -/
lemma find?_eq_some_of_unique {rows : List ρ} {p : ρ → Bool} {r : ρ} (hr : r ∈ rows)
    (hp : p r = true) (hunique : ∀ s ∈ rows, p s = true → s = r) : rows.find? p = some r := by
  obtain ⟨s, hfind⟩ := Option.isSome_iff_exists.mp (List.find?_isSome.mpr ⟨r, hr, hp⟩)
  rw [hfind, hunique s (List.mem_of_find?_eq_some hfind) (List.find?_some hfind)]

/-- A query by a unique column finds the row. -/
lemma find?_eq_some_of_nodup {κ : Type*} [DecidableEq κ] {rows : List ρ} {key : ρ → κ}
    (h : (rows.map key).Nodup) {r : ρ} (hr : r ∈ rows) :
    rows.find? (fun s => decide (key s = key r)) = some r := by
  refine find?_eq_some_of_unique hr (decide_eq_true rfl) ?_
  intro s hs hkey
  exact List.inj_on_of_nodup_map h hs hr (of_decide_eq_true hkey)

/-- A selection by a unique column selects the row alone. -/
lemma filter_eq_singleton_of_nodup {κ : Type*} [DecidableEq κ] {key : ρ → κ} {r : ρ} :
    ∀ {rows : List ρ}, (rows.map key).Nodup → r ∈ rows →
      rows.filter (fun s => decide (key s = key r)) = [r]
  | s :: rows, h, hr => by
      obtain ⟨hs, hrows⟩ := List.nodup_cons.mp (List.map_cons ▸ h)
      rcases List.mem_cons.mp hr with rfl | hr
      · have hnone : rows.filter (fun s => decide (key s = key r)) = [] := by
          refine List.filter_eq_nil_iff.mpr ?_
          intro q hq hkey
          exact hs (of_decide_eq_true hkey ▸ List.mem_map_of_mem hq)
        rw [List.filter_cons_of_pos (by simp), hnone]
      · have hne : key s ≠ key r := fun hkey => hs (hkey ▸ List.mem_map_of_mem hr)
        rw [List.filter_cons_of_neg (by simpa using hne), filter_eq_singleton_of_nodup hrows hr]

/-- `insertAll mk next xs`: one row for each of `xs`, keyed from `next` on. -/
def insertAll {α : Type*} (mk : ℕ → α → ρ) (next : ℕ) : List α → List ρ
  | [] => []
  | x :: xs => mk next x :: insertAll mk (next + 1) xs

/-- The inserted rows take consecutive keys. -/
lemma map_key_insertAll {α : Type*} {mk : ℕ → α → ρ} {key : ρ → ℕ}
    (hkey : ∀ k x, key (mk k x) = k) :
    ∀ (xs : List α) (next : ℕ), (insertAll mk next xs).map key = List.range' next xs.length
  | [], _ => rfl
  | x :: xs, next => by
      simp [insertAll, hkey, map_key_insertAll hkey xs, List.range'_succ]

/-- Whatever of a row does not depend on its key is inserted unchanged. -/
lemma map_insertAll {α β : Type*} {mk : ℕ → α → ρ} {f : ρ → β} {g : α → β}
    (hf : ∀ k x, f (mk k x) = g x) :
    ∀ (xs : List α) (next : ℕ), (insertAll mk next xs).map f = xs.map g
  | [], _ => rfl
  | x :: xs, next => by simp [insertAll, hf, map_insertAll hf xs]

lemma mem_insertAll {α : Type*} {mk : ℕ → α → ρ} {r : ρ} :
    ∀ {xs : List α} {next : ℕ}, r ∈ insertAll mk next xs →
      ∃ x ∈ xs, ∃ k, next ≤ k ∧ k < next + xs.length ∧ r = mk k x
  | [], _, h => by simp [insertAll] at h
  | x :: xs, next, h => by
      rcases List.mem_cons.mp h with rfl | h
      · exact ⟨x, by simp, next, le_rfl, by simp, rfl⟩
      · obtain ⟨y, hy, k, hk, hk', rfl⟩ := mem_insertAll h
        exact ⟨y, List.mem_cons_of_mem _ hy, k, by omega, by simp only [List.length_cons]; omega,
          rfl⟩

/-- Every one of `xs` gets its row. -/
lemma exists_mem_insertAll {α : Type*} (mk : ℕ → α → ρ) {x : α} :
    ∀ {xs : List α} (next : ℕ), x ∈ xs → ∃ k, next ≤ k ∧ mk k x ∈ insertAll mk next xs
  | y :: ys, next, h => by
      rcases List.mem_cons.mp h with rfl | h
      · exact ⟨next, le_rfl, by simp [insertAll]⟩
      · obtain ⟨k, hk, hmem⟩ := exists_mem_insertAll mk (next + 1) h
        exact ⟨k, by omega, List.mem_cons_of_mem _ hmem⟩

/-- Replacing the row with the key of `x` by `x` keeps in every row what the two agree on. -/
lemma replace_congr {β : Type*} {rows : List ρ} {key : ρ → ℕ} {f : ρ → β} {x : ρ}
    (h : ∀ r ∈ rows, key r = key x → f r = f x) :
    ∀ r ∈ rows, f (if key r = key x then x else r) = f r := by
  intro r hr
  split_ifs with hkey
  · exact (h r hr hkey).symm
  · rfl

/-! ## Tables over time -/

section Evolves

variable {κ : Type*} {columns : ρ → κ} {flag : ρ → Bool} {rows rows' rows'' : List ρ}

/-- Every row is there in the later table, with the same columns, and with the flag if it had it. -/
def Evolves (columns : ρ → κ) (flag : ρ → Bool) (rows rows' : List ρ) : Prop :=
  ∀ r ∈ rows, ∃ r' ∈ rows', columns r' = columns r ∧ (flag r = true → flag r' = true)

lemma Evolves.refl (rows : List ρ) : Evolves columns flag rows rows :=
  fun r hr => ⟨r, hr, rfl, id⟩

lemma Evolves.trans (h : Evolves columns flag rows rows')
    (h' : Evolves columns flag rows' rows'') : Evolves columns flag rows rows'' := by
  intro r hr
  obtain ⟨r', hr', hcolumns, hflag⟩ := h r hr
  obtain ⟨r'', hr'', hcolumns', hflag'⟩ := h' r' hr'
  exact ⟨r'', hr'', hcolumns'.trans hcolumns, hflag' ∘ hflag⟩

/-- Rows are updated in place and others inserted. -/
lemma evolves_map_append {f : ρ → ρ}
    (h : ∀ r ∈ rows, columns (f r) = columns r ∧ (flag r = true → flag (f r) = true))
    (new : List ρ) : Evolves columns flag rows (rows.map f ++ new) := by
  intro r hr
  exact ⟨f r, List.mem_append_left _ (List.mem_map_of_mem hr), h r hr⟩

/-- **A key means the same row forever**, where the key is one of the columns. -/
lemma Evolves.of_key {key : ρ → ℕ} {n : ℕ} (h : Evolves columns flag rows rows')
    (hkey : ∀ r r', columns r' = columns r → key r' = key r)
    (hkeys : Allocated (rows'.map key) n) {r r' : ρ} (hr : r ∈ rows) (hr' : r' ∈ rows')
    (heq : key r' = key r) : columns r' = columns r ∧ (flag r = true → flag r' = true) := by
  obtain ⟨q, hq, hcolumns, hflag⟩ := h r hr
  obtain rfl := hkeys.eq_of_key hr' hq (heq.trans (hkey r q hcolumns).symm)
  exact ⟨hcolumns, hflag⟩

end Evolves

/-! ## Replacing while keeping what is common -/

variable {α : Type*} [DecidableEq α] {old new : List α}

/-- **Keeping the common rows and inserting the others is full replacement.**  Neither list
repeats a row, and `common` holds what occurs in both. -/
theorem keep_append_new_perm (common : List α) (hold : old.Nodup) (hnew : new.Nodup)
    (hcommon : ∀ x, x ∈ common ↔ x ∈ old ∧ x ∈ new) :
    (old.filter (· ∈ common) ++ new.filter (· ∉ common)).Perm new := by
  have hkeep : (old.filter (· ∈ common)).Perm (new.filter (· ∈ common)) := by
    refine (List.perm_ext_iff_of_nodup (hold.filter _) (hnew.filter _)).mpr ?_
    intro x
    simp only [List.mem_filter, decide_eq_true_eq, hcommon]
    tauto
  have hsplit := List.filter_append_perm (fun x => decide (x ∈ common)) new
  simp only [decide_not] at hsplit ⊢
  exact (hkeep.append_right _).trans hsplit

end Rows
