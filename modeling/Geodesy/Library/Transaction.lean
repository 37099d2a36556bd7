import Mathlib.Data.List.Basic

/-!
# Transactions that fail somewhere

A transaction makes a list of calls, one after the other.  A call first changes an object in memory
and then writes to the database.  The transaction may fail at any of its calls, after the change in
memory and before the write, or at its commit.  A transaction that fails writes nothing, but what
its calls did in memory stays: the call it failed at and those before it.

* `Transaction.perform_committed`, `Transaction.perform_failed` — what is left of a transaction.
-/

namespace Transaction

variable {δ μ : Type*}

/-- A call: what it does to the object in memory, and what it then writes. -/
structure Call (δ μ : Type*) where
  remember : μ → μ
  write : μ → δ → δ

namespace Call

/-- A call that only writes. -/
def ofWrite (write : δ → δ) : Call δ μ where
  remember := id
  write _ := write

/-- The object in memory after some calls. -/
def rememberAll (calls : List (Call δ μ)) (m : μ) : μ := calls.foldl (fun m c => c.remember m) m

@[simp] lemma rememberAll_nil (m : μ) : rememberAll ([] : List (Call δ μ)) m = m := rfl

@[simp] lemma rememberAll_cons (c : Call δ μ) (calls : List (Call δ μ)) (m : μ) :
    rememberAll (c :: calls) m = rememberAll calls (c.remember m) := rfl

lemma rememberAll_append (calls calls' : List (Call δ μ)) (m : μ) :
    rememberAll (calls ++ calls') m = rememberAll calls' (rememberAll calls m) :=
  List.foldl_append

/-- Calls that only write leave the object in memory alone. -/
lemma rememberAll_ofWrite {ι : Type*} (write : ι → δ → δ) (is : List ι) (m : μ) :
    rememberAll (is.map fun i => ofWrite (write i)) m = m := by
  induction is with
  | nil => rfl
  | cons i is ih => exact ih

/-- The writes of some calls, the object in memory changing along the way. -/
def writeAll : List (Call δ μ) → μ → δ → δ
  | [], _, d => d
  | c :: calls, m, d => writeAll calls (c.remember m) (c.write (c.remember m) d)

@[simp] lemma writeAll_nil (m : μ) (d : δ) : writeAll [] m d = d := rfl

@[simp] lemma writeAll_cons (c : Call δ μ) (calls : List (Call δ μ)) (m : μ) (d : δ) :
    writeAll (c :: calls) m d = writeAll calls (c.remember m) (c.write (c.remember m) d) := rfl

lemma writeAll_append (calls calls' : List (Call δ μ)) (m : μ) (d : δ) :
    writeAll (calls ++ calls') m d =
      writeAll calls' (rememberAll calls m) (writeAll calls m d) := by
  induction calls generalizing m d with
  | nil => rfl
  | cons c calls ih => exact ih _ _

/-- Calls that only write do so one after the other. -/
lemma writeAll_ofWrite {ι : Type*} (write : ι → δ → δ) (is : List ι) (m : μ) (d : δ) :
    writeAll (is.map fun i => ofWrite (write i)) m d = is.foldl (fun d i => write i d) d := by
  induction is generalizing d with
  | nil => rfl
  | cons i is ih => exact ih _

end Call

/-- What is left when a transaction is over. -/
structure Ended (δ μ : Type*) where
  database : δ
  memory : μ
  committed : Bool

/-- The calls one after the other, up to the one that fails.  A failure that no call is left for is
one of the commit.  The database is still that of the transaction. -/
def execute : List (Call δ μ) → Option ℕ → δ → μ → Ended δ μ
  | [], failure, d, m => ⟨d, m, failure.isNone⟩
  | c :: _, some 0, d, m => ⟨d, c.remember m, false⟩
  | c :: calls, some (k + 1), d, m =>
    execute calls (some k) (c.write (c.remember m) d) (c.remember m)
  | c :: calls, none, d, m => execute calls none (c.write (c.remember m) d) (c.remember m)

/-- A transaction that fails at the given call, or at none: the database is rolled back unless it
committed. -/
def perform (calls : List (Call δ μ)) (failure : Option ℕ) (d : δ) (m : μ) : Ended δ μ :=
  let ended := execute calls failure d m
  { ended with database := if ended.committed then ended.database else d }

lemma execute_none (calls : List (Call δ μ)) (d : δ) (m : μ) :
    execute calls none d m = ⟨Call.writeAll calls m d, Call.rememberAll calls m, true⟩ := by
  induction calls generalizing d m with
  | nil => rfl
  | cons c calls ih => exact ih _ _

lemma execute_some (calls : List (Call δ μ)) (k : ℕ) (d : δ) (m : μ) :
    (execute calls (some k) d m).committed = false ∧
      (execute calls (some k) d m).memory = Call.rememberAll (calls.take (k + 1)) m := by
  induction calls generalizing k d m with
  | nil => exact ⟨rfl, rfl⟩
  | cons c calls ih =>
      cases k with
      | zero => exact ⟨rfl, rfl⟩
      | succ k => exact ih k _ _

/-- A transaction that does not fail leaves its writes. -/
theorem perform_committed (calls : List (Call δ μ)) (d : δ) (m : μ) :
    perform calls none d m = ⟨Call.writeAll calls m d, Call.rememberAll calls m, true⟩ := by
  simp [perform, execute_none]

/-- A transaction that fails leaves the database as it was, and the object in memory as the call it
failed at made it. -/
theorem perform_failed (calls : List (Call δ μ)) (k : ℕ) (d : δ) (m : μ) :
    perform calls (some k) d m = ⟨d, Call.rememberAll (calls.take (k + 1)) m, false⟩ := by
  obtain ⟨hcommitted, hmemory⟩ := execute_some calls k d m
  simp [perform, hcommitted, hmemory]

end Transaction
