import A2AGateway.Schema
import A2AGateway.Lib.Prog

/-!
# One gateway: its state and its atomic actions

| here | there |
| --- | --- |
| `World.db`               | the PostgreSQL database of the gateway |
| `World.disk`             | the files under the object store's root (`object_store.rs:29`) |
| `World.folders`          | the project folders on disk, as `fs::read_dir` lists them |
| `World.now`              | `util::now_secs()` |
| `World.faults`           | how the next fallible operations end (below) |
| `statement`, `query`     | one `sqlx::query(..)` run on the pool: one SQL statement, atomic |
| `fetch`                  | one `SELECT` of an `INTEGER` column |
| `insertReturning`        | one `INSERT .. RETURNING` of an `INTEGER` column |
| `ioRead`, `ioWrite`      | one `tokio::fs` operation |

A routine of the gateway is a `Gw` program: a tree of these operations. Each fallible operation
takes one entry of `faults`: `none` lets it through, `some n` makes it fail, a file write after
`n` bytes. A statement that the environment or the database fails has no effect; one whose column the driver
does not decode (`Engine`) fails after its effect. With `faults = []` nothing fails from outside.
The clock stands still inside one routine; who calls the routine sets it.
-/

namespace A2AGateway

/-- What `fs::read_dir` yields for a directory, entry by entry: a file with its bytes and its
mtime in seconds, a sub-directory, or something that is neither (a symbolic link). -/
inductive Listing
  | done
  | file (name : String) (content : Bytes) (mtime : Nat) (rest : Listing)
  | dir (name : String) (sub : Listing) (rest : Listing)
  | other (name : String) (rest : Listing)
deriving DecidableEq

/-- `root/{dir}/{file}`, a path in the object store. -/
structure ObjectPath where
  dir : String
  file : String
deriving DecidableEq

structure World where
  db : Db
  disk : ObjectPath → Option Bytes
  folders : String → Option Listing
  /-- `Path::canonicalize`. -/
  canonical : String → Option String
  now : F64
  faults : List (Option Nat)

/-- A gateway that has just run its migrations on an empty database. -/
def World.fresh (engine : Engine := .shipped) : World where
  db := .empty engine
  disk _ := none
  folders _ := none
  canonical _ := none
  now := .fin 0
  faults := []

/-- `INTEGER` columns are not decoded. -/
def World.AsShipped (w : World) : Prop := w.db.engine.integers = .refused

instance (w : World) : Decidable w.AsShipped := inferInstanceAs (Decidable (_ = _))

/-- Nothing fails from here on, and `INTEGER` columns are decoded. -/
def World.Legible (w : World) : Prop := w.faults = [] ∧ w.db.engine.integers = .widened

instance (w : World) : Decidable w.Legible := inferInstanceAs (Decidable (_ ∧ _))

/-- The next operation has been taken. -/
def World.tick (w : World) : World := { w with faults := w.faults.tail }

/-- Nothing fails from here on. -/
def World.calm (w : World) : World := { w with faults := [] }

/-- The stored state: the database and the object files. -/
def World.stored (w : World) : Db × (ObjectPath → Option Bytes) := (w.db, w.disk)

section
variable (w : World)

@[simp] theorem World.tick_db : w.tick.db = w.db := rfl
@[simp] theorem World.tick_disk : w.tick.disk = w.disk := rfl
@[simp] theorem World.tick_folders : w.tick.folders = w.folders := rfl
@[simp] theorem World.tick_canonical : w.tick.canonical = w.canonical := rfl
@[simp] theorem World.tick_now : w.tick.now = w.now := rfl
@[simp] theorem World.tick_stored : w.tick.stored = w.stored := rfl
@[simp] theorem World.calm_db : w.calm.db = w.db := rfl
@[simp] theorem World.calm_disk : w.calm.disk = w.disk := rfl
@[simp] theorem World.calm_faults : w.calm.faults = [] := rfl

end

theorem World.tick_of_calm {w : World} (h : w.faults = []) : w.tick = w := by
  cases w; cases h; rfl

theorem World.tick_faults {w : World} (h : w.faults = []) : w.tick.faults = [] := by
  rw [World.tick_of_calm h, h]

/-- The database and the object files are the same. -/
def SameStored (w w' : World) : Prop := w'.stored = w.stored

theorem SameStored.refl (w : World) : SameStored w w := rfl

theorem SameStored.tick (w : World) : SameStored w w.tick := rfl

theorem SameStored.trans {a b c : World} (h : SameStored a b) (h' : SameStored b c) : SameStored a c :=
  Eq.trans h' h

/-- A routine of the gateway. -/
abbrev Gw := Prog World Err

namespace Gw

variable {α β : Type}

/-- One operation that the environment may fail with `e`. -/
def op (e : Err) (f : World → Except Err α × World) : Gw α :=
  Prog.prim fun w =>
    match w.faults.head? with
    | some (some _) => (.error e, w.tick)
    | _ => f w.tick

/-- One SQL statement; `none` if the database rejects it. -/
def statement (e : Err) (f : F64 → Db → Option (α × Db)) : Gw α :=
  op e fun w =>
    match f w.now w.db with
    | some (a, db) => (.ok a, { w with db })
    | none => (.error e, w)

/-- One `INSERT` or `UPDATE` without `RETURNING`. -/
def execute (e : Err) (f : F64 → Db → Option Db) : Gw Unit :=
  statement e fun now db => (f now db).map ((), ·)

/-- One `SELECT`. -/
def query (e : Err) (f : Db → α) : Gw α :=
  op e fun w => (.ok (f w.db), w)

/-- One `SELECT` whose columns may not be decoded. -/
def fetch (e : Err) (f : Db → Option α) : Gw α :=
  op e fun w =>
    match f w.db with
    | some a => (.ok a, w)
    | none => (.error e, w)

/-- One `INSERT .. RETURNING` of an `INTEGER` column: the row is there before its column is read. -/
def insertReturning (e : Err) (f : F64 → Db → Option (α × Db)) : Gw α :=
  op e fun w =>
    match f w.now w.db with
    | some (a, db) => ((w.db.engine.decode a).elim (.error e) .ok, { w with db })
    | none => (.error e, w)

/-- One file-system operation that changes nothing. -/
def ioRead (e : Err) (f : World → α) : Gw α :=
  op e fun w => (.ok (f w), w)

/-- `fs::write` into the object store: truncates the file, then writes; a failing write leaves
the bytes written so far. -/
def ioWrite (e : Err) (path : ObjectPath) (content : Bytes) : Gw Unit :=
  Prog.prim fun w =>
    match w.faults.head? with
    | some (some n) => (.error e, { w.tick with disk := Function.update w.disk path (some (content.take n)) })
    | _ => (.ok (), { w.tick with disk := Function.update w.disk path (some content) })

/-- `now_secs()`. -/
def nowSecs : Gw F64 := Prog.look (·.now)

/-- `bail!` and `?` on an error. -/
def throw (e : Err) : Gw α := Prog.fail e

/-- `.context(text)` on an `Option`, and `ok_or_else`. -/
def orThrow (e : Err) : Option α → Gw α
  | some a => Prog.ret a
  | none => Prog.fail e

/-! ## How one operation ends -/

theorem exec_op (e : Err) (f : World → Except Err α × World) (w : World) :
    (op e f).exec w = (.error e, w.tick) ∨ (op e f).exec w = f w.tick := by
  simp only [op, Prog.exec_prim]
  split
  · exact Or.inl rfl
  · exact Or.inr rfl

theorem exec_op_calm {e : Err} {f : World → Except Err α × World} {w : World}
    (h : w.faults = []) : (op e f).exec w = f w := by
  simp [op, h, World.tick_of_calm h]

theorem exec_query_ok {e : Err} {f : Db → α} {w w' : World} {a : α}
    (h : (query e f).exec w = (.ok a, w')) : a = f w.db ∧ w' = w.tick := by
  rcases exec_op e (fun w => (.ok (f w.db), w)) w with h' | h' <;> rw [query, h'] at h <;> cases h
  exact ⟨rfl, rfl⟩

theorem exec_query_error {e e' : Err} {f : Db → α} {w w' : World} (h : (query e f).exec w = (.error e', w')) : w' = w.tick := by
  rcases exec_op e (fun w => (.ok (f w.db), w)) w with h' | h' <;> rw [query, h'] at h <;> cases h
  rfl

theorem exec_query_calm {e : Err} {f : Db → α} {w : World} (h : w.faults = []) :
    (query e f).exec w = (.ok (f w.db), w) := exec_op_calm h

/-- A `SELECT` fails, or yields what it found. -/
theorem exec_fetch_cases (e : Err) (f : Db → Option α) (w : World) :
    (fetch e f).exec w = (.error e, w.tick) ∨ ∃ a, f w.db = some a ∧ (fetch e f).exec w = (.ok a, w.tick) := by
  rcases exec_op e _ w with h | h <;> rw [fetch, h]
  · exact Or.inl rfl
  · simp only [World.tick_db]
    cases hf : f w.db with
    | none => exact Or.inl rfl
    | some a => exact Or.inr ⟨a, rfl, rfl⟩

theorem exec_fetch_ok {e : Err} {f : Db → Option α} {w w' : World} {a : α}
    (h : (fetch e f).exec w = (.ok a, w')) : f w.db = some a ∧ w' = w.tick := by
  rcases exec_fetch_cases e f w with h' | ⟨b, hb, h'⟩ <;> rw [h'] at h <;> cases h
  exact ⟨hb, rfl⟩

theorem exec_fetch_error {e e' : Err} {f : Db → Option α} {w w' : World}
    (h : (fetch e f).exec w = (.error e', w')) : w' = w.tick := by
  rcases exec_fetch_cases e f w with h' | ⟨b, -, h'⟩ <;> rw [h'] at h <;> cases h
  rfl

theorem exec_fetch_of_some {e : Err} {f : Db → Option α} {w : World} {a : α} (h : w.faults = [])
    (hf : f w.db = some a) : (fetch e f).exec w = (.ok a, w) := by
  rw [fetch, exec_op_calm h, hf]

theorem exec_fetch_of_none {e : Err} {f : Db → Option α} {w : World} (hf : f w.db = none) :
    (fetch e f).exec w = (.error e, w.tick) := by
  rcases exec_fetch_cases e f w with h | ⟨a, ha, -⟩
  · exact h
  · rw [hf] at ha
    cases ha

theorem exec_ioRead_ok {e : Err} {f : World → α} {w w' : World} {a : α}
    (h : (ioRead e f).exec w = (.ok a, w')) : a = f w.tick ∧ w' = w.tick := by
  rcases exec_op e (fun w => (.ok (f w), w)) w with h' | h' <;> rw [ioRead, h'] at h <;> cases h
  exact ⟨rfl, rfl⟩

theorem exec_ioRead_calm {e : Err} {f : World → α} {w : World} (h : w.faults = []) :
    (ioRead e f).exec w = (.ok (f w), w) := exec_op_calm h

/-- A statement either fails without effect or has its effect. -/
theorem exec_statement_cases (e : Err) (f : F64 → Db → Option (α × Db)) (w : World) :
    (statement e f).exec w = (.error e, w.tick) ∨
      ∃ a db, f w.now w.db = some (a, db) ∧ (statement e f).exec w = (.ok a, { w.tick with db }) := by
  rcases exec_op e _ w with h | h <;> rw [statement, h]
  · exact Or.inl rfl
  · simp only [World.tick_now, World.tick_db]
    cases hf : f w.now w.db with
    | none => exact Or.inl rfl
    | some r => exact Or.inr ⟨r.1, r.2, rfl, rfl⟩

theorem exec_statement_ok {e : Err} {f : F64 → Db → Option (α × Db)} {w w' : World} {a : α}
    (h : (statement e f).exec w = (.ok a, w')) :
    ∃ db, f w.now w.db = some (a, db) ∧ w' = { w.tick with db } := by
  rcases exec_op e _ w with h' | h' <;> rw [statement, h'] at h
  · cases h
  · simp only [World.tick_now, World.tick_db] at h
    split at h <;> cases h
    rename_i db hdb
    exact ⟨db, hdb, rfl⟩

theorem exec_statement_calm {e : Err} {f : F64 → Db → Option (α × Db)} {w : World}
    (h : w.faults = []) :
    (statement e f).exec w = match f w.now w.db with
      | some (a, db) => (.ok a, { w with db })
      | none => (.error e, w) := exec_op_calm h

theorem exec_statement_of_some {e : Err} {f : F64 → Db → Option (α × Db)} {w : World} {a : α} {db : Db}
    (h : w.faults = []) (hf : f w.now w.db = some (a, db)) : (statement e f).exec w = (.ok a, { w with db }) := by
  rw [exec_statement_calm h, hf]

/-- An `INSERT .. RETURNING` fails without effect, or has its effect and yields the column or fails. -/
theorem exec_insertReturning_cases (e : Err) (f : F64 → Db → Option (α × Db)) (w : World) :
    (insertReturning e f).exec w = (.error e, w.tick) ∨ ∃ a db, f w.now w.db = some (a, db) ∧
      (insertReturning e f).exec w = ((w.db.engine.decode a).elim (.error e) .ok, { w.tick with db }) := by
  rcases exec_op e _ w with h | h <;> rw [insertReturning, h]
  · exact Or.inl rfl
  · simp only [World.tick_now, World.tick_db]
    cases hf : f w.now w.db with
    | none => exact Or.inl rfl
    | some r => exact Or.inr ⟨r.1, r.2, rfl, rfl⟩

theorem exec_insertReturning_of_some {e : Err} {f : F64 → Db → Option (α × Db)} {w : World} {a : α} {db : Db}
    (h : w.faults = []) (hf : f w.now w.db = some (a, db)) :
    (insertReturning e f).exec w = ((w.db.engine.decode a).elim (.error e) .ok, { w with db }) := by
  rw [insertReturning, exec_op_calm h, hf]

theorem exec_execute_ok {e : Err} {f : F64 → Db → Option Db} {w w' : World} {u : Unit}
    (h : (execute e f).exec w = (.ok u, w')) :
    ∃ db, f w.now w.db = some db ∧ w' = { w.tick with db } := by
  obtain ⟨db, hf, rfl⟩ := exec_statement_ok h
  obtain ⟨db', hdb, hp⟩ := Option.map_eq_some_iff.1 hf
  cases hp
  exact ⟨_, hdb, rfl⟩

/-- A statement that fails has no effect. -/
theorem exec_execute_error {e e' : Err} {f : F64 → Db → Option Db} {w w' : World} (h : (execute e f).exec w = (.error e', w')) :
    w' = w.tick := by
  rcases exec_statement_cases e (fun now db => (f now db).map ((), ·)) w with h' | ⟨a, db, -, h'⟩ <;> rw [execute, h'] at h <;> cases h
  rfl

theorem exec_execute_calm {e : Err} {f : F64 → Db → Option Db} {w : World} (h : w.faults = []) :
    (execute e f).exec w = match f w.now w.db with
      | some db => (.ok (), { w with db })
      | none => (.error e, w) := by
  rw [execute, exec_statement_calm h]
  cases f w.now w.db <;> rfl

theorem exec_ioWrite_ok {e : Err} {p : ObjectPath} {c : Bytes} {w w' : World} {u : Unit}
    (h : (ioWrite e p c).exec w = (.ok u, w')) :
    w' = { w.tick with disk := Function.update w.disk p (some c) } := by
  simp only [ioWrite, Prog.exec_prim] at h
  split at h <;> cases h
  rfl

theorem exec_ioWrite_calm {e : Err} {p : ObjectPath} {c : Bytes} {w : World} (h : w.faults = []) :
    (ioWrite e p c).exec w = (.ok (), { w with disk := Function.update w.disk p (some c) }) := by
  simp [ioWrite, h, World.tick]

theorem exec_orThrow_ok {e : Err} {o : Option α} {w w' : World} {a : α}
    (h : (orThrow e o).exec w = (.ok a, w')) : o = some a ∧ w = w' := by
  cases o <;> cases h
  exact ⟨rfl, rfl⟩

/-! ## When one operation goes well -/

/-- The environment lets the next operation through. -/
def Passes (w : World) : Prop := ∀ n, w.faults.head? ≠ some (some n)

instance (w : World) : Decidable (Passes w) :=
  decidable_of_iff (w.faults.head?.join = none) (by
    rw [Passes]
    cases w.faults.head? with
    | none => simp
    | some o => cases o <;> simp)

theorem exec_op_iff {e : Err} {f : World → Except Err α × World} {w w' : World} {a : α} :
    (op e f).exec w = (.ok a, w') ↔ Passes w ∧ f w.tick = (.ok a, w') := by
  simp only [op, Prog.exec_prim, Passes]
  split
  · rename_i n hn
    constructor
    · intro h
      cases h
    · intro h
      exact absurd hn (h.1 n)
  · rename_i hn
    constructor
    · intro h
      exact ⟨hn, h⟩
    · intro h
      exact h.2

theorem exec_op_of_passes {e : Err} {f : World → Except Err α × World} {w : World} (h : Passes w) :
    (op e f).exec w = f w.tick := by
  rw [op, Prog.exec_prim]
  split
  · rename_i n hn
    exact absurd hn (h n)
  · rfl

theorem exec_query_iff {e : Err} {f : Db → α} {w w' : World} {a : α} :
    (query e f).exec w = (.ok a, w') ↔ Passes w ∧ a = f w.db ∧ w' = w.tick := by
  rw [query, exec_op_iff]
  simp only [World.tick_db, Prod.mk.injEq, Except.ok.injEq, eq_comm]

theorem exec_fetch_iff {e : Err} {f : Db → Option α} {w w' : World} {a : α} :
    (fetch e f).exec w = (.ok a, w') ↔ Passes w ∧ f w.db = some a ∧ w' = w.tick := by
  rw [fetch, exec_op_iff]
  simp only [World.tick_db]
  cases f w.db with
  | none => simp
  | some b => simp only [Prod.mk.injEq, Except.ok.injEq, Option.some.injEq, eq_comm]

theorem exec_insertReturning_of_passes {e : Err} {f : F64 → Db → Option (α × Db)} {w : World} {a : α} {db : Db}
    (h : Passes w) (hf : f w.now w.db = some (a, db)) :
    (insertReturning e f).exec w = ((w.db.engine.decode a).elim (.error e) .ok, { w.tick with db }) := by
  rw [insertReturning, exec_op_of_passes h]
  simp only [World.tick_now, World.tick_db, hf]

theorem exec_insertReturning_iff {e : Err} {f : F64 → Db → Option (α × Db)} {w w' : World} {a : α} :
    (insertReturning e f).exec w = (.ok a, w') ↔ w.db.engine.integers = .widened ∧ Passes w ∧
      ∃ db, f w.now w.db = some (a, db) ∧ w' = { w.tick with db } := by
  rw [insertReturning, exec_op_iff]
  simp only [World.tick_now, World.tick_db]
  cases f w.now w.db with
  | none => simp
  | some r =>
    obtain ⟨a', db'⟩ := r
    cases hd : w.db.engine.integers with
    | refused => simp [Engine.decode_refused hd]
    | widened =>
      simp only [Engine.decode_widened hd, Option.elim_some, Prod.mk.injEq, Except.ok.injEq, Option.some.injEq, true_and]
      constructor
      · rintro ⟨hp, rfl, rfl⟩
        exact ⟨hp, db', ⟨rfl, rfl⟩, rfl⟩
      · rintro ⟨hp, _, ⟨rfl, rfl⟩, rfl⟩
        exact ⟨hp, rfl, rfl⟩

theorem exec_ioRead_iff {e : Err} {f : World → α} {w w' : World} {a : α} :
    (ioRead e f).exec w = (.ok a, w') ↔ Passes w ∧ a = f w.tick ∧ w' = w.tick := by
  rw [ioRead, exec_op_iff]
  simp only [Prod.mk.injEq, Except.ok.injEq, eq_comm]

theorem exec_statement_iff {e : Err} {f : F64 → Db → Option (α × Db)} {w w' : World} {a : α} :
    (statement e f).exec w = (.ok a, w') ↔ Passes w ∧ ∃ db, f w.now w.db = some (a, db) ∧ w' = { w.tick with db } := by
  rw [statement, exec_op_iff]
  simp only [World.tick_now, World.tick_db]
  cases f w.now w.db with
  | none => simp
  | some r =>
    obtain ⟨a', db'⟩ := r
    simp only [Prod.mk.injEq, Except.ok.injEq, Option.some.injEq]
    constructor
    · rintro ⟨hp, rfl, rfl⟩
      exact ⟨hp, db', ⟨rfl, rfl⟩, rfl⟩
    · rintro ⟨hp, _, ⟨rfl, rfl⟩, rfl⟩
      exact ⟨hp, rfl, rfl⟩

theorem exec_execute_iff {e : Err} {f : F64 → Db → Option Db} {w w' : World} {u : Unit} :
    (execute e f).exec w = (.ok u, w') ↔ Passes w ∧ ∃ db, f w.now w.db = some db ∧ w' = { w.tick with db } := by
  rw [execute, exec_statement_iff]
  cases f w.now w.db <;> simp

theorem exec_statement_of_not_passes {e : Err} {f : F64 → Db → Option (α × Db)} {w : World} (h : ¬ Passes w) :
    (statement e f).exec w = (.error e, w.tick) := by
  rcases exec_statement_cases e f w with hrun | ⟨a, db, -, hrun⟩
  · exact hrun
  · exact absurd (exec_statement_iff.1 hrun).1 h

theorem exec_query_of_not_passes {e : Err} {f : Db → α} {w : World} (h : ¬ Passes w) :
    (query e f).exec w = (.error e, w.tick) := by
  rcases exec_op e (fun w => (.ok (f w.db), w)) w with hrun | hrun
  · exact hrun
  · exact absurd (exec_query_iff.1 hrun).1 h

theorem exec_fetch_of_not_passes {e : Err} {f : Db → Option α} {w : World} (h : ¬ Passes w) :
    (fetch e f).exec w = (.error e, w.tick) := by
  rcases exec_fetch_cases e f w with hrun | ⟨a, -, hrun⟩
  · exact hrun
  · exact absurd (exec_fetch_iff.1 hrun).1 h

theorem exec_orThrow_iff {e : Err} {o : Option α} {w w' : World} {a : α} :
    (orThrow e o).exec w = (.ok a, w') ↔ o = some a ∧ w' = w := by
  cases o <;> simp [orThrow, eq_comm]

/-! ## Where one operation may take the state -/

variable {R : World → World → Prop}

theorem moves_op {e : Err} {f : World → Except Err α × World} (h₀ : ∀ w, R w w.tick)
    (h : ∀ w, R w (f w.tick).2) : (op e f).Moves R := by
  refine Prog.moves_prim fun w => ?_
  split
  · exact h₀ w
  · exact h w

theorem moves_query {e : Err} {f : Db → α} (h₀ : ∀ w, R w w.tick) : (query e f).Moves R :=
  moves_op h₀ h₀

theorem moves_fetch {e : Err} {f : Db → Option α} (h₀ : ∀ w, R w w.tick) : (fetch e f).Moves R := by
  refine moves_op h₀ fun w => ?_
  split
  · exact h₀ w
  · exact h₀ w

theorem moves_ioRead {e : Err} {f : World → α} (h₀ : ∀ w, R w w.tick) : (ioRead e f).Moves R :=
  moves_op h₀ h₀

theorem moves_statement {e : Err} {f : F64 → Db → Option (α × Db)} (h₀ : ∀ w, R w w.tick)
    (h : ∀ w a db, f w.now w.db = some (a, db) → R w { w.tick with db }) :
    (statement e f).Moves R := by
  refine moves_op h₀ fun w => ?_
  simp only [World.tick_now, World.tick_db]
  split
  · rename_i hf
    exact h w _ _ hf
  · exact h₀ w

theorem moves_insertReturning {e : Err} {f : F64 → Db → Option (α × Db)} (h₀ : ∀ w, R w w.tick)
    (h : ∀ w a db, f w.now w.db = some (a, db) → R w { w.tick with db }) : (insertReturning e f).Moves R := by
  refine moves_op h₀ fun w => ?_
  simp only [World.tick_now, World.tick_db]
  split
  · rename_i hf
    exact h w _ _ hf
  · exact h₀ w

theorem moves_execute {e : Err} {f : F64 → Db → Option Db} (h₀ : ∀ w, R w w.tick)
    (h : ∀ w db, f w.now w.db = some db → R w { w.tick with db }) : (execute e f).Moves R := by
  refine moves_statement h₀ fun w a db hf => ?_
  obtain ⟨db', hdb, hp⟩ := Option.map_eq_some_iff.1 hf
  cases hp
  exact h w _ hdb

theorem moves_ioWrite {e : Err} {p : ObjectPath} {c : Bytes}
    (h : ∀ w o, R w { w.tick with disk := Function.update w.disk p o }) :
    (ioWrite e p c).Moves R := by
  refine Prog.moves_prim fun w => ?_
  split
  · exact h w _
  · exact h w _

theorem moves_orThrow {e : Err} {o : Option α} : (orThrow e o).Moves R := by
  cases o <;> trivial

end Gw

end A2AGateway
