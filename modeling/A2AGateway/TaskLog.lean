import A2AGateway.World
import Mathlib.Data.List.Sort

/-!
# The task log (`task_log.rs`)

| here | there |
| --- | --- |
| `EntryType`, `TaskStatus`        | `task_log.rs:27-109` |
| `LogEntry`, `LogRow.toEntry`     | `task_log.rs:112-127`, `371-389` |
| `append`, `appendWithStatus`     | `task_log.rs:147-221` |
| `list`, `since`, `headCursor`    | `task_log.rs:242-272` |
| `sign`, `verifyEntry`            | `task_log.rs:276-293` |
| `insertPeerEntry`                | `task_log.rs:298-328` |

`cursor` is an `INTEGER` column: a statement that would store a larger number fails, and as shipped so does one
that reads the column (`Engine`), an `INSERT .. RETURNING cursor` after its row is in. Rows with one cursor come out
in insertion order. The UUID of an entry is a parameter of `append`.
-/

namespace A2AGateway

open Gw

inductive EntryType
  | focus
  | done
  | blocked
  | note
deriving DecidableEq, Repr

def EntryType.asStr : EntryType → String
  | .focus => "focus"
  | .done => "done"
  | .blocked => "blocked"
  | .note => "note"

def EntryType.fromStr (s : String) : EntryType :=
  if s = "done" then .done
  else if s = "blocked" then .blocked
  else if s = "note" then .note
  else .focus

inductive TaskStatus
  | created
  | queued
  | inProgress
  | waitingForInput
  | blocked
  | completed
  | failed
  | cancelled
  | timedOut
  | delegated
deriving DecidableEq, Repr

def TaskStatus.asStr : TaskStatus → String
  | .created => "created"
  | .queued => "queued"
  | .inProgress => "in_progress"
  | .waitingForInput => "waiting_for_input"
  | .blocked => "blocked"
  | .completed => "completed"
  | .failed => "failed"
  | .cancelled => "cancelled"
  | .timedOut => "timed_out"
  | .delegated => "delegated"

def TaskStatus.all : List TaskStatus :=
  [.created, .queued, .inProgress, .waitingForInput, .blocked, .completed, .failed, .cancelled,
   .timedOut, .delegated]

def TaskStatus.fromStr (s : String) : Option TaskStatus := all.find? (·.asStr == s)

theorem EntryType.fromStr_asStr (t : EntryType) : fromStr t.asStr = t := by cases t <;> decide

theorem TaskStatus.fromStr_asStr (t : TaskStatus) : fromStr t.asStr = some t := by cases t <;> decide

structure LogEntry where
  id : String
  projectId : String
  gatewayName : String
  agentName : String
  entryType : EntryType
  content : String
  cursor : Int
  createdAt : F64
  todoId : Option Int
  signature : Option String
  taskStatus : Option TaskStatus
  validFrom : Option F64
  validTo : Option F64
deriving DecidableEq

/-- `impl From<LogRow> for LogEntry`. -/
def LogRow.toEntry (r : LogRow) : LogEntry where
  id := r.id
  projectId := r.projectId
  gatewayName := r.gatewayName
  agentName := r.agentName
  entryType := .fromStr r.entryType
  content := r.content
  cursor := r.cursor
  createdAt := r.createdAt
  todoId := r.todoId
  signature := r.signature
  taskStatus := r.taskStatus.bind TaskStatus.fromStr
  validFrom := r.validFrom
  validTo := r.validTo

/-- The row an entry is written as, under the given project. -/
def LogEntry.toRow (e : LogEntry) (projectId : String) : LogRow where
  id := e.id
  projectId := projectId
  gatewayName := e.gatewayName
  agentName := e.agentName
  entryType := e.entryType.asStr
  content := e.content
  cursor := e.cursor
  createdAt := e.createdAt
  todoId := e.todoId
  signature := e.signature
  taskStatus := e.taskStatus.map (·.asStr)
  validFrom := e.validFrom
  validTo := e.validTo

/-- **An entry is read back as it was written**, but for the project it was put under. -/
theorem LogEntry.toEntry_toRow (e : LogEntry) (projectId : String) :
    (e.toRow projectId).toEntry = { e with projectId } := by
  have hs : (e.taskStatus.map (·.asStr)).bind TaskStatus.fromStr = e.taskStatus := by
    cases e.taskStatus with
    | none => rfl
    | some s => exact TaskStatus.fromStr_asStr s
  simp only [toRow, LogRow.toEntry, EntryType.fromStr_asStr, hs]

namespace TaskLog

/-! ## Signatures -/

/-- `"{id}|{project_id}|{gateway_name}|{content}|{created_at_secs}"`. -/
def canonicalString (id projectId gateway content : String) (ts : F64) : String :=
  s!"{id}|{projectId}|{gateway}|{content}|{ts.asU64}"

section
variable [HmacSha256] (secret : Bytes)

def sign (id projectId gateway content : String) (ts : F64) : String :=
  HmacSha256.hmacHex secret (canonicalString id projectId gateway content ts)

def verifyEntry (entry : LogEntry) : Bool :=
  match entry.signature with
  | none => false
  | some sig =>
    sig == sign secret entry.id entry.projectId entry.gatewayName entry.content entry.createdAt

/-! ## Statements -/

/-- `COALESCE(MAX(cursor), 0)` of a project. -/
def maxCursor (db : Db) (projectId : String) : Int :=
  ((db.taskLog.rows.filter (·.projectId == projectId)).map (·.cursor)).max?.getD 0

/-- `INSERT INTO task_log`, with its column type and its references. -/
def insertRow (row : LogRow) (db : Db) : Option Db :=
  if fitsInteger row.cursor && db.hasProject row.projectId && db.hasTodo row.todoId then
    (db.taskLog.insert row).map fun taskLog => { db with taskLog }
  else none

/-- `INSERT INTO task_log .. ON CONFLICT (id) DO NOTHING`: a row that is not inserted refers to
nothing. -/
def insertRowIgnore (row : LogRow) (db : Db) : Option Db :=
  if fitsInteger row.cursor then
    if db.taskLog.admits row then insertRow row db else some db
  else none

/-- `SELECT * .. WHERE project_id = $1 AND cursor > $2 ORDER BY cursor ASC`. -/
def rowsSince (db : Db) (projectId : String) (afterCursor : Int) : List LogRow :=
  (db.taskLog.rows.filter fun r => r.projectId == projectId && afterCursor < r.cursor).insertionSort
    (·.cursor ≤ ·.cursor)

/-! ## The log's operations -/

def appendWithStatus (id : Uuid) (projectId gatewayName agentName : String) (entryType : EntryType)
    (content : String) (todoId : Option Int) (taskStatus : Option TaskStatus)
    (validTo : Option F64) : Gw LogEntry := do
  let now ← nowSecs
  let entry (cursor : Int) : LogEntry :=
    { id := id.text, projectId, gatewayName, agentName, entryType, content, cursor,
      createdAt := now, todoId, signature := some (sign secret id.text projectId gatewayName content now),
      taskStatus, validFrom := some now, validTo }
  -- The cursor is computed inside the statement.
  let cursor ← insertReturning (.msg "insert log entry") fun _ db =>
    let cursor := maxCursor db projectId + 1
    (insertRow ((entry cursor).toRow projectId) db).map (cursor, ·)
  return entry cursor

def append (id : Uuid) (projectId gatewayName agentName : String) (entryType : EntryType)
    (content : String) (todoId : Option Int) : Gw LogEntry :=
  appendWithStatus secret id projectId gatewayName agentName entryType content todoId none none

def since (projectId : String) (afterCursor : Int) : Gw (List LogEntry) :=
  fetch (.msg "fetch log entries") fun db => db.engine.decodeRows ((rowsSince db projectId afterCursor).map (·.toEntry))

def list (projectId : String) : Gw (List LogEntry) := since projectId 0

def headCursor (projectId : String) : Gw Int :=
  fetch (.msg "head cursor") fun db => db.engine.decode (maxCursor db projectId)

/-- "Does NOT re-sign or generate a new cursor — uses the peer's cursor." -/
def insertPeerEntry (projectId : String) (entry : LogEntry) (_sourceGateway : String) : Gw Unit :=
  execute (.msg "insert peer entry") fun _ db => insertRowIgnore (entry.toRow projectId) db

end

/-! ## One statement at a time -/

section
variable {db db' : Db} {row : LogRow} {projectId : String} {after : Int}

theorem mem_rowsSince {r : LogRow} :
    r ∈ rowsSince db projectId after ↔
      r ∈ db.taskLog.rows ∧ r.projectId = projectId ∧ after < r.cursor := by
  simp [rowsSince]

theorem insertRow_eq_some : insertRow row db = some db' ↔
    fitsInteger row.cursor = true ∧ db.hasProject row.projectId = true ∧
      db.hasTodo row.todoId = true ∧ (∀ x ∈ db.taskLog.rows, x.id ≠ row.id) ∧
      db' = { db with taskLog := db'.taskLog } ∧ db'.taskLog.rows = db.taskLog.rows ++ [row] := by
  unfold insertRow
  split
  · rename_i hc
    simp only [Bool.and_eq_true] at hc
    rw [Option.map_eq_some_iff]
    constructor
    · rintro ⟨t, ht, rfl⟩
      obtain ⟨hid, hr⟩ := Table.insert_eq_some.1 ht
      exact ⟨hc.1.1, hc.1.2, hc.2, fun x hx => by simpa [Constraints.clash] using hid x hx, rfl, hr⟩
    · rintro ⟨-, -, -, hid, hd, hr⟩
      refine ⟨db'.taskLog, Table.insert_eq_some.2 ⟨fun x hx => ?_, hr⟩, hd.symm⟩
      simpa [Constraints.clash] using hid x hx
  · rename_i hc
    simp only [Bool.and_eq_true] at hc
    constructor
    · intro h
      cases h
    · rintro ⟨h₁, h₂, h₃, -⟩
      exact absurd ⟨⟨h₁, h₂⟩, h₃⟩ hc

/-- The row went in, or its id was taken and nothing changed. -/
theorem insertRowIgnore_eq_some (h : insertRowIgnore row db = some db') :
    (∃ x ∈ db.taskLog.rows, x.id = row.id) ∧ db' = db ∨ insertRow row db = some db' := by
  unfold insertRowIgnore at h
  split at h
  · split at h
    · exact Or.inr h
    · rename_i hc
      cases h
      refine Or.inl ⟨?_, rfl⟩
      simpa [Table.admits, Constraints.clash] using hc
  · cases h

/-- A row that fits its columns, whose references are there and whose id is new goes in. -/
theorem insertRow_of_fresh (hfits : fitsInteger row.cursor = true) (hproject : db.hasProject row.projectId = true)
    (htodo : db.hasTodo row.todoId = true) (hid : ∀ x ∈ db.taskLog.rows, x.id ≠ row.id) :
    ∃ db', insertRow row db = some db' := by
  unfold insertRow
  rw [if_pos (by rw [hfits, hproject, htodo]; rfl)]
  cases hinsert : db.taskLog.insert row with
  | some t => exact ⟨_, rfl⟩
  | none =>
    obtain ⟨x, hx, hclash⟩ := Table.insert_eq_none.1 hinsert
    exact absurd (beq_iff_eq.1 hclash) (hid x hx)

theorem insertRowIgnore_of_fresh (hfits : fitsInteger row.cursor = true) (hid : ∀ x ∈ db.taskLog.rows, x.id ≠ row.id) :
    insertRowIgnore row db = insertRow row db := by
  have hadmits : db.taskLog.admits row = true := Table.admits_iff.2 fun x hx => by simpa [Constraints.clash] using hid x hx
  unfold insertRowIgnore
  rw [if_pos hfits, if_pos hadmits]

/-! ## Reads of the log -/

variable {secret : Bytes} {w w' : World}

theorem since_iff {entries : List LogEntry} : (since projectId after).exec w = (.ok entries, w') ↔
    Passes w ∧ (entries = (rowsSince w.db projectId after).map (·.toEntry) ∧
      (w.db.engine.integers = .refused → rowsSince w.db projectId after = [])) ∧ w' = w.tick := by
  rw [since, exec_fetch_iff, Engine.decodeRows_eq_some, List.map_eq_nil_iff]

theorem headCursor_iff {head : Int} : (headCursor projectId).exec w = (.ok head, w') ↔
    Passes w ∧ (w.db.engine.integers = .widened ∧ maxCursor w.db projectId = head) ∧ w' = w.tick := by
  rw [headCursor, exec_fetch_iff, Engine.decode_eq_some]

theorem since_calm (hw : w.faults = []) (h : w.db.engine.integers = .refused → rowsSince w.db projectId after = []) :
    (since projectId after).exec w = (.ok ((rowsSince w.db projectId after).map (·.toEntry)), w) :=
  exec_fetch_of_some hw (Engine.decodeRows_eq_some.2 ⟨rfl, fun hrefused => by rw [h hrefused]; rfl⟩)

theorem headCursor_calm (hw : w.faults = []) (h : w.db.engine.integers = .widened) :
    (headCursor projectId).exec w = (.ok (maxCursor w.db projectId), w) :=
  exec_fetch_of_some hw (Engine.decode_widened h _)

/-- **As shipped a log with something to hand out is an error.** -/
theorem since_refused (h : w.db.engine.integers = .refused) (hrows : rowsSince w.db projectId after ≠ []) :
    (since projectId after).exec w = (.error (.msg "fetch log entries"), w.tick) := by
  refine exec_fetch_of_none (Option.eq_none_iff_forall_ne_some.2 fun entries he => hrows ?_)
  exact List.map_eq_nil_iff.1 ((Engine.decodeRows_eq_some.1 he).2 h)

theorem headCursor_refused (h : w.db.engine.integers = .refused) :
    (headCursor projectId).exec w = (.error (.msg "head cursor"), w.tick) :=
  exec_fetch_of_none (Engine.decode_refused h _)

end

/-! ## Signed rows -/

section
variable [HmacSha256] {secret : Bytes}

/-- The row's signature is that of its own fields, under the project it is stored under. -/
def Signed (secret : Bytes) (r : LogRow) : Prop :=
  r.signature = some (sign secret r.id r.projectId r.gatewayName r.content r.createdAt)

theorem verifyEntry_toEntry (r : LogRow) : verifyEntry secret r.toEntry = true ↔ Signed secret r := by
  unfold Signed
  cases hs : r.signature with
  | none => simp [verifyEntry, LogRow.toEntry, hs]
  | some sig => simp [verifyEntry, LogRow.toEntry, hs]

omit [HmacSha256] in
/-- The project id is part of what is signed. -/
theorem canonicalString_projectId_inj {id p p' gateway content : String} {ts : F64}
    (h : canonicalString id p gateway content ts = canonicalString id p' gateway content ts) : p = p' := by
  have hl := congrArg String.toList h
  simp only [canonicalString, String.toList_append, List.append_left_inj] at hl
  exact String.toList_inj.1 (by simpa [ToString.toString] using hl)

/-! ## How `append` ends -/

/-- The row that `append` writes at the given time. -/
def appendRow (secret : Bytes) (id : Uuid) (projectId gatewayName agentName : String) (entryType : EntryType)
    (content : String) (todoId : Option Int) (now : F64) (db : Db) : LogRow where
  id := id.text
  projectId := projectId
  gatewayName := gatewayName
  agentName := agentName
  entryType := entryType.asStr
  content := content
  cursor := maxCursor db projectId + 1
  createdAt := now
  todoId := todoId
  signature := some (sign secret id.text projectId gatewayName content now)
  taskStatus := none
  validFrom := some now
  validTo := none

/-- The row that `append_with_status` writes. -/
def statusRow (secret : Bytes) (id : Uuid) (projectId gatewayName agentName : String) (entryType : EntryType)
    (content : String) (todoId : Option Int) (taskStatus : Option TaskStatus) (validTo : Option F64) (now : F64)
    (db : Db) : LogRow :=
  { appendRow secret id projectId gatewayName agentName entryType content todoId now db with
    taskStatus := taskStatus.map (·.asStr), validTo }

variable {id : Uuid} {projectId gatewayName agentName : String} {entryType : EntryType} {content : String}
  {todoId : Option Int} {now : F64} {w : World}

theorem signed_appendRow {db : Db} :
    Signed secret (appendRow secret id projectId gatewayName agentName entryType content todoId now db) := rfl

omit [HmacSha256] in
/-- An append takes the state where its statement does. -/
theorem moves_append [HmacSha256] {R : World → World → Prop} (h₀ : ∀ w, R w w) (ht : ∀ w, R w w.tick)
    (hins : ∀ w row db, insertRow row w.db = some db → R w { w.tick with db }) :
    (append secret id projectId gatewayName agentName entryType content todoId).Moves R := by
  unfold append appendWithStatus
  simp only [Prog.bind_eq]
  apply Prog.Moves.bind (Prog.moves_look h₀ _)
  intro now
  apply Prog.Moves.bind
  · apply moves_insertReturning ht
    intro w cursor db hf
    obtain ⟨db', hdb, hpair⟩ := Option.map_eq_some_iff.1 hf
    cases hpair
    exact hins w _ _ hdb
  · intro cursor
    trivial

/-- The row went in, or the database is as it was. -/
theorem exec_appendWithStatus_cases {taskStatus : Option TaskStatus} {validTo : Option F64} :
    ((appendWithStatus secret id projectId gatewayName agentName entryType content todoId taskStatus validTo).exec w).2 =
        w.tick ∨
      ∃ db, insertRow (statusRow secret id projectId gatewayName agentName entryType content todoId taskStatus validTo
          w.now w.db) w.db = some db ∧
        ((appendWithStatus secret id projectId gatewayName agentName entryType content todoId taskStatus validTo).exec w).2 =
          { w.tick with db } := by
  simp only [appendWithStatus, nowSecs, Prog.bind_eq]
  rw [Prog.exec_bind_of_ok (Prog.exec_look _ w)]
  rcases exec_insertReturning_cases (.msg "insert log entry") _ w with h | ⟨cursor, db, hf, h⟩
  · rw [Prog.exec_bind_of_error h]
    exact Or.inl rfl
  · obtain ⟨_, hins, hdb⟩ := Option.map_eq_some_iff.1 hf
    cases hdb
    refine Or.inr ⟨_, hins, ?_⟩
    -- The row stays, whether or not its cursor is read.
    cases hd : w.db.engine.integers with
    | refused =>
      rw [Engine.decode_refused hd] at h
      rw [Prog.exec_bind_of_error h]
    | widened =>
      rw [Engine.decode_widened hd] at h
      rw [Prog.exec_bind_of_ok h]
      rfl

/-- **As shipped no append succeeds**, whether or not its row went in. -/
theorem appendWithStatus_refused {taskStatus : Option TaskStatus} {validTo : Option F64} (h : w.db.engine.integers = .refused)
    (entry : LogEntry) :
    ((appendWithStatus secret id projectId gatewayName agentName entryType content todoId taskStatus validTo).exec w).1 ≠
      .ok entry := by
  intro hok
  obtain ⟨_, w₁, hnow, hrest⟩ := Prog.exec_bind_ok.1 (Prod.ext hok rfl)
  cases hnow
  obtain ⟨cursor, w₂, hinsert, -⟩ := Prog.exec_bind_ok.1 hrest
  have hwidened := (exec_insertReturning_iff.1 hinsert).1
  rw [h] at hwidened
  cases hwidened

theorem exec_append_cases :
    ((append secret id projectId gatewayName agentName entryType content todoId).exec w).2 = w.tick ∨
      ∃ db, insertRow (appendRow secret id projectId gatewayName agentName entryType content todoId w.now w.db) w.db =
          some db ∧
        ((append secret id projectId gatewayName agentName entryType content todoId).exec w).2 = { w.tick with db } :=
  exec_appendWithStatus_cases

theorem exec_append_calm (hw : w.faults = []) {db : Db}
    (h : insertRow (appendRow secret id projectId gatewayName agentName entryType content todoId w.now w.db) w.db =
      some db) :
    ((append secret id projectId gatewayName agentName entryType content todoId).exec w).2 = { w with db } := by
  have hinsert := exec_insertReturning_of_some (e := .msg "insert log entry")
    (f := fun _ db => (insertRow (appendRow secret id projectId gatewayName agentName entryType content todoId w.now db) db).map
      (maxCursor db projectId + 1, ·)) hw (Option.map_eq_some_iff.2 ⟨db, h, rfl⟩)
  simp only [append, appendWithStatus, nowSecs, Prog.bind_eq]
  rw [Prog.exec_bind_of_ok (Prog.exec_look _ w)]
  cases hd : w.db.engine.integers with
  | refused =>
    rw [Engine.decode_refused hd] at hinsert
    exact congrArg Prod.snd (Prog.exec_bind_of_error hinsert)
  | widened =>
    rw [Engine.decode_widened hd] at hinsert
    exact congrArg Prod.snd (Prog.exec_bind_of_ok hinsert)

end

end TaskLog

end A2AGateway
