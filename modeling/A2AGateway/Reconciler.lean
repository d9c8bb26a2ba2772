import A2AGateway.AgentDirectory
import A2AGateway.Onboarding

/-!
# The reconciler (`reconciler.rs`)

| here | there |
| --- | --- |
| `openTodos`, `byTask`          | `reconciler.rs:82-98` |
| `reconcileTask`                | `reconciler.rs:105-149`, one round of the loop |
| `agentHasCapability`           | `reconciler.rs:154-167` |
| `upsertProjectTodo`            | `reconciler.rs:169-193` |
| `writeTodoMd`                  | `reconciler.rs:195-224` |
| `runOnce`, `spawn`             | `reconciler.rs:53-77` |

`str::to_lowercase` and the collation of the database are parameters, and so is the order in which a `HashMap`
is walked through. The `BIGSERIAL` id of a new row is above all that are there. What is published is recorded;
whether the bus delivers it is left open.
-/

namespace A2AGateway

open Gw

class Lowercase where
  toLowercase : String → String

/-- The `<=` on texts that `ORDER BY` goes by. -/
class Collation where
  le : String → String → Bool

/-- The call of `publish_task_assigned`. -/
structure TaskAssigned where
  agentName : String
  projectId : String
  task : String
  todoId : Option Int
deriving DecidableEq

/-- The gateway, what has been published, and `todo.md`. -/
structure Board where
  world : World
  published : List TaskAssigned
  todoMd : Option String

def Board.gateway : Prog.Focus Board World where
  get b := b.world
  set w b := { b with world := w }
  get_set _ _ := rfl
  set_get _ := rfl
  set_set _ _ _ := rfl

namespace Reconciler

/-- A task text, and the agents and todos that have it. -/
abbrev Group := Sigma fun _ : String => List (String × Int)

/-- The order in which a `HashMap` yields its entries. -/
structure Iteration where
  arrange : List Group → List Group
  perm : ∀ l, (arrange l).Perm l

section
variable [Lowercase] [Collation]

def normaliseTask (s : String) : String := Lowercase.toLowercase (trim s)

/-- `ORDER BY task, id` -/
def before (a b : Todo) : Bool := if a.task = b.task then a.id ≤ b.id else Collation.le a.task b.task

/-- `SELECT agent_name, task, id FROM todos WHERE status != 'done' ORDER BY task, id`. -/
def openTodos (db : Db) : List Todo := (db.todos.rows.filter (·.status != "done")).insertionSort fun a b => before a b

/-- "Group by normalised task text". -/
def byTask (rows : List Todo) : AList fun _ : String => List (String × Int) :=
  rows.foldl (fun groups row =>
    groups.insert (normaliseTask row.task) (((groups.lookup (normaliseTask row.task)).getD []) ++ [(row.agentName, row.id)])) ∅

/-- `str::contains` -/
def contains (s piece : String) : Bool := s.toList.tails.any fun rest => piece.toList.isPrefixOf rest

/-- An agent that is not there has no capabilities, nor has one whose capabilities cannot be read. -/
def hasCapability [SerdeStrings] (db : Db) (agent task : String) : Bool :=
  match Registry.rowNamed agent db with
  | some row => ((SerdeStrings.fromText row.capabilities).getD []).any fun c =>
      contains (Lowercase.toLowercase task) (Lowercase.toLowercase c)
  | none => false

end

/-- `serde_json::to_string` of the ids. -/
def sourceJson (ids : List Int) : String := "[" ++ ",".intercalate (ids.map toString) ++ "]"

/-- The next value of the sequence. -/
def nextId (db : Db) : Int := (db.projectTodos.rows.map (·.id)).foldr max 0 + 1

/-- `INSERT INTO project_todos .. ON CONFLICT DO NOTHING`; the task of a row that goes in is indexed. -/
def insertProjectTodo (row : ProjectTodo) (db : Db) : Option Db :=
  if db.projectTodos.admits row && !db.engine.indexes [row.task] then none
  else some { db with projectTodos := db.projectTodos.insertIgnore row }

theorem insertProjectTodo_eq_some {row : ProjectTodo} {db db' : Db} (h : insertProjectTodo row db = some db') :
    db' = { db with projectTodos := db.projectTodos.insertIgnore row } := by
  unfold insertProjectTodo at h
  split at h
  · cases h
  · cases h
    rfl

/-- The task can have a row: it has one, or its key is indexed. -/
def Storable (db : Db) (task : String) : Prop :=
  db.engine.indexes [task] = true ∨ ∃ row ∈ db.projectTodos.rows, row.task = task

instance (db : Db) (task : String) : Decidable (Storable db task) := inferInstanceAs (Decidable (_ ∨ _))

theorem insertProjectTodo_of_storable {row : ProjectTodo} {db : Db} (h : Storable db row.task) :
    insertProjectTodo row db = some { db with projectTodos := db.projectTodos.insertIgnore row } := by
  refine if_neg ?_
  rcases h with hkey | ⟨x, hx, htask⟩
  · simp [hkey]
  · -- The row that is there stands against the new one.
    intro hadmits
    rw [Bool.and_eq_true, Table.admits_iff] at hadmits
    have hclash := hadmits.1 x hx
    simp [Constraints.clash, htask] at hclash

def upsertProjectTodo (task : String) (assignedTo : Option String) (status notes : String) (sourceIds : List Int)
    (now : String) : Gw Unit :=
  execute .sqlx fun _ db => insertProjectTodo
    { id := nextId db
      task
      assignedTo
      status
      notes
      sourceTodos := sourceJson sourceIds
      createdAt := now
      updatedAt := now } db

/-- "merged from .. agents: .." -/
def mergedNotes (owners : List String) : String :=
  let names := ", ".intercalate owners
  s!"merged from {owners.length} agents: {names}"

def mismatchNotes : String := "capability mismatch — review required"

def publishTaskAssigned (agentName projectId task : String) (todoId : Option Int) : Prog Board Err Unit :=
  Prog.act (fun b => ((), { b with published := b.published ++ [⟨agentName, projectId, task, todoId⟩] })) Prog.ret

/-- What has been done so far: merged, assigned, flagged. -/
structure Counts where
  merged : Nat := 0
  assigned : Nat := 0
  flagged : Nat := 0
deriving DecidableEq

section
variable [Lowercase] [SerdeStrings]

def agentHasCapability (agent task : String) : Gw Bool := query .sqlx fun db => hasCapability db agent task

/-- One task. A `HashMap` entry is made with its first todo, so there is one. -/
def reconcileTask (now task : String) (entries : List (String × Int)) (counts : Counts) : Prog Board Err Counts :=
  match entries with
  | [] => Prog.fail .panic
  | [(agent, id)] => do
    if ← (agentHasCapability agent task).within Board.gateway then
      (upsertProjectTodo task (some agent) "pending" "" [id] now).within Board.gateway
      publishTaskAssigned agent "global" task (some id)
      return { counts with assigned := counts.assigned + 1 }
    else
      (upsertProjectTodo task (some agent) "flagged" mismatchNotes [id] now).within Board.gateway
      return { counts with flagged := counts.flagged + 1 }
  | first :: second :: rest => do
    let owners := (first :: second :: rest).map (·.1)
    let sourceIds := (first :: second :: rest).map (·.2)
    (upsertProjectTodo task (some first.1) "pending" (mergedNotes owners) sourceIds now).within Board.gateway
    return { counts with merged := counts.merged + 1 }

def reconcileAll (now : String) : List Group → Counts → Prog Board Err Counts
  | [], counts => return counts
  | g :: gs, counts => do
    let counts ← reconcileTask now g.1 g.2 counts
    reconcileAll now gs counts

/-- `reconcile_todos` -/
def reconcileTodos [Collation] (order : Iteration) (now : String) : Prog Board Err Counts := do
  let rows ← (query .sqlx openTodos).within Board.gateway
  reconcileAll now (order.arrange (byTask rows).entries) {}

end

def todoIcon (status : String) : String := if status = "done" then "✅" else if status = "flagged" then "⚠️" else "⬜"

def todoLine (row : ProjectTodo) : String :=
  let owner := row.assignedTo.getD "unassigned"
  s!"- {todoIcon row.status} **{row.task}**  `{owner}`\n" ++ if row.notes = "" then "" else s!"  _{row.notes}_\n"

def todoMdText (rows : List ProjectTodo) : String :=
  "# Project TODO\n\n_Generated by a2a-gateway reconciler._\n\n" ++ String.join (rows.map todoLine)

/-- A file that could not be written is only worth a warning; as much of it as was written is there. -/
def writeFile (md : String) : Prog Board Err Unit :=
  Prog.act (fun b => ((), match b.world.faults.head? with
    | some (some n) => { b with world := b.world.tick, todoMd := some (String.ofList (md.toList.take n)) }
    | _ => { b with world := b.world.tick, todoMd := some md })) Prog.ret

def writeTodoMd : Prog Board Err Unit := do
  let rows ← (query .sqlx fun db => db.projectTodos.rows.insertionSort (·.id ≤ ·.id)).within Board.gateway
  writeFile (todoMdText rows)

def runOnce [Lowercase] [SerdeStrings] [Collation] (order : Iteration) (now : String) : Prog Board Err Unit := do
  let _ ← reconcileTodos order now
  writeTodoMd

/-- `spawn`, for so many rounds; a pass that fails is only worth a warning. -/
def spawn [Lowercase] [SerdeStrings] [Collation] : List (Iteration × String) → Prog Board Err Unit
  | [] => return ()
  | (order, now) :: rest => do
    let _ ← (runOnce order now).attempt
    spawn rest

/-! ## Statements that nothing disturbs -/

section
variable {b : Board} (hcalm : b.world.faults = [])
include hcalm

theorem exec_query_calm {α : Type} (f : Db → α) :
    ((query .sqlx f).within Board.gateway).exec b = (.ok (f b.world.db), Board.gateway.set b.world.tick b) := by
  refine Prog.exec_within_ok.2 ⟨_, exec_query_iff.2 ⟨?_, rfl, rfl⟩, rfl⟩
  simp [Passes, Board.gateway, hcalm]

theorem exec_upsertProjectTodo_calm (task : String) (assignedTo : Option String) (status notes : String) (ids : List Int) (now : String)
    (hkey : Storable b.world.db task) :
    ∃ w, ((upsertProjectTodo task assignedTo status notes ids now).within Board.gateway).exec b = (.ok (), Board.gateway.set w b) ∧
      w.faults = [] := by
  have hinsert := @insertProjectTodo_of_storable ⟨nextId b.world.db, task, assignedTo, status, notes, sourceJson ids, now, now⟩ _
    hkey
  refine ⟨_, Prog.exec_within_ok.2 ⟨_, exec_execute_iff.2 ⟨?_, _, hinsert, rfl⟩, rfl⟩, World.tick_faults hcalm⟩
  simp [Passes, Board.gateway, hcalm]

end

/-! ## A small gateway -/

namespace DemoReconciler

/-- Lower case of ASCII texts. -/
@[reducible] def ascii : Lowercase := ⟨fun s => String.ofList (s.toList.map (·.toLower))⟩

@[reducible] def byCodePoint : Collation := ⟨fun a b => !b.toList.lex a.toList fun c d => decide (c.toNat < d.toNat)⟩

@[reducible] def serde : SerdeStrings := .recorded [([], "[]"), (["search"], "[\"search\"]")]

/-- `agent-a` with the given capabilities, and its todo. -/
def db (capabilities : String) (projectTodos : Table ProjectTodo) : Db :=
  { Db.empty with
    agents := Table.empty.insertIgnore ⟨"agent-a", "0.1.0", "http://agent-a:8080", capabilities, "", none, "2026-01-01T00:00:00Z"⟩
    todos := Table.empty.insertIgnore ⟨1, "agent-a", "Search for papers", "pending", "", "2026-01-01T00:00:00Z", none⟩
    projectTodos }

def board (capabilities : String) (projectTodos : Table ProjectTodo) : Board :=
  ⟨{ World.fresh with db := db capabilities projectTodos }, [], none⟩

/-- The map as it is. -/
def order : Iteration := ⟨fun l => l, fun _ => .refl _⟩

end DemoReconciler

end Reconciler

end A2AGateway
