import A2AGateway.Lib.Loops
import A2AGateway.Lib.Sorting
import A2AGateway.World

/-!
# The todos of an agent (`identity.rs:93-159`)

| here | there |
| --- | --- |
| `appendTodo`, `completeTodo` | `identity.rs:93-125` |
| `listTodos`                  | `identity.rs:127-159`, with the columns of `TodoRow` |

A todo is an annotated entry: "annotated, never deleted" (`001_init.sql:18`), "Annotate + timestamp — the row is
NEVER deleted" (`identity.rs:109`), with the notes an "annotation (never deleted)" (`local.proto:127`). No call
deletes a row. But the `UPDATE` of `complete_todo` does not look at the status: a todo that is completed once more
gets the notes and the time of the last completion in place of its own (`audit_trail_iff`).

Each call is one statement, so calls side by side are calls one after the other.
-/

namespace A2AGateway

open Gw

/-- `identity.rs`, `TodoRow`. -/
structure TodoRow where
  id : Int
  task : String
  status : String
  notes : String
  createdAt : String
  completedAt : Option String
deriving DecidableEq

def Todo.row (t : Todo) : TodoRow where
  id := t.id
  task := t.task
  status := t.status
  notes := t.notes
  createdAt := t.createdAt
  completedAt := t.completedAt

namespace IdentityStore

/-- The `INSERT`: a `pending` todo of an agent that is there, with the next id. -/
def insertTodo (agentName task now : String) (skipped : Nat) (db : Db) : Option (Int × Db) := do
  let id ← Table.serial (db.todos.rows.map (·.id)) skipped
  let todos ← db.todos.insert { id, agentName, task, status := "pending", notes := "", createdAt := now, completedAt := none }
  if db.hasAgent agentName then some (id, { db with todos }) else none

/-- `skipped` counts the ids that failed attempts have used up. -/
def appendTodo (agentName task now : String) (skipped : Nat) : Gw Int :=
  statement .sqlx fun _ db => insertTodo agentName task now skipped db

/-- What the `UPDATE` makes of the row with the id. -/
def finish (notes now : String) (t : Todo) : Todo := { t with status := "done", notes, completedAt := some now }

def finishTodos (id : Int) (notes now : String) (db : Db) : Db :=
  { db with todos := db.todos.update (·.id == id) (finish notes now) fun _ _ => rfl }

def completeTodo (id : Int) (notes now : String) : Gw Unit := do
  let rowsAffected ← statement .sqlx fun _ db =>
    some ((db.todos.rows.filter (·.id == id)).length, finishTodos id notes now db)
  if rowsAffected = 0 then throw (.msg s!"todo {id} not found") else return ()

def listTodos (agentName : String) (includeDone : Bool) : Gw (List TodoRow) := do
  let rows ←
    if includeDone then
      query .sqlx fun db => (db.todos.rows.filter fun t => t.agentName == agentName).insertionSort (·.id ≤ ·.id)
    else
      query .sqlx fun db =>
        (db.todos.rows.filter fun t => t.agentName == agentName && t.status != "done").insertionSort (·.id ≤ ·.id)
  return rows.map Todo.row

end IdentityStore

/-! ## Runs -/

/-- A call on the todos, or whatever else becomes of the gateway. -/
inductive TodoCall
  | append (agentName task now : String) (skipped : Nat)
  | complete (id : Int) (notes now : String)
  | elsewhere (w : World)

/-- The state after the call. Nothing but the calls writes the todos. -/
def TodoCall.apply (w : World) : TodoCall → World
  | .append agentName task now skipped => ((IdentityStore.appendTodo agentName task now skipped).exec w).2
  | .complete id notes now => ((IdentityStore.completeTodo id notes now).exec w).2
  | .elsewhere w' => { w' with db := { w'.db with todos := w.db.todos } }

def afterCalls (w : World) (calls : List TodoCall) : World := calls.foldl TodoCall.apply w

/-- No todo is gone, and those that were done say what they said. -/
structure FinishedStay (w w' : World) : Prop where
  kept : ∀ t ∈ w.db.todos.rows, ∃ t' ∈ w'.db.todos.rows, t'.id = t.id
  frozen : ∀ t ∈ w.db.todos.rows, t.status = "done" → ∃ t' ∈ w'.db.todos.rows, t'.id = t.id ∧ t'.status = "done" ∧
    t'.task = t.task ∧ t'.notes = t.notes ∧ t'.completedAt = t.completedAt

/-- The list of what is open is the list of everything, less what is done. -/
def ListsOpen (w : World) : Prop :=
  ∀ agentName opened w₁ all w₂, (IdentityStore.listTodos agentName false).exec w = (.ok opened, w₁) →
    (IdentityStore.listTodos agentName true).exec w = (.ok all, w₂) → opened = all.filter (·.status != "done")

/-- In every state of the run, and from there to any later one. -/
def AuditTrail (w : World) (calls : List TodoCall) : Prop :=
  ∀ before between rest, calls = before ++ between ++ rest →
    FinishedStay (afterCalls w before) (afterCalls w (before ++ between)) ∧ ListsOpen (afterCalls w (before ++ between))

/-- A completion that takes effect brings nothing new to a todo that is done. -/
def CompletesOnce (w : World) : TodoCall → Prop
  | .complete id notes now => Passes w → ∀ t ∈ w.db.todos.rows, t.id = id → t.status = "done" →
      t.notes = notes ∧ t.completedAt = some now
  | _ => True

/-! ## Each call -/

section
variable {w w' : World} {calls : List TodoCall}

/-- An append puts a todo behind the others, if anything. -/
theorem todos_append (agentName task now : String) (skipped : Nat) (w : World) :
    (TodoCall.apply w (.append agentName task now skipped)).db.todos = w.db.todos ∨
      ∃ t, (TodoCall.apply w (.append agentName task now skipped)).db.todos.rows = w.db.todos.rows ++ [t] := by
  rcases exec_statement_cases .sqlx (fun _ db => IdentityStore.insertTodo agentName task now skipped db) w with
    h | ⟨id, db, hins, h⟩
  · left
    simp only [TodoCall.apply, IdentityStore.appendTodo, h]
    rfl
  · right
    simp only [TodoCall.apply, IdentityStore.appendTodo, h]
    simp only [IdentityStore.insertTodo, Option.bind_eq_bind, Option.bind_eq_some_iff] at hins
    obtain ⟨_, -, todos, htodos, hins⟩ := hins
    split at hins <;> cases hins
    exact ⟨_, (Table.insert_eq_some.1 htodos).2⟩

/-- A completion that gets through finishes the todo with the id, found or not. -/
theorem db_complete (id : Int) (notes now : String) (w : World) :
    (TodoCall.apply w (.complete id notes now)).db =
      if Passes w then IdentityStore.finishTodos id notes now w.db else w.db := by
  simp only [TodoCall.apply, IdentityStore.completeTodo, Prog.bind_eq, Prog.exec_bind]
  by_cases hp : Passes w
  · rw [if_pos hp, exec_statement_iff.2 ⟨hp, _, rfl, rfl⟩]
    simp only
    split <;> rfl
  · rw [if_neg hp, exec_statement_of_not_passes hp]
    rfl

/-! ## What stays -/

theorem FinishedStay.refl (w : World) : FinishedStay w w :=
  ⟨fun t ht => ⟨t, ht, rfl⟩, fun t ht hdone => ⟨t, ht, rfl, hdone, rfl, rfl, rfl⟩⟩

theorem FinishedStay.trans {a b c : World} (h : FinishedStay a b) (h' : FinishedStay b c) : FinishedStay a c := by
  refine ⟨fun t ht => ?_, fun t ht hdone => ?_⟩
  · obtain ⟨t₁, ht₁, hid₁⟩ := h.kept t ht
    obtain ⟨t₂, ht₂, hid₂⟩ := h'.kept t₁ ht₁
    exact ⟨t₂, ht₂, hid₂.trans hid₁⟩
  · obtain ⟨t₁, ht₁, hid₁, hdone₁, htask₁, hnotes₁, hat₁⟩ := h.frozen t ht hdone
    obtain ⟨t₂, ht₂, hid₂, hdone₂, htask₂, hnotes₂, hat₂⟩ := h'.frozen t₁ ht₁ hdone₁
    exact ⟨t₂, ht₂, hid₂.trans hid₁, hdone₂, htask₂.trans htask₁, hnotes₂.trans hnotes₁, hat₂.trans hat₁⟩

theorem FinishedStay.of_subset (h : ∀ t ∈ w.db.todos.rows, t ∈ w'.db.todos.rows) : FinishedStay w w' :=
  ⟨fun t ht => ⟨t, h t ht, rfl⟩, fun t ht hdone => ⟨t, h t ht, rfl, hdone, rfl, rfl, rfl⟩⟩

/-- **No call loses a todo, and one that completes nothing twice leaves what is done as it is.** -/
theorem FinishedStay.apply {c : TodoCall} (h : CompletesOnce w c) : FinishedStay w (c.apply w) := by
  cases c with
  | append agentName task now skipped =>
    apply of_subset
    rcases todos_append agentName task now skipped w with hsame | ⟨t, hrows⟩
    · rw [hsame]
      exact fun t ht => ht
    · rw [hrows]
      exact fun t ht => List.mem_append_left _ ht
  | complete id notes now =>
    by_cases hp : Passes w
    · have hrows : ((TodoCall.complete id notes now).apply w).db.todos.rows =
          w.db.todos.rows.map fun t => if t.id == id then IdentityStore.finish notes now t else t := by
        rw [db_complete, if_pos hp]
        rfl
      refine ⟨fun t ht => ?_, fun t ht hdone => ?_⟩
      · refine ⟨_, hrows ▸ List.mem_map_of_mem ht, ?_⟩
        by_cases hid : t.id = id <;> simp [hid, IdentityStore.finish]
      · refine ⟨_, hrows ▸ List.mem_map_of_mem ht, ?_⟩
        by_cases hid : t.id = id
        · obtain ⟨hnotes, hat⟩ := h hp t ht hid hdone
          simp [hid, IdentityStore.finish, hnotes, hat]
        · simp [hid, hdone]
    · apply of_subset
      rw [db_complete, if_neg hp]
      exact fun t ht => ht
  | elsewhere w' => exact of_subset fun t ht => ht

/-- A completion that leaves what is done as it is has brought nothing new to it. -/
theorem CompletesOnce.of_stay {c : TodoCall} (h : FinishedStay w (c.apply w)) : CompletesOnce w c := by
  cases c with
  | append agentName task now skipped => trivial
  | elsewhere w' => trivial
  | complete id notes now =>
    intro hp t ht hid hdone
    obtain ⟨t', ht', hid', -, -, hnotes, hat⟩ := h.frozen t ht hdone
    have hfinished : IdentityStore.finish notes now t ∈ ((TodoCall.complete id notes now).apply w).db.todos.rows := by
      rw [db_complete, if_pos hp]
      exact List.mem_map.2 ⟨t, ht, by simp [hid]⟩
    obtain rfl : t' = IdentityStore.finish notes now t :=
      Table.eq_of_clash _ ht' hfinished (by simp [Constraints.clash, hid', IdentityStore.finish])
    exact ⟨hnotes.symm, hat.symm⟩

/-- What is listed: of the agent's todos all, or those that are not done, by id. -/
theorem exec_listTodos_ok {agentName : String} {includeDone : Bool} {rows : List TodoRow}
    (h : (IdentityStore.listTodos agentName includeDone).exec w = (.ok rows, w')) :
    rows = ((w.db.todos.rows.filter fun t => t.agentName == agentName && (includeDone || t.status != "done")).insertionSort
      (·.id ≤ ·.id)).map Todo.row := by
  by_cases hp : Passes w
  · cases includeDone with
    | false =>
      simp only [IdentityStore.listTodos, Prog.bind_eq, Prog.exec_bind, Bool.false_eq_true, if_false,
        exec_query_iff.2 ⟨hp, rfl, rfl⟩] at h
      cases h
      simp
    | true =>
      simp only [IdentityStore.listTodos, Prog.bind_eq, Prog.exec_bind, if_true, exec_query_iff.2 ⟨hp, rfl, rfl⟩] at h
      cases h
      simp
  · cases includeDone <;>
      simp [IdentityStore.listTodos, Prog.exec_bind, exec_query_of_not_passes hp] at h

/-- The two queries read the same rows in the same order. -/
theorem listsOpen (w : World) : ListsOpen w := by
  intro agentName opened w₁ all w₂ hopened hall
  rw [exec_listTodos_ok hopened, exec_listTodos_ok hall, List.filter_map]
  have hsplit := Sorting.filter_insertionSort (fun t : Todo => t.status != "done") (r := (·.id ≤ ·.id))
    (fun a b => Int.le_total a.id b.id) (fun a b c => Int.le_trans)
    (w.db.todos.rows.filter fun t => t.agentName == agentName)
  rw [List.filter_filter] at hsplit
  simp only [Bool.true_or, Bool.and_true, Bool.false_or]
  rw [show (fun r : TodoRow => r.status != "done") ∘ Todo.row = fun t : Todo => t.status != "done" from rfl, hsplit]
  simp only [Bool.and_comm]

/-- **Finished todos stay as they are, no todo is lost, and the list of what is open is the rest of the list, if
and only if no todo is completed anew with other notes or at another time.** -/
theorem audit_trail_iff {w : World} {calls : List TodoCall} : AuditTrail w calls ↔
    ∀ before c rest, calls = before ++ c :: rest → CompletesOnce (afterCalls w before) c := by
  constructor
  · intro h before c rest hcalls
    apply CompletesOnce.of_stay
    simpa [afterCalls] using (h before [c] rest (by simp [hcalls])).1
  · intro h before between rest hcalls
    refine ⟨?_, listsOpen _⟩
    unfold afterCalls
    rw [List.foldl_append]
    refine Loops.foldl_rel FinishedStay.refl FinishedStay.trans between _ fun mid c after hbetween => ?_
    have honce := h (before ++ mid) c (after ++ rest) (by simp [hcalls, hbetween])
    rw [afterCalls, List.foldl_append] at honce
    exact FinishedStay.apply honce

end

/-! ## A todo completed by two agents -/

namespace DemoTodos

def world : World :=
  { World.fresh with db := { Db.empty with
      agents := Table.empty.insertIgnore ⟨"agent-a", "0.1.0", "http://agent-a:8080", "[]", "", none, "2026-01-01T00:00:00Z"⟩ } }

/-- The todo is appended, and completed twice. -/
def calls : List TodoCall :=
  [.append "agent-a" "Write tests" "2026-01-01T00:00:00Z" 0, .complete 1 "all green" "2026-01-02T00:00:00Z",
    .complete 1 "" "2026-01-03T00:00:00Z"]

def done (notes completedAt : String) : Todo := ⟨1, "agent-a", "Write tests", "done", notes, "2026-01-01T00:00:00Z", some completedAt⟩

end DemoTodos

/-- **The second completion wipes out the notes of the first.** -/
theorem completion_overwritten :
    (afterCalls DemoTodos.world (DemoTodos.calls.take 2)).db.todos.rows = [DemoTodos.done "all green" "2026-01-02T00:00:00Z"] ∧
      (afterCalls DemoTodos.world DemoTodos.calls).db.todos.rows = [DemoTodos.done "" "2026-01-03T00:00:00Z"] ∧
      ¬ AuditTrail DemoTodos.world DemoTodos.calls := by
  have hfirst : (afterCalls DemoTodos.world (DemoTodos.calls.take 2)).db.todos.rows =
      [DemoTodos.done "all green" "2026-01-02T00:00:00Z"] := by decide +kernel
  have hsecond : (afterCalls DemoTodos.world DemoTodos.calls).db.todos.rows =
      [DemoTodos.done "" "2026-01-03T00:00:00Z"] := by decide +kernel
  refine ⟨hfirst, hsecond, fun h => ?_⟩
  have hstay := (h (DemoTodos.calls.take 2) (DemoTodos.calls.drop 2) [] (by simp)).1
  rw [List.take_append_drop] at hstay
  obtain ⟨t, ht, -, -, -, hnotes, -⟩ := hstay.frozen (DemoTodos.done "all green" "2026-01-02T00:00:00Z")
    (by simp [hfirst]) rfl
  rw [hsecond, List.mem_singleton] at ht
  subst ht
  exact absurd hnotes (by decide)

end A2AGateway
