import A2AGateway.Http
import A2AGateway.Lib.Keyed
import A2AGateway.Lib.Sorting
import A2AGateway.Reconciler
import A2AGateway.TaskLog

/-!
# The context builder (`context_builder.rs`)

| here | there |
| --- | --- |
| `selectAgent`              | `context_builder.rs:116-150` |
| `logItem`, `payload`       | `context_builder.rs:69-93` |
| `ContextBuilder.dispatch`  | `context_builder.rs:61-108` |

"Pull the last 50 task log entries for the project to give the agent context" (`context_builder.rs:68`). As
shipped `since(project_id, 0)` fails as soon as there is an entry with a positive cursor, and `append` gives no
others, so nothing is sent about a log with an entry. With the cursors decoded what it yields begins with the oldest
entry, `take(50)` keeps its beginning, and what is sent is the most recent history only while there are no more than
50 such entries (`sends_most_recent`).
-/

namespace A2AGateway

open Gw

/-- A float in `json!`; what is no number becomes null. -/
def Json.ofF64 : F64 → Json
  | .fin q => .num q
  | _ => .null

structure ContextBuilder where
  registry : Registry
  gatewayName : String

namespace ContextBuilder

section
variable (b : ContextBuilder) (order : Keyed.Iteration AgentEntry)

/-- The agents by name, from the order in which the registry yields them. -/
def sortedAgents : List AgentEntry := (order.arrange b.registry.list).insertionSort fun x y => ¬ y.name < x.name

/-- "Agent with "context_building" in capabilities", else one with "orchestrator", else the first. -/
def selectAgent : Option AgentEntry :=
  let agents := b.sortedAgents order
  ((agents.find? fun a => a.capabilities.any (· == "context_building")).or
    (agents.find? fun a => a.capabilities.any (Reconciler.contains · "orchestrat"))).or agents.head?

def logItem (e : LogEntry) : Json :=
  .obj [("cursor", .num e.cursor), ("gateway", .str e.gatewayName), ("agent", .str e.agentName),
    ("type", .str e.entryType.asStr), ("content", .str e.content), ("created_at", .ofF64 e.createdAt)]

def instructions : String :=
  "You are being asked to build a context summary for a peer project that has been " ++
  "added to this gateway. Read the task log entries above and write a concise " ++
  "1-3 paragraph summary describing: what the project is, what work has been done, " ++
  "and what the current focus is. Respond with a JSON object: " ++
  "\x7b \"summary\": \"<your summary here>\" \x7d"

def payload (projectId projectName : String) (items : List LogEntry) : Json :=
  .obj [("action", .str "build_context"), ("project_id", .str projectId), ("project_name", .str projectName),
    ("gateway", .str b.gatewayName), ("task_log", .arr (items.map logItem)), ("instructions", .str instructions)]

def dispatch (server : List HttpRequest → HttpRequest → Except String HttpResponse) (projectId projectName : String) :
    Prog (Outbox World) Err String := do
  match b.selectAgent order with
  | none => Prog.fail (.msg "no agents registered — cannot build context")
  | some agent =>
    let entries ← (TaskLog.since projectId 0).within Outbox.inner
    let _ ← Outbox.exchange server (.post s!"{agent.endpoint}/invoke" none (some (b.payload projectId projectName (entries.take 50))))
      s!"calling agent '{agent.name}' at {agent.endpoint}" fun status body =>
        s!"agent '{agent.name}' returned {status}: {body}"
    return agent.name

end

/-! ## The most recent history -/

/-- The log of the project, in whatever order. -/
def logOf (db : Db) (projectId : String) : List LogEntry :=
  (db.taskLog.rows.filter (·.projectId == projectId)).map (·.toEntry)

/-- What is sent lists, in increasing order, the entries with the greatest cursors, 50 of them or all there are. -/
def SendsMostRecent (b : ContextBuilder) (order : Keyed.Iteration AgentEntry)
    (server : List HttpRequest → HttpRequest → Except String HttpResponse) (projectId projectName : String)
    (o : Outbox World) : Prop :=
  ∀ (url : String) (auth : Option String) (body : Json), .post url auth (some body) ∈
      ((b.dispatch order server projectId projectName).exec o).2.requests.drop o.requests.length →
    ∃ items : List LogEntry, body.get "task_log" = some (.arr (items.map logItem)) ∧
      Sorting.Leading (Sorting.Greater (·.cursor)) 50 (logOf o.state.db projectId) items.reverse

/-- The entries that `since` yields. -/
def positive (db : Db) (projectId : String) : List LogEntry := (logOf db projectId).filter fun e => 0 < e.cursor

/-- The window covers the log: there are at most 50 entries with a positive cursor, and no others or 50 of them;
or all of these have the same cursor. -/
def WindowCovers (db : Db) (projectId : String) : Prop :=
  ((positive db projectId).length ≤ 50 ∧
      ((positive db projectId).length = (logOf db projectId).length ∨ (positive db projectId).length = 50)) ∨
    50 < (positive db projectId).length ∧
      ∀ e ∈ positive db projectId, ∀ e' ∈ positive db projectId, e.cursor = e'.cursor

section
variable {b : ContextBuilder} {order : Keyed.Iteration AgentEntry}
  {server : List HttpRequest → HttpRequest → Except String HttpResponse} {projectId projectName : String}
  {o : Outbox World} {db : Db}

/-! ## What is sent -/

/-- What `since(project_id, 0)` yields. -/
def sinceStart (db : Db) (projectId : String) : List LogEntry := (TaskLog.rowsSince db projectId 0).map (·.toEntry)

/-- The entries are read: nothing from outside fails the statement, and there is nothing to decode that is refused. -/
def Readable (w : World) (projectId : String) : Prop :=
  Passes w ∧ (w.AsShipped → positive w.db projectId = [])

theorem sinceStart_perm (db : Db) (projectId : String) : (sinceStart db projectId).Perm (positive db projectId) := by
  have hrows : positive db projectId = (db.taskLog.rows.filter fun r => r.projectId == projectId && 0 < r.cursor).map
      (·.toEntry) := by
    rw [positive, logOf, List.filter_map, List.filter_filter]
    simp only [Function.comp_def, LogRow.toEntry, Bool.and_comm]
  rw [hrows]
  exact (List.perm_insertionSort _ _).map _

theorem rowsSince_eq_nil_iff (db : Db) (projectId : String) :
    TaskLog.rowsSince db projectId 0 = [] ↔ positive db projectId = [] := by
  have hlength := (sinceStart_perm db projectId).length_eq
  rw [sinceStart, List.length_map] at hlength
  rw [← List.length_eq_zero_iff, ← List.length_eq_zero_iff, hlength]

/-- The log is read, or the statement fails. -/
theorem exec_since (projectId : String) (o : Outbox World) :
    Readable o.state projectId ∧ ((TaskLog.since projectId 0).within Outbox.inner).exec o =
        (.ok (sinceStart o.state.db projectId), { o with state := o.state.tick }) ∨
      ¬ Readable o.state projectId ∧ ∃ e, ((TaskLog.since projectId 0).within Outbox.inner).exec o =
        (.error e, { o with state := o.state.tick }) := by
  rw [Prog.exec_within, show Outbox.inner.get o = o.state from rfl]
  by_cases hread : Readable o.state projectId
  · left
    have hsince := TaskLog.since_iff.2 ⟨hread.1, ⟨rfl, fun hrefused =>
      (rowsSince_eq_nil_iff _ _).2 (hread.2 hrefused)⟩, rfl⟩
    rw [hsince]
    exact ⟨hread, rfl⟩
  · right
    refine ⟨hread, ?_⟩
    rcases hrun : (TaskLog.since projectId 0).exec o.state with ⟨res, w⟩
    cases res with
    | error e =>
      have hw := exec_fetch_error hrun
      subst hw
      exact ⟨e, rfl⟩
    | ok entries =>
      obtain ⟨hpass, ⟨-, hnone⟩, -⟩ := TaskLog.since_iff.1 hrun
      exact absurd ⟨hpass, fun hrefused => (rowsSince_eq_nil_iff _ _).1 (hnone hrefused)⟩ hread

/-- An agent that can be chosen is sent one request if the log can be read. -/
theorem requests_of_readable {agent : AgentEntry} (hagent : b.selectAgent order = some agent)
    (hread : Readable o.state projectId) : ((b.dispatch order server projectId projectName).exec o).2.requests =
      o.requests ++ [.post s!"{agent.endpoint}/invoke" none
        (some (b.payload projectId projectName ((sinceStart o.state.db projectId).take 50)))] := by
  unfold dispatch
  rw [hagent]
  simp only [Prog.bind_eq, Prog.pure_eq]
  rcases exec_since projectId o with ⟨-, hsince⟩ | ⟨hno, -⟩
  · rw [Prog.exec_bind_of_ok hsince, Prog.exec_bind_ret_state, Outbox.exec_exchange]
  · exact absurd hread hno

/-- The field that holds the items. -/
theorem get_taskLog (items : List LogEntry) :
    (b.payload projectId projectName items).get "task_log" = some (.arr (items.map logItem)) := rfl

/-! ## Which part of the log it is -/

theorem sinceStart_sorted (db : Db) (projectId : String) :
    (sinceStart db projectId).Pairwise fun e e' => e.cursor ≤ e'.cursor := by
  have htotal : Std.Total fun a b : LogRow => a.cursor ≤ b.cursor := ⟨fun a b => Int.le_total a.cursor b.cursor⟩
  have htrans : IsTrans LogRow fun a b => a.cursor ≤ b.cursor := ⟨fun _ _ _ => Int.le_trans⟩
  have hsorted : (TaskLog.rowsSince db projectId 0).Pairwise fun a b => a.cursor ≤ b.cursor :=
    List.pairwise_insertionSort _ _
  exact List.pairwise_map.2 hsorted

/-- **What is sent is the most recent history if and only if the window covers the log.** -/
theorem leading_iff (db : Db) (projectId : String) :
    Sorting.Leading (Sorting.Greater (·.cursor)) 50 (logOf db projectId) ((sinceStart db projectId).take 50).reverse ↔
      WindowCovers db projectId := by
  have hpos := sinceStart_perm db projectId
  have hperm : (sinceStart db projectId ++ (logOf db projectId).filter fun e => !decide (0 < e.cursor)).Perm
      (logOf db projectId) := (hpos.append_right _).trans (List.filter_append_perm _ _)
  have hlow : ∀ e ∈ sinceStart db projectId, ∀ e' ∈ (logOf db projectId).filter fun e => !decide (0 < e.cursor),
      e'.cursor ≤ e.cursor := by
    intro e he e' he'
    have he₀ := (List.mem_filter.1 (hpos.mem_iff.1 he)).2
    have he'₀ := (List.mem_filter.1 he').2
    simp only [decide_eq_true_eq, Bool.not_eq_true', decide_eq_false_iff_not] at he₀ he'₀
    omega
  rw [Sorting.leading_reverse_take_iff (by decide) (sinceStart_sorted db projectId) hperm hlow, WindowCovers,
    hpos.length_eq]
  simp only [hpos.mem_iff]

theorem cursors_of_items {items items' : List LogEntry} (h : items.map logItem = items'.map logItem) :
    items.map (·.cursor) = items'.map (·.cursor) := by
  have hinj : Function.Injective fun n : Int => some (Json.num n) := by
    intro m n hmn
    simpa using hmn
  have hcursors := congrArg (List.map (Json.get "cursor")) h
  rw [List.map_map, List.map_map] at hcursors
  apply List.map_injective_iff.2 hinj
  rw [List.map_map, List.map_map]
  exact hcursors

/-- An agent that is chosen is sent this payload. -/
theorem sends_iff {agent : AgentEntry} (hagent : b.selectAgent order = some agent) (hread : Readable o.state projectId) :
    SendsMostRecent b order server projectId projectName o ↔ WindowCovers o.state.db projectId := by
  unfold SendsMostRecent
  rw [requests_of_readable hagent hread, List.drop_left, ← leading_iff]
  constructor
  · intro h
    obtain ⟨items, hitems, hleading⟩ := h _ _ _ (List.mem_singleton_self _)
    have hlog : ((sinceStart o.state.db projectId).take 50).map logItem = items.map logItem := by
      simpa only [get_taskLog, Option.some.injEq, Json.arr.injEq] using hitems
    have hperm := Sorting.reverse_take_perm 50
      ((sinceStart_perm o.state.db projectId).append_right _ |>.trans (List.filter_append_perm _ _))
    refine hleading.of_keys ?_ hperm
    rw [List.map_reverse, List.map_reverse, cursors_of_items hlog]
  · intro h url auth body hsent
    obtain ⟨-, -, rfl⟩ : url = s!"{agent.endpoint}/invoke" ∧ auth = none ∧
        body = b.payload projectId projectName ((sinceStart o.state.db projectId).take 50) := by
      simpa using hsent
    exact ⟨_, get_taskLog _, h⟩

end

namespace DemoContext

/-- The agent `writer`, and a gateway to build the context for. -/
def builder : ContextBuilder := ⟨(∅ : AList fun _ : String => AgentEntry).insert "writer" (demoAgent "writer"), "gw-a"⟩

def order : Keyed.Iteration AgentEntry := ⟨fun l => l, fun _ => .refl _⟩

def row (cursor : Nat) : LogRow :=
  ⟨s!"entry-{cursor}", "p1", "gw-a", "writer", "note", s!"step {cursor}", cursor, .fin cursor, none, none, none, none, none⟩

/-- A log of these entries. -/
def outbox (rows : List LogRow) (engine : Engine := .shipped) : Outbox World :=
  ⟨{ World.fresh with db := { Db.empty engine with taskLog := rows.foldl Table.insertIgnore .empty } }, []⟩

/-- Whatever it is asked, the agent answers with 200. -/
def server (_ : List HttpRequest) (_ : HttpRequest) : Except String HttpResponse := .ok ⟨.ok, .ok [], .ok ""⟩

end DemoContext

-- With the cursors decoded, of 51 entries the agent gets the first 50.
example : (sinceStart (DemoContext.outbox ((List.range 51).map fun n => DemoContext.row (n + 1)) .widening).state.db "p1").map
    (·.cursor) = (List.range 51).map fun n => (n : Int) + 1 := by
  decide +kernel

end ContextBuilder

end A2AGateway
