import A2AGateway.Assignments
import A2AGateway.Lib.Subjects

/-!
# Events and hooks (`nats_bus.rs`, `pulsar_bus.rs`, `hooks.rs`)

| here | there |
| --- | --- |
| `BusEvent`, `NatsBus.subject`, `NatsBus.payload`      | `nats_bus.rs:66-146`, the functions that publish |
| `EventBus`, `EventBus.connect`, `EventBus.onNats`     | `pulsar_bus.rs:227-312` |
| `HookRegistry`, `hasAny`, `subscriptions`, `listens`  | `hooks.rs:80-100`, `160-175`; `agent.rs:258-266` |
| `subscriber`                                          | `hooks.rs:184-196`                    |
| `TaskAssignedEvent` to `BroadcastEvent`, `dispatchEvent` | `hooks.rs:39-72`, `206-252` |

The gateway publishes on NATS or on Pulsar; an SDK agent listens on NATS alone. NATS hands a message at most once to
each subscription whose pattern its subject matches, in the order of publication, and may lose it. Several gateways may
publish to one NATS, and a subject names the agent but not the gateway.
-/

namespace A2AGateway

/-! ## The bus -/

/-- A call of the bus. -/
inductive BusEvent
  | snapshot (projectId projectName snapshotId : String)
  | taskLog (projectId : String) (headCursor : Int)
  | taskAssigned (a : TaskAssigned)
  | agentSnapshot (agentName projectId projectName snapshotId : String)
  | online (agentCount : Nat)

structure NatsMessage where
  subject : String
  payload : Bytes
deriving DecidableEq

namespace NatsBus

variable (gatewayName : String)

def subject : BusEvent → String
  | .snapshot projectId _ _ => s!"a2a.projects.{projectId}.snapshot"
  | .taskLog projectId _ => s!"a2a.projects.{projectId}.tasklog"
  | .taskAssigned a => s!"a2a.agent.{a.agentName}.task_assigned"
  | .agentSnapshot agentName _ _ _ => s!"a2a.agent.{agentName}.snapshot"
  | .online _ => s!"a2a.gateway.{gatewayName}.online"

@[simp] theorem subject_snapshot (projectId projectName snapshotId : String) :
    subject gatewayName (.snapshot projectId projectName snapshotId) = "a2a.projects." ++ projectId ++ ".snapshot" := rfl

@[simp] theorem subject_taskLog (projectId : String) (headCursor : Int) :
    subject gatewayName (.taskLog projectId headCursor) = "a2a.projects." ++ projectId ++ ".tasklog" := rfl

@[simp] theorem subject_taskAssigned (a : TaskAssigned) :
    subject gatewayName (.taskAssigned a) = "a2a.agent." ++ a.agentName ++ ".task_assigned" := rfl

@[simp] theorem subject_agentSnapshot (agentName projectId projectName snapshotId : String) :
    subject gatewayName (.agentSnapshot agentName projectId projectName snapshotId) =
      "a2a.agent." ++ agentName ++ ".snapshot" := rfl

@[simp] theorem subject_online (agentCount : Nat) :
    subject gatewayName (.online agentCount) = "a2a.gateway." ++ gatewayName ++ ".online" := rfl

def snapshotEvent (projectId projectName snapshotId : String) : Json :=
  .obj [("project_id", .str projectId), ("project_name", .str projectName), ("snapshot_id", .str snapshotId),
    ("gateway_name", .str gatewayName)]

def payload : BusEvent → Json
  | .snapshot projectId projectName snapshotId => snapshotEvent gatewayName projectId projectName snapshotId
  | .taskLog projectId headCursor =>
    .obj [("project_id", .str projectId), ("gateway_name", .str gatewayName), ("head_cursor", .num headCursor)]
  | .taskAssigned a =>
    .obj [("project_id", .str a.projectId), ("task", .str a.task), ("assigned_by", .str gatewayName),
      ("todo_id", (a.todoId.map fun id => Json.num id).getD .null)]
  | .agentSnapshot _ projectId projectName snapshotId => snapshotEvent gatewayName projectId projectName snapshotId
  | .online agentCount =>
    .obj [("gateway_name", .str gatewayName), ("agent_count", .num agentCount), ("version", .str packageVersion)]

def publish [SerdeJson] (e : BusEvent) : NatsMessage := ⟨subject gatewayName e, SerdeJson.toVec (payload gatewayName e)⟩

end NatsBus

inductive EventBus
  | pulsar
  | nats
  | null
deriving DecidableEq

namespace EventBus

/-- Pulsar if it is configured and there, else NATS if it is there. -/
def connect (pulsarUp natsUp : String → Bool) (pulsarUrl : Option String) (natsUrl : String) : EventBus :=
  if pulsarUrl.any pulsarUp then .pulsar else if natsUp natsUrl then .nats else .null

/-- What of it all goes over NATS. -/
def onNats (bus : EventBus) (events : List BusEvent) : List BusEvent :=
  match bus with
  | pulsar => []
  | nats => events
  | null => []

end EventBus

/-! ## The hooks of an agent -/

structure TaskAssignedEvent where
  projectId : String
  task : String
  assignedBy : String
  todoId : Option Int
deriving DecidableEq

structure SnapshotChangedEvent where
  projectId : String
  projectName : String
  snapshotId : String
  gatewayName : String
deriving DecidableEq

inductive LifecycleType
  | registered
  | heartbeatLost
  | shutdown
deriving DecidableEq

structure LifecycleEvent where
  eventType : LifecycleType
  agentName : String
  gateway : String
  message : String
deriving DecidableEq

structure BroadcastEvent where
  gateway : String
  eventType : String
  message : String
deriving DecidableEq

/-! ### How they are read -/

/-- The fields of a record, from an object or, in their order, from an array; an object may lack some. -/
def Json.record (names : List String) : Json → Except String (List (Option Json))
  | .obj fields =>
    if names.any fun name => decide (1 < fields.countP (·.1 == name)) then .error "duplicate field"
    else .ok (names.map fun name => fields.lookup name)
  | .arr items => if items.length = names.length then .ok (items.map some) else .error "invalid length"
  | _ => .error "invalid type"

def Json.textField : Option Json → Except String String
  | some (.str s) => .ok s
  | some _ => .error "invalid type"
  | none => .error "missing field"

/-- `Option<i64>`: a field that is missing is `None`. -/
def Json.optionI64Field : Option Json → Except String (Option Int)
  | some (.num q) => if q.den = 1 ∧ -2 ^ 63 ≤ q.num ∧ q.num < 2 ^ 63 then .ok (some q.num) else .error "invalid value"
  | some .null => .ok none
  | some _ => .error "invalid type"
  | none => .ok none

def LifecycleType.ofText : String → Except String LifecycleType
  | "registered" => .ok .registered
  | "heartbeat_lost" => .ok .heartbeatLost
  | "shutdown" => .ok .shutdown
  | _ => .error "unknown variant"

def TaskAssignedEvent.ofJson (j : Json) : Except String TaskAssignedEvent := do
  let fields ← j.record ["project_id", "task", "assigned_by", "todo_id"]
  match fields with
  | [projectId, task, assignedBy, todoId] =>
    return ⟨← Json.textField projectId, ← Json.textField task, ← Json.textField assignedBy, ← Json.optionI64Field todoId⟩
  | _ => .error "invalid length"

def SnapshotChangedEvent.ofJson (j : Json) : Except String SnapshotChangedEvent := do
  let fields ← j.record ["project_id", "project_name", "snapshot_id", "gateway_name"]
  match fields with
  | [projectId, projectName, snapshotId, gatewayName] =>
    return ⟨← Json.textField projectId, ← Json.textField projectName, ← Json.textField snapshotId,
      ← Json.textField gatewayName⟩
  | _ => .error "invalid length"

def LifecycleEvent.ofJson (j : Json) : Except String LifecycleEvent := do
  let fields ← j.record ["event_type", "agent_name", "gateway", "message"]
  match fields with
  | [eventType, agentName, gateway, message] =>
    return ⟨← LifecycleType.ofText (← Json.textField eventType), ← Json.textField agentName, ← Json.textField gateway,
      ← Json.textField message⟩
  | _ => .error "invalid length"

def BroadcastEvent.ofJson (j : Json) : Except String BroadcastEvent := do
  let fields ← j.record ["gateway", "event_type", "message"]
  match fields with
  | [gateway, eventType, message] =>
    return ⟨← Json.textField gateway, ← Json.textField eventType, ← Json.textField message⟩
  | _ => .error "invalid length"

/-! ### Subscribing and dispatching -/

inductive HookKind
  | taskAssigned
  | snapshot
  | lifecycle
  | broadcast
deriving DecidableEq

/-- A callback with what it is called with. -/
inductive HookCall
  | taskAssigned (e : TaskAssignedEvent)
  | snapshot (e : SnapshotChangedEvent)
  | lifecycle (e : LifecycleEvent)
  | broadcast (e : BroadcastEvent)
deriving DecidableEq

/-- How a call of a callback ends. -/
inductive HookEnd
  | returned (r : Except String Unit)
  | panicked
  /-- Its future is never ready. -/
  | pending

/-- A callback may remember what it has been called with before. -/
abbrev Callback (E : Type) : Type := List HookCall → E → HookEnd

/-- The callbacks that are set. -/
structure HookRegistry where
  onTaskAssigned : Option (Callback TaskAssignedEvent)
  onSnapshot : Option (Callback SnapshotChangedEvent)
  onLifecycle : Option (Callback LifecycleEvent)
  onBroadcast : Option (Callback BroadcastEvent)

namespace HookRegistry

variable (hooks : HookRegistry)

def hasAny : Bool :=
  hooks.onTaskAssigned.isSome || hooks.onSnapshot.isSome || hooks.onLifecycle.isSome || hooks.onBroadcast.isSome

/-- The subjects, each with the kind of its events. -/
def subscriptions (agentName : String) : List (String × HookKind) :=
  (if hooks.onTaskAssigned.isSome then [(s!"a2a.agent.{agentName}.task_assigned", .taskAssigned)] else []) ++
  (if hooks.onSnapshot.isSome then [(s!"a2a.agent.{agentName}.snapshot", .snapshot)] else []) ++
  (if hooks.onLifecycle.isSome then [(s!"a2a.agent.{agentName}.lifecycle", .lifecycle)] else []) ++
  (if hooks.onBroadcast.isSome then [("a2a.broadcast.>", .broadcast)] else [])

/-- What an agent that serves listens to. -/
def listens (agentName : String) : List (String × HookKind) := if hooks.hasAny then hooks.subscriptions agentName else []

end HookRegistry

/-- The call that a payload leads to, and its end; what cannot be read is only worth a warning. -/
def callHook {E : Type} [SerdeJson] (hook : Option (Callback E)) (read : Json → Except String E)
    (call : E → HookCall) (payload : Bytes) (before : List HookCall) : Option (HookCall × HookEnd) :=
  match hook with
  | none => none
  | some cb => ((SerdeJson.fromSlice payload).bind read).toOption.map fun event => (call event, cb before event)

def dispatchEvent [SerdeJson] (kind : HookKind) (payload : Bytes) (hooks : HookRegistry) (before : List HookCall) :
    Option (HookCall × HookEnd) :=
  match kind with
  | .taskAssigned => callHook hooks.onTaskAssigned TaskAssignedEvent.ofJson .taskAssigned payload before
  | .snapshot => callHook hooks.onSnapshot SnapshotChangedEvent.ofJson .snapshot payload before
  | .lifecycle => callHook hooks.onLifecycle LifecycleEvent.ofJson .lifecycle payload before
  | .broadcast => callHook hooks.onBroadcast BroadcastEvent.ofJson .broadcast payload before

/-- The calls that the task of a subscription makes, after those before. A callback that fails is only worth a warning;
one that panics ends the task, and one that never returns keeps it. -/
def HookRegistry.subscriber [SerdeJson] (hooks : HookRegistry) (kind : HookKind) :
    List HookCall → List NatsMessage → List HookCall
  | before, [] => before
  | before, m :: rest =>
    match dispatchEvent kind m.payload hooks before with
    | none => hooks.subscriber kind before rest
    | some (call, .returned _) => hooks.subscriber kind (before ++ [call]) rest
    | some (call, .panicked) => before ++ [call]
    | some (call, .pending) => before ++ [call]

/-- Every call of the callback returns. -/
def HookRegistry.Returns [SerdeJson] (hooks : HookRegistry) (kind : HookKind) : Prop :=
  ∀ payload before call ending, dispatchEvent kind payload hooks before = some (call, ending) → ∃ r, ending = .returned r

section
variable [SerdeJson] {hooks : HookRegistry} {kind : HookKind}

theorem callHook_fst {E : Type} {hook : Option (Callback E)} {read : Json → Except String E} {call : E → HookCall}
    {payload : Bytes} {before : List HookCall} :
    (callHook hook read call payload before).map (·.1) = (callHook hook read call payload []).map (·.1) := by
  cases hook with
  | none => rfl
  | some cb => simp [callHook, Function.comp_def]

/-- The call that a message leads to. -/
def HookRegistry.callFor (hooks : HookRegistry) (kind : HookKind) (m : NatsMessage) : Option HookCall :=
  (dispatchEvent kind m.payload hooks []).map (·.1)

/-- It does not depend on the calls before. -/
theorem callFor_eq (hooks : HookRegistry) (kind : HookKind) (before : List HookCall) (m : NatsMessage) :
    hooks.callFor kind m = (dispatchEvent kind m.payload hooks before).map (·.1) := by
  cases kind <;> exact callHook_fst.symm

/-- **The subscription calls for its messages up to some of them, one after the other**, and for all of them where every
call returns. -/
theorem subscriber_spec (hooks : HookRegistry) (kind : HookKind) (before : List HookCall) (got : List NatsMessage) :
    ∃ heard, heard <+: got ∧ hooks.subscriber kind before got = before ++ heard.filterMap (hooks.callFor kind) ∧
      (hooks.Returns kind → heard = got) := by
  induction got generalizing before with
  | nil => exact ⟨[], List.prefix_rfl, by simp [HookRegistry.subscriber], fun _ => rfl⟩
  | cons m rest ih =>
    have hcalled := callFor_eq hooks kind before m
    rw [HookRegistry.subscriber]
    cases hcall : dispatchEvent kind m.payload hooks before with
    | none =>
      rw [hcall] at hcalled
      obtain ⟨heard, hprefix, heq, hall⟩ := ih before
      refine ⟨m :: heard, List.cons_prefix_cons.2 ⟨rfl, hprefix⟩, ?_, fun hret => by rw [hall hret]⟩
      rw [List.filterMap_cons_none hcalled]
      exact heq
    | some pair =>
      obtain ⟨call, ending⟩ := pair
      rw [hcall] at hcalled
      -- A call that does not return is the last.
      have hstop : (∀ r, ending ≠ .returned r) → ∃ heard, heard <+: m :: rest ∧
          before ++ [call] = before ++ heard.filterMap (hooks.callFor kind) ∧ (hooks.Returns kind → heard = m :: rest) := by
        intro hnot
        refine ⟨[m], ⟨rest, rfl⟩, ?_, fun hret => ?_⟩
        · rw [List.filterMap_cons_some hcalled]
          rfl
        · obtain ⟨r, hr⟩ := hret _ _ _ _ hcall
          exact absurd hr (hnot r)
      cases ending with
      | returned r =>
        obtain ⟨heard, hprefix, heq, hall⟩ := ih (before ++ [call])
        refine ⟨m :: heard, List.cons_prefix_cons.2 ⟨rfl, hprefix⟩, ?_, fun hret => by rw [hall hret]⟩
        rw [List.filterMap_cons_some hcalled]
        exact heq.trans (List.append_assoc _ _ _)
      | panicked => exact hstop (by simp)
      | pending => exact hstop (by simp)

end

/-- The calls that a subscription leads to. -/
def HookRegistry.calls [SerdeJson] (hooks : HookRegistry) (kind : HookKind) (got : List NatsMessage) : List HookCall :=
  hooks.subscriber kind [] got

/-! ## NATS -/

def reaches (pattern : String) (m : NatsMessage) : Bool :=
  Subjects.subscribes '.' '*' '>' pattern.toList m.subject.toList

/-- What one of the gateways on the NATS has published to it. -/
structure Posted where
  /-- It was this gateway. -/
  own : Bool
  gatewayName : String
  event : BusEvent

def Posted.message [SerdeJson] (p : Posted) : NatsMessage := NatsBus.publish p.gatewayName p.event

/-- What all gateways have published, in its order; this gateway those events. -/
structure SharedNats (gatewayName : String) (events : List BusEvent) (traffic : List Posted) : Prop where
  own : (traffic.filter (·.own)).map (·.event) = events
  named : ∀ p ∈ traffic, p.own = true → p.gatewayName = gatewayName

/-- Of what has been sent to it, in its order and at most once each. -/
def Delivers [SerdeJson] (pattern : String) (traffic got : List Posted) : Prop :=
  got.Sublist (traffic.filter fun p => reaches pattern p.message)

/-! ## What reaches whom -/

theorem AgentName.plain {name : String} (hname : AgentName name) {c : Char} (hc : (c.isAlphanum || c == '-' || c == '_') = false) :
    c ∉ name.toList := by
  intro hmem
  have hok := List.all_eq_true.1 hname.2.2 c hmem
  rw [hc] at hok
  cases hok

section
variable {gatewayName name : String}

/-- The subjects of an agent have no wildcards. -/
theorem reaches_agent (hname : AgentName name) {suffix : String} (hone : '*' ∉ suffix.toList) (hall : '>' ∉ suffix.toList)
    {m : NatsMessage} : reaches ("a2a.agent." ++ name ++ suffix) m = true ↔ "a2a.agent." ++ name ++ suffix = m.subject := by
  have hplain : ∀ c, (c.isAlphanum || c == '-' || c == '_') = false → c ∉ suffix.toList → c ∉ "a2a.agent.".toList →
      c ∉ ("a2a.agent." ++ name ++ suffix).toList := by
    intro c hc hsuffix hfirst hmem
    simp only [String.toList_append, List.mem_append] at hmem
    rcases hmem with (hmem | hmem) | hmem
    · exact hfirst hmem
    · exact hname.plain hc hmem
    · exact hsuffix hmem
  rw [reaches, Subjects.subscribes_literal (hplain '*' (by decide) hone (by decide)) (hplain '>' (by decide) hall (by decide))]
  exact String.toList_inj

theorem not_reaches_broadcast [SerdeJson] (e : BusEvent) :
    reaches "a2a.broadcast.>" (NatsBus.publish gatewayName e) = false := by
  rw [Bool.eq_false_iff]
  intro h
  have hprefix : "a2a.broadcast".toList ++ ['.'] <+: (NatsBus.subject gatewayName e).toList :=
    Subjects.prefix_of_subscribes (by decide) (by decide) (by decide) h
  obtain ⟨rest, hrest⟩ := hprefix
  cases e with
  | _ => simp [String.toList_append] at hrest

/-- Subjects of agents end with the kind of the event. -/
theorem agentSubject_ne (n m suffix suffix' : String) {c c' : Char} (h : suffix.toList.getLast? = some c)
    (h' : suffix'.toList.getLast? = some c') (hne : c ≠ c') : "a2a.agent." ++ n ++ suffix ≠ "a2a.agent." ++ m ++ suffix' := by
  intro heq
  have hlast := congrArg (fun s => s.toList.getLast?) heq
  simp only [String.toList_append, List.getLast?_append, h, h', Option.some_or, Option.some.injEq] at hlast
  exact hne hlast

theorem taskAssigned_iff (e : BusEvent) : "a2a.agent." ++ name ++ ".task_assigned" = NatsBus.subject gatewayName e ↔
    ∃ a, e = .taskAssigned a ∧ a.agentName = name := by
  cases e with
  | taskAssigned a => simp [eq_comm]
  | agentSnapshot agentName =>
    have hne := agentSubject_ne name agentName ".task_assigned" ".snapshot" rfl rfl (by decide)
    simp [hne]
  | snapshot | taskLog | online => simp [String.ext_iff, String.toList_append]

theorem snapshot_iff (e : BusEvent) : "a2a.agent." ++ name ++ ".snapshot" = NatsBus.subject gatewayName e ↔
    ∃ projectId projectName snapshotId, e = .agentSnapshot name projectId projectName snapshotId := by
  cases e with
  | taskAssigned a =>
    have hne := agentSubject_ne name a.agentName ".snapshot" ".task_assigned" rfl rfl (by decide)
    simp [hne]
  | agentSnapshot agentName => simp [eq_comm]
  | snapshot | taskLog | online => simp [String.ext_iff, String.toList_append]

/-- Nothing is published about the life of an agent. -/
theorem lifecycle_ne (e : BusEvent) : "a2a.agent." ++ name ++ ".lifecycle" ≠ NatsBus.subject gatewayName e := by
  cases e with
  | taskAssigned a => exact agentSubject_ne name a.agentName ".lifecycle" ".task_assigned" rfl rfl (by decide)
  | agentSnapshot agentName => exact agentSubject_ne name agentName ".lifecycle" ".snapshot" rfl rfl (by decide)
  | snapshot | taskLog | online => simp [String.ext_iff, String.toList_append]

/-! ## What a hook is called with -/

/-- What an agent is to hear of. -/
def eventFor (gatewayName name : String) : HookKind → BusEvent → Option HookCall
  | .taskAssigned, .taskAssigned a =>
    if a.agentName = name then some (.taskAssigned ⟨a.projectId, a.task, gatewayName, a.todoId⟩) else none
  | .snapshot, .agentSnapshot agentName projectId projectName snapshotId =>
    if agentName = name then some (.snapshot ⟨projectId, projectName, snapshotId, gatewayName⟩) else none
  | _, _ => none

/-- `serde_json` reads what it has written, and ids are of 64 bits. -/
structure Readable [SerdeJson] (gatewayName : String) (e : BusEvent) : Prop where
  codec : SerdeJson.fromSlice (SerdeJson.toVec (NatsBus.payload gatewayName e)) = .ok (NatsBus.payload gatewayName e)
  ids : ∀ a, e = .taskAssigned a → ∀ id ∈ a.todoId, -2 ^ 63 ≤ id ∧ id < 2 ^ 63

theorem ofJson_taskAssigned {a : TaskAssigned} (hids : ∀ id ∈ a.todoId, -2 ^ 63 ≤ id ∧ id < 2 ^ 63) :
    TaskAssignedEvent.ofJson (NatsBus.payload gatewayName (.taskAssigned a)) =
      .ok ⟨a.projectId, a.task, gatewayName, a.todoId⟩ := by
  obtain ⟨agentName, projectId, task, todoId⟩ := a
  cases todoId with
  | none => rfl
  | some id =>
    have hid := hids id rfl
    have hread : Json.optionI64Field (some (.num id)) = .ok (some id) := by
      simp [Json.optionI64Field]
      omega
    calc TaskAssignedEvent.ofJson (NatsBus.payload gatewayName (.taskAssigned ⟨agentName, projectId, task, some id⟩))
        = (Json.optionI64Field (some (.num id))).map fun todoId => ⟨projectId, task, gatewayName, todoId⟩ := by
          unfold TaskAssignedEvent.ofJson NatsBus.payload
          rfl
      _ = .ok ⟨projectId, task, gatewayName, some id⟩ := by rw [hread]; rfl

theorem ofJson_agentSnapshot (agentName projectId projectName snapshotId : String) :
    SnapshotChangedEvent.ofJson (NatsBus.payload gatewayName (.agentSnapshot agentName projectId projectName snapshotId)) =
      .ok ⟨projectId, projectName, snapshotId, gatewayName⟩ := rfl

section
variable [SerdeJson] {hooks : HookRegistry} {sub : String × HookKind}

omit [SerdeJson] in
theorem mem_subscriptions : sub ∈ hooks.subscriptions name ↔
    ((hooks.onTaskAssigned.isSome = true ∧ sub = ("a2a.agent." ++ name ++ ".task_assigned", .taskAssigned) ∨
        hooks.onSnapshot.isSome = true ∧ sub = ("a2a.agent." ++ name ++ ".snapshot", .snapshot)) ∨
      hooks.onLifecycle.isSome = true ∧ sub = ("a2a.agent." ++ name ++ ".lifecycle", .lifecycle)) ∨
    hooks.onBroadcast.isSome = true ∧ sub = ("a2a.broadcast.>", .broadcast) := by
  simp only [HookRegistry.subscriptions, List.mem_append, List.mem_ite_nil_right, List.mem_singleton]
  rfl

/-- A callback that is set, and a payload that is what it should be. -/
theorem callHook_eq {E : Type} {hook : Option (Callback E)} (hset : hook.isSome = true) {read : Json → Except String E}
    {call : E → HookCall} {e : BusEvent} (he : Readable gatewayName e) {event : E}
    (hread : read (NatsBus.payload gatewayName e) = .ok event) :
    (callHook hook read call (NatsBus.publish gatewayName e).payload []).map (·.1) = some (call event) := by
  obtain ⟨cb, rfl⟩ := Option.isSome_iff_exists.1 hset
  rw [callHook, NatsBus.publish, he.codec]
  simp only [Except.bind, hread, Except.toOption, Option.map_some]

/-- A message that reaches a subscription calls the hook with the event that was published. -/
theorem callFor_published (hname : AgentName name) (hsub : sub ∈ hooks.subscriptions name) {e : BusEvent}
    (he : Readable gatewayName e) (hreaches : reaches sub.1 (NatsBus.publish gatewayName e) = true) :
    hooks.callFor sub.2 (NatsBus.publish gatewayName e) = eventFor gatewayName name sub.2 e := by
  rcases mem_subscriptions.1 hsub with ((⟨hset, rfl⟩ | ⟨hset, rfl⟩) | ⟨-, rfl⟩) | ⟨-, rfl⟩
  · obtain ⟨a, rfl, rfl⟩ := (taskAssigned_iff e).1 ((reaches_agent hname (by decide) (by decide)).1 hreaches)
    rw [eventFor, if_pos rfl]
    exact callHook_eq hset he (ofJson_taskAssigned (he.ids a rfl))
  · obtain ⟨projectId, projectName, snapshotId, rfl⟩ :=
      (snapshot_iff e).1 ((reaches_agent hname (by decide) (by decide)).1 hreaches)
    rw [eventFor, if_pos rfl]
    exact callHook_eq hset he (ofJson_agentSnapshot name projectId projectName snapshotId)
  · exact absurd ((reaches_agent hname (by decide) (by decide)).1 hreaches) (lifecycle_ne e)
  · rw [not_reaches_broadcast] at hreaches
    cases hreaches

/-- An assignment reaches the subscription to the assignments of its agent, and no other. -/
theorem reaches_assigned (hname : AgentName name) (hsub : sub ∈ hooks.subscriptions name) (a : TaskAssigned) :
    reaches sub.1 (NatsBus.publish gatewayName (.taskAssigned a)) = true ↔ sub.2 = .taskAssigned ∧ a.agentName = name := by
  have htask := @taskAssigned_iff gatewayName name (.taskAssigned a)
  have hsnapshot := @snapshot_iff gatewayName name (.taskAssigned a)
  rcases mem_subscriptions.1 hsub with ((⟨-, rfl⟩ | ⟨-, rfl⟩) | ⟨-, rfl⟩) | ⟨-, rfl⟩
  · rw [reaches_agent hname (by decide) (by decide)]
    exact htask.trans (by simp)
  · rw [reaches_agent hname (by decide) (by decide)]
    exact hsnapshot.trans (by simp)
  · rw [reaches_agent hname (by decide) (by decide)]
    exact iff_of_false (@lifecycle_ne gatewayName name (.taskAssigned a)) (by simp)
  · rw [not_reaches_broadcast]
    simp

/-- **A subscription that is sent what the gateways have published calls its hook with it.** -/
theorem calls_posted (hname : AgentName name) (hsub : sub ∈ hooks.subscriptions name) {traffic got : List Posted}
    (hread : ∀ p ∈ traffic, Readable p.gatewayName p.event) (hgot : Delivers sub.1 traffic got) :
    ∃ heard, heard <+: got ∧
      hooks.calls sub.2 (got.map Posted.message) = heard.filterMap (fun p => eventFor p.gatewayName name sub.2 p.event) ∧
      (hooks.Returns sub.2 → heard = got) := by
  obtain ⟨messages, hprefix, hcalls, hall⟩ := subscriber_spec hooks sub.2 [] (got.map Posted.message)
  obtain ⟨heard, hheard, rfl⟩ := List.prefix_map_iff.1 hprefix
  refine ⟨heard, hheard, ?_, fun hret => ?_⟩
  · rw [HookRegistry.calls, hcalls, List.nil_append, List.filterMap_map]
    refine List.filterMap_congr fun p hp => ?_
    obtain ⟨hmem, hreaches⟩ := List.mem_filter.1 (hgot.subset (hheard.subset hp))
    exact callFor_published hname hsub (hread p hmem) hreaches
  · refine hheard.eq_of_length ?_
    have hlength := congrArg List.length (hall hret)
    rwa [List.length_map, List.length_map] at hlength

/-- The assignments of an agent. -/
def assignmentsOf (name : String) (published : List TaskAssigned) : List BusEvent :=
  (published.filter (·.agentName == name)).map .taskAssigned

/-- What there is of one gateway's assignments in all that is sent to a subscription. -/
theorem own_assigned (hname : AgentName name) (hsub : sub ∈ hooks.subscriptions name) {bus : EventBus}
    {published : List TaskAssigned} {traffic : List Posted}
    (htraffic : SharedNats gatewayName (bus.onNats (published.map .taskAssigned)) traffic) :
    ((traffic.filter fun p => reaches sub.1 p.message).filter (·.own)).map (·.event) =
      if bus = .nats ∧ sub.2 = .taskAssigned then assignmentsOf name published else [] := by
  have hown : ∀ p ∈ traffic.filter (·.own), reaches sub.1 p.message = reaches sub.1 (NatsBus.publish gatewayName p.event) := by
    intro p hp
    obtain ⟨hmem, hmine⟩ := List.mem_filter.1 hp
    rw [Posted.message, htraffic.named p hmem hmine]
  have hswap : ((traffic.filter fun p => reaches sub.1 p.message).filter (·.own)).map (·.event) =
      (bus.onNats (published.map .taskAssigned)).filter fun e => reaches sub.1 (NatsBus.publish gatewayName e) := by
    rw [← htraffic.own, List.filter_map, List.filter_comm, List.filter_congr hown]
    rfl
  have hreaches : ∀ a ∈ published, reaches sub.1 (NatsBus.publish gatewayName (.taskAssigned a)) =
      (decide (sub.2 = .taskAssigned) && (a.agentName == name)) := by
    intro a _
    rw [Bool.eq_iff_iff, reaches_assigned hname hsub]
    simp
  rw [hswap]
  cases bus with
  | pulsar | null => rfl
  | nats =>
    rw [EventBus.onNats, List.filter_map, assignmentsOf]
    simp only [Function.comp_def]
    rw [List.filter_congr hreaches]
    by_cases hkind : sub.2 = .taskAssigned
    · simp [hkind]
    · simp [hkind]

end

end

/-! ## In the process -/

open Reconciler

section
variable [Sha256] [HmacSha256] [SerdeJson] [SerdeStrings] [Lowercase] [Collation] {d : Wiring} {v : Visitors}
  {init : Site → Prop} {c : Pool Site Err}

/-- **Of what this gateway has published, an agent's hooks are called for the agent's own todos alone**: as they were
announced, in that order and each announcement once, all of them where NATS loses nothing and every call returns, and not
at all where the gateway is not on NATS. Beside these they are called for what other gateways on the NATS have published for
an agent of that name. -/
theorem hooks_called (hinit : ∀ s, init s → AllFiled s.world.db s.published) (hlibrary : ¬ v.uses .library)
    (h : Process.Reached d v init c) {name : String} (hname : AgentName name) {hooks : HookRegistry} {sub : String × HookKind}
    (hsub : sub ∈ hooks.listens name) {bus : EventBus} {traffic got : List Posted}
    (htraffic : SharedNats d.gateway.name (bus.onNats (c.state.published.map .taskAssigned)) traffic)
    (hread : ∀ p ∈ traffic, Readable p.gatewayName p.event) (hgot : Delivers sub.1 traffic got) :
    ∃ heard, heard <+: got ∧
      hooks.calls sub.2 (got.map Posted.message) = heard.filterMap (fun p => eventFor p.gatewayName name sub.2 p.event) ∧
      ((heard.filter (·.own)).map (·.event)).Sublist (assignmentsOf name c.state.published) ∧
      (sub.2 = .taskAssigned → bus = .nats → hooks.Returns sub.2 →
        got = traffic.filter (fun p => reaches sub.1 p.message) →
        (heard.filter (·.own)).map (·.event) = assignmentsOf name c.state.published) ∧
      ∀ p ∈ heard, p.own = true → bus = .nats ∧ sub.2 = .taskAssigned ∧
        ∃ t ∈ c.state.world.db.todos.rows, t.agentName = name ∧
          p.event = .taskAssigned ⟨name, "global", normaliseTask t.task, some t.id⟩ := by
  have hmem : sub ∈ hooks.subscriptions name := by
    unfold HookRegistry.listens at hsub
    split at hsub
    · exact hsub
    · cases hsub
  have hown := own_assigned hname hmem htraffic
  obtain ⟨heard, hheard, hcalls, hall⟩ := calls_posted hname hmem hread hgot
  have hsublist : ((heard.filter (·.own)).map (·.event)).Sublist
      (if bus = .nats ∧ sub.2 = .taskAssigned then assignmentsOf name c.state.published else []) := by
    rw [← hown]
    exact ((hheard.sublist.trans hgot).filter _).map _
  refine ⟨heard, hheard, hcalls, ?_, fun hkind hbus hret heq => ?_, fun p hp hmine => ?_⟩
  · split at hsublist
    · exact hsublist
    · exact hsublist.trans (List.nil_sublist _)
  · rw [hall hret, heq, hown, if_pos ⟨hbus, hkind⟩]
  · have hevent := hsublist.subset (List.mem_map_of_mem (List.mem_filter.2 ⟨hp, hmine⟩))
    split at hevent
    · rename_i hnats
      obtain ⟨a, ha, heq⟩ := List.mem_map.1 hevent
      obtain ⟨hpublished, hagent⟩ := List.mem_filter.1 ha
      obtain rfl : a.agentName = name := by simpa using hagent
      have hfiled := (h.files hinit hlibrary).1.published a hpublished
      obtain ⟨id, hid, t, ht, howner, htid, htask⟩ := hfiled.todo
      refine ⟨hnats.1, hnats.2, t, ht, howner, ?_⟩
      rw [← heq, htask, htid, ← hid, ← hfiled.projectId]
    · cases hevent

end

/-! ## One announcement, and one of another gateway -/

namespace DemoSite

/-- An agent that listens for assignments only. -/
def taskHook : HookRegistry := ⟨some fun _ _ => .returned (.ok ()), none, none, none⟩

/-- Two gateways are on the NATS, and each has an agent of the name. -/
def traffic : List Posted :=
  [⟨false, "gw-b", .taskAssigned ⟨"agent-a", "global", "index papers", some 7⟩⟩,
    ⟨true, "gw-a", .taskAssigned ⟨"agent-a", "global", "search for papers", some 1⟩⟩]

theorem traffic_shared : SharedNats wiring.gateway.name (EventBus.nats.onNats (assigned.state.published.map .taskAssigned))
    traffic := by
  refine ⟨by rw [assigned_published]; rfl, fun p hp hmine => ?_⟩
  rcases List.mem_pair.1 hp with rfl | rfl
  · cases hmine
  · rfl

theorem traffic_readable : letI := codec
    ∀ p ∈ traffic, Readable p.gatewayName p.event := by
  let _ := codec
  intro p hp
  rcases List.mem_pair.1 hp with rfl | rfl
  all_goals
    refine ⟨rfl, fun b hb id hid => ?_⟩
    cases hb
    cases hid
    decide

theorem taskHook_returns : letI := codec
    taskHook.Returns .taskAssigned := by
  let _ := codec
  intro payload before call ending h
  obtain ⟨event, -, heq⟩ := Option.map_eq_some_iff.1 h
  cases heq
  exact ⟨_, rfl⟩

end DemoSite

open DemoSite

/-- The agent is told of its todo, once, and of the other agent's. -/
theorem hooks_called_demo : letI := codec
    ∃ heard : List Posted, taskHook.calls .taskAssigned (traffic.map Posted.message) =
        heard.filterMap (fun p => eventFor p.gatewayName "agent-a" .taskAssigned p.event) ∧
      (heard.filter (·.own)).map (·.event) = [.taskAssigned ⟨"agent-a", "global", "search for papers", some 1⟩] := by
  let _ := codec
  let _ := DemoReconciler.ascii
  have hname : AgentName "agent-a" := ⟨by decide, by decide, by decide⟩
  have hsub : ("a2a.agent.agent-a.task_assigned", HookKind.taskAssigned) ∈ taskHook.listens "agent-a" := by decide
  have hreaches : ∀ p ∈ traffic, reaches "a2a.agent.agent-a.task_assigned" p.message = true := by decide +kernel
  have hall : traffic = traffic.filter fun p => reaches "a2a.agent.agent-a.task_assigned" p.message :=
    (List.filter_eq_self.2 hreaches).symm
  have hgot : Delivers "a2a.agent.agent-a.task_assigned" traffic traffic := by
    rw [Delivers, ← hall]
  obtain ⟨heard, -, hcalls, -, hevery, -⟩ := @hooks_called demoSha256 demoLogHmac codec DemoReconciler.serde DemoReconciler.ascii
    DemoReconciler.byCodePoint wiring visitors (· = .start .fresh) _ (fun s hs => by rw [hs]; exact start_allFiled)
    (fun h => h rfl) (@reached_assigned demoSha256 demoLogHmac) "agent-a" hname taskHook _ hsub .nats _ _ traffic_shared
    traffic_readable hgot
  refine ⟨heard, hcalls, (hevery rfl rfl taskHook_returns hall).trans ?_⟩
  rw [assigned_published]
  rfl

end A2AGateway
