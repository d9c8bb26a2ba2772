import A2AGateway.EntryPoints

/-!
# The agent's side (`a2a-sdk`: `convert.rs`, `client.rs`, `agent.rs`)

| here | there |
| --- | --- |
| `toCallRequest`, `fromCallRequest` | `convert.rs:30-56` |
| `CallOptions`                      | `options.rs:4-27`, as far as it decides whether to try again |
| `GatewayClient.call`               | `client.rs:52-89`; `Agent::call` (`agent.rs:186-202`) is its method `"invoke"` |
| `Handling`                         | a handler at work on one message |
| `AgentService.call`                | `agent.rs:307-319` |

A handler is a tree: it ends, or calls an agent through one of its clients and goes on with what comes
back. The gateway it calls is a parameter of `GatewayClient.call` and so of everything above it.

`GatewayClient.send` counts the retries down on `Nat`, without the delays between them and the timeout of each. The
loop as the code has it, with the ways in which it panics or never ends, is `GatewayClient.callFor`
(`RetryLoop.lean`); where it is bounded it does what `send` does.
-/

namespace A2AGateway

/-! ## Conversions -/

structure Message where
  traceId : String
  caller : String
  method : String
  payload : Json

section
variable [SerdeJson]

def toCallRequest (caller target method : String) (payload : Json) (newTraceId : Uuid) : CallRequest where
  targetAgent := target
  method := method
  payload := SerdeJson.toVec payload
  traceId := newTraceId.text
  caller := caller
  hopCount := 0 -- "gateway always overwrites this"

def fromCallRequest (r : CallRequest) : Except String Message := do
  let payload ← SerdeJson.fromSlice r.payload
  return { traceId := r.traceId, caller := r.caller, method := r.method, payload }

/-! ## Calling the gateway -/

/-- `anyhow::Error` of a client call: the status of the RPC, or a text. -/
inductive SdkError
  | status (s : Status)
  | msg (text : String)
deriving DecidableEq

def isRetryable : Code → Bool
  | .unavailable => true
  | .deadlineExceeded => true
  | _ => false

structure CallOptions where
  retries : UInt32 := 3

/-- The arguments of one client call, with the trace id drawn for it. -/
structure CallArgs where
  target : String
  method : String
  payload : Json
  opts : CallOptions
  newTraceId : Uuid

structure GatewayClient where
  agentName : String
deriving DecidableEq

namespace GatewayClient

def request (c : GatewayClient) (a : CallArgs) : CallRequest :=
  toCallRequest c.agentName a.target a.method a.payload a.newTraceId

variable {σ : Type} (inner : CallRequest → Prog σ Status CallResponse)

/-- The loop of `call`, with the number of retries left. -/
def send (req : CallRequest) (retries : Nat) : Prog σ SdkError Json := do
  match ← (inner req).outcome with
  | .ok body =>
    if body.error ≠ "" then
      Prog.fail (.msg s!"agent error: {body.error}")
    else
      match SerdeJson.fromSlice body.result with
      | .ok value => return value
      | .error _ => Prog.fail (.msg "invalid JSON in call response")
  | .error status =>
    match retries with
    | retries + 1 => if isRetryable status.code then send req retries else Prog.fail (.status status)
    | 0 => Prog.fail (.status status)

def call (c : GatewayClient) (a : CallArgs) : Prog σ SdkError Json :=
  send inner (c.request a) a.opts.retries.toNat

variable {inner}

/-- First the request is sent. What follows does nothing but send it again. -/
theorem send_begins {R : σ → σ → Prop} {req : CallRequest} (hask : (inner req).Moves R) (retries : Nat) :
    ∃ rest : Except Status CallResponse → Prog σ SdkError Json,
      send inner req retries = (inner req).outcome.bind rest ∧ ∀ o, (rest o).Moves R := by
  induction retries with
  | zero =>
    refine ⟨_, by unfold send; rfl, fun o => ?_⟩
    split
    · split
      · trivial
      · split <;> trivial
    · trivial
  | succ retries ih =>
    obtain ⟨rest, hsend, hrest⟩ := ih
    refine ⟨_, by unfold send; rfl, fun o => ?_⟩
    split
    · split
      · trivial
      · split <;> trivial
    · simp only
      split
      · rw [hsend]
        exact hask.outcome.bind hrest
      · trivial

theorem moves_send {R : σ → σ → Prop} {req : CallRequest} (hask : (inner req).Moves R) (retries : Nat) :
    (send inner req retries).Moves R := by
  obtain ⟨rest, hsend, hrest⟩ := send_begins hask retries
  rw [hsend]
  exact hask.outcome.bind hrest

end GatewayClient

/-! ## Handling a call -/

/-- A handler on one message, with the clients it may call through. -/
inductive Handling (clients : List GatewayClient)
  | ret (r : Except String Json)
  | call (c : GatewayClient) (hc : c ∈ clients) (a : CallArgs) (next : Except SdkError Json → Handling clients)

section
variable {clients : List GatewayClient} {σ : Type} (inner : CallRequest → Prog σ Status CallResponse)

def Handling.run : Handling clients → Prog σ String Json
  | ret r => Prog.ofExcept r
  | call c _ a next => (c.call inner a).outcome.bind fun r => (next r).run

def AgentService.call (handler : Message → Handling clients) (r : CallRequest) : Prog σ Status CallResponse := do
  let msg ← (Prog.ofExcept (fromCallRequest r)).mapErr fun e => ⟨.invalidArgument, e⟩
  let payload ← ((handler msg).run inner).mapErr fun e => ⟨.internal, e⟩
  return { result := SerdeJson.toVec payload, error := "", traceId := msg.traceId }

end

/-! ## What an agent asks the gateway -/

/-- A gateway that keeps the requests it gets, and answers as given. -/
def recording (answers : List CallRequest → Except Status CallResponse) (r : CallRequest) :
    Prog (List CallRequest) Status CallResponse :=
  Prog.prim fun asked => (answers (asked ++ [r]), asked ++ [r])

/-- The request is one that a client of the list makes: under its name, and at hop 0. -/
def FromClients (clients : List GatewayClient) (r : CallRequest) : Prop :=
  ∃ c ∈ clients, ∃ a : CallArgs, r = c.request a

section
variable {clients : List GatewayClient} {answers : List CallRequest → Except Status CallResponse}

/-- Only requests of the clients are added. -/
def AskedBy (clients : List GatewayClient) (asked asked' : List CallRequest) : Prop :=
  (∀ r ∈ asked, FromClients clients r) → ∀ r ∈ asked', FromClients clients r

theorem moves_ask {req : CallRequest} (hreq : FromClients clients req) :
    (recording answers req).Moves (AskedBy clients) := by
  refine Prog.moves_prim fun asked hall r hr => ?_
  rcases List.mem_append.1 hr with hr | hr
  · exact hall r hr
  · rw [List.mem_singleton.1 hr]
    exact hreq

theorem moves_call {c : GatewayClient} (hc : c ∈ clients) (a : CallArgs) :
    (c.call (recording answers) a).Moves (AskedBy clients) :=
  GatewayClient.moves_send (moves_ask ⟨c, hc, a, rfl⟩) _

theorem moves_run (h : Handling clients) : (h.run (recording answers)).Moves (AskedBy clients) := by
  induction h with
  | ret r => exact Prog.moves_ofExcept r
  | call c hc a next ih => exact (moves_call hc a).outcome.bind fun r => ih r

theorem moves_service (handler : Message → Handling clients) (r : CallRequest) :
    (AgentService.call (recording answers) handler r).Moves (AskedBy clients) := by
  simp only [AgentService.call, Prog.bind_eq]
  refine (Prog.Moves.mapErr (Prog.moves_ofExcept _)).bind fun msg => ?_
  exact (moves_run (handler msg)).mapErr.bind fun _ => trivial

/-- **While it handles a call, an agent asks the gateway for nothing but calls at hop 0, under the
names of its clients.** -/
theorem asked_fromClients {handler : Message → Handling clients} {r req : CallRequest}
    (h : req ∈ ((AgentService.call (recording answers) handler r).exec []).2) : FromClients clients req :=
  (moves_service handler r).keeps [] (by simp) req h

theorem called_fromClients {c : GatewayClient} {a : CallArgs} {req : CallRequest}
    (h : req ∈ ((c.call (recording answers) a).exec []).2) : FromClients [c] req :=
  (moves_call (List.mem_singleton_self c) a).keeps [] (by simp) req h

end

/-! ## A handler that makes the given calls -/

/-- One call after the other, whatever comes back. -/
def Handling.callEach {clients : List GatewayClient} :
    List ({c : GatewayClient // c ∈ clients} × CallArgs) → Handling clients
  | [] => .ret (.ok .null)
  | (c, a) :: rest => .call c.1 c.2 a fun _ => callEach rest

/-- A gateway that answers every call with the same status, one that is not tried again. -/
def refusing (_ : List CallRequest) : Except Status CallResponse := .error ⟨.internal, "refused"⟩

section
variable {clients : List GatewayClient}

theorem exec_call_refusing (c : GatewayClient) (a : CallArgs) (asked : List CallRequest) :
    (c.call (recording refusing) a).exec asked = (.error (.status ⟨.internal, "refused"⟩),
      asked ++ [c.request a]) := by
  unfold GatewayClient.call GatewayClient.send
  simp only [Prog.bind_eq, recording, refusing, Prog.exec_bind, Prog.exec_outcome, Prog.exec_prim]
  cases a.opts.retries.toNat with
  | zero => rfl
  | succ n => rfl

theorem exec_callEach (calls : List ({c : GatewayClient // c ∈ clients} × CallArgs)) :
    ∀ asked, ((Handling.callEach calls).run (recording refusing)).exec asked = (.ok .null,
      asked ++ calls.map fun x => x.1.1.request x.2) := by
  induction calls with
  | nil => intro asked; simp [Handling.callEach, Handling.run]
  | cons x rest ih =>
    intro asked
    simp only [Handling.callEach, Handling.run]
    rw [Prog.exec_bind_of_ok (Prog.exec_outcome _ asked), exec_call_refusing, ih]
    simp

theorem asked_callEach {calls : List ({c : GatewayClient // c ∈ clients} × CallArgs)} {r : CallRequest}
    {msg : Message} (hmsg : fromCallRequest r = .ok msg) {x : {c : GatewayClient // c ∈ clients} × CallArgs}
    (hx : x ∈ calls) :
    x.1.1.request x.2 ∈ ((AgentService.call (recording refusing) (fun _ => .callEach calls) r).exec []).2 := by
  have hrun := exec_callEach calls []
  have hexec : ((AgentService.call (recording refusing) (fun _ => .callEach calls) r).exec []).2 =
      [] ++ calls.map fun x => x.1.1.request x.2 := by
    simp only [AgentService.call, hmsg, Prog.bind_eq]
    rw [Prog.exec_bind_of_ok (Prog.exec_mapErr_of_ok (Prog.exec_ofExcept _ _)),
      Prog.exec_bind_of_ok (Prog.exec_mapErr_of_ok hrun)]
    rfl
  rw [hexec, List.nil_append]
  exact List.mem_map.2 ⟨x, hx, rfl⟩

end

end

end A2AGateway
