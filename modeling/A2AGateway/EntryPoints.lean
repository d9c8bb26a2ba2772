import A2AGateway.PeerServer
import A2AGateway.Router

/-!
# Where calls to agents come in (`local_server.rs`, `http_server.rs`, `peer_server.rs`)

| here | there |
| --- | --- |
| `CallRequest`, `CallResponse`, `StreamChunk` | `proto/local.proto:53-77` |
| `DelegateRequest`, `DelegateResponse`        | `proto/peer.proto:51-64` |
| `LocalGateway.call`, `.stream`               | `local_server.rs:116-202` |
| `LocalGateway.routerErrToStatus`             | `local_server.rs:338-344` |
| `HttpServer.jsonrpcDispatch`                 | `http_server.rs:106-208` |
| `PeerHandler.delegate`                       | `peer_server.rs:100-131` |

The four reach an agent in their own ways. What they send it is recorded in the `Traffic`; what comes
back is up to the `Agents`.
-/

namespace A2AGateway

/-! ## Messages -/

structure CallRequest where
  targetAgent : String
  method : String
  payload : Bytes
  traceId : String
  caller : String
  hopCount : UInt32
deriving DecidableEq

structure CallResponse where
  result : Bytes
  error : String
  traceId : String
deriving DecidableEq

structure StreamChunk where
  data : Bytes
  done : Bool
  traceId : String
deriving DecidableEq

structure DelegateRequest where
  targetAgent : String
  method : String
  payload : Bytes
  traceId : String
  jwt : String
  hopCount : UInt32
deriving DecidableEq

structure DelegateResponse where
  result : Bytes
  error : String
  traceId : String
deriving DecidableEq

structure JsonRpcRequest where
  jsonrpc : String
  method : String
  params : Option Json
  id : Option Json

structure JsonRpcError where
  code : Int
  message : String
deriving DecidableEq

structure JsonRpcResponse where
  jsonrpc : String := "2.0"
  result : Option Json
  error : Option JsonRpcError
  id : Option Json

namespace JsonRpcResponse

def ok (id : Option Json) (result : Json) : JsonRpcResponse := { result := some result, error := none, id }

def err (id : Option Json) (code : Int) (msg : String) : JsonRpcResponse :=
  { result := none, error := some ⟨code, msg⟩, id }

end JsonRpcResponse

/-! ## The way to the agents -/

/-- A request to an agent: a gRPC `Call` or an HTTP `POST`. -/
inductive Forward
  | call (endpoint : String) (r : CallRequest)
  | post (url : String) (body : Bytes)
deriving DecidableEq

/-- The agents as the gateway reaches them: which endpoints are addresses, which of them accept a
connection, and what is answered there. A `POST` fails on sending or on reading the body. -/
structure Agents where
  fromShared : String → Except String Unit
  connect : String → Except String Unit
  call : String → CallRequest → Except String CallResponse
  post : String → Bytes → Except String (Except String Bytes)

/-- A gateway and what it has sent to agents so far. -/
structure Traffic where
  world : World
  sent : List Forward

def Traffic.gateway : Prog.Focus Traffic World where
  get t := t.world
  set w t := { t with world := w }
  get_set _ _ := rfl
  set_get _ := rfl
  set_set _ _ _ := rfl

namespace Agents

variable {ε : Type}

def sendCall (a : Agents) (endpoint : String) (r : CallRequest) : Prog Traffic String CallResponse :=
  Prog.prim fun t => (a.call endpoint r, { t with sent := t.sent ++ [.call endpoint r] })

def sendPost (a : Agents) (url : String) (body : Bytes) : Prog Traffic ε (Except String (Except String Bytes)) :=
  Prog.act (fun t => (a.post url body, { t with sent := t.sent ++ [.post url body] })) Prog.ret

end Agents

/-! ## `LocalGateway.Call` and `.Stream` -/

namespace LocalGateway

def routerErrToStatus (e : RouterError) : Status :=
  match e with
  | .hopLimitExceeded _ _ => ⟨.resourceExhausted, e.text⟩
  | .notPermitted _ _ => ⟨.permissionDenied, e.text⟩
  | .notFound _ => ⟨.notFound, e.text⟩

/-- The request as it is passed on to the agent. -/
def forwardReq (newTraceId : Uuid) (r : CallRequest) (decision : RouteDecision) : CallRequest where
  targetAgent := r.targetAgent
  method := r.method
  payload := r.payload
  traceId := if r.traceId = "" then newTraceId.text else r.traceId
  caller := r.caller
  hopCount := decision.hopCount

def call (router : Router) (agents : Agents) (newTraceId : Uuid) (r : CallRequest) :
    Prog Traffic Status CallResponse := do
  let decision ← (Prog.ofExcept (router.route r.caller r.targetAgent r.hopCount)).mapErr routerErrToStatus
  (Prog.ofExcept (agents.fromShared decision.endpoint)).mapErr fun e =>
    ⟨.internal, s!"invalid agent endpoint: {e}"⟩
  (Prog.ofExcept (agents.connect decision.endpoint)).mapErr fun e =>
    ⟨.unavailable, s!"agent unreachable: {e}"⟩
  (agents.sendCall decision.endpoint (forwardReq newTraceId r decision)).mapErr fun e =>
    ⟨.unavailable, s!"agent call failed: {e}"⟩

/-- `trim_end_matches('/')`. -/
def trimEndSlashes (s : String) : String := String.ofList (s.toList.reverse.dropWhile (· == '/')).reverse

def streamUrl (endpoint : String) : String := s!"{trimEndSlashes endpoint}/a2a/stream"

def streamBody [SerdeJson] (r : CallRequest) : Bytes :=
  SerdeJson.toVec (.obj [("method", .str r.method), ("payload", .ofBytes r.payload), ("trace_id", .str r.traceId)])

/-- The stream of chunks, to its end. -/
def stream [SerdeJson] (router : Router) (agents : Agents) (r : CallRequest) :
    Prog Traffic Status (List (Except Status StreamChunk)) := do
  let decision ← (Prog.ofExcept (router.route r.caller r.targetAgent r.hopCount)).mapErr routerErrToStatus
  match ← agents.sendPost (streamUrl decision.endpoint) (streamBody r) with
  | .ok (.ok b) => return [.ok ⟨b, true, r.traceId⟩]
  | .ok (.error e) => return [.error ⟨.internal, e⟩]
  | .error e => return [.error ⟨.unavailable, e⟩]

end LocalGateway

/-! ## JSON-RPC over HTTP -/

namespace HttpServer

/-- `params.get("agent").and_then(|v| v.as_str()).unwrap_or("")`. -/
def agentParam (r : JsonRpcRequest) : String := (((r.params.getD .null).get "agent").bind Json.asStr).getD ""

def taskParam (r : JsonRpcRequest) : Json := ((r.params.getD .null).get "task").getD .null

def tasksSend [SerdeJson] (registry : Registry) (agents : Agents) (taskId : Uuid) (r : JsonRpcRequest) :
    Prog Traffic Status (Nat × JsonRpcResponse) :=
  if agentParam r = "" then
    return (200, .err r.id (-32602) "missing 'agent'")
  else
    match registry.get (agentParam r) with
    | none => return (200, .err r.id (-32001) s!"agent '{agentParam r}' not found")
    | some entry => do
      match ← agents.sendPost s!"{entry.endpoint}/invoke" (SerdeJson.toVec (taskParam r)) with
      | .ok body =>
        let result := (body.toOption.bind fun b => (SerdeJson.fromSlice b).toOption).getD .null
        return (200, .ok r.id (.obj [("task_id", .str taskId.text), ("status", .str "completed"), ("result", result)]))
      | .error e => return (200, .err r.id (-32002) s!"agent call failed: {e}")

/-- The HTTP status and the answer. -/
def jsonrpcDispatch [SerdeJson] (registry : Registry) (agents : Agents) (taskId : Uuid) (r : JsonRpcRequest) :
    Prog Traffic Status (Nat × JsonRpcResponse) :=
  if r.jsonrpc ≠ "2.0" then
    return (400, .err r.id (-32600) "invalid JSON-RPC version")
  else if r.method = "tasks/send" then
    tasksSend registry agents taskId r
  else if r.method = "tasks/get" then
    return (200, .err r.id (-32001) "tasks/get not yet implemented")
  else if r.method = "tasks/cancel" then
    return (200, .err r.id (-32001) "tasks/cancel not yet implemented")
  else
    return (200, .err r.id (-32601) s!"method not found: {r.method}")

end HttpServer

/-! ## `PeerGateway.Delegate` -/

def PeerHandler.delegate (h : PeerHandler) (registry : Registry) (agents : Agents) (r : DelegateRequest) :
    Prog Traffic Status DelegateResponse := do
  let _ ← (h.authJwt r.jwt).within Traffic.gateway
  match registry.get r.targetAgent with
  | none => Prog.fail ⟨.notFound, s!"agent {r.targetAgent} not found"⟩
  | some agent =>
    match ← agents.sendPost s!"{agent.endpoint}/invoke" r.payload with
    | .ok (.ok result) => return { result := result, error := "", traceId := r.traceId }
    | .ok (.error e) => Prog.fail ⟨.internal, e⟩
    | .error e => Prog.fail ⟨.unavailable, e⟩

/-! ## What each of them sends -/

section
variable (router : Router) (registry : Registry) (agents : Agents) (id : Uuid) (t : Traffic)

theorem exec_sendPost {ε : Type} (url : String) (body : Bytes) :
    (agents.sendPost url body : Prog Traffic ε _).exec t =
      (.ok (agents.post url body), { t with sent := t.sent ++ [.post url body] }) := rfl

namespace LocalGateway

/-- What `Call` sends: the request under the router's hop count, if it is let through and the agent's
endpoint accepts a connection. -/
def callForwards (r : CallRequest) : List Forward :=
  match router.route r.caller r.targetAgent r.hopCount with
  | .error _ => []
  | .ok d =>
    match agents.fromShared d.endpoint, agents.connect d.endpoint with
    | .ok _, .ok _ => [.call d.endpoint (forwardReq id r d)]
    | _, _ => []

theorem sent_call (r : CallRequest) :
    ((call router agents id r).exec t).2.sent = t.sent ++ callForwards router agents id r := by
  simp only [call, callForwards, Prog.bind_eq, Prog.exec_bind, Prog.exec_mapErr, Prog.exec_ofExcept]
  cases router.route r.caller r.targetAgent r.hopCount with
  | error e => simp
  | ok d =>
    simp only [Prog.mapError_ok]
    cases agents.fromShared d.endpoint with
    | error e => simp
    | ok _ =>
      cases agents.connect d.endpoint with
      | error e => simp
      | ok _ => simp [Agents.sendCall]

def streamForwards [SerdeJson] (r : CallRequest) : List Forward :=
  match router.route r.caller r.targetAgent r.hopCount with
  | .error _ => []
  | .ok d => [.post (streamUrl d.endpoint) (streamBody r)]

theorem sent_stream [SerdeJson] (r : CallRequest) :
    ((stream router agents r).exec t).2.sent = t.sent ++ streamForwards router r := by
  simp only [stream, streamForwards, Prog.bind_eq, Prog.exec_bind, Prog.exec_mapErr, Prog.exec_ofExcept]
  cases router.route r.caller r.targetAgent r.hopCount with
  | error e => simp
  | ok d =>
    simp only [Prog.mapError_ok, exec_sendPost]
    split <;> rfl

end LocalGateway

namespace HttpServer

/-- What the JSON-RPC dispatcher sends: the task of a `tasks/send` for a registered agent. -/
def httpForwards [SerdeJson] (r : JsonRpcRequest) : List Forward :=
  if r.jsonrpc = "2.0" ∧ r.method = "tasks/send" ∧ agentParam r ≠ "" then
    match registry.get (agentParam r) with
    | none => []
    | some entry => [.post s!"{entry.endpoint}/invoke" (SerdeJson.toVec (taskParam r))]
  else []

theorem sent_tasksSend [SerdeJson] (r : JsonRpcRequest) (hversion : r.jsonrpc = "2.0")
    (hmethod : r.method = "tasks/send") :
    ((tasksSend registry agents id r).exec t).2.sent = t.sent ++ httpForwards registry r := by
  unfold tasksSend httpForwards
  by_cases hagent : agentParam r = ""
  · simp [hagent]
  · rw [if_neg hagent, if_pos ⟨hversion, hmethod, hagent⟩]
    cases registry.get (agentParam r) with
    | none => simp
    | some entry =>
      simp only [Prog.bind_eq]
      rw [Prog.exec_bind_of_ok (exec_sendPost agents t _ _)]
      split <;> rfl

theorem sent_jsonrpcDispatch [SerdeJson] (r : JsonRpcRequest) :
    ((jsonrpcDispatch registry agents id r).exec t).2.sent = t.sent ++ httpForwards registry r := by
  unfold jsonrpcDispatch
  by_cases hversion : r.jsonrpc = "2.0"
  · rw [if_neg (not_not.2 hversion)]
    by_cases hmethod : r.method = "tasks/send"
    · rw [if_pos hmethod]
      exact sent_tasksSend registry agents id t r hversion hmethod
    · rw [if_neg hmethod]
      have hnone : httpForwards registry r = [] := if_neg fun h => hmethod h.2.1
      rw [hnone]
      split
      · simp
      · split <;> simp
  · have hnone : httpForwards registry r = [] := if_neg fun h => hversion h.1
    rw [if_pos hversion, hnone]
    simp

end HttpServer

namespace PeerHandler

/-- What `Delegate` sends: the payload, for a registered agent and a valid token. -/
def delegateForwards (h : PeerHandler) (now : F64) (r : DelegateRequest) : List Forward :=
  match h.auth.validateFor r.jwt h.gatewayName now, registry.get r.targetAgent with
  | .ok _, some agent => [.post s!"{agent.endpoint}/invoke" r.payload]
  | _, _ => []

theorem sent_delegate (h : PeerHandler) (r : DelegateRequest) :
    ((h.delegate registry agents r).exec t).2.sent = t.sent ++ h.delegateForwards registry t.world.now r := by
  simp only [delegate, delegateForwards, Prog.bind_eq, Prog.exec_bind, Prog.exec_within, exec_authJwt,
    Prog.Focus.set_get]
  have hnow : (Traffic.gateway.get t).now = t.world.now := rfl
  rw [hnow]
  cases h.auth.validateFor r.jwt h.gatewayName t.world.now with
  | error e => simp
  | ok c =>
    cases registry.get r.targetAgent with
    | none => simp
    | some agent =>
      simp only [Prog.mapError_ok]
      rw [Prog.exec_bind_of_ok (exec_sendPost agents t _ _)]
      split <;> rfl

end PeerHandler

end

end A2AGateway
