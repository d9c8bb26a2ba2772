import A2AGateway.AgentDirectory
import A2AGateway.FinishedTodos
import A2AGateway.Reconciler
import A2AGateway.SyncDaemon

/-!
# The other requests (`local_server.rs`, `http_server.rs`, `peer_server.rs`)

| here | there |
| --- | --- |
| `AgentInfo`, `HealthStatus`, `ProtoTodo`         | `proto/local.proto:72-135` |
| `LocalGateway.listAgents`, `.health`             | `local_server.rs:206-227` |
| `LocalGateway.getSoul`, `.updateMemory`          | `local_server.rs:230-252` |
| `LocalGateway.appendTodo`, `.listTodos`, `.completeTodo` | `local_server.rs:254-298` |
| `HttpServer.agentCard`, `.health`                | `http_server.rs:57-104` |
| `PeerHandler.handshake`, `.announceSnapshot`     | `peer_server.rs:84-96`, `152-172` |

The requests that neither reach an agent nor write its row. An `Ack` is the unit.
-/

namespace A2AGateway

open Gw

/-! ## Messages -/

structure AgentInfo where
  name : String
  version : String
  endpoint : String
  capabilities : List String
  lastSeen : String
  healthy : Bool
deriving DecidableEq

structure HealthStatus where
  ok : Bool
  agentCount : Int
  peerCount : Int
  natsOk : Bool
  reconcilerLastRun : String
deriving DecidableEq

/-- `Todo` on the wire; a todo that is not done has an empty date. -/
structure ProtoTodo where
  id : Int
  task : String
  status : String
  notes : String
  createdAt : String
  completedAt : String
deriving DecidableEq

def TodoRow.toProto (r : TodoRow) : ProtoTodo where
  id := r.id
  task := r.task
  status := r.status
  notes := r.notes
  createdAt := r.createdAt
  completedAt := r.completedAt.getD ""

/-- The `as i32` of a count. -/
def asI32 (n : Nat) : Int := (BitVec.ofNat 32 n).toInt

/-! ## `LocalGateway` -/

namespace LocalGateway

def agentInfo (e : AgentEntry) : AgentInfo where
  name := e.name
  version := e.version
  endpoint := e.endpoint
  capabilities := e.capabilities
  lastSeen := e.lastSeen.getD ""
  healthy := true

def listAgents : Prog Directory Status (List AgentInfo) := Prog.look fun d => (Registry.list d.registry).map agentInfo

def health : Prog Directory Status HealthStatus := Prog.look fun d =>
  { ok := true, agentCount := asI32 d.registry.entries.length, peerCount := 0, natsOk := false, reconcilerLastRun := "" }

/-- `if e.to_string().contains("not found")`. -/
def notFoundOr (e : Err) : Status := if Reconciler.contains e.text "not found" then ⟨.notFound, e.text⟩ else internal e

def getSoul (name : String) : Prog World Status String := (IdentityStore.getSoul name).mapErr notFoundOr

def updateMemory (agentName appendMd : String) : Prog World Status Unit :=
  (IdentityStore.appendMemory agentName appendMd).mapErr internal

/-- The id of the todo is not passed on. -/
def appendTodo (agentName task now : String) (skipped : Nat) : Prog World Status Unit := do
  let _ ← (IdentityStore.appendTodo agentName task now skipped).mapErr internal

def listTodos (agentName : String) (includeDone : Bool) : Prog World Status (List ProtoTodo) := do
  let rows ← (IdentityStore.listTodos agentName includeDone).mapErr internal
  return rows.map TodoRow.toProto

def completeTodo (id : Int) (notes now : String) : Prog World Status Unit :=
  (IdentityStore.completeTodo id notes now).mapErr notFoundOr

end LocalGateway

/-! ## The HTTP server -/

namespace HttpServer

def agentJson (e : AgentEntry) : Json :=
  .obj [("name", .str e.name), ("version", .str e.version), ("endpoint", .str e.endpoint),
    ("capabilities", .arr (e.capabilities.map .str))]

/-- `GET /.well-known/agent.json` -/
def agentCard (gatewayName : String) : Prog Directory Status Json := Prog.look fun d =>
  let agents := Registry.list d.registry
  .obj [("schema_version", .str "0.3"), ("name", .str gatewayName),
    ("description", .str "a2a-gateway — Rust-native agent-to-agent communication hub"),
    ("version", .str packageVersion), ("capabilities", .arr ((agents.flatMap (·.capabilities)).map .str)),
    ("agents", .arr (agents.map agentJson)), ("endpoints", .obj [("jsonrpc", .str "/"), ("health", .str "/health")])]

/-- `GET /health` -/
def health (gatewayName : String) : Prog Directory Status Json := Prog.look fun d =>
  let agents := Registry.list d.registry
  let shown (e : AgentEntry) : Json :=
    .obj [("name", .str e.name), ("endpoint", .str e.endpoint), ("last_seen", (e.lastSeen.map Json.str).getD .null)]
  .obj [("ok", .bool true), ("gateway", .str gatewayName), ("version", .str packageVersion),
    ("agent_count", .num agents.length), ("agents", .arr (agents.map shown))]

end HttpServer

/-! ## `PeerGateway` -/

structure PeerHandshake where
  gatewayName : String
  version : String
  publicKey : String
  agentCard : String
deriving DecidableEq

structure SnapshotAnnouncement where
  projectId : String
  projectName : String
  snapshotId : String
  gatewayName : String
  jwt : String
deriving DecidableEq

structure AckResponse where
  ok : Bool
  error : String
deriving DecidableEq

namespace PeerHandler

/-- Like `ping`, it asks for no token. -/
def handshake (h : PeerHandler) (_ : PeerHandshake) : PeerHandshake where
  gatewayName := h.gatewayName
  version := packageVersion
  publicKey := ""
  agentCard := ""

/-- Whether the project is here or not, "just ack without action": "peer_sync will pull it". -/
def announceSnapshot (h : PeerHandler) (r : SnapshotAnnouncement) : Prog World Status AckResponse := do
  let _ ← h.authJwt r.jwt
  match ← (Projects.getByName r.projectName).mapErr internal with
  | none => return ⟨true, ""⟩
  | some _ => return ⟨true, ""⟩

end PeerHandler

end A2AGateway
