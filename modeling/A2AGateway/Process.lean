import A2AGateway.CursorPolling
import A2AGateway.GroupJoins
import A2AGateway.Handlers
import A2AGateway.StoredRows
import A2AGateway.WebAuth
import A2AGateway.WebServer

/-!
# The process (`main.rs`)

| here | there |
| --- | --- |
| `Wiring`                        | `main.rs:38-98`, the configuration and what is made of it |
| `startUp`                       | `main.rs:64-79` |
| `reconcilerRun`, `syncRun`      | `main.rs:115-137`, `spawn` of the two daemons |
| `HttpCall`, `WebCall`           | `http_server.rs:25-37`, `web/mod.rs:107-139`, the routes |
| `PeerCall`, `LanCall`           | `proto/peer.proto`, `proto/local.proto`, the services |
| `LibraryCall`                   | the routines of the stores that `main.rs` reaches by no way |

`Runs d v s i p`: on the site `s` the interface `i` may start the program `p`. Every request is a program of its own,
and all of them run side by side on one `Site`. What is answered is left out here; what is sent to others is kept.
-/

namespace A2AGateway

open Gw

/-! ## The site -/

/-- All that the process keeps, and all that it has sent to others. -/
structure Site where
  world : World
  registry : Registry
  published : List TaskAssigned
  todoMd : Option String
  pending : String → Option Onboarding.OnboardingPrompt
  pushed : List (String × String)
  dispatched : List (String × String)
  /-- Calls to agents. -/
  sent : List Forward
  /-- Context builds posted to agents. -/
  builds : List HttpRequest
  /-- Requests to Proxmox. -/
  containers : List HttpRequest

namespace Site

def gateway : Prog.Focus Site World where
  get s := s.world
  set world s := { s with world }
  get_set _ _ := rfl
  set_get _ := rfl
  set_set _ _ _ := rfl

def directory : Prog.Focus Site Directory where
  get s := ⟨s.world, s.registry⟩
  set d s := { s with world := d.world, registry := d.registry }
  get_set _ _ := rfl
  set_get _ := rfl
  set_set _ _ _ := rfl

def board : Prog.Focus Site Board where
  get s := ⟨s.world, s.published, s.todoMd⟩
  set b s := { s with world := b.world, published := b.published, todoMd := b.todoMd }
  get_set _ _ := rfl
  set_get _ := rfl
  set_set _ _ _ := rfl

def desk : Prog.Focus Site Onboarding.Desk where
  get s := ⟨s.world, s.pending, s.pushed, s.dispatched⟩
  set d s := { s with world := d.world, pending := d.pending, pushed := d.pushed, dispatched := d.dispatched }
  get_set _ _ := rfl
  set_get _ := rfl
  set_set _ _ _ := rfl

def traffic : Prog.Focus Site Traffic where
  get s := ⟨s.world, s.sent⟩
  set t s := { s with world := t.world, sent := t.sent }
  get_set _ _ := rfl
  set_get _ := rfl
  set_set _ _ _ := rfl

def outbox : Prog.Focus Site (Outbox World) where
  get s := ⟨s.world, s.builds⟩
  set o s := { s with world := o.state, builds := o.requests }
  get_set _ _ := rfl
  set_get _ := rfl
  set_set _ _ _ := rfl

def proxmox : Prog.Focus Site (Outbox Unit) where
  get s := ⟨(), s.containers⟩
  set o s := { s with containers := o.requests }
  get_set _ _ := rfl
  set_get _ := rfl
  set_set _ _ _ := rfl

/-- A site with this database and nothing else. -/
def start (world : World) : Site where
  world := world
  registry := ∅
  published := []
  todoMd := none
  pending _ := none
  pushed := []
  dispatched := []
  sent := []
  builds := []
  containers := []

end Site

/-- A request is answered, well or not; here only what it does counts. -/
def request {ε α : Type} (p : Prog Site ε α) : Prog Site Err Unit := p.outcome.bind fun _ => .ret ()

theorem moves_request {ε α : Type} {R : Site → Site → Prop} {p : Prog Site ε α} (h : p.Moves R) :
    (request p).Moves R := h.outcome.bind fun _ => trivial

theorem obeys_request {ε α : Type} {D : Discipline Site} {Q : Except ε α → Site → Prop} {p : Prog Site ε α} {s : Site}
    (h : p.Obeys D Q s) : (request p).Obeys D (fun _ _ => True) s :=
  (h.outcome (P := fun _ _ => True) fun _ _ _ => trivial).bind (fun _ _ _ => trivial) fun _ _ _ => trivial

/-! ## The wiring -/

/-- What the process is set up with. -/
structure Wiring where
  gateway : Gateway
  config : Config
  /-- `[[agents]]`: names and endpoints. -/
  seeds : List (String × String)
  peers : List PeerConfig
  /-- Whether `ENTROPY_WEBHOOK_URL` is set. -/
  webhook : Bool
  webToken : Option String
  lxc : Option LxcClient
  build : Build

namespace Wiring

variable (d : Wiring)

def handler : PeerHandler := ⟨d.gateway.name, d.gateway.auth⟩

def manager : Onboarding.Manager where
  gatewayName := d.gateway.name
  secret := d.gateway.secret
  webhook := d.webhook
  contextBuilder := true

end Wiring

/-- Those the process talks to. They answer as they like, and not always the same. -/
structure Others where
  agents : Agents
  /-- What agents answer to a context build. -/
  builders : List HttpRequest → HttpRequest → Except String HttpResponse
  proxmox : List HttpRequest → HttpRequest → Except String HttpResponse
  /-- How the body of an answer of Proxmox is read. -/
  lxcList : HttpResponse → Except String (List RawLxc)
  peer : PeerConfig → FarEnd Site
  /-- What a peer answers changes nothing here. -/
  apart : ∀ p, (peer p).Moves fun s s' => s' = s

/-! ## Requests -/

/-- A request with what the registry holds as it comes to it. -/
def withRegistry (p : Registry → Prog Site Err Unit) : Prog Site Err Unit := (Prog.look (·.registry)).bind p

inductive LanCall
  | register (lastSeen registeredAt : String) (m : AgentManifest)
  | heartbeat (now name : String)
  | call (newTraceId : Uuid) (r : CallRequest)
  | stream (r : CallRequest)
  | listAgents
  | health
  | getSoul (name : String)
  | updateMemory (agentName appendMd : String)
  | appendTodo (agentName task now : String) (skipped : Nat)
  | listTodos (agentName : String) (includeDone : Bool)
  | completeTodo (id : Int) (notes now : String)

inductive PeerCall
  | handshake (r : PeerHandshake)
  | delegate (r : DelegateRequest)
  | ping (r : PeerPing)
  | announceSnapshot (r : SnapshotAnnouncement)
  | fetchSnapshot (r : FetchSnapshotRequest)
  | fetchObject (r : FetchObjectRequest)
  | listProjects (r : ListProjectsRequest)
  | syncTaskLog (r : TaskLogSyncRequest)
  | joinGroup (r : JoinGroupRequest)

/-- The token that the request carries. -/
def PeerCall.jwt : PeerCall → Option String
  | delegate r => some r.jwt
  | announceSnapshot r => some r.jwt
  | fetchSnapshot r => some r.jwt
  | fetchObject r => some r.jwt
  | listProjects r => some r.jwt
  | syncTaskLog r => some r.jwt
  | joinGroup r => some r.jwt
  | handshake _ | ping _ => none

inductive HttpCall
  | agentCard
  | health
  | jsonrpc (taskId : Uuid) (r : JsonRpcRequest)

/-- The routes behind the token. The redirect and the two pages that only read are left out. -/
inductive WebCall
  | onboardPrompt (id : String)
  | onboardAnswer (entryId : Uuid) (id : String) (form : Web.OnboardForm)
  | taskLogPartial (id : String) (after : Option Int)
  | openContribution (proposalId : Uuid) (id : String) (form : Web.ContributionForm)
  | contributionDetail (propId : String)
  | castVote (voteId : Uuid) (propId : String) (form : Web.VoteForm)
  | reviewPr (propId action : String)
  | lxcList
  | lxcSpawn (agentName : String)
  | lxcStop (vmid : UInt32)

inductive LibraryCall
  | createProject (id : Uuid) (name repoUrl description originGateway peerGateway peerProjectId : String)
  | setVisibility (id : String) (next : Visibility)
  | setActive (id : String) (active : Bool)
  | scan (projectId : String)
  | startOnboarding (projectId : String)
  | contextReady (projectId summary : String)
  | createGroup (id : Uuid) (name description createdBy : String)
  | createInvite (token groupId createdBy : String)
  | addProject (groupId projectId : String)
  | append (id : Uuid) (projectId agentName : String) (entryType : EntryType) (content : String) (todoId : Option Int)
      (taskStatus : Option TaskStatus) (validTo : Option F64)
  | store (a : MemoryService.StoreArgs) (skipped : Nat)
  | expire (id : Int)
  | setSoul (agentName content : String) (force : Bool)

section
variable [Sha256] [HmacSha256] [SerdeJson] [SerdeStrings] [Lowercase] [Collation] (d : Wiring) (o : Others)

def LanCall.prog : LanCall → Prog Site Err Unit
  | register lastSeen registeredAt m => request ((LocalGateway.register lastSeen registeredAt m).within Site.directory)
  | heartbeat now name => request ((LocalGateway.heartbeat now name).within Site.directory)
  | call newTraceId r => withRegistry fun registry =>
    request ((LocalGateway.call ⟨d.config, registry⟩ o.agents newTraceId r).within Site.traffic)
  | stream r => withRegistry fun registry =>
    request ((LocalGateway.stream ⟨d.config, registry⟩ o.agents r).within Site.traffic)
  | listAgents => request (LocalGateway.listAgents.within Site.directory)
  | health => request (LocalGateway.health.within Site.directory)
  | getSoul name => request ((LocalGateway.getSoul name).within Site.gateway)
  | updateMemory agentName appendMd => request ((LocalGateway.updateMemory agentName appendMd).within Site.gateway)
  | appendTodo agentName task now skipped =>
    request ((LocalGateway.appendTodo agentName task now skipped).within Site.gateway)
  | listTodos agentName includeDone => request ((LocalGateway.listTodos agentName includeDone).within Site.gateway)
  | completeTodo id notes now => request ((LocalGateway.completeTodo id notes now).within Site.gateway)

def PeerCall.prog : PeerCall → Prog Site Err Unit
  | handshake r => request (Prog.look fun _ => d.handler.handshake r : Prog Site Status PeerHandshake)
  | delegate r => withRegistry fun registry => request ((d.handler.delegate registry o.agents r).within Site.traffic)
  | ping r => withRegistry fun registry =>
    request (Prog.look fun _ => d.handler.ping registry.entries.length r : Prog Site Status PeerStatus)
  | announceSnapshot r => request ((d.handler.announceSnapshot r).within Site.gateway)
  | fetchSnapshot r => request ((d.handler.fetchSnapshot r).within Site.gateway)
  | fetchObject r => request ((d.handler.fetchObject r).within Site.gateway)
  | listProjects r => request ((d.handler.listProjects r).within Site.gateway)
  | syncTaskLog r => request ((d.handler.syncTaskLog r).within Site.gateway)
  | joinGroup r => request ((d.handler.joinGroup r).within Site.gateway)

def HttpCall.prog : HttpCall → Prog Site Err Unit
  | agentCard => request ((HttpServer.agentCard d.gateway.name).within Site.directory)
  | health => request ((HttpServer.health d.gateway.name).within Site.directory)
  | jsonrpc taskId r => withRegistry fun registry =>
    request ((HttpServer.jsonrpcDispatch registry o.agents taskId r).within Site.traffic)

def WebCall.prog : WebCall → Prog Site Err Unit
  | onboardPrompt id => request ((Web.onboardPrompt id).within Site.desk)
  | onboardAnswer entryId id form => request ((Web.onboardAnswer d.manager entryId id form).within Site.desk)
  | taskLogPartial id after => request ((A2AGateway.taskLogPartial id after).within Site.gateway)
  | openContribution proposalId id form =>
    request ((Web.openContribution d.gateway.name proposalId id form).within Site.gateway)
  | contributionDetail propId => request ((Web.contributionDetail propId).within Site.gateway)
  | castVote voteId propId form => request ((Web.castVote d.gateway.name voteId propId form).within Site.gateway)
  | reviewPr propId action => request ((Web.reviewPr d.gateway.name propId action).within Site.gateway)
  | lxcList => request ((Web.lxcList o.proxmox o.lxcList d.lxc).within Site.proxmox)
  | lxcSpawn agentName => request ((Web.lxcSpawn o.proxmox o.lxcList d.build d.lxc agentName).within Site.proxmox)
  | lxcStop vmid => request ((Web.lxcStop o.proxmox d.lxc vmid).within Site.proxmox)

/-- The request as it comes in, past the middleware. -/
def WebCall.guarded (c : WebCall) (req : Web.WebRequest) : Prog Site Err Unit :=
  match Web.authMiddleware d.webToken req with
  | some .forward => c.prog d o
  | _ => return ()

def LibraryCall.prog : LibraryCall → Prog Site Err Unit
  | createProject id name repoUrl description origin peer peerId =>
    request ((Projects.create id name repoUrl description origin peer peerId).within Site.gateway)
  | setVisibility id next => request ((Projects.setVisibility id next).within Site.gateway)
  | setActive id active => request ((Projects.setActive id active).within Site.gateway)
  | scan projectId => request ((FileSync.scanAndSnapshot d.gateway.name projectId).within Site.gateway)
  | startOnboarding projectId => request ((Onboarding.start d.manager projectId).within Site.desk)
  | contextReady projectId summary => request ((Onboarding.contextReady d.manager projectId summary).within Site.desk)
  | createGroup id name description createdBy =>
    request ((Groups.createGroup id name description createdBy).within Site.gateway)
  | createInvite token groupId createdBy => request ((Groups.createInvite token groupId createdBy).within Site.gateway)
  | addProject groupId projectId => request ((Groups.addProject groupId projectId).within Site.gateway)
  | append id projectId agentName entryType content todoId taskStatus validTo =>
    request ((TaskLog.appendWithStatus d.gateway.secret id projectId d.gateway.name agentName entryType content todoId
      taskStatus validTo).within Site.gateway)
  | store a skipped => request ((MemoryService.store a skipped).within Site.gateway)
  | expire id => request ((MemoryService.expire id).within Site.gateway)
  | setSoul agentName content force => request ((IdentityStore.setSoul agentName content force).within Site.gateway)

/-! ## What runs by itself -/

/-- The registry is read from the table, then the agents of the configuration are put into both. -/
def startUp (now : String) : Prog Site Err Unit := request ((AgentCall.startUp d.seeds now).prog.within Site.directory)

def reconcilerRun (passes : List (Reconciler.Iteration × String)) : Prog Site Err Unit :=
  request ((Reconciler.spawn passes).within Site.board)

def syncRun (rounds : Nat) : Prog Site Err Unit := 
  request (PeerSync.daemon Site.gateway d.gateway (d.peers.map fun p => (p, o.peer p)) rounds)

/-- The task that `handle_files_answer` spawns. -/
def buildContext (order : Keyed.Iteration AgentEntry) (projectId projectName : String) : Prog Site Err Unit :=
  withRegistry fun registry => request
    ((ContextBuilder.dispatch ⟨registry, d.gateway.name⟩ order o.builders projectId projectName).within Site.outbox)

/-! ## Everything side by side -/

/-- Where a program under way comes from. -/
inductive Interface
  | startUp
  | lan
  | peer
  | http
  | web
  | builder
  | reconciler
  | sync
  | library
deriving DecidableEq

/-- What comes in at all. -/
structure Visitors where
  uses : Interface → Prop
  /-- The requests to the web UI. -/
  web : Web.WebRequest → Prop
  /-- The tokens that requests to the peer server carry. -/
  tokens : String → Prop

variable (v : Visitors)

inductive Runs (s : Site) : Interface → Prog Site Err Unit → Prop
  | startUp (now : String) : Runs s .startUp (startUp d now)
  | lan (o : Others) (c : LanCall) : Runs s .lan (c.prog d o)
  | peer (o : Others) (c : PeerCall) (h : ∀ jwt ∈ c.jwt, v.tokens jwt) : Runs s .peer (c.prog d o)
  | http (o : Others) (c : HttpCall) : Runs s .http (c.prog d o)
  | web (o : Others) (c : WebCall) {req : Web.WebRequest} (h : v.web req) : Runs s .web (c.guarded d o req)
  | builder (o : Others) (order : Keyed.Iteration AgentEntry) {x : String × String} (h : x ∈ s.dispatched) :
      Runs s .builder (buildContext d o order x.1 x.2)
  | reconciler (passes : List (Reconciler.Iteration × String)) : Runs s .reconciler (reconcilerRun passes)
  | sync (o : Others) (rounds : Nat) : Runs s .sync (syncRun d o rounds)
  | library (c : LibraryCall) : Runs s .library (c.prog d)

/-- The clock, the folders and what will fail change by themselves; a process that starts anew has no prompts. -/
def Site.Outside (s s' : Site) : Prop :=
  ∃ world pending, SameStored s.world world ∧ s' = { s with world, pending }

namespace Process

/-- The programs that may be started on a site. -/
def Starts (s : Site) (p : Prog Site Err Unit) : Prop := ∃ i, v.uses i ∧ Runs d v s i p

/-- Everything that has been started by the interfaces in use, side by side. -/
def Reached (init : Site → Prop) (c : Pool Site Err) : Prop := Pool.Reachable init (Starts d v) Site.Outside c

/-- The one state comes after the other. -/
def Later (c c' : Pool Site Err) : Prop := Relation.ReflTransGen (Pool.Step (Starts d v) Site.Outside) c c'

end Process

end

end A2AGateway
