import A2AGateway.Process

/-!
# Where rows come from

What any interface may write (`Writes`), and what it may add (`Adds`), whatever else is going on. Whoever is not let in
(`Admitted`, `Trusted`) adds nothing. From that, for every run of the process: nothing that is stored is ever lost
(`rows_last`), every row has come in by an interface that may bring it (`rows_traced`), and while nobody is let in no
project, group, invite, proposal or vote changes, and what a peer may bring comes from the configured peers
(`strangers_change_nothing`).
-/

namespace A2AGateway

open Gw PeerSync

/-! ## Who is let in -/

/-- The names that `register` takes. -/
def AgentName (name : String) : Prop :=
  name ≠ "" ∧ byteLen name.toList ≤ 64 ∧ name.toList.all fun c => c.isAlphanum || c == '-' || c == '_'

theorem agentName_of_validateManifest {m : AgentManifest} (h : LocalGateway.validateManifest m = .ok ()) :
    AgentName m.name := by
  unfold LocalGateway.validateManifest at h
  split at h
  · cases h
  · rename_i hlen
    rw [not_or] at hlen
    split at h
    · cases h
    · rename_i hchars
      exact ⟨hlen.1, Nat.le_of_not_lt hlen.2, not_not.1 hchars⟩

variable (d : Wiring) (v : Visitors)

/-- Some request to the web UI gets past the middleware. -/
def Admitted : Prop := ∃ req, v.web req ∧ Web.authMiddleware d.webToken req = some .forward

/-- Some token that is presented to the peer server is accepted at some time. -/
def Trusted : Prop :=
  ∃ jwt now claims, v.tokens jwt ∧ d.gateway.auth.validateFor jwt d.gateway.name now = .ok claims

/-! ## What each interface writes -/

/-- The tables. -/
inductive Writes : Interface → TableName → Prop
  | seeds : Writes .startUp .agents
  | seedMemories : Writes .startUp .memories
  | agents : Writes .lan .agents
  | memories : Writes .lan .memories
  | todos : Writes .lan .todos
  | invites (h : Trusted d v) : Writes .peer .invites
  | members (h : Trusted d v) : Writes .peer .groupMembers
  | projects (h : Admitted d v) : Writes .web .projects
  | log (h : Admitted d v) : Writes .web .taskLog
  | proposals (h : Admitted d v) : Writes .web .contributionProposals
  | votes (h : Admitted d v) : Writes .web .contributionVotes
  | projectTodos : Writes .reconciler .projectTodos
  | objects (h : d.peers ≠ []) : Writes .sync .objects
  | snapshots (h : d.peers ≠ []) : Writes .sync .snapshots
  | heads (h : d.peers ≠ []) : Writes .sync .projectHeads
  | peerLog (h : d.peers ≠ []) : Writes .sync .taskLog
  | cursors (h : d.peers ≠ []) : Writes .sync .peerCursorState
  | library (t : TableName) : Writes .library t

section
variable [Sha256] [HmacSha256]

/-- The rows. An agent is seeded or registers itself, an entry is the gateway's own or comes from a peer of the
writer's name, a snapshot from a peer; proposals and votes are made in the gateway's name. -/
inductive Adds : Interface → Row → Prop
  | seed {x : String × String} (h : x ∈ d.seeds) (now : String) : Adds .startUp (.agent x.1 now)
  | seedMemory {x : String × String} (h : x ∈ d.seeds) : Adds .startUp (.memory x.1)
  | agent {name : String} (h : AgentName name) (now : String) : Adds .lan (.agent name now)
  | memory {name : String} (h : AgentName name) : Adds .lan (.memory name)
  | todo (id : Int) (agentName task now : String) : Adds .lan (.todo id agentName task now)
  | member (h : Trusted d v) (m : GroupMember) : Adds .peer (.groupMember m)
  | own (h : Admitted d v) {r : LogRow} (hname : r.gatewayName = d.gateway.name)
      (hsigned : TaskLog.Signed d.gateway.secret r) : Adds .web (.log r)
  | proposal (h : Admitted d v) (id projectId agent snapshotId description : String) (gatewayCount : Int) (now : F64) :
      Adds .web (.proposal id projectId d.gateway.name agent snapshotId description gatewayCount now)
  | vote (h : Admitted d v) {b : Vote} (hname : b.gatewayName = d.gateway.name) : Adds .web (.vote b)
  | projectTodo (r : ProjectTodo) : Adds .reconciler (.projectTodo r)
  | object (h : d.peers ≠ []) (content : Bytes) : Adds .sync (.object ⟨Sha256.sha256Hex content, content.length⟩)
  | snapshot {peer : PeerConfig} (h : peer ∈ d.peers) {s : Snapshot} (hname : s.gateway = peer.name) :
      Adds .sync (.snapshot s)
  | head (h : d.peers ≠ []) (projectId : String) : Adds .sync (.projectHead projectId)
  | cursor {peer : PeerConfig} (h : peer ∈ d.peers) (projectId : String) : Adds .sync (.peerCursor peer.name projectId)
  | entry {peer : PeerConfig} (h : peer ∈ d.peers) {remoteId : String} {e : ProtoLogEntry}
      (hacc : accepts d.gateway.secret peer remoteId e = true) (localId : String) :
      Adds .sync (.log ((reconstruct remoteId e).toRow localId))
  | library (r : Row) : Adds .library r

/-- What a step of the interface may do to what is stored. -/
abbrev Steps (i : Interface) : World → World → Prop := Frame (Writes d v i) (Adds d v i)

/-- A step that does this to what is stored, and leaves alone the registry and what is sent to agents. -/
def Carries (i : Interface) (R : Site → Site → Prop) : Prop :=
  ∀ s s' : Site, Steps d v i s.world s'.world → s'.registry = s.registry → s'.sent = s.sent → s'.builds = s.builds → R s s'

variable {d v} {i : Interface} {R : Site → Site → Prop}

theorem Carries.gateway (hR : Carries d v i R) {ε α : Type} {p : Prog World ε α} (h : p.Moves (Steps d v i)) :
    (request (p.within Site.gateway)).Moves R :=
  moves_request (h.within_of fun _ _ hw => hR _ _ hw rfl rfl rfl)

theorem Carries.desk (hR : Carries d v i R) {ε α : Type} {p : Prog Onboarding.Desk ε α}
    (h : p.Moves fun x y => Steps d v i x.world y.world) : (request (p.within Site.desk)).Moves R :=
  moves_request (h.within_of fun _ _ hw => hR _ _ hw rfl rfl rfl)

theorem Carries.refl (hR : Carries d v i R) (s : Site) : R s s := hR _ _ (.refl _) rfl rfl rfl

/-! ## What the interfaces do -/

/-! ### The peer server -/

namespace PeerHandler

omit [Sha256] [HmacSha256] in
/-- A handler that asks for a token does what it does when it has one. -/
theorem frames_authJwt_bind {may : TableName → Prop} {fresh : Row → Prop} {α : Type} {jwt : String}
    {g : PeerClaims → Prog World Status α}
    (hg : ∀ now claims, d.handler.auth.validateFor jwt d.handler.gatewayName now = .ok claims →
      (g claims).Moves (Frame may fresh)) : ((d.handler.authJwt jwt).bind g).Moves (Frame may fresh) := by
  unfold authJwt
  simp only [Prog.bind_eq, Prog.bind_assoc]
  refine (Prog.moves_look .refl _).bind fun now => ?_
  cases hval : d.handler.auth.validateFor jwt d.handler.gatewayName now with
  | ok claims => exact hg now claims hval
  | error e => trivial

theorem steps_joinGroup {r : JoinGroupRequest} (h : v.tokens r.jwt) :
    (d.handler.joinGroup r).Moves (Steps d v .peer) := by
  unfold joinGroup
  refine frames_authJwt_bind fun now claims hval => ?_
  have htrusted : Trusted d v := ⟨r.jwt, now, claims, h, hval⟩
  refine Prog.Moves.bind (Prog.Moves.mapErr ?_) fun _ => trivial
  exact Groups.frames_consumeInvite (.invites htrusted) (.members htrusted) fun _ _ _ => .member htrusted _

omit [Sha256] [HmacSha256] in
theorem frames_announceSnapshot {may : TableName → Prop} {fresh : Row → Prop} (h : PeerHandler) (r : SnapshotAnnouncement) :
    (h.announceSnapshot r).Moves (Frame may fresh) := by
  unfold announceSnapshot
  refine (h.moves_authJwt .refl r.jwt).bind fun _ => (frames_fetch (α := Option Project)).mapErr.bind fun p => ?_
  cases p <;> trivial

end PeerHandler

/-- The requests of peers, but for `Delegate`. -/
theorem PeerCall.steps (hR : Carries d v .peer R) (o : Others) (c : PeerCall) (h : ∀ jwt ∈ c.jwt, v.tokens jwt)
    (hdelegate : ∀ r, c ≠ .delegate r) : (c.prog d o).Moves R := by
  have hlook : ∀ {α : Type} (f : Site → α), (request (Prog.look f : Prog Site Status α)).Moves R := fun f =>
    moves_request (Prog.moves_look hR.refl f)
  cases c with
  | handshake r => exact hlook _
  | delegate r => exact absurd rfl (hdelegate r)
  | ping r => exact (Prog.moves_look hR.refl _).bind fun _ => hlook _
  | announceSnapshot r => exact hR.gateway (d.handler.frames_announceSnapshot r)
  | fetchSnapshot r => exact hR.gateway (d.handler.moves_fetchSnapshot .refl .tick r)
  | fetchObject r => exact hR.gateway (d.handler.moves_fetchObject .refl .tick r)
  | listProjects r => exact hR.gateway (d.handler.moves_listProjects .refl .tick r)
  | syncTaskLog r => exact hR.gateway (d.handler.moves_syncTaskLog .refl .tick r)
  | joinGroup r => exact hR.gateway (PeerHandler.steps_joinGroup (h r.jwt rfl))

/-! ### The web UI -/

namespace Web

omit [Sha256] in
theorem frames_onboardAnswer {may : TableName → Prop} {fresh : Row → Prop} {m : Onboarding.Manager} (hp : may .projects)
    (hl : may .taskLog) (hfresh : ∀ r : LogRow, r.gatewayName = m.gatewayName → TaskLog.Signed m.secret r → fresh (.log r))
    (entryId : Uuid) (id : String) (form : OnboardForm) :
    (onboardAnswer m entryId id form).Moves fun x y => Frame may fresh x.world y.world := by
  unfold onboardAnswer onboardPrompt Onboarding.peekPrompt
  refine Prog.Moves.bind (Prog.Moves.mapErr ?_) fun _ => ?_
  · refine Onboarding.frames_answer hp (fun _ _ hw => hw) (fun x y hsame => ?_) hl hfresh entryId id form.step form.value
    rw [hsame]
    exact .refl _
  · exact (Prog.moves_look (fun _ => .refl _) _).mapErr.bind fun _ => trivial

section
variable (h : Admitted d v)
include h

theorem steps_openContribution (proposalId : Uuid) (id : String) (form : ContributionForm) :
    (openContribution d.gateway.name proposalId id form).Moves (Steps d v .web) := by
  unfold openContribution Groups.gatewayCountForProject
  refine frames_query.mapErr.attempt.bind fun gwCount => Prog.Moves.bind (Prog.Moves.mapErr ?_) fun _ => trivial
  exact Contributions.frames_open (.proposals h) fun _ => .proposal h ..

theorem steps_castVote (voteId : Uuid) (propId : String) (form : VoteForm) :
    (castVote d.gateway.name voteId propId form).Moves (Steps d v .web) := by
  refine Prog.Moves.bind (Prog.Moves.mapErr ?_) fun _ => trivial
  exact Contributions.frames_castVote (.proposals h) (.votes h) fun _ => .vote h rfl

theorem steps_reviewPr (propId action : String) : (reviewPr d.gateway.name propId action).Moves (Steps d v .web) := by
  unfold reviewPr
  split
  · exact (Contributions.frames_acceptPr (.proposals h) _ _).mapErr.bind fun _ => trivial
  · exact (Contributions.frames_rejectPr (.proposals h) _ _).mapErr.bind fun _ => trivial

theorem steps_onboardAnswer (entryId : Uuid) (id : String) (form : OnboardForm) :
    (onboardAnswer d.manager entryId id form).Moves fun x y => Steps d v .web x.world y.world :=
  frames_onboardAnswer (.projects h) (.log h) (fun _ hname hsigned => .own h hname hsigned) entryId id form

end

omit [Sha256] [HmacSha256] in
theorem frames_contributionDetail {may : TableName → Prop} {fresh : Row → Prop} (propId : String) :
    (contributionDetail propId).Moves (Frame may fresh) := by
  unfold contributionDetail
  refine (frames_fetch (α := Option Proposal)).mapErr.bind fun p => ?_
  cases p <;> trivial

end Web

/-- The requests to the web UI, when someone is let in. -/
theorem WebCall.steps (hR : Carries d v .web R) (o : Others) (c : WebCall) (h : Admitted d v) : (c.prog d o).Moves R := by
  have hlxc : ∀ {ε α : Type} (p : Prog (Outbox Unit) ε α), (request (p.within Site.proxmox)).Moves R := fun p =>
    moves_request (Prog.moves_within (fun s _ => hR s _ (.refl _) rfl rfl rfl) p)
  cases c with
  | onboardPrompt id =>
    unfold WebCall.prog Web.onboardPrompt Onboarding.peekPrompt
    exact hR.desk ((Prog.moves_look (fun _ => .refl _) _).mapErr.bind fun _ => trivial)
  | onboardAnswer entryId id form => exact hR.desk (Web.steps_onboardAnswer h entryId id form)
  | taskLogPartial id after =>
    unfold WebCall.prog A2AGateway.taskLogPartial
    exact hR.gateway (frames_fetch.bind fun _ => trivial)
  | openContribution proposalId id form => exact hR.gateway (Web.steps_openContribution h proposalId id form)
  | contributionDetail propId => exact hR.gateway (Web.frames_contributionDetail propId)
  | castVote voteId propId form => exact hR.gateway (Web.steps_castVote h voteId propId form)
  | reviewPr propId action => exact hR.gateway (Web.steps_reviewPr h propId action)
  | lxcList => exact hlxc _
  | lxcSpawn agentName => exact hlxc _
  | lxcStop vmid => exact hlxc _

theorem WebCall.steps_guarded (hR : Carries d v .web R) (o : Others) (c : WebCall) {req : Web.WebRequest} (h : v.web req) :
    (c.guarded d o req).Moves R := by
  unfold guarded
  split
  · rename_i hforward
    exact c.steps hR o ⟨req, h, hforward⟩
  · trivial

/-! ### The daemons -/

section
variable [SerdeStrings] [Lowercase] [Collation]

theorem steps_reconciler (hR : Carries d v .reconciler R) (passes : List (Reconciler.Iteration × String)) :
    (reconcilerRun passes).Moves R := by
  have hpass : ∀ passes, (Reconciler.spawn passes).Moves fun x y => Steps d v .reconciler x.world y.world := by
    intro passes
    induction passes with
    | nil => trivial
    | cons pass passes ih =>
      refine (Prog.Moves.attempt ?_).bind fun _ => ih
      exact Reconciler.frames_runOnce (fun _ _ hw => hw) (fun _ _ => .refl _) .projectTodos (fun r _ => .projectTodo r)
        (fun _ _ => .tick _) pass.1
  exact moves_request ((hpass passes).within_of fun _ _ hw => hR _ _ hw rfl rfl rfl)

end

omit [Sha256] [HmacSha256] in
theorem FarEnd.Moves.mono {σ : Type} {far : FarEnd σ} {R R' : σ → σ → Prop} (h : far.Moves R) (hle : ∀ s s', R s s' → R' s s') :
    far.Moves R' where
  syncTaskLog r := (h.syncTaskLog r).mono hle
  fetchSnapshot r := (h.fetchSnapshot r).mono hle
  fetchObject n r := (h.fetchObject n r).mono hle
  connect := h.connect.mono hle
  ping r := (h.ping r).mono hle
  listProjects r := (h.listProjects r).mono hle

/-- What a round does for a peer. -/
theorem stepsAlong_peer {peer : PeerConfig} (h : peer ∈ d.peers) :
    StepsAlong d.gateway.secret peer (Steps d v .sync) := by
  have hpeers : d.peers ≠ [] := List.ne_nil_of_mem h
  refine ⟨.tick, fun data => ?_, fun remoteId localId e hacc => ?_, fun localId c => ?_, fun localId snapId transcript => ?_⟩
  · exact ObjectStore.frames_put (.objects hpeers) data (.object hpeers data)
  · exact TaskLog.frames_insertPeerEntry (.peerLog hpeers) (.entry h hacc localId)
  · exact frames_updatePeerCursor (.cursors hpeers) (.cursor h localId) c
  · exact FileSync.frames_applyPeerSnapshot (.snapshots hpeers) (.heads hpeers) (.head hpeers _) fun _ => .snapshot h rfl

theorem steps_sync (hR : Carries d v .sync R) (o : Others) (rounds : Nat) : (syncRun d o rounds).Moves R := by
  refine moves_request (moves_daemon hR.refl (fun _ _ hw => hR _ _ hw rfl rfl rfl) (fun x hx => ?_) rounds)
  obtain ⟨peer, hpeer, rfl⟩ := List.mem_map.1 hx
  refine ⟨stepsAlong_peer hpeer, (o.apart peer).mono fun s s' hsame => ?_⟩
  rw [hsame]
  exact hR.refl s

/-! ### The library -/

theorem LibraryCall.steps (hR : Carries d v .library R) (c : LibraryCall) : (c.prog d).Moves R := by
  have hdesk : ∀ x y : Onboarding.Desk, y.world = x.world → Steps d v .library x.world y.world := by
    intro x y hsame
    rw [hsame]
    exact .refl _
  cases c with
  | createProject id name repoUrl description origin peer peerId =>
    exact hR.gateway (Projects.frames_create (.library _) fun _ => .library _)
  | setVisibility id next => exact hR.gateway (Projects.frames_setVisibility (.library _) id next)
  | setActive id active => exact hR.gateway (Projects.frames_setActive (.library _) id active)
  | scan projectId =>
    exact hR.gateway (FileSync.frames_scanAndSnapshot (.library _) (.library _) (.library _) (.library _)
      (fun _ => .library _) fun _ _ => .library _)
  | startOnboarding projectId => exact hR.desk (Onboarding.frames_start (fun _ _ hw => hw) hdesk projectId)
  | contextReady projectId summary =>
    exact hR.desk (Onboarding.frames_contextReady (.library _) (fun _ _ hw => hw) hdesk projectId summary)
  | createGroup id name description createdBy =>
    exact hR.gateway (Groups.frames_createGroup (.library _) (.library _) (fun _ => .library _) fun _ => .library _)
  | createInvite token groupId createdBy => exact hR.gateway (Groups.frames_createInvite (.library _) fun _ => .library _)
  | addProject groupId projectId => exact hR.gateway (Groups.frames_addProject (.library _) fun _ => .library _)
  | append id projectId agentName entryType content todoId taskStatus validTo =>
    exact hR.gateway (TaskLog.frames_appendWithStatus (.library _) fun _ _ _ => .library _)
  | store a skipped => exact hR.gateway (MemoryService.frames_store (.library _) (fun _ _ => .library _) skipped)
  | expire id => exact hR.gateway (MemoryService.frames_expire (.library _) id)
  | setSoul agentName content force => exact hR.gateway (IdentityStore.frames_setSoul (.library _) agentName content force)

/-! ### The agents -/

section
variable [SerdeStrings]

/-- On the registry and the database together. -/
def StepsIn (d : Wiring) (v : Visitors) (i : Interface) (x y : Directory) : Prop := Steps d v i x.world y.world

omit [SerdeStrings] in
theorem StepsIn.request {ε α : Type} {p : Prog Directory ε α} (h : p.Moves (StepsIn d v i)) :
    (request (p.within Site.directory)).Moves fun s s' => Steps d v i s.world s'.world :=
  moves_request (h.within_of fun _ _ hw => hw)

theorem steps_upsert {entry : AgentEntry} (ha : Writes d v i .agents) (hm : Writes d v i .memories)
    (hagent : Adds d v i (.agent entry.name entry.registeredAt)) (hmemory : Adds d v i (.memory entry.name)) :
    (Registry.upsert entry).Moves (StepsIn d v i) :=
  Registry.frames_upsert ha hm hagent hmemory (fun _ _ hw => hw) fun _ => .refl _

theorem steps_startUp (now : String) : (startUp d now).Moves fun s s' => Steps d v .startUp s.world s'.world := by
  refine StepsIn.request ?_
  have hread : (query .sqlx fun db => db.agents.rows).Moves (Steps d v .startUp) := frames_query
  unfold AgentCall.prog Registry.new
  refine Prog.Moves.bind (Prog.Moves.mapErr ?_) fun registry => Prog.Moves.bind ?_ fun _ => Prog.Moves.forEach fun x hx => ?_
  · exact Prog.Moves.within_of (fun _ _ hw => hw) (hread.bind fun _ => trivial)
  · exact Prog.Moves.mapErr ⟨fun _ => .refl _, fun _ => trivial⟩
  · exact (steps_upsert .seeds .seedMemories (.seed hx now) (.seedMemory hx)).mapErr

theorem steps_register (lastSeen registeredAt : String) (m : AgentManifest) :
    (LocalGateway.register lastSeen registeredAt m).Moves (StepsIn d v .lan) := by
  unfold LocalGateway.register
  cases hvalid : LocalGateway.validateManifest m with
  | error e => trivial
  | ok u =>
    have hname := agentName_of_validateManifest hvalid
    refine Prog.Moves.bind (Prog.moves_ofExcept _) fun _ => ?_
    refine (steps_upsert .agents .memories (.agent hname _) (.memory hname)).mapErr.bind fun _ => ?_
    split
    · refine Prog.Moves.bind (Prog.Moves.mapErr ?_) fun _ => trivial
      exact (IdentityStore.frames_setSoul .agents _ _ _).within_of fun _ _ hw => hw
    · trivial

omit [SerdeStrings] in
theorem steps_heartbeat (now name : String) : (LocalGateway.heartbeat now name).Moves (StepsIn d v .lan) := by
  unfold LocalGateway.heartbeat Registry.heartbeat
  refine Prog.Moves.bind (Prog.Moves.mapErr (Prog.Moves.bind (Prog.Moves.within_of (fun _ _ hw => hw) ?_) fun rows => ?_))
    fun found => ?_
  · refine frames_statement .agents fun _ db _ db' hdb => ?_
    cases hdb
    exact Puts.update (t := .agents) fun _ => rfl
  · split
    · exact Prog.Moves.bind ⟨fun _ => .refl _, fun _ => trivial⟩ fun _ => trivial
    · trivial
  · split <;> trivial

variable [SerdeJson]

omit [Sha256] [HmacSha256] [SerdeStrings] [SerdeJson] in
/-- A call to an agent changes nothing that is stored. -/
theorem steps_traffic {may : TableName → Prop} {fresh : Row → Prop} {ε α : Type} {p : Prog Traffic ε α}
    (h : p.Moves fun x y => SameStored x.world y.world) :
    (request (p.within Site.traffic)).Moves fun s s' => Frame may fresh s.world s'.world :=
  moves_request (h.within_of fun _ _ hw => .of_same hw)

omit [Sha256] [HmacSha256] [SerdeStrings] [SerdeJson] in
theorem same_look {may : TableName → Prop} {fresh : Row → Prop} {α : Type} (f : Site → α)
    {g : α → Prog Site Err Unit} (hg : ∀ a, (g a).Moves fun s s' => Frame may fresh s.world s'.world) :
    ((Prog.look f).bind g).Moves fun s s' => Frame may fresh s.world s'.world :=
  (Prog.moves_look (fun _ => .refl _) f).bind hg

namespace Agents

omit [Sha256] [HmacSha256] [SerdeStrings] [SerdeJson] in
theorem same_sendPost {ε : Type} (a : Agents) (url : String) (body : Bytes) :
    (a.sendPost url body : Prog Traffic ε _).Moves fun x y => SameStored x.world y.world :=
  ⟨fun _ => rfl, fun _ => trivial⟩

end Agents

omit [Sha256] [HmacSha256] [SerdeStrings] [SerdeJson] in
theorem LocalGateway.same_call (router : Router) (agents : Agents) (newTraceId : Uuid) (r : CallRequest) :
    (LocalGateway.call router agents newTraceId r).Moves fun x y => SameStored x.world y.world := by
  unfold LocalGateway.call
  refine (Prog.moves_ofExcept _).mapErr.bind fun decision => (Prog.moves_ofExcept _).mapErr.bind fun _ =>
    (Prog.moves_ofExcept _).mapErr.bind fun _ => Prog.Moves.mapErr (Prog.moves_prim fun _ => rfl)

omit [Sha256] [HmacSha256] [SerdeStrings] in
theorem LocalGateway.same_stream (router : Router) (agents : Agents) (r : CallRequest) :
    (LocalGateway.stream router agents r).Moves fun x y => SameStored x.world y.world := by
  unfold LocalGateway.stream
  refine (Prog.moves_ofExcept _).mapErr.bind fun decision => (agents.same_sendPost _ _).bind fun answer => ?_
  split <;> trivial

omit [Sha256] [HmacSha256] [SerdeStrings] in
theorem HttpServer.same_jsonrpcDispatch (registry : Registry) (agents : Agents) (taskId : Uuid) (r : JsonRpcRequest) :
    (HttpServer.jsonrpcDispatch registry agents taskId r).Moves fun x y => SameStored x.world y.world := by
  unfold HttpServer.jsonrpcDispatch HttpServer.tasksSend
  split
  · trivial
  · split
    · split
      · trivial
      · split
        · trivial
        · refine (agents.same_sendPost _ _).bind fun answer => ?_
          split <;> trivial
    · split
      · trivial
      · split <;> trivial

omit [Sha256] [HmacSha256] [SerdeStrings] [SerdeJson] in
theorem PeerHandler.same_delegate (h : PeerHandler) (registry : Registry) (agents : Agents) (r : DelegateRequest) :
    (h.delegate registry agents r).Moves fun x y => SameStored x.world y.world := by
  unfold PeerHandler.delegate
  refine Prog.Moves.bind (Prog.Moves.within_of (fun _ _ hw => hw) (h.moves_authJwt .refl r.jwt)) fun _ => ?_
  split
  · trivial
  · refine (agents.same_sendPost _ _).bind fun answer => ?_
    split <;> trivial

omit [Sha256] [HmacSha256] [SerdeStrings] [SerdeJson] in
theorem steps_builder {may : TableName → Prop} {fresh : Row → Prop} (o : Others) (order : Keyed.Iteration AgentEntry)
    (projectId projectName : String) :
    (buildContext d o order projectId projectName).Moves fun s s' => Frame may fresh s.world s'.world := by
  refine same_look _ fun registry => moves_request ?_
  have hdispatch : (ContextBuilder.dispatch ⟨registry, d.gateway.name⟩ order o.builders projectId projectName).Moves
      fun x y => Frame may fresh x.state y.state := by
    unfold ContextBuilder.dispatch
    split
    · trivial
    · refine Prog.Moves.bind (Prog.Moves.within_of (fun _ _ hw => hw) frames_fetch) fun entries => ?_
      exact Prog.Moves.bind (Prog.moves_prim fun _ => .refl _) fun _ => trivial
  exact hdispatch.within_of fun _ _ hw => hw

theorem LanCall.steps (o : Others) (c : LanCall) : (c.prog d o).Moves fun s s' => Steps d v .lan s.world s'.world := by
  have hgateway : ∀ {ε α : Type} {p : Prog World ε α}, p.Moves (Steps d v .lan) →
      (request (p.within Site.gateway)).Moves fun s s' => Steps d v .lan s.world s'.world :=
    fun h => moves_request (h.within_of fun _ _ hw => hw)
  cases c with
  | register lastSeen registeredAt m => exact StepsIn.request (steps_register lastSeen registeredAt m)
  | heartbeat now name => exact StepsIn.request (steps_heartbeat now name)
  | call newTraceId r => exact same_look _ fun registry => steps_traffic (LocalGateway.same_call _ _ _ _)
  | stream r => exact same_look _ fun registry => steps_traffic (LocalGateway.same_stream _ _ _)
  | listAgents => exact StepsIn.request (Prog.moves_look (fun _ => .refl _) _)
  | health => exact StepsIn.request (Prog.moves_look (fun _ => .refl _) _)
  | getSoul name => exact hgateway (IdentityStore.frames_getSoul name).mapErr
  | updateMemory agentName appendMd => exact hgateway (IdentityStore.frames_appendMemory agentName appendMd).mapErr
  | appendTodo agentName task now skipped =>
    exact hgateway ((IdentityStore.frames_appendTodo .todos (fun id => .todo id agentName task now) skipped).mapErr.bind
      fun _ => trivial)
  | listTodos agentName includeDone =>
    exact hgateway ((IdentityStore.frames_listTodos agentName includeDone).mapErr.bind fun _ => trivial)
  | completeTodo id notes now => exact hgateway (IdentityStore.frames_completeTodo .todos id notes now).mapErr

omit [Sha256] [HmacSha256] [SerdeStrings] in
theorem HttpCall.steps {may : TableName → Prop} {fresh : Row → Prop} (o : Others) (c : HttpCall) :
    (c.prog d o).Moves fun s s' => Frame may fresh s.world s'.world := by
  have hlook : ∀ f : Directory → Json, (request ((Prog.look f : Prog Directory Status Json).within Site.directory)).Moves
      fun s s' => Frame may fresh s.world s'.world := by
    intro f
    rw [Prog.within_look]
    exact moves_request (Prog.moves_look (fun _ => .refl _) _)
  cases c with
  | agentCard => exact hlook _
  | health => exact hlook _
  | jsonrpc taskId r => exact same_look _ fun registry => steps_traffic (HttpServer.same_jsonrpcDispatch _ _ _ _)

/-- **Whatever an interface starts does what the interface may do.** -/
theorem Runs.steps [Lowercase] [Collation] {s : Site} {p : Prog Site Err Unit} (h : Runs d v s i p) :
    p.Moves fun s s' => Steps d v i s.world s'.world := by
  have hcarries : ∀ i, Carries d v i fun s s' => Steps d v i s.world s'.world := fun _ _ _ hw _ _ _ => hw
  cases h with
  | startUp now => exact steps_startUp now
  | lan o c => exact c.steps o
  | peer o c htokens =>
    by_cases hdelegate : ∃ r, c = .delegate r
    · obtain ⟨r, rfl⟩ := hdelegate
      exact same_look _ fun registry => steps_traffic (PeerHandler.same_delegate _ _ _ _)
    · exact c.steps (hcarries _) o htokens fun r hr => hdelegate ⟨r, hr⟩
  | http o c => exact c.steps o
  | web o c hreq => exact c.steps_guarded (hcarries _) o hreq
  | builder o order hx => exact steps_builder o order _ _
  | reconciler passes => exact steps_reconciler (hcarries _) passes
  | sync o rounds => exact steps_sync (hcarries _) o rounds
  | library c => exact c.steps (hcarries _)

end

end

/-! ## Every run -/

/-- Every row references what is there. -/
def Intact (db : Db) : Prop := ∀ t, ∀ r ∈ db.lasting t, Refers db r

theorem intact_empty : Intact Db.empty := by
  intro t r hr
  cases t <;> cases hr

section
variable [Sha256] [HmacSha256]

/-- What the interfaces in use may write, and what they may add. -/
def MayWrite (t : TableName) : Prop := ∃ i, v.uses i ∧ Writes d v i t

def MayAdd (r : Row) : Prop := ∃ i, v.uses i ∧ Adds d v i r

def storing : Discipline Site where
  inv _ := True
  step s s' := Frame (MayWrite d v) (MayAdd d v) s.world s'.world
  refl _ := .refl _
  trans _ _ _ := .trans _ _ _

variable [SerdeJson] [SerdeStrings] [Lowercase] [Collation] {d v} {init : Site → Prop} {c c' : Pool Site Err}

/-- One step: of a program that is under way, or from outside. -/
theorem obeys_storing {s : Site} {p : Prog Site Err Unit} (h : Process.Starts d v s p) :
    p.Obeys (storing d v) (fun _ _ => True) s := by
  obtain ⟨i, hused, hruns⟩ := h
  have hmoves : p.Moves fun s s' => (storing d v).inv s → (storing d v).step s s' ∧ (storing d v).inv s' := by
    refine hruns.steps.mono fun s s' hstep _ => ⟨?_, trivial⟩
    exact hstep.mono (fun t ht => ⟨i, hused, ht⟩) fun r hr => ⟨i, hused, hr⟩
  exact (hmoves.obeys ((storing d v).refl s)).post fun _ _ _ => trivial

/-- All steps together. -/
theorem Process.Reached.frame (h : Process.Reached d v init c) (hl : Process.Later d v c c') :
    Frame (MayWrite d v) (MayAdd d v) c.state.world c'.state.world := by
  refine Pool.Reachable.along (D := storing d v) h hl (fun _ _ => trivial) (fun _ _ _ hp => obeys_storing hp) ?_
  rintro s s' - ⟨world, pending, hsame, rfl⟩
  exact ⟨.of_same hsame, trivial⟩

theorem Process.Reached.from_start (h : Process.Reached d v init c) :
    ∃ s, init s ∧ Frame (MayWrite d v) (MayAdd d v) s.world c.state.world := by
  obtain ⟨s, hs, hrun⟩ := h
  have hstart : Process.Reached d v init ⟨s, []⟩ := .initial hs
  exact ⟨s, hs, hstart.frame hrun⟩

theorem Process.Reached.later (h : Process.Reached d v init c) (hl : Process.Later d v c c') : Process.Reached d v init c' := by
  obtain ⟨s, hs, hrun⟩ := h
  exact ⟨s, hs, hrun.trans hl⟩

omit [Sha256] [HmacSha256] [SerdeJson] [SerdeStrings] [Lowercase] [Collation] in
theorem Intact.of_frame {may : TableName → Prop} {fresh : Row → Prop} {w w' : World} (h : Intact w.db)
    (hframe : Frame may fresh w w') : Intact w'.db := by
  intro t r hr
  rcases (hframe.rows t).mem hr with hold | ⟨-, hrefers⟩
  · exact (h t r hold).of_lasting fun t => (hframe.rows t).subset
  · exact hrefers

theorem Process.Reached.intact (hinit : ∀ s, init s → Intact s.world.db) (h : Process.Reached d v init c) :
    Intact c.state.world.db := by
  obtain ⟨s, hs, hall⟩ := h.from_start
  exact (hinit s hs).of_frame hall

/-- **Every row has come in by an interface in use that may bring it**, and no other interface changes a table. -/
theorem rows_traced (h : Process.Reached d v init c) (hl : Process.Later d v c c') :
    (∀ t, ∀ r ∈ c'.state.world.db.lasting t, r ∈ c.state.world.db.lasting t ∨ ∃ i, v.uses i ∧ Adds d v i r) ∧
      (∀ t, (∀ i, v.uses i → ¬ Writes d v i t) → c'.state.world.db.table t = c.state.world.db.table t) ∧
      ((∀ i, v.uses i → ¬ Writes d v i .objects) → c'.state.world.disk = c.state.world.disk) := by
  have hframe := h.frame hl
  refine ⟨fun t r hr => ?_, fun t ht => hframe.others t ?_, fun ho => hframe.files ?_⟩
  · exact ((hframe.rows t).mem hr).imp_right And.left
  · rintro ⟨i, hused, hwrites⟩
    exact ht i hused hwrites
  · rintro ⟨i, hused, hwrites⟩
    exact ho i hused hwrites

/-! ### Strangers -/

/-- The tables that anyone on the local network may write, or the gateway by itself. -/
def openTables : List TableName := [.agents, .memories, .todos, .projectTodos]

/-- The tables that a round with a peer may write. -/
def syncedTables : List TableName := [.objects, .snapshots, .projectHeads, .taskLog, .peerCursorState]

omit [Sha256] [HmacSha256] [SerdeJson] [SerdeStrings] [Lowercase] [Collation] in
/-- Without a token, the other tables are written by the library alone, and those of a round by the round. -/
theorem Writes.of_strangers {i : Interface} {t : TableName} (hweb : ¬ Admitted d v) (hpeer : ¬ Trusted d v)
    (h : Writes d v i t) : t ∈ openTables ∨ i = .sync ∧ d.peers ≠ [] ∧ t ∈ syncedTables ∨ i = .library := by
  cases h with
  | seeds | seedMemories | agents | memories | todos | projectTodos => exact Or.inl (by decide)
  | invites h | members h => exact absurd h hpeer
  | projects h | log h | proposals h | votes h => exact absurd h hweb
  | objects h | snapshots h | heads h | peerLog h | cursors h => exact Or.inr (Or.inl ⟨rfl, h, by decide⟩)
  | library t => exact Or.inr (Or.inr rfl)

/-- As a round with a configured peer may bring it: an entry that the peer has signed, a snapshot in its name, where the
gateway has come to in its log, an object under the hash of its content. -/
def FromPeers (d : Wiring) : Row → Prop
  | .log r => ∃ peer ∈ d.peers, ∃ remoteId e localId, accepts d.gateway.secret peer remoteId e = true ∧
      r = (reconstruct remoteId e).toRow localId
  | .snapshot s => ∃ peer ∈ d.peers, s.gateway = peer.name
  | .projectHead _ => d.peers ≠ []
  | .peerCursor name _ => ∃ peer ∈ d.peers, name = peer.name
  | .object o => d.peers ≠ [] ∧ ∃ content : Bytes, o = ⟨Sha256.sha256Hex content, content.length⟩
  | _ => False

omit [SerdeJson] [SerdeStrings] [Lowercase] [Collation] in
/-- Without a token, the rows of those tables are brought by the round alone. -/
theorem Adds.fromPeers {i : Interface} {t : TableName} {x : t.Columns} (hweb : ¬ Admitted d v) (hlibrary : i ≠ .library)
    (ht : t ∈ syncedTables) (h : Adds d v i (t.lasting x)) : FromPeers d (t.lasting x) := by
  generalize hrow : t.lasting x = row at h
  have hnot : ∀ t' ∈ ([.agents, .memories, .todos, .projectTodos, .groupMembers, .contributionProposals,
      .contributionVotes] : List TableName), t ≠ t' := by
    rintro t' ht' rfl
    revert ht ht'
    cases t <;> decide
  cases h with
  | own hadm | proposal hadm | vote hadm => exact absurd hadm hweb
  | object hpeers content => exact ⟨hpeers, content, rfl⟩
  | snapshot hmem hname => exact ⟨_, hmem, hname⟩
  | head hpeers projectId => exact hpeers
  | cursor hmem projectId => exact ⟨_, hmem, rfl⟩
  | entry hmem hacc localId => exact ⟨_, hmem, _, _, _, hacc, rfl⟩
  | library r => exact absurd rfl hlibrary
  | seed | seedMemory | agent | memory | todo | member | projectTodo =>
    cases t <;> first | exact absurd rfl (hnot _ (by decide)) | cases hrow

/-- **Without a token nothing changes but the agents and their todos, and what the configured peers bring.** -/
theorem strangers_change_nothing (hweb : ¬ Admitted d v) (hpeer : ¬ Trusted d v) (hlibrary : ¬ v.uses .library)
    (h : Process.Reached d v init c) (hl : Process.Later d v c c') :
    (∀ t, t ∉ openTables → t ∉ syncedTables → c'.state.world.db.table t = c.state.world.db.table t) ∧
      (∀ t ∈ syncedTables, ∀ r ∈ c'.state.world.db.lasting t, r ∈ c.state.world.db.lasting t ∨ FromPeers d r) ∧
      ((d.peers = [] ∨ ¬ v.uses .sync) → (∀ t ∈ syncedTables, c'.state.world.db.table t = c.state.world.db.table t) ∧
        c'.state.world.disk = c.state.world.disk) := by
  have hframe := h.frame hl
  have hwrites : ∀ t, MayWrite d v t → t ∈ openTables ∨ v.uses .sync ∧ d.peers ≠ [] ∧ t ∈ syncedTables := by
    rintro t ⟨i, hused, hw⟩
    rcases hw.of_strangers hweb hpeer with ht | ⟨rfl, hsome, ht⟩ | rfl
    · exact Or.inl ht
    · exact Or.inr ⟨hused, hsome, ht⟩
    · exact absurd hused hlibrary
  have hround : ∀ t ∈ syncedTables, (d.peers = [] ∨ ¬ v.uses .sync) → ¬ MayWrite d v t := by
    intro t ht hnone hw
    rcases hwrites t hw with hopen | ⟨hused, hsome, -⟩
    · revert ht hopen
      cases t <;> decide
    · exact hnone.elim hsome fun hno => hno hused
  refine ⟨fun t hopen hsynced => hframe.others t fun hw => ?_, fun t ht r hr => ?_, fun hnone =>
    ⟨fun t ht => hframe.others t (hround t ht hnone), hframe.files (hround .objects (by decide) hnone)⟩⟩
  · rcases hwrites t hw with ht | ⟨-, -, ht⟩
    · exact hopen ht
    · exact hsynced ht
  · rcases (hframe.rows t).mem hr with hold | ⟨⟨i, hused, hadds⟩, -⟩
    · exact Or.inl hold
    · right
      obtain ⟨x, -, rfl⟩ := List.mem_map.1 hr
      exact hadds.fromPeers hweb (fun hlib => hlibrary (hlib ▸ hused)) ht

/-! ### A gateway that is used through its ports alone -/

/-- The tables whose rows belong to a project or a group. -/
def projectTables : List TableName :=
  [.projects, .groups, .invites, .groupMembers, .groupProjects, .snapshots, .projectHeads, .taskLog,
    .contributionProposals, .contributionVotes]

omit [SerdeJson] [SerdeStrings] [Lowercase] [Collation] in
/-- Projects and groups are made by the library alone. -/
theorem Adds.library_of_first {i : Interface} {t : TableName} {x : t.Columns} (ht : t = .projects ∨ t = .groups)
    (h : Adds d v i (t.lasting x)) : i = .library := by
  generalize hrow : t.lasting x = row at h
  rcases ht with rfl | rfl
  · cases h with
    | library r => rfl
    | _ => cases hrow
  · cases h with
    | library r => rfl
    | _ => cases hrow

/-- **A gateway that begins without projects and groups, and is used through its ports alone, gets none**; so its log
stays empty, and there never is a snapshot, an invite, a member, a proposal or a vote. -/
theorem ports_make_no_project (hlibrary : ¬ v.uses .library)
    (hinit : ∀ s, init s → Intact s.world.db ∧ s.world.db.projects.rows = [] ∧ s.world.db.groups.rows = [])
    (h : Process.Reached d v init c) : ∀ t ∈ projectTables, (c.state.world.db.table t).rows = [] := by
  have hintact := h.intact fun s hs => (hinit s hs).1
  obtain ⟨s, hs, hframe⟩ := h.from_start
  have hfirst : ∀ t, t = .projects ∨ t = .groups → (s.world.db.table t).rows = [] → (c.state.world.db.table t).rows = [] := by
    intro t ht hnone
    refine List.eq_nil_iff_forall_not_mem.2 fun x hx => ?_
    rcases (hframe.rows t).mem (List.mem_map_of_mem hx) with hold | ⟨⟨i, hused, hadds⟩, -⟩
    · rw [Db.lasting, hnone] at hold
      cases hold
    · rw [hadds.library_of_first ht] at hused
      exact hlibrary hused
  have hprojects : c.state.world.db.projects.rows = [] := hfirst .projects (Or.inl rfl) (hinit s hs).2.1
  have hgroups : c.state.world.db.groups.rows = [] := hfirst .groups (Or.inr rfl) (hinit s hs).2.2
  have hproject : ∀ id, c.state.world.db.hasProject id = false := fun id => by simp [Db.hasProject, hprojects]
  have hgroup : ∀ id, c.state.world.db.hasGroup id = false := fun id => by simp [Db.hasGroup, hgroups]
  have hrefers : ∀ t (x : t.Columns), x ∈ (c.state.world.db.table t).rows → Refers c.state.world.db (t.lasting x) :=
    fun t x hx => hintact t _ (List.mem_map_of_mem hx)
  have hproposals : c.state.world.db.contributionProposals.rows = [] := by
    refine List.eq_nil_iff_forall_not_mem.2 fun x hx => ?_
    have hthere := (hrefers .contributionProposals x hx).1
    rw [hproject] at hthere
    cases hthere
  intro t ht
  refine List.eq_nil_iff_forall_not_mem.2 fun x hx => ?_
  have hthere := hrefers t x hx
  simp only [projectTables, List.mem_cons, List.not_mem_nil, or_false] at ht
  rcases ht with rfl | rfl | rfl | rfl | rfl | rfl | rfl | rfl | rfl | rfl
  · exact absurd (hprojects ▸ hx) List.not_mem_nil
  · exact absurd (hgroups ▸ hx) List.not_mem_nil
  · exact Bool.noConfusion ((hgroup _).symm.trans hthere)
  · exact Bool.noConfusion ((hgroup _).symm.trans hthere)
  · exact Bool.noConfusion ((hgroup _).symm.trans hthere.1)
  · exact Bool.noConfusion ((hproject _).symm.trans hthere)
  · exact Bool.noConfusion ((hproject _).symm.trans hthere)
  · exact Bool.noConfusion ((hproject _).symm.trans hthere.1)
  · exact absurd (hproposals ▸ hx) List.not_mem_nil
  · have hproposal : c.state.world.db.hasProposal x.proposalId = false := by simp [Db.hasProposal, hproposals]
    exact Bool.noConfusion (hproposal.symm.trans hthere)

end

/-! ## A gateway with one agent -/

namespace DemoSite

open Reconciler (DemoReconciler.serde DemoReconciler.ascii DemoReconciler.byCodePoint)

/-- No peers, and one agent in the configuration file. -/
def wiring : Wiring where
  gateway := demoA
  config := ⟨∅, 3⟩
  seeds := [("writer", "http://writer:8080")]
  peers := []
  webhook := false
  webToken := some "s3cret"
  lxc := none
  build := .release

/-- Nobody but the agents. -/
def visitors : Visitors where
  uses i := i ≠ .library
  web _ := False
  tokens _ := False

def others : Others where
  agents := ⟨fun _ => .ok (), fun _ => .ok (), fun _ _ => .error "down", fun _ _ => .error "down"⟩
  builders _ _ := .error "down"
  proxmox _ _ := .error "down"
  lxcList _ := .error "down"
  peer _ := .down
  apart _ := FarEnd.moves_down

/-- The site after a program, and the pool in which it has come to its end. -/
def after (p : Prog Site Err Unit) (c : Pool Site Err) : Pool Site Err :=
  ⟨(p.exec c.state).2, c.threads ++ [.ofExcept (p.exec c.state).1]⟩

def fresh : Pool Site Err := ⟨.start .fresh, []⟩

def seeded : Pool Site Err := letI := DemoReconciler.serde; after (startUp wiring "2026-01-01T00:00:00Z") fresh

/-- A todo of the agent. -/
def filed : Pool Site Err := letI := DemoReconciler.serde; letI := SerdeJson.nullOnly
  after (LanCall.prog wiring others (.appendTodo "writer" "Write tests" "2026-01-01T00:01:00Z" 0)) seeded

theorem filed_todos : filed.state.world.db.lasting .todos =
    [.todo 1 "writer" "Write tests" "2026-01-01T00:01:00Z"] := by decide +kernel

section
variable [Sha256] [HmacSha256]

theorem later_after {p : Prog Site Err Unit} {c : Pool Site Err} [SerdeJson] [SerdeStrings] [Lowercase] [Collation]
    (h : Process.Starts wiring visitors c.state p) : Process.Later wiring visitors c (after p c) :=
  Pool.start_alone h c.threads

theorem later_seeded : letI := DemoReconciler.serde; letI := SerdeJson.nullOnly; letI := DemoReconciler.ascii
    letI := DemoReconciler.byCodePoint; Process.Later wiring visitors fresh seeded := by
  let _ := DemoReconciler.serde
  let _ := SerdeJson.nullOnly
  let _ := DemoReconciler.ascii
  let _ := DemoReconciler.byCodePoint
  exact later_after ⟨.startUp, Interface.noConfusion, .startUp _⟩

theorem later_filed : letI := DemoReconciler.serde; letI := SerdeJson.nullOnly; letI := DemoReconciler.ascii
    letI := DemoReconciler.byCodePoint; Process.Later wiring visitors seeded filed := by
  let _ := DemoReconciler.serde
  let _ := SerdeJson.nullOnly
  let _ := DemoReconciler.ascii
  let _ := DemoReconciler.byCodePoint
  exact later_after ⟨.lan, Interface.noConfusion, .lan others _⟩

theorem reached_seeded : letI := DemoReconciler.serde; letI := SerdeJson.nullOnly; letI := DemoReconciler.ascii
    letI := DemoReconciler.byCodePoint; Process.Reached wiring visitors (· = .start .fresh) seeded := by
  exact ⟨.start .fresh, rfl, later_seeded⟩

end

end DemoSite

open DemoSite Reconciler

/-- It has come in over the local network. -/
theorem rows_traced_demo : letI := demoSha256; letI := demoLogHmac
    ∃ r ∈ filed.state.world.db.lasting .todos, ∃ i, visitors.uses i ∧ Adds wiring visitors i r := by
  have h := @rows_traced wiring visitors demoSha256 demoLogHmac SerdeJson.nullOnly DemoReconciler.serde
    DemoReconciler.ascii DemoReconciler.byCodePoint (· = .start .fresh) _ _ (@reached_seeded demoSha256 demoLogHmac)
    (@later_filed demoSha256 demoLogHmac)
  have hnone : seeded.state.world.db.lasting .todos = [] := by decide +kernel
  refine ⟨.todo 1 "writer" "Write tests" "2026-01-01T00:01:00Z", by rw [filed_todos]; simp, ?_⟩
  refine (h.1 .todos _ (by rw [filed_todos]; simp)).resolve_left ?_
  rw [hnone]
  exact List.not_mem_nil

theorem no_stranger : ¬ Admitted wiring visitors ∧ ¬ Trusted wiring visitors := by
  refine ⟨?_, ?_⟩
  · rintro ⟨req, hreq, -⟩
    exact hreq
  · rintro ⟨jwt, now, claims, hjwt, -⟩
    exact hjwt

/-- Without peers the log, the projects and the object files are as they were. -/
theorem strangers_change_nothing_demo : filed.state.world.db.taskLog = seeded.state.world.db.taskLog ∧
    filed.state.world.db.projects = seeded.state.world.db.projects ∧ filed.state.world.disk = seeded.state.world.disk := by
  have h := @strangers_change_nothing wiring visitors demoSha256 demoLogHmac SerdeJson.nullOnly DemoReconciler.serde
    DemoReconciler.ascii DemoReconciler.byCodePoint (· = .start .fresh) _ _ no_stranger.1 no_stranger.2 (fun h => h rfl)
    (@reached_seeded demoSha256 demoLogHmac) (@later_filed demoSha256 demoLogHmac)
  obtain ⟨htables, hdisk⟩ := h.2.2 (Or.inl rfl)
  exact ⟨htables .taskLog (by decide), h.1 .projects (by decide) (by decide), hdisk⟩

theorem ports_make_no_project_demo : seeded.state.world.db.projects.rows = [] ∧
    seeded.state.world.db.contributionVotes.rows = [] := by
  have h := @ports_make_no_project wiring visitors demoSha256 demoLogHmac SerdeJson.nullOnly DemoReconciler.serde
    DemoReconciler.ascii DemoReconciler.byCodePoint (· = .start .fresh) _ (fun h => h rfl)
    (fun s hs => by rw [hs]; exact ⟨intact_empty, rfl, rfl⟩) (@reached_seeded demoSha256 demoLogHmac)
  exact ⟨h .projects (by decide), h .contributionVotes (by decide)⟩

end A2AGateway
