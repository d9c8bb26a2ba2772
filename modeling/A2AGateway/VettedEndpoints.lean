import A2AGateway.Provenance
import A2AGateway.Statements

/-!
# Whom the gateway calls

"SSRF prevention (SEC-03): validate endpoint URL scheme and block dangerous hosts" (`local_server.rs:77`). The check
is made where an agent registers; what is called later is what the registry holds by then, filled by registrations, by
heartbeats and, at start-up, from the table and the configuration file. Whatever runs side by side, a call goes to an
endpoint that has passed the check or stands in the configuration file (`sent_to_vetted`).
-/

namespace A2AGateway

open Gw

variable (d : Wiring)

/-- The endpoint has passed the checks of `register`, or the operator has written it into the configuration. -/
def Vetted (endpoint : String) : Prop :=
  (∃ m, LocalGateway.validateManifest m = .ok () ∧ m.endpoint = endpoint) ∨ ∃ x ∈ d.seeds, x.2 = endpoint

/-- Where a call goes, from the endpoint of its agent. -/
inductive Forward.To (P : String → Prop) : Forward → Prop
  | call {endpoint : String} (h : P endpoint) (r : CallRequest) : To P (.call endpoint r)
  | stream {endpoint : String} (h : P endpoint) (body : Bytes) : To P (.post (LocalGateway.streamUrl endpoint) body)
  | invoke {endpoint : String} (h : P endpoint) (body : Bytes) : To P (.post s!"{endpoint}/invoke" body)

/-- The same of a context build. -/
def BuildTo (P : String → Prop) (r : HttpRequest) : Prop :=
  ∃ endpoint payload, P endpoint ∧ r = .post s!"{endpoint}/invoke" none (some payload)

def RowsVetted (w : World) : Prop := ∀ r ∈ w.db.agents.rows, Vetted d r.endpoint

def EntriesVetted (r : Registry) : Prop := ∀ e ∈ Registry.list r, Vetted d e.endpoint

structure OnlyVetted (s : Site) : Prop where
  rows : RowsVetted d s.world
  entries : EntriesVetted d s.registry
  sent : ∀ f ∈ s.sent, f.To (Vetted d)
  builds : ∀ r ∈ s.builds, BuildTo (Vetted d) r

variable {d}

/-! ## The registry -/

theorem EntriesVetted.insert {r : Registry} (h : EntriesVetted d r) (name : String) {e : AgentEntry}
    (he : Vetted d e.endpoint) : EntriesVetted d (r.insert name e) := by
  intro x hx
  obtain ⟨y, hy, rfl⟩ := List.mem_map.1 hx
  rw [AList.entries_insert] at hy
  rcases List.mem_cons.1 hy with rfl | hy
  · exact he
  · exact h _ (List.mem_map_of_mem ((List.kerase_sublist _ _).subset hy))

theorem EntriesVetted.get {r : Registry} (h : EntriesVetted d r) {name : String} {e : AgentEntry}
    (he : r.get name = some e) : Vetted d e.endpoint := by
  have hmem := AList.mem_lookup_iff.1 he
  exact h e (List.mem_map_of_mem hmem)

theorem entriesVetted_reload [SerdeStrings] {rows : List AgentRow} (h : ∀ r ∈ rows, Vetted d r.endpoint) :
    EntriesVetted d (Registry.reloadFrom rows) := by
  have hfold : ∀ (rows : List AgentRow) (r : Registry), EntriesVetted d r → (∀ row ∈ rows, Vetted d row.endpoint) →
      EntriesVetted d (rows.foldl (fun r row => r.insert row.name (Registry.entryOf row)) r) := by
    intro rows
    induction rows with
    | nil => exact fun _ hr _ => hr
    | cons row rows ih =>
      intro r hr hrows
      exact ih _ (hr.insert _ (hrows row (by simp))) fun row' hrow' => hrows row' (by simp [hrow'])
  exact hfold rows ∅ (fun _ he => absurd he List.not_mem_nil) h

/-! ## The table -/

theorem rowsVetted_of_table {w w' : World} (h : RowsVetted d w) (hsame : w'.db.agents = w.db.agents) : RowsVetted d w' := by
  unfold RowsVetted
  rw [hsame]
  exact h

theorem rowsVetted_upsertRow {row : AgentRow} {w : World} {db : Db} (hrow : Vetted d row.endpoint) (h : RowsVetted d w)
    (hdb : Registry.upsertRow row w.db = some db) : RowsVetted d { w.tick with db } := by
  obtain ⟨soul, -, heq⟩ := Registry.upsertRow_eq row w.db
  rw [heq] at hdb
  cases hdb
  intro r hr
  rcases Table.mem_of_upsert hr with hold | rfl | ⟨old, hold, rfl⟩
  · exact h r hold
  · exact hrow
  · exact hrow

/-- An update that leaves the endpoints alone. -/
theorem rowsVetted_update {w : World} {p : AgentRow → Bool} {f : AgentRow → AgentRow}
    {hf : ∀ a b, Constraints.clash (f a) b = Constraints.clash a b} (hsame : ∀ r, (f r).endpoint = r.endpoint)
    (h : RowsVetted d w) : RowsVetted d { w.tick with db := { w.db with agents := w.db.agents.update p f hf } } := by
  intro r hr
  have hr' : r ∈ (w.db.agents.update p f hf).rows := hr
  rcases Table.mem_of_update hr' with hold | ⟨old, hold, -, rfl⟩
  · exact h r hold
  · rw [hsame]
    exact h old hold

/-! ## On the registry and the table together -/

/-- What a program finds in the directory, and leaves there. -/
structure DirectoryVetted (d : Wiring) (x : Directory) : Prop where
  rows : RowsVetted d x.world
  entries : EntriesVetted d x.registry

theorem upholds_gateway {α : Type} {P : α → Prop} {p : Gw α} (hp : p.Upholds (RowsVetted d) P) :
    (p.within Directory.gateway).Upholds (DirectoryVetted d) P :=
  hp.within (fun _ hx => hx.rows) fun _ _ hx hw => ⟨hw, hx.entries⟩

theorem upholds_touch {f : Registry → Registry} (hf : ∀ r, EntriesVetted d r → EntriesVetted d (f r)) :
    (Registry.touch f).Upholds (DirectoryVetted d) fun _ => True :=
  fun _ hx => ⟨⟨hx.rows, hf _ hx.entries⟩, trivial⟩

/-- A statement that does not touch the agents. -/
theorem upholds_beside {e : Err} {f : F64 → Db → Option Db} (hf : ∀ now db db', f now db = some db' → db'.agents = db.agents) :
    (execute e f).Upholds (RowsVetted d) fun _ => True :=
  upholds_execute (fun _ hw => hw) fun w db hw hdb => rowsVetted_of_table hw (hf w.now w.db db hdb)

section
variable [SerdeStrings]

theorem upholds_upsert {entry : AgentEntry} (h : Vetted d entry.endpoint) :
    (Registry.upsert entry).Upholds (DirectoryVetted d) fun _ => True := by
  unfold Registry.upsert
  refine Prog.Upholds.seq (upholds_gateway ?_) fun _ => Prog.Upholds.seq (upholds_gateway ?_) fun _ => ?_
  · exact upholds_execute (fun _ hw => hw) fun w db hw hdb => rowsVetted_upsertRow h hw hdb
  · exact upholds_beside fun _ _ _ => Registry.insertMemory_agents
  · exact upholds_touch fun r hr => hr.insert _ h

theorem upholds_register (lastSeen registeredAt : String) (m : AgentManifest) :
    (LocalGateway.register lastSeen registeredAt m).Upholds (DirectoryVetted d) fun _ => True := by
  unfold LocalGateway.register
  cases hvalid : LocalGateway.validateManifest m with
  | error e => trivial
  | ok u =>
    have hvetted : Vetted d (LocalGateway.entryOf lastSeen registeredAt m).endpoint := Or.inl ⟨m, hvalid, rfl⟩
    refine Prog.Upholds.seq (Prog.upholds_ofExcept fun _ _ => trivial) fun _ => ?_
    refine (upholds_upsert hvetted).mapErr.seq fun _ => ?_
    split
    · refine Prog.Upholds.seq (upholds_gateway ?_).mapErr fun _ => trivial
      refine upholds_execute (fun _ hw => hw) fun w db hw hdb => ?_
      cases hdb
      exact rowsVetted_update (fun _ => rfl) hw
    · trivial

/-- Start-up takes over the endpoints of the table, then those of the configuration. -/
theorem upholds_startUp (now : String) : (AgentCall.startUp d.seeds now).prog.Upholds (DirectoryVetted d) fun _ => True := by
  unfold AgentCall.prog Registry.new
  refine Prog.Upholds.bind (P := EntriesVetted d) ?_ fun registry hregistry => ?_
  · refine Prog.Upholds.mapErr (upholds_gateway ?_)
    have hread : (query .sqlx fun db => db.agents.rows).Upholds (RowsVetted d) fun rows => ∀ r ∈ rows, Vetted d r.endpoint :=
      upholds_query (fun _ hw => hw) fun _ hw => hw
    exact hread.bind fun rows hrows => entriesVetted_reload hrows
  · refine Prog.Upholds.seq (upholds_touch fun _ _ => hregistry).mapErr fun _ => ?_
    exact Prog.Upholds.forEach fun x hx => (upholds_upsert (Or.inr ⟨x, hx, rfl⟩)).mapErr

end

theorem upholds_heartbeat (now name : String) :
    (LocalGateway.heartbeat now name).Upholds (DirectoryVetted d) fun _ => True := by
  unfold LocalGateway.heartbeat Registry.heartbeat
  refine Prog.Upholds.seq (Prog.Upholds.mapErr ?_) fun found => ?_
  · refine Prog.Upholds.seq (upholds_gateway ?_) fun rows => ?_
    · refine Prog.Moves.upholds (moves_statement (fun _ hw => hw) fun w n db hdb hw => ?_)
      cases hdb
      exact rowsVetted_update (fun _ => rfl) hw
    · split
      · refine Prog.Upholds.seq (upholds_touch fun r hr => ?_) fun _ => trivial
        cases hget : r.get name with
        | none => exact hr
        | some e =>
          have hold : Vetted d e.endpoint := hr.get hget
          exact hr.insert name hold
      · trivial
  · split <;> trivial

/-! ## What is sent -/

structure TrafficVetted (d : Wiring) (t : Traffic) : Prop where
  rows : RowsVetted d t.world
  sent : ∀ f ∈ t.sent, f.To (Vetted d)

theorem TrafficVetted.send {t : Traffic} (h : TrafficVetted d t) {f : Forward} (hf : f.To (Vetted d)) :
    TrafficVetted d { t with sent := t.sent ++ [f] } := by
  refine ⟨h.rows, fun x hx => ?_⟩
  rcases List.mem_append.1 hx with hx | hx
  · exact h.sent x hx
  · rw [List.mem_singleton.1 hx]
    exact hf

theorem upholds_sendPost {ε : Type} (agents : Agents) {url : String} {body : Bytes}
    (h : (Forward.post url body).To (Vetted d)) :
    (agents.sendPost url body : Prog Traffic ε _).Upholds (TrafficVetted d) fun _ => True :=
  fun _ ht => ⟨ht.send h, trivial⟩

section
variable {registry : Registry} (hregistry : EntriesVetted d registry) {agents : Agents}
include hregistry

/-- Where the router sends a call. -/
theorem vetted_of_route {config : Config} {caller target : String} {hopCount : UInt32} {decision : RouteDecision}
    (h : Router.route ⟨config, registry⟩ caller target hopCount = .ok decision) : Vetted d decision.endpoint := by
  obtain ⟨-, -, entry, hget, rfl⟩ := Router.route_eq_ok.1 h
  exact hregistry.get hget

theorem upholds_call {config : Config} (newTraceId : Uuid) (r : CallRequest) :
    (LocalGateway.call ⟨config, registry⟩ agents newTraceId r).Upholds (TrafficVetted d) fun _ => True := by
  unfold LocalGateway.call
  refine (Prog.upholds_ofExcept fun _ h => vetted_of_route hregistry h).mapErr.bind fun decision hvetted => ?_
  refine (Prog.upholds_ofExcept fun _ _ => trivial).mapErr.seq fun _ => ?_
  refine (Prog.upholds_ofExcept fun _ _ => trivial).mapErr.seq fun _ => Prog.Upholds.mapErr ?_
  exact Prog.upholds_prim (fun t ht => ht.send (.call hvetted _)) fun _ _ _ _ => trivial

variable [SerdeJson]

theorem upholds_stream {config : Config} (r : CallRequest) :
    (LocalGateway.stream ⟨config, registry⟩ agents r).Upholds (TrafficVetted d) fun _ => True := by
  unfold LocalGateway.stream
  refine (Prog.upholds_ofExcept fun _ h => vetted_of_route hregistry h).mapErr.bind fun decision hvetted => ?_
  refine (upholds_sendPost agents (.stream hvetted _)).seq fun answer => ?_
  split <;> trivial

theorem upholds_jsonrpcDispatch (taskId : Uuid) (r : JsonRpcRequest) :
    (HttpServer.jsonrpcDispatch registry agents taskId r).Upholds (TrafficVetted d) fun _ => True := by
  unfold HttpServer.jsonrpcDispatch HttpServer.tasksSend
  split
  · trivial
  · split
    · split
      · trivial
      · split
        · trivial
        · rename_i hget
          refine (upholds_sendPost agents (.invoke (hregistry.get hget) _)).seq fun answer => ?_
          split <;> trivial
    · split
      · trivial
      · split <;> trivial

omit [SerdeJson] in
theorem upholds_delegate (h : PeerHandler) (r : DelegateRequest) :
    (h.delegate registry agents r).Upholds (TrafficVetted d) fun _ => True := by
  unfold PeerHandler.delegate
  have hauth : ((h.authJwt r.jwt).within Traffic.gateway).Upholds (TrafficVetted d) fun _ => True := by
    refine Prog.Moves.upholds (Prog.Moves.within_of (fun t w hw ht => ?_) (h.moves_authJwt (R := fun w w' => w' = w) (fun _ => rfl) r.jwt))
    rw [hw]
    exact ht
  refine hauth.seq fun _ => ?_
  split
  · trivial
  · rename_i hget
    refine (upholds_sendPost agents (.invoke (hregistry.get hget) _)).seq fun answer => ?_
    split <;> trivial

end

theorem ContextBuilder.mem_of_selectAgent {b : ContextBuilder} {order : Keyed.Iteration AgentEntry} {agent : AgentEntry}
    (h : b.selectAgent order = some agent) : agent ∈ Registry.list b.registry := by
  have hsorted : agent ∈ b.sortedAgents order := by
    unfold selectAgent at h
    rcases Option.or_eq_some_iff.1 h with h | ⟨-, h⟩
    · rcases Option.or_eq_some_iff.1 h with h | ⟨-, h⟩
      · exact List.mem_of_find?_eq_some h
      · exact List.mem_of_find?_eq_some h
    · exact List.mem_of_head? h
  exact (order.perm _).mem_iff.1 (List.mem_insertionSort _ |>.1 hsorted)

structure OutboxVetted (d : Wiring) (x : Outbox World) : Prop where
  rows : RowsVetted d x.state
  builds : ∀ r ∈ x.requests, BuildTo (Vetted d) r

theorem upholds_dispatch {registry : Registry} (hregistry : EntriesVetted d registry) (gatewayName : String)
    (order : Keyed.Iteration AgentEntry) (server : List HttpRequest → HttpRequest → Except String HttpResponse)
    (projectId projectName : String) : (ContextBuilder.dispatch ⟨registry, gatewayName⟩ order server projectId projectName).Upholds
      (OutboxVetted d) fun _ => True := by
  unfold ContextBuilder.dispatch
  split
  · trivial
  · rename_i agent hselect
    have hagent : Vetted d agent.endpoint := hregistry agent (ContextBuilder.mem_of_selectAgent hselect)
    have hlog : ((TaskLog.since projectId 0).within Outbox.inner).Upholds (OutboxVetted d) fun _ => True := by
      refine Prog.Upholds.within (J := RowsVetted d) ?_ (fun _ hx => hx.rows) fun _ _ hx hw => ⟨hw, hx.builds⟩
      exact upholds_fetch (fun _ hw => hw) fun _ _ _ _ => trivial
    refine hlog.seq fun entries => Prog.Upholds.seq ?_ fun _ => trivial
    refine Prog.upholds_prim (fun x hx => ⟨hx.rows, fun r hr => ?_⟩) fun _ _ _ _ => trivial
    rcases List.mem_append.1 hr with hr | hr
    · exact hx.builds r hr
    · exact ⟨agent.endpoint, _, hagent, List.mem_singleton.1 hr⟩

/-! ## Every interface -/

theorem upholds_request {ε α : Type} {I : Site → Prop} {P : α → Prop} {p : Prog Site ε α} (h : p.Upholds I P) :
    (request p).Upholds I fun _ => True := h.outcome.bind fun _ _ => trivial

theorem upholds_withRegistry {p : Registry → Prog Site Err Unit}
    (h : ∀ registry, EntriesVetted d registry → (p registry).Upholds (OnlyVetted d) fun _ => True) :
    (withRegistry p).Upholds (OnlyVetted d) fun _ => True :=
  Prog.Upholds.bind (Prog.upholds_look fun _ hs => hs.entries) h

theorem upholds_directory {ε α : Type} {p : Prog Directory ε α} (h : p.Upholds (DirectoryVetted d) fun _ => True) :
    (request (p.within Site.directory)).Upholds (OnlyVetted d) fun _ => True :=
  upholds_request (h.within (fun _ hs => ⟨hs.rows, hs.entries⟩) fun _ _ hs hx => ⟨hx.rows, hx.entries, hs.sent, hs.builds⟩)

theorem upholds_traffic {ε α : Type} {p : Prog Traffic ε α} (h : p.Upholds (TrafficVetted d) fun _ => True) :
    (request (p.within Site.traffic)).Upholds (OnlyVetted d) fun _ => True :=
  upholds_request (h.within (fun _ hs => ⟨hs.rows, hs.sent⟩) fun _ _ hs hx => ⟨hx.rows, hs.entries, hx.sent, hs.builds⟩)

theorem upholds_outbox {ε α : Type} {p : Prog (Outbox World) ε α} (h : p.Upholds (OutboxVetted d) fun _ => True) :
    (request (p.within Site.outbox)).Upholds (OnlyVetted d) fun _ => True :=
  upholds_request (h.within (fun _ hs => ⟨hs.rows, hs.builds⟩) fun _ _ hs hx => ⟨hx.rows, hs.entries, hs.sent, hx.builds⟩)

/-- On the tables other than that of the agents. -/
theorem upholds_stored {ε α : Type} {p : Prog World ε α} (h : p.Moves (Frame (· ≠ .agents) fun _ => True)) :
    (request (p.within Site.gateway)).Upholds (OnlyVetted d) fun _ => True := by
  refine upholds_request (Prog.Moves.upholds (h.within_of fun s w hframe hs => ?_))
  have hagents : w.db.agents = s.world.db.agents := hframe.others .agents fun hne => hne rfl
  exact ⟨rowsVetted_of_table hs.rows hagents, hs.entries, hs.sent, hs.builds⟩

section
variable [Sha256] [HmacSha256] {v : Visitors}

/-- An interface that neither writes agents nor calls any. -/
theorem carries_vetted {i : Interface} (h : ¬ Writes d v i .agents) :
    Carries d v i fun s s' => OnlyVetted d s → OnlyVetted d s' := by
  intro s s' hsteps hregistry hsent hbuilds hs
  have hagents : s'.world.db.agents = s.world.db.agents := hsteps.others .agents h
  refine ⟨rowsVetted_of_table hs.rows hagents, ?_, ?_, ?_⟩
  · rw [hregistry]
    exact hs.entries
  · rw [hsent]
    exact hs.sent
  · rw [hbuilds]
    exact hs.builds

variable [SerdeJson] [SerdeStrings]

omit [Sha256] [HmacSha256] in
theorem LanCall.upholds (o : Others) (c : LanCall) : (c.prog d o).Upholds (OnlyVetted d) fun _ => True := by
  cases c with
  | register lastSeen registeredAt m => exact upholds_directory (upholds_register lastSeen registeredAt m)
  | heartbeat now name => exact upholds_directory (upholds_heartbeat now name)
  | call newTraceId r => exact upholds_withRegistry fun registry h => upholds_traffic (upholds_call h newTraceId r)
  | stream r => exact upholds_withRegistry fun registry h => upholds_traffic (upholds_stream h r)
  | listAgents => exact upholds_directory (Prog.upholds_look fun _ _ => trivial)
  | health => exact upholds_directory (Prog.upholds_look fun _ _ => trivial)
  | getSoul name => exact upholds_stored (IdentityStore.frames_getSoul name).mapErr
  | updateMemory agentName appendMd => exact upholds_stored (IdentityStore.frames_appendMemory agentName appendMd).mapErr
  | appendTodo agentName task now skipped =>
    refine upholds_stored (Prog.Moves.bind (Prog.Moves.mapErr ?_) fun _ => trivial)
    exact IdentityStore.frames_appendTodo (by decide) (fun _ => trivial) skipped
  | listTodos agentName includeDone =>
    exact upholds_stored ((IdentityStore.frames_listTodos agentName includeDone).mapErr.bind fun _ => trivial)
  | completeTodo id notes now =>
    exact upholds_stored (IdentityStore.frames_completeTodo (by decide) id notes now).mapErr

omit [Sha256] [HmacSha256] [SerdeStrings] in
theorem HttpCall.upholds (o : Others) (c : HttpCall) : (c.prog d o).Upholds (OnlyVetted d) fun _ => True := by
  cases c with
  | agentCard => exact upholds_directory (Prog.upholds_look fun _ _ => trivial)
  | health => exact upholds_directory (Prog.upholds_look fun _ _ => trivial)
  | jsonrpc taskId r => exact upholds_withRegistry fun registry h => upholds_traffic (upholds_jsonrpcDispatch h taskId r)

omit [SerdeJson] [SerdeStrings] in
theorem PeerCall.upholds (o : Others) (c : PeerCall) (htokens : ∀ jwt ∈ c.jwt, v.tokens jwt) :
    (c.prog d o).Upholds (OnlyVetted d) fun _ => True := by
  by_cases hdelegate : ∃ r, c = .delegate r
  · obtain ⟨r, rfl⟩ := hdelegate
    exact upholds_withRegistry fun registry h => upholds_traffic (upholds_delegate h d.handler r)
  · have hagents : ¬ Writes d v .peer .agents := fun h => by cases h
    exact (c.steps (carries_vetted hagents) o htokens fun r hr => hdelegate ⟨r, hr⟩).upholds

/-- Whatever the gateway starts by itself or on request. -/
theorem Runs.upholds [Lowercase] [Collation] {i : Interface} {s : Site} {p : Prog Site Err Unit} (h : Runs d v s i p)
    (hlibrary : i ≠ .library) : p.Upholds (OnlyVetted d) fun _ => True := by
  cases h with
  | startUp now => exact upholds_directory (upholds_startUp now)
  | lan o c => exact c.upholds o
  | peer o c htokens => exact c.upholds o htokens
  | http o c => exact c.upholds o
  | web o c hreq => exact (c.steps_guarded (carries_vetted fun h => by cases h) o hreq).upholds
  | builder o order hx =>
    exact upholds_withRegistry fun registry h => upholds_outbox (upholds_dispatch h d.gateway.name order o.builders _ _)
  | reconciler passes => exact (steps_reconciler (carries_vetted (v := v) fun h => by cases h) passes).upholds
  | sync o rounds => exact (steps_sync (carries_vetted (v := v) fun h => by cases h) o rounds).upholds
  | library c => exact absurd rfl hlibrary

omit [Sha256] [HmacSha256] [SerdeJson] [SerdeStrings] in
theorem OnlyVetted.outside {s s' : Site} (h : OnlyVetted d s) (hout : Site.Outside s s') : OnlyVetted d s' := by
  obtain ⟨world, pending, hsame, rfl⟩ := hout
  have hagents : world.db.agents = s.world.db.agents := congrArg (·.1.agents) hsame
  exact ⟨rowsVetted_of_table h.rows hagents, h.entries, h.sent, h.builds⟩

variable [Lowercase] [Collation] {init : Site → Prop} {c : Pool Site Err}

theorem Process.Starts.upholds (hlibrary : ¬ v.uses .library) {s : Site} {p : Prog Site Err Unit}
    (h : Process.Starts d v s p) : p.Upholds (OnlyVetted d) fun _ => True := by
  obtain ⟨i, hused, hruns⟩ := h
  refine hruns.upholds fun hi => hlibrary ?_
  rw [← hi]
  exact hused

end

/-! ## A call to the agent of the configuration -/

namespace DemoSite

open Reconciler

end DemoSite

open DemoSite Reconciler

end A2AGateway
