import A2AGateway.Sdk

/-!
# A call that the agent refuses

An agent refuses a payload with `InvalidArgument` and reports a failing handler as `Internal`
(`agent.rs:307-319`); neither is retryable for a client. In between, the gateway makes `Unavailable` of
whatever status an agent answers with (`local_server.rs:154-155`), and that is. So a call that the agent
refuses is made once exactly where the caller allows no retries at all (`single_attempt_iff`). Where it allows some, the
next attempt is made unless the delay before it is no `Duration` (`RetryLoop.lean`), and then the call panics.

| here | there |
| --- | --- |
| `AgentService.answer`     | `agent.rs:307-319`, for a handler with a state of its own |
| `LocalGateway.callVia`    | `local_server.rs:116-158`, over agents with a state of their own |

The `Display` of a status, which goes into the gateway's own, is a parameter.
-/

namespace A2AGateway

/-! ## The way of one call -/

section
variable [SerdeJson] {σ : Type}

def AgentService.answer (handler : Message → Prog σ String Json) (r : CallRequest) : Prog σ Status CallResponse := do
  let msg ← (Prog.ofExcept (fromCallRequest r)).mapErr fun e => ⟨.invalidArgument, e⟩
  let payload ← (handler msg).mapErr fun e => ⟨.internal, e⟩
  return { result := SerdeJson.toVec payload, error := "", traceId := msg.traceId }

/-- The handlers that call the gateway are among these. -/
theorem AgentService.call_eq_answer {clients : List GatewayClient} (inner : CallRequest → Prog σ Status CallResponse)
    (handler : Message → Handling clients) :
    AgentService.call inner handler = AgentService.answer fun msg => (handler msg).run inner := rfl

/-- `Call`, where the agents are reached through `send`. -/
def LocalGateway.callVia (router : Router) (fromShared connect : String → Except String Unit)
    (send : String → CallRequest → Prog σ String CallResponse) (newTraceId : Uuid) (r : CallRequest) :
    Prog σ Status CallResponse := do
  let decision ← (Prog.ofExcept (router.route r.caller r.targetAgent r.hopCount)).mapErr routerErrToStatus
  (Prog.ofExcept (fromShared decision.endpoint)).mapErr fun e =>
    ⟨.internal, s!"invalid agent endpoint: {e}"⟩
  (Prog.ofExcept (connect decision.endpoint)).mapErr fun e =>
    ⟨.unavailable, s!"agent unreachable: {e}"⟩
  (send decision.endpoint (forwardReq newTraceId r decision)).mapErr fun e =>
    ⟨.unavailable, s!"agent call failed: {e}"⟩

omit [SerdeJson] in
theorem LocalGateway.call_eq_callVia (router : Router) (agents : Agents) (newTraceId : Uuid) (r : CallRequest) :
    LocalGateway.call router agents newTraceId r =
      LocalGateway.callVia router agents.fromShared agents.connect agents.sendCall newTraceId r := rfl

end

/-- What the agents keep, the messages a handler has been run on, and the requests the client has sent. -/
structure Served (σ : Type) where
  own : σ
  runs : List Message
  requests : List CallRequest

namespace Served

variable {σ : Type}

/-- The agents' own state in it. -/
def agents : Prog.Focus (Served σ) σ where
  get s := s.own
  set x s := { s with own := x }
  get_set _ _ := rfl
  set_get _ := rfl
  set_set _ _ _ := rfl

/-- The handler, with a note of the message. -/
def noted (handler : Message → Prog σ String Json) (msg : Message) : Prog (Served σ) String Json :=
  Prog.act (fun s => ((), { s with runs := s.runs ++ [msg] })) fun _ => (handler msg).within agents

end Served

/-- A gateway, and the SDK agents at their endpoints. -/
structure Deployment (σ : Type) where
  router : Router
  fromShared : String → Except String Unit
  connect : String → Except String Unit
  handlers : String → Message → Prog σ String Json
  /-- `Display` of a `tonic::Status`. -/
  display : Status → String
  newTraceId : Uuid

namespace Deployment

variable [SerdeJson] {σ : Type} (d : Deployment σ)

/-- The agent at an endpoint answers. -/
def send (endpoint : String) (r : CallRequest) : Prog (Served σ) String CallResponse :=
  (AgentService.answer (Served.noted (d.handlers endpoint)) r).mapErr d.display

/-- What a client's request comes to, with a note of it. -/
def inner (r : CallRequest) : Prog (Served σ) Status CallResponse :=
  Prog.act (fun s => ((), { s with requests := s.requests ++ [r] })) fun _ =>
    LocalGateway.callVia d.router d.fromShared d.connect d.send d.newTraceId r

/-- The gateway routes the request to an agent that can be reached. -/
def Routes (r : CallRequest) (decision : RouteDecision) : Prop :=
  d.router.route r.caller r.targetAgent r.hopCount = .ok decision ∧
    d.fromShared decision.endpoint = .ok () ∧ d.connect decision.endpoint = .ok ()

/-- The agent rejects the payload, or its handler returns an error. -/
def Refuses (decision : RouteDecision) (r : CallRequest) (s : Served σ) : Prop :=
  match fromCallRequest (LocalGateway.forwardReq d.newTraceId r decision) with
  | .error _ => True
  | .ok msg => ∃ e, ((d.handlers decision.endpoint msg).exec s.own).1 = .error e

/-- The handler is run at most once, and the call returns an error after a single attempt. -/
def SingleAttempt (c : GatewayClient) (a : CallArgs) (s : Served σ) : Prop :=
  let done := (c.call d.inner a).exec s
  (∃ e, done.1 = .error e) ∧ done.2.runs.length ≤ s.runs.length + 1 ∧
    done.2.requests.length = s.requests.length + 1

/-! ## One attempt -/

section
variable {d : Deployment σ} {decision : RouteDecision} {r : CallRequest} {s : Served σ}

/-- An agent that refuses has run its handler at most once. -/
theorem exec_answer_of_refuses (hrefuses : d.Refuses decision r s) :
    ∃ status s', (AgentService.answer (Served.noted (d.handlers decision.endpoint))
        (LocalGateway.forwardReq d.newTraceId r decision)).exec s = (.error status, s') ∧
      s'.requests = s.requests ∧ s'.runs.length ≤ s.runs.length + 1 := by
  unfold AgentService.answer
  rw [Prog.bind_eq]
  unfold Refuses at hrefuses
  cases hmsg : fromCallRequest (LocalGateway.forwardReq d.newTraceId r decision) with
  | error e => exact ⟨_, s, rfl, rfl, Nat.le_succ _⟩
  | ok msg =>
    rw [hmsg] at hrefuses
    obtain ⟨e, herr⟩ := hrefuses
    have hrun : (Served.noted (d.handlers decision.endpoint) msg).exec s = (.error e,
        { own := ((d.handlers decision.endpoint msg).exec s.own).2, runs := s.runs ++ [msg], requests := s.requests }) := by
      have hwithin := Prog.exec_within Served.agents (d.handlers decision.endpoint msg) { s with runs := s.runs ++ [msg] }
      have hown : Served.agents.get { s with runs := s.runs ++ [msg] } = s.own := rfl
      rw [hown, herr] at hwithin
      exact hwithin
    have hread : ((Prog.ofExcept (σ := Served σ) (.ok msg : Except String Message)).mapErr
        fun e => (⟨.invalidArgument, e⟩ : Status)).exec s = (.ok msg, s) := rfl
    rw [Prog.exec_bind_of_ok hread, Prog.bind_eq, Prog.exec_bind_of_error (by rw [Prog.exec_mapErr, hrun]; rfl)]
    exact ⟨_, _, rfl, rfl, by simp⟩

/-- What the agent refuses comes back as `Unavailable`. -/
theorem exec_inner_of_refuses (hroute : d.Routes r decision) (hrefuses : d.Refuses decision r s) :
    ∃ status s', (d.inner r).exec s = (.error status, s') ∧ status.code = .unavailable ∧
      s'.requests = s.requests ++ [r] ∧ s'.runs.length ≤ s.runs.length + 1 := by
  obtain ⟨status, s', hanswer, hrequests, hruns⟩ :=
    exec_answer_of_refuses (s := { s with requests := s.requests ++ [r] }) hrefuses
  obtain ⟨hdecision, hshared, hconnect⟩ := hroute
  refine ⟨⟨.unavailable, s!"agent call failed: {d.display status}"⟩, s', ?_, rfl, hrequests, hruns⟩
  show (LocalGateway.callVia d.router d.fromShared d.connect d.send d.newTraceId r).exec
    { s with requests := s.requests ++ [r] } = _
  unfold LocalGateway.callVia
  rw [hdecision]
  simp only [Prog.bind_eq, Prog.ofExcept, Prog.mapErr, Prog.ret_bind, hshared, hconnect]
  rw [Prog.exec_mapErr, Deployment.send, Prog.exec_mapErr, hanswer]
  rfl

end

/-! ## The client's loop -/

section
variable {d : Deployment σ} {s : Served σ}

/-- No request is added or forgotten. -/
def SameRequests (s s' : Served σ) : Prop := s'.requests = s.requests

theorem moves_callVia (r : CallRequest) :
    (LocalGateway.callVia d.router d.fromShared d.connect d.send d.newTraceId r).Moves SameRequests := by
  unfold LocalGateway.callVia
  simp only [Prog.bind_eq]
  refine (Prog.moves_ofExcept _).mapErr.bind fun decision => ?_
  refine (Prog.moves_ofExcept _).mapErr.bind fun _ => (Prog.moves_ofExcept _).mapErr.bind fun _ => ?_
  refine Prog.Moves.mapErr (Prog.Moves.mapErr ?_)
  unfold AgentService.answer
  simp only [Prog.bind_eq]
  refine (Prog.moves_ofExcept _).mapErr.bind fun msg => Prog.Moves.bind (Prog.Moves.mapErr ?_) fun _ => trivial
  exact ⟨fun _ => rfl, fun _ => Prog.moves_within (fun _ _ => rfl) _⟩

theorem requests_inner (r : CallRequest) : ((d.inner r).exec s).2.requests = s.requests ++ [r] := by
  apply (moves_callVia r).exec
  · intro s
    rfl
  · intro a b c hab hbc
    exact Eq.trans hbc hab

omit [SerdeJson] in
/-- No attempt is taken back. -/
theorem requests_mono {α : Type} {p : Prog (Served σ) SdkError α}
    (hp : p.Moves fun s s' => s.requests.length ≤ s'.requests.length) :
    s.requests.length ≤ (p.exec s).2.requests.length := by
  apply hp.exec
  · exact fun s => Nat.le_refl _
  · exact fun a b c => Nat.le_trans

/-- At least one attempt is made. -/
theorem requests_send (req : CallRequest) (retries : Nat) :
    s.requests.length + 1 ≤ ((GatewayClient.send d.inner req retries).exec s).2.requests.length := by
  have hask : (d.inner req).Moves fun s s' => s.requests.length ≤ s'.requests.length := by
    refine ⟨fun s => by simp, fun _ => (moves_callVia req).mono fun s s' h => ?_⟩
    rw [h]
  have hfirst : ((d.inner req).exec s).2.requests.length = s.requests.length + 1 := by
    rw [requests_inner, List.length_append, List.length_singleton]
  obtain ⟨rest, hsend, hrest⟩ := GatewayClient.send_begins hask retries
  rw [hsend, Prog.exec_bind_of_ok (Prog.exec_outcome _ s), ← hfirst]
  exact requests_mono (hrest _)

/-- **A call that the agent refuses is made once if and only if no retries are allowed.** -/
theorem single_attempt_iff {c : GatewayClient} {a : CallArgs} {decision : RouteDecision}
    (hroute : d.Routes (c.request a) decision) (hrefuses : d.Refuses decision (c.request a) s) :
    d.SingleAttempt c a s ↔ a.opts.retries = 0 := by
  obtain ⟨status, s', hinner, hcode, hrequests, hruns⟩ := exec_inner_of_refuses hroute hrefuses
  have houtcome : ((d.inner (c.request a)).outcome : Prog (Served σ) SdkError _).exec s = (.ok (.error status), s') := by
    rw [Prog.exec_outcome, hinner]
  unfold SingleAttempt GatewayClient.call
  cases hretries : a.opts.retries.toNat with
  | zero =>
    have hzero : a.opts.retries = 0 := UInt32.toNat_inj.1 hretries
    have hdone : (GatewayClient.send d.inner (c.request a) 0).exec s = (.error (.status status), s') := by
      unfold GatewayClient.send
      rw [Prog.bind_eq, Prog.exec_bind_of_ok houtcome]
      rfl
    rw [hdone]
    refine iff_of_true ⟨⟨_, rfl⟩, hruns, ?_⟩ hzero
    rw [hrequests, List.length_append, List.length_singleton]
  | succ n =>
    have hne : a.opts.retries ≠ 0 := by
      rintro h
      rw [h] at hretries
      cases hretries
    -- `Unavailable` is tried again.
    have hagain : (GatewayClient.send d.inner (c.request a) (n + 1)).exec s =
        (GatewayClient.send d.inner (c.request a) n).exec s' := by
      rw [GatewayClient.send, Prog.bind_eq, Prog.exec_bind_of_ok houtcome]
      simp only [hcode, isRetryable, if_true]
    rw [hagain]
    refine iff_of_false ?_ hne
    rintro ⟨-, -, honce⟩
    have htwice := requests_send (d := d) (s := s') (c.request a) n
    rw [hrequests, List.length_append, List.length_singleton] at htwice
    omega

end

end Deployment

/-! ## A handler that always fails -/

namespace DemoRetries

/-- `research` may call `writer`, whose handler returns an error. -/
def deployment : Deployment Unit where
  router :=
    { config := ⟨⟨(∅ : AList fun _ : String => List String).insert "research" ["writer"], 3⟩⟩
      registry := (∅ : AList fun _ : String => AgentEntry).insert "writer" (demoAgent "writer") }
  fromShared _ := .ok ()
  connect _ := .ok ()
  handlers _ _ := Prog.fail "disk full"
  display s := "status: Internal, message: \"" ++ s.message ++ "\""
  newTraceId := ⟨"00000000-0000-4000-8000-000000000009", by decide +kernel⟩

def client : GatewayClient := ⟨"research"⟩

def args (retries : UInt32) : CallArgs :=
  ⟨"writer", "invoke", .null, ⟨retries⟩, ⟨"00000000-0000-4000-8000-000000000001", Uuid.hex_one⟩⟩

def idle : Served Unit := ⟨(), [], []⟩

def decision : RouteDecision := ⟨"http://writer:8080", 1⟩

theorem routes [SerdeJson] (retries : UInt32) : deployment.Routes (client.request (args retries)) decision := by
  refine ⟨?_, rfl, rfl⟩
  show deployment.router.route "research" "writer" 0 = .ok decision
  decide +kernel

theorem refuses [SerdeJson] (retries : UInt32) : deployment.Refuses decision (client.request (args retries)) idle := by
  unfold Deployment.Refuses
  split
  · trivial
  · exact ⟨_, rfl⟩

end DemoRetries

theorem single_attempt_demo : letI := SerdeJson.nullOnly
    DemoRetries.deployment.SingleAttempt DemoRetries.client (DemoRetries.args 0) DemoRetries.idle := by
  let := SerdeJson.nullOnly
  exact (Deployment.single_attempt_iff (DemoRetries.routes 0) (DemoRetries.refuses 0)).2 rfl

/-- **With the default options a handler that fails is run four times.** -/
theorem failing_handler_runs_four_times : letI := SerdeJson.nullOnly
    DemoRetries.deployment.Routes (DemoRetries.client.request (DemoRetries.args 3)) DemoRetries.decision ∧
      DemoRetries.deployment.Refuses DemoRetries.decision (DemoRetries.client.request (DemoRetries.args 3)) DemoRetries.idle ∧
      ((DemoRetries.client.call DemoRetries.deployment.inner (DemoRetries.args 3)).exec DemoRetries.idle).2.runs.length = 4 ∧
      ¬ DemoRetries.deployment.SingleAttempt DemoRetries.client (DemoRetries.args 3) DemoRetries.idle := by
  let := SerdeJson.nullOnly
  have hruns : ((DemoRetries.client.call DemoRetries.deployment.inner (DemoRetries.args 3)).exec
      DemoRetries.idle).2.runs.length = 4 := by
    decide +kernel
  refine ⟨DemoRetries.routes 3, DemoRetries.refuses 3, hruns, fun h => ?_⟩
  have honce := h.2.1
  rw [hruns] at honce
  exact absurd honce (by decide)

end A2AGateway
