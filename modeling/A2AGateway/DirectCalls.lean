import A2AGateway.CallRetries
import A2AGateway.RetryLoop

/-!
# A call through the gateway (`client.rs`, `local_server.rs`, `agent.rs`)

Between an agent that calls another and the handler it calls stand two connections, the router, four
conversions to and from bytes and the codes of the statuses. What is left of them for the two agents is that
messages may be lost: the handler is run as if it had been called directly (`called_directly`), and so are
those that it calls in turn.

| here | there |
| --- | --- |
| `Network.send`    | `AgentService::call` (`agent.rs:307-319`), behind a connection |
| `Network.gateway` | `local_server.rs:116-158` over that and behind another, with the registry as it is at that time |
| `Network.ask`     | `client.rs:52-89` over that; with the method `"invoke"`, `Agent::call_with` (`agent.rs:194-202`) |
| `Network.askFor`  | the same with the counter, the header and the delays of `RetryLoop.lean`, as far as its first turns |
| `Network.serve`   | handlers that call through it, nested so many levels deep |
| `Network.direct`  | what this is to mean: no requests, no bytes, no hops |

`Network.ask` and `Network.direct` are programs over one state, that of all agents and of the gateway's registry.
That they are the same program says that they do the same whatever runs beside them. In them, as in `Sdk.lean`, the
retries are counted on `Nat`; the code's own loop does the same where its options hold (`askFor_bounded`), and
`ask_returns_iff`, which says when a call returns a value, is about that loop. A message that comes too late is lost; a
handler that is cut off in the middle by a deadline is left out.
-/

namespace A2AGateway

/-! ## Agents that call each other -/

/-- The arguments of a call. The id that is drawn for it is never the empty text. -/
structure Asking extends CallArgs where
  traced : newTraceId.text ≠ ""

/-- Its options, with those that time the attempts. -/
def Asking.timed (a : Asking) (timeout : Duration) (backoffFactor : F64) : TimedCallOptions :=
  { a.opts with timeout, backoffFactor }

/-- A handler at work: it takes a step of its own, calls an agent, or ends. -/
inductive Script (σ : Type) : Type 1
  | ret (r : Except String Json)
  | act {β : Type} (f : σ → β × σ) (k : β → Script σ)
  | call (c : GatewayClient) (a : Asking) (next : Except SdkError Json → Script σ)

variable {σ : Type}

def Script.run (ask : GatewayClient → Asking → Prog σ SdkError Json) : Script σ → Prog σ String Json
  | ret r => Prog.ofExcept r
  | act f k => Prog.act f fun b => (k b).run ask
  | call c a next => (ask c a).outcome.bind fun r => (next r).run ask

/-- A gateway, and the agents at their endpoints. -/
structure Network (σ : Type) where
  config : Config
  registry : σ → Registry
  fromShared : String → Except String Unit
  connect : String → Except String Unit
  /-- A message on its way: it arrives, or the client is given a status instead. -/
  link : Prog σ Status Unit
  /-- `Display` of a `tonic::Status`. -/
  display : Status → String
  newTraceId : Uuid
  handlers : String → Message → Script σ

namespace Network

variable [SerdeJson] (d : Network σ)

/-! ## As the code does it -/

section
variable (answer : String → Message → Prog σ String Json)

def send (endpoint : String) (r : CallRequest) : Prog σ Status CallResponse := do
  d.link
  let resp ← AgentService.answer (answer endpoint) r
  d.link
  return resp

def gateway (r : CallRequest) : Prog σ Status CallResponse := do
  d.link
  let registry ← Prog.look d.registry
  let resp ← LocalGateway.callVia ⟨d.config, registry⟩ d.fromShared d.connect
    (fun endpoint r => (d.send answer endpoint r).mapErr d.display) d.newTraceId r
  d.link
  return resp

def ask (c : GatewayClient) (a : Asking) : Prog σ SdkError Json := c.call (d.gateway answer) a.toCallArgs

/-- `ask` as it counts and times its attempts, as far as the first `n` turns of its loop. -/
def askFor (setTimeout : Duration → Option String) (b : Build) (timeout : Duration) (backoffFactor : F64)
    (c : GatewayClient) (a : Asking) (n : Nat) : Prog σ Empty (Loops.Turn Attempts CallEnd) :=
  GatewayClient.callFor setTimeout b (a.timed timeout backoffFactor) (d.gateway answer) (c.request a.toCallArgs) n

end

/-- The agents, as far as calls are nested no deeper than `n`; what a handler at level 0 does is left open. -/
def serve (innermost : String → Message → Prog σ String Json) : Nat → String → Message → Prog σ String Json
  | 0 => innermost
  | n + 1 => fun endpoint msg => (d.handlers endpoint msg).run (d.ask (serve innermost n))

/-! ## As it is meant -/

/-- What a value is when it has been written and read again. -/
def reread (v : Json) : Except String Json := SerdeJson.fromSlice (SerdeJson.toVec v)

/-- What a caller sees of a failure behind the gateway. -/
def failed (status : Status) : Status := ⟨.unavailable, s!"agent call failed: {d.display status}"⟩

/-- The endpoint that a caller's call goes to. -/
def resolve (registry : Registry) (caller target : String) : Except Status String :=
  if d.config.maxHops = 0 then .error ⟨.resourceExhausted, "hop limit exceeded: 1 hops (max 0)"⟩
  else if ¬ d.config.Permits caller target then
    .error ⟨.permissionDenied, (RouterError.notPermitted (if caller = "" then "external" else caller) target).text⟩
  else
    match registry.get target with
    | none => .error ⟨.notFound, s!"agent not found: {target}"⟩
    | some entry =>
      match d.fromShared entry.endpoint, d.connect entry.endpoint with
      | .error e, _ => .error ⟨.internal, s!"invalid agent endpoint: {e}"⟩
      | .ok _, .error e => .error ⟨.unavailable, s!"agent unreachable: {e}"⟩
      | .ok _, .ok _ => .ok entry.endpoint

section
variable (answer : String → Message → Prog σ String Json)

/-- The handler is run on what the caller gave. -/
def handle (c : GatewayClient) (a : Asking) (endpoint : String) : Prog σ Status Json := do
  d.link
  let payload ← (Prog.ofExcept (reread a.payload)).mapErr fun e => ⟨.invalidArgument, e⟩
  let v ← (answer endpoint ⟨a.newTraceId.text, c.agentName, a.method, payload⟩).mapErr fun e => ⟨.internal, e⟩
  d.link
  return v

def attempt (c : GatewayClient) (a : Asking) : Prog σ Status Json := do
  d.link
  let registry ← Prog.look d.registry
  let endpoint ← Prog.ofExcept (d.resolve registry c.agentName a.target)
  let v ← (d.handle answer c a endpoint).mapErr d.failed
  d.link
  return v

/-- Attempts until one gets an answer or fails for good. -/
def direct (c : GatewayClient) (a : Asking) : Prog σ SdkError Json := do
  let v ← ((d.attempt answer c a).retry (fun status => isRetryable status.code) a.opts.retries.toNat).mapErr .status
  (Prog.ofExcept (reread v)).mapErr fun _ => .msg "invalid JSON in call response"

end

omit [SerdeJson] in
/-- The router on a request at hop 0, as all requests of the SDK are. -/
theorem route_zero (registry : Registry) (caller target : String) :
    (Router.mk d.config registry).route caller target 0 =
      if d.config.maxHops = 0 then .error (.hopLimitExceeded 1 0)
      else if ¬ d.config.Permits caller target then .error (.notPermitted (if caller = "" then "external" else caller) target)
      else
        match registry.get target with
        | none => .error (.notFound target)
        | some entry => .ok ⟨entry.endpoint, 1⟩ := by
  have hlimit : (1 : UInt32) > d.config.maxHops ↔ d.config.maxHops = 0 := by
    rw [gt_iff_lt, UInt32.lt_iff_toNat_lt, ← UInt32.toNat_inj]
    have h₁ : (1 : UInt32).toNat = 1 := rfl
    have h₀ : (0 : UInt32).toNat = 0 := rfl
    omega
  have hdenied : (¬ d.config.isAllowed (if caller = "" then "external" else caller) target = true ∧
      ¬ (caller = "" ∧ "external" ∉ d.config.callGraph.edges)) ↔ ¬ d.config.Permits caller target := by
    rw [Config.permits_iff, not_or]
  simp only [Router.route, UInt32.zero_add, hlimit, hdenied]
  by_cases hzero : d.config.maxHops = 0
  · rw [if_pos hzero, if_pos hzero, hzero]
  · refine (if_neg hzero).trans (Eq.trans ?_ (if_neg hzero).symm)
    by_cases hpermits : d.config.Permits caller target
    · exact (if_neg (not_not.2 hpermits)).trans (if_neg (not_not.2 hpermits)).symm
    · exact (if_pos hpermits).trans (if_pos hpermits).symm

section
variable {d : Network σ} {answer : String → Message → Prog σ String Json}

/-- The conversions undo each other, up to what writing and reading make of the payload. -/
theorem fromCallRequest_forwardReq (newTraceId : Uuid) (c : GatewayClient) (a : Asking) (decision : RouteDecision) :
    fromCallRequest (LocalGateway.forwardReq newTraceId (c.request a.toCallArgs) decision) =
      (reread a.payload).map fun payload => ⟨a.newTraceId.text, c.agentName, a.method, payload⟩ := by
  have htrace : (if a.newTraceId.text = "" then newTraceId.text else a.newTraceId.text) = a.newTraceId.text :=
    if_neg a.traced
  unfold fromCallRequest reread LocalGateway.forwardReq GatewayClient.request toCallRequest
  simp only [htrace]
  cases SerdeJson.fromSlice (SerdeJson.toVec a.payload) with
  | error e => rfl
  | ok payload => rfl

/-- What an agent answers to the request that the gateway passes on. -/
theorem send_forwardReq (endpoint : String) (newTraceId : Uuid) (c : GatewayClient) (a : Asking) (decision : RouteDecision) :
    d.send answer endpoint (LocalGateway.forwardReq newTraceId (c.request a.toCallArgs) decision) =
      (d.handle answer c a endpoint).bind fun v => Prog.ret ⟨SerdeJson.toVec v, "", a.newTraceId.text⟩ := by
  unfold send handle AgentService.answer
  simp only [Prog.bind_eq, Prog.pure_eq, Prog.bind_assoc, Prog.ret_bind]
  congr 1
  funext _
  rw [fromCallRequest_forwardReq]
  cases reread a.payload with
  | error e => rfl
  | ok payload => rfl

/-- The gateway's answer is the attempt's. -/
theorem gateway_request (c : GatewayClient) (a : Asking) :
    d.gateway answer (c.request a.toCallArgs) =
      (d.attempt answer c a).bind fun v => Prog.ret ⟨SerdeJson.toVec v, "", a.newTraceId.text⟩ := by
  unfold gateway attempt
  simp only [Prog.bind_eq, Prog.pure_eq, Prog.bind_assoc, Prog.ret_bind]
  congr 1
  funext _
  congr 1
  funext registry
  unfold LocalGateway.callVia resolve
  have hroute : (Router.mk d.config registry).route (c.request a.toCallArgs).caller (c.request a.toCallArgs).targetAgent
      (c.request a.toCallArgs).hopCount = _ := d.route_zero registry c.agentName a.target
  rw [hroute]
  by_cases hzero : d.config.maxHops = 0
  · simp only [if_pos hzero]
    rfl
  simp only [if_neg hzero]
  by_cases hpermits : d.config.Permits c.agentName a.target
  · simp only [if_neg (not_not.2 hpermits)]
    cases registry.get a.target with
    | none => rfl
    | some entry =>
      simp only [Prog.bind_eq, Prog.ofExcept, Prog.mapErr, Prog.ret_bind]
      cases hshared : d.fromShared entry.endpoint with
      | error e => rfl
      | ok _ =>
        cases hconnect : d.connect entry.endpoint with
        | error e => rfl
        | ok _ =>
          simp only [Prog.mapErr, Prog.ret_bind]
          rw [send_forwardReq, Prog.mapErr_mapErr, Prog.mapErr_bind_ret, Prog.bind_assoc]
          rfl
  · simp only [if_pos hpermits]
    rfl

/-! ## The client's loop -/

/-- The caller may call the target, which is at that endpoint, the payload can be read there, its handler returns
the value, and no message is lost. -/
def ComesThrough (d : Network σ) (answer : String → Message → Prog σ String Json) (c : GatewayClient) (a : Asking) (s : σ)
    (v : Json) (s' : σ) : Prop :=
  ∃ s₁ s₂ s₃ s₄ endpoint payload, d.link.exec s = (.ok (), s₁) ∧
    d.resolve (d.registry s₁) c.agentName a.target = .ok endpoint ∧ d.link.exec s₁ = (.ok (), s₂) ∧
    reread a.payload = .ok payload ∧
    (answer endpoint ⟨a.newTraceId.text, c.agentName, a.method, payload⟩).exec s₂ = (.ok v, s₃) ∧
    d.link.exec s₃ = (.ok (), s₄) ∧ d.link.exec s₄ = (.ok (), s')

variable {answer : String → Message → Prog σ String Json} {c : GatewayClient} {a : Asking} {v : Json} {s s' : σ}

theorem handle_ok_iff {endpoint : String} : (d.handle answer c a endpoint).exec s = (.ok v, s') ↔
    ∃ s₁ s₂ payload, d.link.exec s = (.ok (), s₁) ∧ reread a.payload = .ok payload ∧
      (answer endpoint ⟨a.newTraceId.text, c.agentName, a.method, payload⟩).exec s₁ = (.ok v, s₂) ∧
      d.link.exec s₂ = (.ok (), s') := by
  simp only [handle, Prog.bind_eq, Prog.pure_eq, Prog.exec_bind_ok, Prog.exec_mapErr_ok, Prog.exec_ofExcept, Prog.exec_ret,
    Prod.mk.injEq, Except.ok.injEq]
  constructor
  · rintro ⟨_, s₁, hsent, payload, _, ⟨hpayload, rfl⟩, _, s₂, hrun, _, _, hback, rfl, rfl⟩
    exact ⟨s₁, s₂, payload, hsent, hpayload, hrun, hback⟩
  · rintro ⟨s₁, s₂, payload, hsent, hpayload, hrun, hback⟩
    exact ⟨_, s₁, hsent, payload, _, ⟨hpayload, rfl⟩, _, s₂, hrun, _, _, hback, rfl, rfl⟩

theorem attempt_ok_iff : (d.attempt answer c a).exec s = (.ok v, s') ↔ d.ComesThrough answer c a s v s' := by
  simp only [attempt, ComesThrough, Prog.bind_eq, Prog.pure_eq, Prog.exec_bind_ok, Prog.exec_mapErr_ok, Prog.exec_ofExcept,
    Prog.exec_look, Prog.exec_ret, Prod.mk.injEq, Except.ok.injEq, handle_ok_iff]
  constructor
  · rintro ⟨_, s₁, hasked, _, _, ⟨rfl, rfl⟩, endpoint, _, ⟨hresolve, rfl⟩, _, s₄, ⟨s₂, s₃, payload, hsent, hpayload, hrun, hback⟩,
      _, _, hanswered, rfl, rfl⟩
    exact ⟨s₁, s₂, s₃, s₄, endpoint, payload, hasked, hresolve, hsent, hpayload, hrun, hback, hanswered⟩
  · rintro ⟨s₁, s₂, s₃, s₄, endpoint, payload, hasked, hresolve, hsent, hpayload, hrun, hback, hanswered⟩
    exact ⟨_, s₁, hasked, _, _, ⟨rfl, rfl⟩, endpoint, _, ⟨hresolve, rfl⟩, _, s₄, ⟨s₂, s₃, payload, hsent, hpayload, hrun, hback⟩,
      _, _, hanswered, rfl, rfl⟩

/-- The gateway answers with a body that reads as the value exactly if the attempt comes to one that does. -/
theorem gateway_answers_iff :
    (∃ body, (d.gateway answer (c.request a.toCallArgs)).exec s = (.ok body, s') ∧ readBody body = .ok v) ↔
      ∃ u, d.ComesThrough answer c a s u s' ∧ reread u = .ok v := by
  have hread : ∀ u, readBody ⟨SerdeJson.toVec u, "", a.newTraceId.text⟩ = .ok v ↔ reread u = .ok v := by
    intro u
    simp only [readBody, reread, ne_eq, not_true_eq_false, if_false]
    cases SerdeJson.fromSlice (SerdeJson.toVec u) <;> simp
  simp only [gateway_request, Prog.exec_bind_ok, attempt_ok_iff, Prog.exec_ret, Prod.mk.injEq, Except.ok.injEq]
  constructor
  · rintro ⟨_, ⟨u, _, hthrough, rfl, rfl⟩, hbody⟩
    exact ⟨u, hthrough, (hread u).1 hbody⟩
  · rintro ⟨u, hthrough, hu⟩
    exact ⟨_, ⟨u, _, hthrough, rfl, rfl⟩, (hread u).2 hu⟩

section
variable {setTimeout : Duration → Option String} {b : Build} {timeout : Duration} {backoffFactor : F64}

/-- Where its attempts are bounded, a call does what `ask` does. -/
theorem askFor_bounded (h : Bounded setTimeout b (a.timed timeout backoffFactor)
      (GatewayClient.answersFrom (d.gateway answer) (c.request a.toCallArgs) s)) :
    ∃ n r s', (d.askFor answer setTimeout b timeout backoffFactor c a (n + 1)).exec s =
      (.ok (.stop (.returned (n + 1) r)), s') ∧ (d.ask answer c a).exec s = (r, s') :=
  GatewayClient.exec_send h

/-- **A call returns a value exactly if the timeout has a header and, after as many failed attempts as its options
allow to be made again, the handler of the target is run under the caller's name, returns it, and the answer comes
through.** -/
theorem ask_returns_iff :
    (∃ n m, (d.askFor answer setTimeout b timeout backoffFactor c a n).exec s = (.ok (.stop (.returned m (.ok v))), s')) ↔
      (∃ header, setTimeout timeout = some header) ∧ ∃ k s₁ u, (a.timed timeout backoffFactor).Allows b k ∧
        Prog.FailsOver (fun status => isRetryable status.code) (d.attempt answer c a) k s s₁ ∧
        d.ComesThrough answer c a s₁ u s' ∧ reread u = .ok v := by
  have hfails : ∀ k s₁, Prog.FailsOver (fun status => isRetryable status.code)
      (d.gateway answer (c.request a.toCallArgs)) k s s₁ ↔
        Prog.FailsOver (fun status => isRetryable status.code) (d.attempt answer c a) k s s₁ := by
    intro k s₁
    rw [gateway_request, Prog.failsOver_bind_ret]
  refine GatewayClient.callFor_returns_iff.trans (and_congr_right fun _ => ?_)
  constructor
  · rintro ⟨k, s₁, body, hallows, htried, hanswer⟩
    obtain ⟨u, hthrough, hread⟩ := gateway_answers_iff.1 ⟨body, hanswer⟩
    exact ⟨k, s₁, u, hallows, (hfails k s₁).1 htried, hthrough, hread⟩
  · rintro ⟨k, s₁, u, hallows, htried, hthrough, hread⟩
    obtain ⟨body, hanswer⟩ := gateway_answers_iff.2 ⟨u, hthrough, hread⟩
    exact ⟨k, s₁, body, hallows, (hfails k s₁).2 htried, hanswer⟩

end

end

end Network

/-! ## An answer that is lost -/

namespace DemoNetwork

/-- How often the handler has run, and which of the next messages are lost. -/
structure Counted where
  runs : Nat
  lost : List Bool

/-- `research` may call `writer`, whose handler counts its runs. -/
def network : Network Counted where
  config := DemoRetries.deployment.router.config
  registry _ := DemoRetries.deployment.router.registry
  fromShared _ := .ok ()
  connect _ := .ok ()
  link := Prog.prim fun s =>
    (if s.lost.headD false then .error ⟨.unavailable, "connection closed"⟩ else .ok (), { s with lost := s.lost.tail })
  display s := s.message
  newTraceId := DemoRetries.deployment.newTraceId
  handlers _ _ := .act (fun s => ((), { s with runs := s.runs + 1 })) fun _ => .ret (.ok .null)

/-- The third message, the agent's first answer, is lost: the call goes well all the same, but the handler has
run twice. -/
example : letI := SerdeJson.nullOnly
    let done := (network.ask (network.serve (fun _ _ => Prog.fail "too deep") 1) DemoRetries.client
      ⟨DemoRetries.args 3, by decide +kernel⟩).exec ⟨0, [false, false, true]⟩
    done.1.toOption.isSome = true ∧ done.2.runs = 2 := by
  decide +kernel

end DemoNetwork

end A2AGateway
