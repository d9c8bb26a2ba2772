import A2AGateway.CallPolicy
import A2AGateway.Http

/-!
# What the servers make of an agent's answer

The context builder looks at the status of what an agent answers (`context_builder.rs:101`). The three servers
that pass calls on over HTTP do not: they read the body (`http_server.rs:178`, `peer_server.rs:121`,
`local_server.rs:182`) and report success, `tasks/send` with `null` where the body is not JSON either
(`.unwrap_or(Value::Null)`). So an agent's failure is shown exactly where there is none, or where `Delegate`
and `Stream` cannot read the body (`failures_shown_iff`).
-/

namespace A2AGateway

/-! ## Agents that answer with a status -/

/-- The agents as they answer: a `POST` fails on sending, or leads to a response. -/
structure HttpAgents where
  fromShared : String → Except String Unit
  connect : String → Except String Unit
  call : String → CallRequest → Except String CallResponse
  post : String → Bytes → Except String HttpResponse

/-- What the servers look at: of a response, only the bytes. -/
def HttpAgents.bodies (h : HttpAgents) : Agents where
  fromShared := h.fromShared
  connect := h.connect
  call := h.call
  post url body := (h.post url body).map (·.bytes)

/-- The servers before these agents. -/
def Front.over (f : Front) (h : HttpAgents) : Front := { f with agents := h.bodies }

/-! ## Success -/

/-- What the caller takes for success: a chunk, the status `completed`, no error. -/
def EntryResponse.ReportsSuccess : EntryResponse → Prop
  | .call r => r.error = ""
  | .stream chunks => ∃ c, .ok c ∈ chunks
  | .jsonrpc _ r => (r.result.bind (Json.get "status")).bind Json.asStr = some "completed"
  | .delegate r => r.error = ""

def ReportsSuccess (answer : Except Status EntryResponse) : Prop := ∃ resp, answer = .ok resp ∧ resp.ReportsSuccess

section
variable [SerdeJson]

/-- The agent has done what it was asked: 2xx, and for a task the answer is JSON. -/
def EntryRequest.DoneBy (resp : HttpResponse) : EntryRequest → Prop
  | .jsonrpc _ => resp.status.isSuccess = true ∧ ∃ v, resp.json = .ok v
  | _ => resp.status.isSuccess = true

/-- For every response to what is passed on, success is reported only if the agent has done it. -/
def Front.FailuresShown (f : Front) (h : HttpAgents) (newId : Uuid) (t : Traffic) (r : EntryRequest) : Prop :=
  ∀ url body resp, .post url body ∈ (f.over h).forwards newId t.world.now r → h.post url body = .ok resp →
    ReportsSuccess (((f.over h).handle newId r).exec t).1 → r.DoneBy resp

/-- The body cannot be read, and the server is one that says so. -/
def EntryRequest.Unreadable (resp : HttpResponse) : EntryRequest → Prop
  | .jsonrpc _ => False
  | _ => ∃ e, resp.bytes = .error e

/-! ## What each server reports -/

variable {router : Router} {registry : Registry} {agents : Agents} {newId : Uuid} {t : Traffic}
  {bytes : Except String Bytes} {url : String} {body : Bytes}

/-- `Stream` sends an `Ok` chunk if it can read the body. -/
theorem LocalGateway.stream_reports {r : CallRequest} (hsent : .post url body ∈ streamForwards router r)
    (hpost : agents.post url body = .ok bytes) :
    ReportsSuccess ((((stream router agents r).exec t).1).map .stream) ↔ ¬ ∃ e, bytes = .error e := by
  unfold streamForwards at hsent
  split at hsent
  · simp at hsent
  · rename_i d hd
    obtain ⟨rfl, rfl⟩ : url = streamUrl d.endpoint ∧ body = streamBody r := by simpa using hsent
    simp only [stream, hd, Prog.bind_eq, Prog.exec_bind, Prog.exec_mapErr, Prog.exec_ofExcept, Prog.mapError_ok,
      exec_sendPost, hpost]
    cases bytes <;> simp [ReportsSuccess, EntryResponse.ReportsSuccess, Except.map]

omit [SerdeJson] in
/-- `Delegate` answers without an error if it can read the body. -/
theorem PeerHandler.delegate_reports {h : PeerHandler} {r : DelegateRequest}
    (hsent : .post url body ∈ h.delegateForwards registry t.world.now r) (hpost : agents.post url body = .ok bytes) :
    ReportsSuccess ((((h.delegate registry agents r).exec t).1).map .delegate) ↔ ¬ ∃ e, bytes = .error e := by
  unfold delegateForwards at hsent
  split at hsent
  · rename_i c agent hauth hagent
    obtain ⟨rfl, rfl⟩ : url = s!"{agent.endpoint}/invoke" ∧ body = r.payload := by simpa using hsent
    have hnow : (Traffic.gateway.get t).now = t.world.now := rfl
    simp only [delegate, Prog.bind_eq, Prog.exec_bind, Prog.exec_within, exec_authJwt, Prog.Focus.set_get, hnow, hauth,
      hagent, Prog.mapError_ok, exec_sendPost, hpost]
    cases bytes <;> simp [ReportsSuccess, EntryResponse.ReportsSuccess, Except.map]
  · simp at hsent

variable (newId t) in
/-- `tasks/send` is completed whatever the body is. -/
theorem HttpServer.jsonrpc_reports {r : JsonRpcRequest} (hsent : .post url body ∈ httpForwards registry r)
    (hpost : agents.post url body = .ok bytes) :
    ReportsSuccess ((((jsonrpcDispatch registry agents newId r).exec t).1).map fun x => .jsonrpc x.1 x.2) := by
  unfold httpForwards at hsent
  split at hsent
  · rename_i htask
    obtain ⟨hversion, hmethod, hagent⟩ := htask
    split at hsent
    · simp at hsent
    · rename_i entry hentry
      obtain ⟨rfl, rfl⟩ : url = s!"{entry.endpoint}/invoke" ∧ body = SerdeJson.toVec (taskParam r) := by
        simpa using hsent
      simp only [jsonrpcDispatch, hversion, hmethod, tasksSend, hagent, hentry, ne_eq, not_true_eq_false, if_false,
        if_true, Prog.bind_eq, Prog.exec_bind, exec_sendPost, hpost]
      exact ⟨_, rfl, rfl⟩
  · simp at hsent

/-! ## Failures -/

variable {f : Front} {h : HttpAgents} {r : EntryRequest} {resp : HttpResponse}

/-- **A response to what is passed on is reported as success, unless its body cannot be read.** -/
theorem Front.handle_reports (hsent : .post url body ∈ (f.over h).forwards newId t.world.now r)
    (hpost : h.post url body = .ok resp) :
    ReportsSuccess (((f.over h).handle newId r).exec t).1 ↔ ¬ r.Unreadable resp := by
  have hbytes : (f.over h).agents.post url body = .ok resp.bytes := by simp [Front.over, HttpAgents.bodies, hpost, Except.map]
  cases r with
  | call r =>
    -- a gRPC call: nothing is posted
    simp only [forwards, LocalGateway.callForwards] at hsent
    split at hsent
    · simp at hsent
    · split at hsent <;> simp at hsent
  | stream r =>
    rw [handle_stream, Prog.exec_bind_ret]
    exact LocalGateway.stream_reports (t := t) hsent hbytes
  | jsonrpc r =>
    rw [handle_jsonrpc, Prog.exec_bind_ret]
    exact iff_of_true (HttpServer.jsonrpc_reports newId t hsent hbytes) id
  | delegate r =>
    rw [handle_delegate, Prog.exec_bind_ret]
    exact PeerHandler.delegate_reports hsent hbytes

/-- **An agent's failure is never reported as success if and only if the agent does not fail, or `Delegate` or
`Stream` cannot read the body.** -/
theorem failures_shown_iff : f.FailuresShown h newId t r ↔
    ∀ url body resp, .post url body ∈ (f.over h).forwards newId t.world.now r → h.post url body = .ok resp →
      r.DoneBy resp ∨ r.Unreadable resp := by
  constructor
  · intro hshown url body resp hsent hpost
    by_cases hread : r.Unreadable resp
    · exact .inr hread
    · exact .inl (hshown url body resp hsent hpost ((Front.handle_reports hsent hpost).2 hread))
  · intro hdone url body resp hsent hpost hreports
    rcases hdone url body resp hsent hpost with h | h
    · exact h
    · exact absurd h ((Front.handle_reports hsent hpost).1 hreports)

end

/-! ## An agent that is broken -/

namespace DemoFailures

/-- `research` is open to callers from outside, and the peers' tokens are good. -/
def front : Front where
  router := demoFront.router
  peer := ⟨"gw-a", ⟨"gw-a", fun _ => none, fun _ _ => some ⟨"gw-b", "gw-a", 2000000000, 0, "delegate"⟩⟩⟩
  agents := demoFront.agents

/-- Whatever it is asked, it answers with 500. -/
def agents : HttpAgents where
  fromShared _ := .ok ()
  connect _ := .ok ()
  call _ _ := .error "no answer"
  post _ _ := .ok ⟨.internalServerError, .ok (asBytes "boom"), .ok "boom"⟩

def task : EntryRequest :=
  .jsonrpc ⟨"2.0", "tasks/send", some (.obj [("agent", .str "research"), ("task", .null)]), none⟩

def delegation : EntryRequest := .delegate ⟨"research", "invoke", [], "t1", "token", 0⟩

def streaming : EntryRequest := .stream ⟨"research", "invoke", [], "t1", "", 0⟩

def newId : Uuid := ⟨"00000000-0000-4000-8000-000000000001", Uuid.hex_one⟩

/-- What is passed on is not done, but is reported to be. -/
theorem not_failuresShown [SerdeJson] {r : EntryRequest} {url : String} {body : Bytes}
    (hsent : .post url body ∈ (front.over agents).forwards newId World.fresh.now r) :
    ¬ front.FailuresShown agents newId ⟨.fresh, []⟩ r := by
  intro hshown
  have hfails : ¬ r.DoneBy ⟨.internalServerError, .ok (asBytes "boom"), .ok "boom"⟩ := by
    cases r <;> simp [EntryRequest.DoneBy, StatusCode.isSuccess, StatusCode.internalServerError]
  have hread : ¬ r.Unreadable ⟨.internalServerError, .ok (asBytes "boom"), .ok "boom"⟩ := by
    cases r <;> simp [EntryRequest.Unreadable]
  exact hfails (hshown url body _ hsent rfl ((Front.handle_reports hsent rfl).2 hread))

end DemoFailures

/-- **An agent's `500 Internal Server Error` is a completed task, a delegation without an error and an `Ok`
chunk.** -/
theorem serverError_reported_success : letI := SerdeJson.nullOnly
    ¬ DemoFailures.front.FailuresShown DemoFailures.agents DemoFailures.newId ⟨.fresh, []⟩ DemoFailures.task ∧
      ¬ DemoFailures.front.FailuresShown DemoFailures.agents DemoFailures.newId ⟨.fresh, []⟩ DemoFailures.delegation ∧
      ¬ DemoFailures.front.FailuresShown DemoFailures.agents DemoFailures.newId ⟨.fresh, []⟩ DemoFailures.streaming := by
  let := SerdeJson.nullOnly
  refine ⟨?_, ?_, ?_⟩
  · exact DemoFailures.not_failuresShown (List.mem_singleton.2 rfl)
  · exact DemoFailures.not_failuresShown (List.mem_singleton.2 rfl)
  · exact DemoFailures.not_failuresShown (List.mem_singleton.2 rfl)

end A2AGateway
