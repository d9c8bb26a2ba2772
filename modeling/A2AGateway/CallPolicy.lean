import A2AGateway.EntryPoints

/-!
# Which calls reach an agent

The router knows callers from outside: "Empty caller = external (HTTP :7242)" (`router.rs:64`), and
`""` is "outside (Cloudflare / peer gateway)" (`router.rs:45`); their policy is "configurable via
`[call_graph]`" (`README.md:746`). The two servers that such callers come
to look the agent up in the registry themselves (`http_server.rs:166`, `peer_server.rs:109`); the
peer server is given a router, under the name `_router`.
-/

namespace A2AGateway

/-- A gateway's servers for calls: they share the router and its registry. -/
structure Front where
  router : Router
  peer : PeerHandler
  agents : Agents

/-- A request to one of them. -/
inductive EntryRequest
  | call (r : CallRequest)
  | stream (r : CallRequest)
  | jsonrpc (r : JsonRpcRequest)
  | delegate (r : DelegateRequest)

inductive EntryResponse
  | call (r : CallResponse)
  | stream (chunks : List (Except Status StreamChunk))
  | jsonrpc (status : Nat) (r : JsonRpcResponse)
  | delegate (r : DelegateResponse)

namespace EntryRequest

def caller : EntryRequest → String
  | call r => r.caller
  | stream r => r.caller
  | jsonrpc _ => ""
  | delegate _ => ""

def target : EntryRequest → String
  | call r => r.targetAgent
  | stream r => r.targetAgent
  | jsonrpc r => HttpServer.agentParam r
  | delegate r => r.targetAgent

def hopCount : EntryRequest → UInt32
  | call r => r.hopCount
  | stream r => r.hopCount
  | jsonrpc _ => 0
  | delegate r => r.hopCount

end EntryRequest

namespace Front

def handle [SerdeJson] (f : Front) (newId : Uuid) : EntryRequest → Prog Traffic Status EntryResponse
  | .call r => do return .call (← LocalGateway.call f.router f.agents newId r)
  | .stream r => do return .stream (← LocalGateway.stream f.router f.agents r)
  | .jsonrpc r => do
    let (status, resp) ← HttpServer.jsonrpcDispatch f.router.registry f.agents newId r
    return .jsonrpc status resp
  | .delegate r => do return .delegate (← f.peer.delegate f.router.registry f.agents r)

/-- `handle` in a build: `Call` and `Stream` ask the router first, and where that panics nothing is sent. -/
def handleIn [SerdeJson] (f : Front) (b : Build) (newId : Uuid) : EntryRequest → Option (Prog Traffic Status EntryResponse)
  | .call r => (b.succ r.hopCount).map fun _ => f.handle newId (.call r)
  | .stream r => (b.succ r.hopCount).map fun _ => f.handle newId (.stream r)
  | .jsonrpc r => some (f.handle newId (.jsonrpc r))
  | .delegate r => some (f.handle newId (.delegate r))

/-- What the handlers send to agents. -/
def forwards [SerdeJson] (f : Front) (newId : Uuid) (now : F64) : EntryRequest → List Forward
  | .call r => LocalGateway.callForwards f.router f.agents newId r
  | .stream r => LocalGateway.streamForwards f.router r
  | .jsonrpc r => HttpServer.httpForwards f.router.registry r
  | .delegate r => f.peer.delegateForwards f.router.registry now r

/-- The servers for callers from outside would pass the request on. -/
def TakesFromOutside (f : Front) (now : F64) : EntryRequest → Prop
  | .call _ => False
  | .stream _ => False
  | .jsonrpc r => r.jsonrpc = "2.0" ∧ r.method = "tasks/send" ∧ HttpServer.agentParam r ≠ "" ∧
      ∃ entry, f.router.registry.get (HttpServer.agentParam r) = some entry
  | .delegate r => (∃ c, f.peer.auth.validateFor r.jwt f.peer.gatewayName now = .ok c) ∧
      ∃ entry, f.router.registry.get r.targetAgent = some entry

/-- The hop count of the request leaves a hop, and the call graph lets its caller call its target. -/
def WithinPolicy (f : Front) (b : Build) (r : EntryRequest) : Prop :=
  (∃ nextHop, b.succ r.hopCount = some nextHop ∧ nextHop ≤ f.router.config.maxHops) ∧
    f.router.config.Permits r.caller r.target

section
variable [SerdeJson] {f : Front} {b : Build} {newId : Uuid} {t : Traffic} {r : EntryRequest}

theorem handle_call (c : CallRequest) : f.handle newId (.call c) =
    (LocalGateway.call f.router f.agents newId c).bind fun resp => .ret (.call resp) := rfl

theorem handle_stream (c : CallRequest) : f.handle newId (.stream c) =
    (LocalGateway.stream f.router f.agents c).bind fun chunks => .ret (.stream chunks) := rfl

theorem handle_jsonrpc (q : JsonRpcRequest) : f.handle newId (.jsonrpc q) =
    (HttpServer.jsonrpcDispatch f.router.registry f.agents newId q).bind fun x => .ret (.jsonrpc x.1 x.2) := rfl

theorem handle_delegate (d : DelegateRequest) : f.handle newId (.delegate d) =
    (f.peer.delegate f.router.registry f.agents d).bind fun resp => .ret (.delegate resp) := rfl

theorem sent_handle (f : Front) (newId : Uuid) (t : Traffic) (r : EntryRequest) :
    ((f.handle newId r).exec t).2.sent = t.sent ++ f.forwards newId t.world.now r := by
  cases r with
  | call r => rw [handle_call, Prog.exec_bind_ret_state, forwards, LocalGateway.sent_call]
  | stream r => rw [handle_stream, Prog.exec_bind_ret_state, forwards, LocalGateway.sent_stream]
  | jsonrpc r => rw [handle_jsonrpc, Prog.exec_bind_ret_state, forwards, HttpServer.sent_jsonrpcDispatch]
  | delegate r => rw [handle_delegate, Prog.exec_bind_ret_state, forwards, PeerHandler.sent_delegate]

/-- Something is sent exactly if the handler of the request passes it on. -/
theorem sends_iff : ((f.handle newId r).exec t).2.sent ≠ t.sent ↔ f.forwards newId t.world.now r ≠ [] := by
  rw [sent_handle, ne_eq, List.append_right_eq_self]

/-- A request that does not go to the router is handled the same in every build. -/
theorem handleIn_of_outside (hcall : ∀ c, r ≠ .call c) (hstream : ∀ c, r ≠ .stream c) :
    f.handleIn b newId r = some (f.handle newId r) := by
  cases r with
  | call c => exact absurd rfl (hcall c)
  | stream c => exact absurd rfl (hstream c)
  | jsonrpc q => rfl
  | delegate q => rfl

/-- `Call` and `Stream` send only what the router lets through. -/
theorem routed_of_local {p : Prog Traffic Status EntryResponse} {c : CallRequest} (hr : r = .call c ∨ r = .stream c)
    (hp : f.handleIn b newId r = some p) (hsends : (p.exec t).2.sent ≠ t.sent) :
    ∃ d, f.router.routeIn b r.caller r.target r.hopCount = some (.ok d) := by
  rcases hr with rfl | rfl
  · obtain ⟨nextHop, hnext, rfl⟩ := Option.map_eq_some_iff.1 hp
    have h := sends_iff.1 hsends
    simp only [forwards, LocalGateway.callForwards] at h
    split at h
    · exact absurd rfl h
    · rename_i d hd
      exact ⟨d, Router.routeIn_eq_ok.2 ⟨⟨nextHop, hnext⟩, hd⟩⟩
  · obtain ⟨nextHop, hnext, rfl⟩ := Option.map_eq_some_iff.1 hp
    have h := sends_iff.1 hsends
    simp only [forwards, LocalGateway.streamForwards] at h
    split at h
    · exact absurd rfl h
    · rename_i d hd
      exact ⟨d, Router.routeIn_eq_ok.2 ⟨⟨nextHop, hnext⟩, hd⟩⟩

/-- The other two send what is well-formed and names a registered agent. -/
theorem forwards_of_outside (hcall : ∀ c, r ≠ .call c) (hstream : ∀ c, r ≠ .stream c) :
    f.forwards newId t.world.now r ≠ [] ↔ f.TakesFromOutside t.world.now r := by
  cases r with
  | call c => exact absurd rfl (hcall c)
  | stream c => exact absurd rfl (hstream c)
  | jsonrpc q =>
    simp only [forwards, HttpServer.httpForwards, TakesFromOutside]
    by_cases hq : q.jsonrpc = "2.0" ∧ q.method = "tasks/send" ∧ HttpServer.agentParam q ≠ ""
    · rw [if_pos hq]
      cases f.router.registry.get (HttpServer.agentParam q) with
      | none => simp
      | some entry => simp [hq]
    · rw [if_neg hq]
      constructor
      · intro h
        exact absurd rfl h
      · rintro ⟨h₁, h₂, h₃, -⟩
        exact absurd ⟨h₁, h₂, h₃⟩ hq
  | delegate q =>
    simp only [forwards, PeerHandler.delegateForwards, TakesFromOutside]
    cases f.peer.auth.validateFor q.jwt f.peer.gatewayName t.world.now with
    | error e => simp
    | ok c =>
      cases f.router.registry.get q.targetAgent with
      | none => simp
      | some entry => simp

omit [SerdeJson] in
theorem TakesFromOutside.registered {now : F64} (h : f.TakesFromOutside now r) :
    ∃ entry, f.router.registry.get r.target = some entry := by
  cases r with
  | call c => exact absurd h id
  | stream c => exact absurd h id
  | jsonrpc q => exact h.2.2.2
  | delegate q => exact h.2

end

/-- **In either build a request is passed on only if the router lets it through, exactly if it is for the local
server, or is not passed on at all, or keeps within the policy.** -/
theorem sends_only_routed_iff [SerdeJson] (f : Front) (b : Build) (newId : Uuid) (t : Traffic) (r : EntryRequest) :
    ((∃ p, f.handleIn b newId r = some p ∧ (p.exec t).2.sent ≠ t.sent) →
      ∃ d, f.router.routeIn b r.caller r.target r.hopCount = some (.ok d)) ↔
      (f.TakesFromOutside t.world.now r → f.WithinPolicy b r) := by
  by_cases hlocal : ∃ c, r = .call c ∨ r = .stream c
  · obtain ⟨c, hc⟩ := hlocal
    constructor
    · intro _ hout
      rcases hc with rfl | rfl <;> exact absurd hout id
    · rintro _ ⟨p, hp, hsends⟩
      exact routed_of_local hc hp hsends
  · push Not at hlocal
    have hsends : (∃ p, f.handleIn b newId r = some p ∧ (p.exec t).2.sent ≠ t.sent) ↔
        f.TakesFromOutside t.world.now r := by
      rw [handleIn_of_outside (fun c => (hlocal c).1) fun c => (hlocal c).2]
      simp only [Option.some.injEq, exists_eq_left']
      rw [sends_iff, forwards_of_outside (fun c => (hlocal c).1) fun c => (hlocal c).2]
    rw [hsends]
    refine forall_congr' fun hout => ?_
    simp only [Router.routeIn_eq_ok, exists_and_left]
    rw [Router.route_isOk]
    have hreg := TakesFromOutside.registered hout
    constructor
    · rintro ⟨⟨nextHop, hnext⟩, hhops, hpermits, -⟩
      exact ⟨⟨nextHop, hnext, Build.eq_of_succ hnext ▸ hhops⟩, hpermits⟩
    · rintro ⟨⟨nextHop, hnext, hle⟩, hpermits⟩
      exact ⟨⟨nextHop, hnext⟩, Build.eq_of_succ hnext ▸ hle, hpermits, hreg⟩

end Front

/-! ## A task for an agent that is closed to callers from outside -/

section demo

/-- Callers from outside may call `research`, which alone may call `writer`. -/
def demoFront : Front where
  router :=
    { config := ⟨⟨(∅ : AList fun _ : String => List String).insert "research" ["writer"]
        |>.insert "external" ["research"], 3⟩⟩
      registry := (∅ : AList fun _ : String => AgentEntry).insert "research" (demoAgent "research")
        |>.insert "writer" (demoAgent "writer") }
  peer := ⟨"gw-a", ⟨"gw-a", fun _ => none, fun _ _ => none⟩⟩
  agents := ⟨fun _ => .ok (), fun _ => .ok (), fun _ _ => .error "no answer", fun _ _ => .ok (.ok (asBytes "null"))⟩

/-- **`tasks/send` reaches `writer`, which the router refuses.** -/
theorem tasksSend_unrouted :
    letI := SerdeJson.nullOnly
    ¬ (((demoFront.handle ⟨"00000000-0000-4000-8000-000000000000", by decide⟩ (.jsonrpc
          ⟨"2.0", "tasks/send", some (.obj [("agent", .str "writer"), ("task", .null)]), none⟩)).exec
          ⟨.fresh, []⟩).2.sent ≠ [] →
        ∃ d, demoFront.router.route "" "writer" 0 = .ok d) := by
  let := SerdeJson.nullOnly
  intro h
  obtain ⟨d, hd⟩ := h (by decide +kernel)
  have hnot : demoFront.router.route "" "writer" 0 = .error (.notPermitted "external" "writer") := by
    decide +kernel
  rw [hnot] at hd
  cases hd

end demo

end A2AGateway
