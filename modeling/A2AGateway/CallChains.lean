import Mathlib.Data.List.Chain
import A2AGateway.Sdk

/-!
# Chains of nested calls

The gateway "prevents infinite loops via hop counting" (`docs/SECURITY_AUDIT.md:725`): the router adds
one to the hop count of a request and passes the request on under the new count. The agent's
`from_call_request` drops the count, and the next request that the agent makes starts at 0 again.
-/

namespace A2AGateway

/-! ## Chains -/

section
variable [SerdeJson] (router : Router) (clients : String → List GatewayClient)

/-- The gateway passes the request on to the endpoint, as `r'`. -/
def PassesOn (r : CallRequest) (endpoint : String) (r' : CallRequest) : Prop :=
  ∃ agents newTraceId w, .call endpoint r' ∈ ((LocalGateway.call router agents newTraceId r).exec ⟨w, []⟩).2.sent

/-- `n` calls, each but the first made while the one before is handled, and all passed on by the
gateway; the last one to the endpoint, as the given request. At each endpoint an agent serves that
calls through the clients `clients endpoint`. -/
inductive Chain (handlers : (endpoint : String) → Message → Handling (clients endpoint)) :
    Nat → String → CallRequest → Prop
  | first {c : GatewayClient} {a : CallArgs} {answers : List CallRequest → Except Status CallResponse}
      {r r' : CallRequest} {endpoint : String} (asks : r ∈ ((c.call (recording answers) a).exec []).2)
      (passed : PassesOn router r endpoint r') : Chain handlers 1 endpoint r'
  | nested {n : Nat} {endpoint endpoint' : String} {answers : List CallRequest → Except Status CallResponse}
      {r r' r'' : CallRequest} (handled : Chain handlers n endpoint r)
      (asks : r' ∈ ((AgentService.call (recording answers) (handlers endpoint) r).exec []).2)
      (passed : PassesOn router r' endpoint' r'') : Chain handlers (n + 1) endpoint' r''

end

/-! ## Walks in the call graph -/

section
variable (router : Router) (clients : String → List GatewayClient)

/-- The call graph lets the caller call the target, and the target is registered. -/
def Open (call : String × String) : Prop :=
  router.config.Permits call.1 call.2 ∧ (router.registry.get call.2).isSome = true

/-- The caller of the second call is a client of the agent that the first one reaches. -/
def Continues (call next : String × String) : Prop :=
  ∃ entry ∈ router.registry.get call.2, next.1 ∈ (clients entry.endpoint).map (·.agentName)

/-- Calls from agent to agent along the call graph. -/
structure Walk (calls : List (String × String)) : Prop where
  permitted : ∀ call ∈ calls, Open router call
  linked : calls.IsChain (Continues router clients)

instance (call : String × String) : Decidable (Open router call) :=
  inferInstanceAs (Decidable (_ ∧ _))

instance (call next : String × String) : Decidable (Continues router clients call next) :=
  inferInstanceAs (Decidable (∃ entry ∈ router.registry.get call.2, _))

instance (calls : List (String × String)) : Decidable (Walk router clients calls) :=
  decidable_of_iff ((∀ call ∈ calls, Open router call) ∧ calls.IsChain (Continues router clients))
    ⟨fun h => ⟨h.1, h.2⟩, fun h => ⟨h.permitted, h.linked⟩⟩

end

section
variable [SerdeJson] {router : Router} {clients : String → List GatewayClient}
  {handlers : (endpoint : String) → Message → Handling (clients endpoint)}

/-! ## One call -/

omit [SerdeJson] in
theorem passesOn_iff {r r' : CallRequest} {endpoint : String} :
    PassesOn router r endpoint r' ↔ ∃ d, router.route r.caller r.targetAgent r.hopCount = .ok d ∧
      d.endpoint = endpoint ∧ ∃ newTraceId, r' = LocalGateway.forwardReq newTraceId r d := by
  constructor
  · rintro ⟨agents, newTraceId, w, h⟩
    rw [LocalGateway.sent_call, List.nil_append, LocalGateway.callForwards] at h
    split at h
    · cases h
    · rename_i d hd
      split at h
      · cases List.mem_singleton.1 h
        exact ⟨d, hd, rfl, newTraceId, rfl⟩
      · cases h
  · rintro ⟨d, hd, rfl, newTraceId, rfl⟩
    let agents : Agents := ⟨fun _ => .ok (), fun _ => .ok (), fun _ _ => .error "", fun _ _ => .error ""⟩
    refine ⟨agents, newTraceId, .fresh, ?_⟩
    rw [LocalGateway.sent_call, LocalGateway.callForwards, hd]
    simp [agents]

/-- A request of the SDK is passed on exactly if it is along the call graph and `max_hops` is not 0:
it comes at hop 0, however many calls are open. -/
theorem passesOn_request_iff {c : GatewayClient} {a : CallArgs} {endpoint : String} {r : CallRequest} :
    PassesOn router (c.request a) endpoint r ↔
      router.config.maxHops ≠ 0 ∧ router.config.Permits c.agentName a.target ∧
        ∃ entry, router.registry.get a.target = some entry ∧ entry.endpoint = endpoint ∧
          ∃ newTraceId, r = LocalGateway.forwardReq newTraceId (c.request a) ⟨entry.endpoint, 1⟩ := by
  have hhop : (0 : UInt32) + 1 ≤ router.config.maxHops ↔ router.config.maxHops ≠ 0 := by
    rw [UInt32.le_iff_toNat_le, ne_eq, ← UInt32.toNat_inj]
    have h₁ : ((0 : UInt32) + 1).toNat = 1 := rfl
    have h₀ : (0 : UInt32).toNat = 0 := rfl
    omega
  rw [passesOn_iff]
  constructor
  · rintro ⟨d, hd, hendpoint, newTraceId, hr⟩
    obtain ⟨hle, hpermits, entry, hget, rfl⟩ := Router.route_eq_ok.1 hd
    exact ⟨hhop.1 hle, hpermits, entry, hget, hendpoint, newTraceId, hr⟩
  · rintro ⟨hne, hpermits, entry, hget, hendpoint, newTraceId, hr⟩
    refine ⟨⟨entry.endpoint, 1⟩, Router.route_eq_ok.2 ⟨hhop.2 hne, hpermits, entry, hget, rfl⟩, hendpoint,
      newTraceId, hr⟩

/-! ## A chain follows a walk -/

theorem exists_walk {n : Nat} {endpoint : String} {r : CallRequest} (h : Chain router clients handlers n endpoint r) :
    router.config.maxHops ≠ 0 ∧ ∃ calls, Walk router clients calls ∧ calls.length = n ∧
      ∃ last ∈ calls.getLast?, ∃ entry ∈ router.registry.get last.2, entry.endpoint = endpoint := by
  induction h with
  | first asks passed =>
    obtain ⟨c, -, a, rfl⟩ := called_fromClients asks
    obtain ⟨hne, hpermits, entry, hget, hendpoint, -⟩ := passesOn_request_iff.1 passed
    refine ⟨hne, [(c.agentName, a.target)], ⟨?_, .singleton _⟩, rfl, _, rfl, entry, hget, hendpoint⟩
    intro call hcall
    rw [List.mem_singleton.1 hcall]
    exact ⟨hpermits, by simp [hget]⟩
  | @nested n endpoint endpoint' answers r r' r'' handled asks passed ih =>
    obtain ⟨-, calls, hwalk, hlength, last, hlast, entry, hentry, rfl⟩ := ih
    obtain ⟨c, hc, a, rfl⟩ := asked_fromClients asks
    obtain ⟨hne, hpermits, entry', hget, hendpoint, -⟩ := passesOn_request_iff.1 passed
    refine ⟨hne, calls ++ [(c.agentName, a.target)], ⟨?_, ?_⟩, by simp [hlength], (c.agentName, a.target),
      by simp, entry', hget, hendpoint⟩
    · intro call hcall
      rcases List.mem_append.1 hcall with hcall | hcall
      · exact hwalk.permitted call hcall
      · rw [List.mem_singleton.1 hcall]
        exact ⟨hpermits, by simp [hget]⟩
    · refine List.isChain_append.2 ⟨hwalk.linked, .singleton _, fun x hx y hy => ?_⟩
      rw [Option.mem_unique hx hlast]
      cases hy
      exact ⟨entry, hentry, List.mem_map_of_mem hc⟩

/-! ## A walk is followed by a chain -/

def nilUuid : Uuid := ⟨"00000000-0000-0000-0000-000000000000", by decide⟩

/-- A call with `null` for payload. -/
def nullCall (target : String) : CallArgs := ⟨target, "invoke", .null, {}, nilUuid⟩

/-- A call through each of the clients to each target of the walk. -/
def eachCall (clients : List GatewayClient) (calls : List (String × String)) :
    List ({c : GatewayClient // c ∈ clients} × CallArgs) :=
  clients.attach.flatMap fun c => calls.map fun call => (c, nullCall call.2)

omit [SerdeJson] in
theorem mem_eachCall {clients : List GatewayClient} {calls : List (String × String)} {c : GatewayClient}
    (hc : c ∈ clients) {call : String × String} (hcall : call ∈ calls) :
    (⟨c, hc⟩, nullCall call.2) ∈ eachCall clients calls :=
  List.mem_flatMap.2 ⟨⟨c, hc⟩, List.mem_attach _ _, List.mem_map.2 ⟨call, hcall, rfl⟩⟩

/-- Agents that make all these calls, whatever they are called with. -/
def followers (clients : String → List GatewayClient) (calls : List (String × String)) (endpoint : String)
    (_ : Message) : Handling (clients endpoint) :=
  .callEach (eachCall (clients endpoint) calls)

theorem chain_of_walk (hmax : router.config.maxHops ≠ 0) {all : List (String × String)}
    (hwalk : Walk router clients all) : ∀ {calls : List (String × String)}, calls <+: all → calls ≠ [] →
      ∃ endpoint r, Chain router clients (followers clients all) calls.length endpoint r ∧
        r.payload = SerdeJson.toVec .null ∧
        ∃ last ∈ calls.getLast?, ∃ entry ∈ router.registry.get last.2, entry.endpoint = endpoint := by
  intro calls
  induction calls using List.reverseRecOn with
  | nil => exact fun _ h => absurd rfl h
  | append_singleton calls call ih =>
    intro hpre _
    have hmem : call ∈ all := hpre.subset (by simp)
    obtain ⟨hpermits, hreg⟩ := hwalk.permitted call hmem
    obtain ⟨entry, hget⟩ := Option.isSome_iff_exists.1 hreg
    have hchain := List.IsChain.prefix hwalk.linked hpre
    have hlinked := List.isChain_append.1 hchain
    have hpass : ∀ c : GatewayClient, c.agentName = call.1 → PassesOn router (c.request (nullCall call.2))
        entry.endpoint (LocalGateway.forwardReq nilUuid (c.request (nullCall call.2)) ⟨entry.endpoint, 1⟩) := by
      intro c hc
      exact passesOn_request_iff.2 ⟨hmax, hc ▸ hpermits, entry, hget, rfl, nilUuid, rfl⟩
    by_cases hcalls : calls = []
    · subst hcalls
      have hasks : (⟨call.1⟩ : GatewayClient).request (nullCall call.2) ∈
          (((⟨call.1⟩ : GatewayClient).call (recording refusing) (nullCall call.2)).exec []).2 := by
        rw [exec_call_refusing]
        simp
      exact ⟨_, _, .first hasks (hpass ⟨call.1⟩ rfl), rfl, call, rfl, entry, hget, rfl⟩
    · obtain ⟨endpoint, r, hchain, hpayload, last, hlast, entry', hentry', rfl⟩ :=
        ih ((List.prefix_append _ _).trans hpre) hcalls
      obtain ⟨entry'', hentry'', hclient⟩ := hlinked.2.2 last hlast call rfl
      cases Option.mem_unique hentry' hentry''
      obtain ⟨c, hc, hname⟩ := List.mem_map.1 hclient
      have hmsg : fromCallRequest r = .ok ⟨r.traceId, r.caller, r.method, .null⟩ := by
        simp only [fromCallRequest, hpayload, SerdeJson.null_roundTrip]
        rfl
      have hasks := asked_callEach hmsg (mem_eachCall hc hmem)
      have hnested := Chain.nested hchain hasks (hpass c hname)
      rw [List.length_append]
      exact ⟨_, _, hnested, rfl, call, by simp, entry, hget, rfl⟩

end

/-- **Chains of nested calls are at most `max_hops` long, whatever the agents do, exactly if no call
is admitted at all or no walk in the call graph is longer.** -/
theorem chains_bounded_iff [SerdeJson] (router : Router) (clients : String → List GatewayClient) :
    (∀ (handlers : (endpoint : String) → Message → Handling (clients endpoint)) (n : Nat) (endpoint : String)
        (r : CallRequest), Chain router clients handlers n endpoint r → n ≤ router.config.maxHops.toNat) ↔
      router.config.maxHops = 0 ∨
        ∀ calls, Walk router clients calls → calls.length ≤ router.config.maxHops.toNat := by
  constructor
  · intro hbounded
    refine or_iff_not_imp_left.2 fun hmax calls hwalk => ?_
    by_cases hcalls : calls = []
    · subst hcalls
      exact Nat.zero_le _
    · obtain ⟨endpoint, r, hchain, -⟩ := chain_of_walk hmax hwalk calls.prefix_rfl hcalls
      exact hbounded _ _ _ _ hchain
  · intro hwalks handlers n endpoint r hchain
    obtain ⟨hmax, calls, hwalk, rfl, -⟩ := exists_walk hchain
    exact (hwalks.resolve_left hmax) calls hwalk

/-! ## The cycle of the router's own tests -/

section demo

/-- The call graph and the agents of the tests in `router.rs`, with `max_hops` 3. -/
def demoRouter : Router where
  config := ⟨⟨(∅ : AList fun _ : String => List String).insert "orchestrator" ["research", "writer"]
    |>.insert "research" ["writer"] |>.insert "writer" ["reviewer"] |>.insert "reviewer" ["research"], 3⟩⟩
  registry := ["orchestrator", "research", "writer", "reviewer"].foldl
    (fun registry name => registry.insert name (demoAgent name)) ∅

/-- At each endpoint its own agent serves, and calls under its own name. -/
def demoClients (endpoint : String) : List GatewayClient :=
  (["orchestrator", "research", "writer", "reviewer"].filter fun name => (demoAgent name).endpoint == endpoint).map (⟨·⟩)

def demoWalk : List (String × String) :=
  [("research", "writer"), ("writer", "reviewer"), ("reviewer", "research"), ("research", "writer")]

/-- **A chain of four calls, where `max_hops` is 3.** -/
theorem chain_of_four :
    letI := SerdeJson.nullOnly
    ¬ ∀ (handlers : (endpoint : String) → Message → Handling (demoClients endpoint)) (n : Nat)
        (endpoint : String) (r : CallRequest), Chain demoRouter demoClients handlers n endpoint r →
          n ≤ demoRouter.config.maxHops.toNat := by
  let := SerdeJson.nullOnly
  intro h
  have hwalk : Walk demoRouter demoClients demoWalk := by decide +kernel
  have hmax : demoRouter.config.maxHops ≠ 0 := by decide
  obtain ⟨endpoint, r, hchain, -⟩ := chain_of_walk hmax hwalk demoWalk.prefix_rfl (by decide)
  have hlong : 4 ≤ (3 : UInt32).toNat := h _ _ _ _ hchain
  exact absurd hlong (by decide)

end demo

end A2AGateway
