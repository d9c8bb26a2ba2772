import A2AGateway.CallChains

/-!
# What the router decides

The router takes the hop count of the request and adds one before it looks at the limit: "hop_count
= request.hop_count + 1", "Check hop_count ≤ max_hops" (`router.rs:6-7`). On a `u32` that is
`hop_count < max_hops`, except at `u32::MAX`: there a debug build panics, and a release build goes on with 0.
-/

namespace A2AGateway

/-! ## The decision -/

/-- The answer to a call: the hop limit first, then the call graph, then the registry. -/
structure Router.Decides (r : Router) (caller target : String) (hopCount : UInt32)
    (answer : Option (Except RouterError RouteDecision)) : Prop where
  isOk : (∃ d, answer = some (.ok d)) ↔
    hopCount < r.config.maxHops ∧ r.config.Permits caller target ∧ ∃ entry, r.registry.get target = some entry
  decision : ∀ d, answer = some (.ok d) →
    (∃ entry, r.registry.get target = some entry ∧ d.endpoint = entry.endpoint) ∧
      d.hopCount.toNat = hopCount.toNat + 1
  hopLimit : r.config.maxHops ≤ hopCount → ∃ hops max, answer = some (.error (.hopLimitExceeded hops max))
  notPermitted : hopCount < r.config.maxHops → ¬ r.config.Permits caller target →
    ∃ caller' target', answer = some (.error (.notPermitted caller' target'))
  notFound : hopCount < r.config.maxHops → r.config.Permits caller target → r.registry.get target = none →
    ∃ name, answer = some (.error (.notFound name))

theorem UInt32.toNat_succ {n : UInt32} (hn : n ≠ 0xFFFFFFFF) : (n + 1).toNat = n.toNat + 1 := by
  have hlt : n.toNat < 4294967296 := n.toNat_lt
  have hne : n.toNat ≠ 4294967295 := fun h => hn (UInt32.toNat_inj.1 h)
  rw [UInt32.toNat_add]
  exact Nat.mod_eq_of_lt (by simpa using by omega)

theorem UInt32.succ_le_iff {n m : UInt32} (hn : n ≠ 0xFFFFFFFF) : n + 1 ≤ m ↔ n < m := by
  rw [UInt32.le_iff_toNat_le, UInt32.lt_iff_toNat_lt, toNat_succ hn]
  exact Nat.succ_le_iff

namespace Router

variable {r : Router} {caller target : String} {hopCount : UInt32}

theorem route_hopLimit (h : r.config.maxHops < hopCount + 1) :
    r.route caller target hopCount = .error (.hopLimitExceeded (hopCount + 1) r.config.maxHops) := by
  simp only [route]
  exact if_pos h

theorem route_notPermitted (hle : hopCount + 1 ≤ r.config.maxHops) (hp : ¬ r.config.Permits caller target) :
    r.route caller target hopCount = .error (.notPermitted (if caller = "" then "external" else caller) target) := by
  rw [Config.permits_iff, not_or] at hp
  simp only [route]
  rw [if_neg (UInt32.not_lt.2 hle), if_pos hp]

theorem route_notFound (hle : hopCount + 1 ≤ r.config.maxHops) (hp : r.config.Permits caller target)
    (hget : r.registry.get target = none) : r.route caller target hopCount = .error (.notFound target) := by
  have hp' : ¬ (¬ r.config.isAllowed (if caller = "" then "external" else caller) target = true ∧
      ¬ (caller = "" ∧ "external" ∉ r.config.callGraph.edges)) := by
    rw [← not_or, not_not]
    exact Config.permits_iff.1 hp
  simp only [route]
  rw [if_neg (UInt32.not_lt.2 hle), if_neg hp', hget]

/-- At `u32::MAX` a release build takes the call for a first hop: the limit is never what stops it. -/
theorem route_max (r : Router) (caller target : String) (hops max : UInt32) :
    r.route caller target 0xFFFFFFFF ≠ .error (.hopLimitExceeded hops max) := by
  have hle : (0xFFFFFFFF : UInt32) + 1 ≤ r.config.maxHops := UInt32.zero_le
  intro h
  by_cases hp : r.config.Permits caller target
  · cases hget : r.registry.get target with
    | none =>
      rw [route_notFound hle hp hget] at h
      cases h
    | some entry =>
      rw [route_eq_ok.2 ⟨hle, hp, entry, hget, rfl⟩] at h
      cases h
  · rw [route_notPermitted hle hp] at h
    cases h

theorem decides_of_ne (b : Build) (hn : hopCount ≠ 0xFFFFFFFF) :
    r.Decides caller target hopCount (r.routeIn b caller target hopCount) := by
  rw [routeIn_of_ne r b caller target hn]
  have hle : hopCount < r.config.maxHops → hopCount + 1 ≤ r.config.maxHops := (UInt32.succ_le_iff hn).2
  constructor
  case isOk =>
    simp only [Option.some.injEq, route_isOk, UInt32.succ_le_iff hn]
  case decision =>
    intro d hd
    obtain ⟨-, -, entry, hget, rfl⟩ := route_eq_ok.1 (Option.some.inj hd)
    exact ⟨⟨entry, hget, rfl⟩, UInt32.toNat_succ hn⟩
  case hopLimit =>
    intro hmax
    have hover : r.config.maxHops < hopCount + 1 := by
      rw [← UInt32.not_le, UInt32.succ_le_iff hn, UInt32.not_lt]
      exact hmax
    exact ⟨_, _, congrArg some (route_hopLimit hover)⟩
  case notPermitted =>
    intro hlt hp
    exact ⟨_, _, congrArg some (route_notPermitted (hle hlt) hp)⟩
  case notFound =>
    intro hlt hp hget
    exact ⟨_, congrArg some (route_notFound (hle hlt) hp hget)⟩

/-- **The router decides by limit, call graph and registry, for every hop count but `u32::MAX`.** -/
theorem decides_iff (r : Router) (b : Build) (caller target : String) (hopCount : UInt32) :
    r.Decides caller target hopCount (r.routeIn b caller target hopCount) ↔ hopCount ≠ 0xFFFFFFFF := by
  constructor
  · rintro h rfl
    -- every limit is at most `u32::MAX`: the call is to be stopped by it
    obtain ⟨hops, max, he⟩ := h.hopLimit (UInt32.le_iff_toNat_le.2 (Nat.le_of_lt_succ r.config.maxHops.toNat_lt))
    cases b with
    | debug => cases he
    | release => exact route_max r caller target hops max (Option.some.inj he)
  · exact decides_of_ne b

/-- **A call that comes with `u32::MAX` hops goes through as a call with none.** -/
theorem hop_count_wraps :
    demoRouter.routeIn .release "orchestrator" "research" 0xFFFFFFFF = some (.ok ⟨"http://research:8080", 0⟩) ∧
      demoRouter.routeIn .debug "orchestrator" "research" 0xFFFFFFFF = none ∧
      ¬ ∀ b, demoRouter.Decides "orchestrator" "research" 0xFFFFFFFF
        (demoRouter.routeIn b "orchestrator" "research" 0xFFFFFFFF) := by
  have hrelease : demoRouter.routeIn .release "orchestrator" "research" 0xFFFFFFFF =
      some (.ok ⟨"http://research:8080", 0⟩) := by decide +kernel
  refine ⟨hrelease, rfl, fun h => ?_⟩
  obtain ⟨-, hsucc⟩ := (h .release).decision _ hrelease
  exact absurd hsucc (by decide)

end Router

end A2AGateway
