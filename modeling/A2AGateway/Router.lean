import Mathlib.Data.List.AList
import A2AGateway.Basic

/-!
# The call router (`config.rs`, `registry.rs`, `router.rs`)

| here | there |
| --- | --- |
| `CallGraph`, `Config`              | `config.rs:57-68`, `CallGraphConfig`, `CallLimits` |
| `Config.isAllowed`, `.maxHops`     | `config.rs:106-117` |
| `AgentEntry`, `Registry.get`       | `registry.rs:20-29`, `113-115`, over the `DashMap` |
| `RouterError`, `Router.route`      | `router.rs:16-85` |

`Router.route` adds as a release build does, which wraps (`profile.release` sets no `overflow-checks`,
`Cargo.toml:85-88`); `Router.routeIn` is the same in either build.
-/

namespace A2AGateway

/-! ## Configuration and registry -/

structure CallGraph where
  edges : AList fun _ : String => List String
  maxHops : UInt32

structure Config where
  callGraph : CallGraph

namespace Config

/-- "Is a given caller → target edge permitted by the call graph?" -/
def isAllowed (c : Config) (caller target : String) : Bool :=
  ((c.callGraph.edges.lookup caller).map fun targets => targets.any (· == target)).getD false

def maxHops (c : Config) : UInt32 := c.callGraph.maxHops

end Config

structure AgentEntry where
  name : String
  version : String
  endpoint : String
  capabilities : List String
  soulToml : String
  lastSeen : Option String
  registeredAt : String
deriving DecidableEq

/-- The in-memory registry. -/
abbrev Registry := AList fun _ : String => AgentEntry

def Registry.get (r : Registry) (name : String) : Option AgentEntry := r.lookup name

/-! ## Routing -/

inductive RouterError
  | hopLimitExceeded (hops max : UInt32)
  | notPermitted (caller target : String)
  | notFound (name : String)
deriving DecidableEq

def RouterError.text : RouterError → String
  | hopLimitExceeded hops max => s!"hop limit exceeded: {hops} hops (max {max})"
  | notPermitted caller target => s!"call not permitted: {caller} → {target}"
  | notFound name => s!"agent not found: {name}"

structure RouteDecision where
  endpoint : String
  hopCount : UInt32
deriving DecidableEq

structure Router where
  config : Config
  registry : Registry

namespace Router

/-- `caller = ""` means that the call came from outside. -/
def route (r : Router) (caller target : String) (hopCount : UInt32) : Except RouterError RouteDecision :=
  let nextHop := hopCount + 1
  let max := r.config.maxHops
  if nextHop > max then
    .error (.hopLimitExceeded nextHop max)
  else
    let effectiveCaller := if caller = "" then "external" else caller
    -- "if \"external\" has no edges, allow all (old behavior)"
    if ¬ r.config.isAllowed effectiveCaller target ∧ ¬ (caller = "" ∧ "external" ∉ r.config.callGraph.edges) then
      .error (.notPermitted effectiveCaller target)
    else
      match r.registry.get target with
      | none => .error (.notFound target)
      | some entry => .ok ⟨entry.endpoint, nextHop⟩

end Router

/-! ## Builds -/

inductive Build
  | debug
  | release
deriving DecidableEq

/-- `n + 1` on a `u32`; `none` is the panic "attempt to add with overflow". -/
def Build.succ (n : UInt32) : Build → Option UInt32
  | debug => if n = 0xFFFFFFFF then none else some (n + 1)
  | release => some (n + 1)

/-- `route` in a build. The addition is its first statement: nothing is decided where it panics. -/
def Router.routeIn (r : Router) (b : Build) (caller target : String) (hopCount : UInt32) :
    Option (Except RouterError RouteDecision) :=
  (b.succ hopCount).map fun _ => r.route caller target hopCount

theorem Build.eq_of_succ {b : Build} {n next : UInt32} (h : b.succ n = some next) : next = n + 1 := by
  cases b with
  | release => exact (Option.some.inj h).symm
  | debug =>
    by_cases hmax : n = 0xFFFFFFFF
    · simp [succ, hmax] at h
    · simpa [succ, hmax, eq_comm] using h

@[simp] theorem Build.succ_of_ne (b : Build) {n : UInt32} (hn : n ≠ 0xFFFFFFFF) : b.succ n = some (n + 1) := by
  cases b with
  | debug => exact if_neg hn
  | release => rfl

/-- A build that does not panic decides as `route` does. -/
theorem Router.routeIn_eq_ok {r : Router} {b : Build} {caller target : String} {hopCount : UInt32} {d : RouteDecision} :
    r.routeIn b caller target hopCount = some (.ok d) ↔
      (∃ nextHop, b.succ hopCount = some nextHop) ∧ r.route caller target hopCount = .ok d := by
  rw [routeIn, Option.map_eq_some_iff, exists_and_right]

theorem Router.routeIn_of_ne (r : Router) (b : Build) (caller target : String) {hopCount : UInt32}
    (hn : hopCount ≠ 0xFFFFFFFF) : r.routeIn b caller target hopCount = some (r.route caller target hopCount) := by
  simp only [routeIn, b.succ_of_ne hn, Option.map_some]

/-! ## What the router lets through -/

/-- The call graph has the edge; a caller from outside is `external`, and may call whom it likes
where the graph says nothing about `external`. -/
def Config.Permits (c : Config) (caller target : String) : Prop :=
  if caller = "" then c.isAllowed "external" target = true ∨ "external" ∉ c.callGraph.edges
  else c.isAllowed caller target = true

instance (c : Config) (caller target : String) : Decidable (c.Permits caller target) := by
  unfold Config.Permits
  infer_instance

theorem Config.permits_iff {c : Config} {caller target : String} :
    c.Permits caller target ↔ c.isAllowed (if caller = "" then "external" else caller) target = true ∨
      caller = "" ∧ "external" ∉ c.callGraph.edges := by
  unfold Config.Permits
  by_cases h : caller = ""
  · rw [if_pos h, if_pos h]
    simp only [h, true_and]
  · rw [if_neg h, if_neg h]
    simp only [h, false_and, or_false]

theorem Router.route_eq_ok {r : Router} {caller target : String} {hopCount : UInt32} {d : RouteDecision} :
    r.route caller target hopCount = .ok d ↔
      hopCount + 1 ≤ r.config.maxHops ∧ r.config.Permits caller target ∧
        ∃ entry, r.registry.get target = some entry ∧ d = ⟨entry.endpoint, hopCount + 1⟩ := by
  rw [Config.permits_iff]
  simp only [route]
  by_cases hhop : hopCount + 1 > r.config.maxHops
  · rw [if_pos hhop]
    constructor
    · intro h
      cases h
    · rintro ⟨hle, -⟩
      exact absurd hle (UInt32.not_le.2 hhop)
  rw [if_neg hhop]
  have hle := UInt32.not_lt.1 hhop
  by_cases hdenied : ¬ r.config.isAllowed (if caller = "" then "external" else caller) target = true ∧
      ¬ (caller = "" ∧ "external" ∉ r.config.callGraph.edges)
  · rw [if_pos hdenied]
    constructor
    · intro h
      cases h
    · rintro ⟨-, hallowed | hexternal, -⟩
      · exact absurd hallowed hdenied.1
      · exact absurd hexternal hdenied.2
  · rw [if_neg hdenied]
    have hpermits := (not_and_or.1 hdenied).imp not_not.1 not_not.1
    cases hget : r.registry.get target with
    | none => simp
    | some entry =>
      constructor
      · intro h
        cases h
        exact ⟨hle, hpermits, entry, rfl, rfl⟩
      · rintro ⟨-, -, entry', he, rfl⟩
        cases he
        rfl

theorem Router.route_isOk {r : Router} {caller target : String} {hopCount : UInt32} :
    (∃ d, r.route caller target hopCount = .ok d) ↔
      hopCount + 1 ≤ r.config.maxHops ∧ r.config.Permits caller target ∧ ∃ entry, r.registry.get target = some entry := by
  constructor
  · rintro ⟨d, h⟩
    obtain ⟨hle, hp, entry, hget, -⟩ := route_eq_ok.1 h
    exact ⟨hle, hp, entry, hget⟩
  · rintro ⟨hle, hp, entry, hget⟩
    exact ⟨_, route_eq_ok.2 ⟨hle, hp, entry, hget, rfl⟩⟩

def demoAgent (name : String) : AgentEntry :=
  ⟨name, "0.1.0", "http://" ++ name ++ ":8080", [], "", none, "2024-01-01T00:00:00+00:00"⟩

end A2AGateway
