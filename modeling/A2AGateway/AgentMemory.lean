import A2AGateway.AgentDirectory
import A2AGateway.Statements
import A2AGateway.Lib.Credits

/-!
# What an agent's memory holds

A registration makes the empty memory row of an agent and never touches one that is there. `append_memory` is
an upsert whose `SET` reads `content_md` without saying which one; the database refuses the statement, so no
memory ever holds anything. Nothing is lost or out of order in exactly the runs in which nobody appends
(`memory_grows_iff`).
-/

namespace A2AGateway

open Gw IdentityStore

/-- One action of a call. -/
abbrev MemoryEvent := Prog.Event AgentCall Unit Status Unit

/-- The directory, with what has been done to it. -/
abbrev MemoryHistory := Directory × List MemoryEvent

/-- What a completed append adds to the memory of an agent. -/
def appendedBy (name : String) (e : MemoryEvent) : Option String :=
  match e.label, e.result with
  | .appendMemory agent content, some (.ok _) => if agent = name then some ("\n" ++ content) else none
  | _, _ => none

/-- Every append has succeeded, and every memory is all that has been appended, in order. -/
def MemoryGrows (s : MemoryHistory) : Prop :=
  (∀ e ∈ s.2, ∀ name content, e.label = .appendMemory name content → ∃ u, e.result = some (.ok u)) ∧
    ∀ name w, w.db = s.1.world.db → Passes w →
      (getMemory name).exec w = (.ok (String.join (s.2.filterMap (appendedBy name))), w.tick)

section
variable [SerdeStrings]

/-- Registrations and the other calls on agents, and appends for agents that are registered. -/
def MemoryCalls (s : MemoryHistory) (p : Prog MemoryHistory Status Unit) : Prop :=
  ∃ c : AgentCall, (∀ name content, c = .appendMemory name content → s.1.world.db.hasAgent name = true) ∧
    p = c.prog.traced c fun _ => ()

end

/-- Nothing has been remembered. -/
def Blank (db : Db) : Prop := ∀ name, memoryOf name db = ""

/-- The rest of the gateway does not write the memories. -/
def MemoriesStay (s s' : MemoryHistory) : Prop := s'.1.world.db.memories = s.1.world.db.memories ∧ s'.2 = s.2

/-! ## Nothing is ever remembered -/

section
variable {db db' : Db}

theorem Blank.of_memories (h : Blank db) (hsame : db'.memories = db.memories) : Blank db' := by
  intro name
  rw [memoryOf, hsame]
  exact h name

theorem Blank.insertMemory {agent : String} (h : Blank db) (hins : Registry.insertMemory agent db = some db') : Blank db' := by
  unfold Registry.insertMemory at hins
  split at hins
  · cases hins
    exact h
  · rename_i memories hrow
    split at hins <;> cases hins
    intro name
    have hfind := @Table.find?_of_rows_append _ _ _ _ _ (·.agentName == name) (Table.insert_eq_some.1 hrow).2
    have hname := h name
    simp only [memoryOf, hfind] at hname ⊢
    cases hold : db.memories.find? (·.agentName == name) with
    | none =>
      by_cases hagent : agent = name
      · simp [hagent]
      · simp [hagent]
    | some r =>
      rw [hold] at hname
      simpa using hname

end

/-- An append is one statement, and that is refused. -/
theorem appendMemory_refused [SerdeStrings] (name content : String) :
    ((AgentCall.appendMemory name content).prog.traced (.appendMemory name content) fun _ => ()).Moves
      fun s s' : MemoryHistory => s'.1.world.db = s.1.world.db ∧
        ∃ e, s'.2 = s.2 ++ [⟨.appendMemory name content, (), (), some (.error e)⟩] := by
  obtain ⟨F, hp, hF⟩ := execute_prim .sqlx fun _ => appendRow name content
  have hrefused : ∀ w, F w = (.error .sqlx, w.tick) := by
    intro w
    rcases hF w with h | ⟨db, h, -⟩
    · exact h
    · rw [appendRow_eq_none] at h
      cases h
  have hprog : (AgentCall.appendMemory name content).prog =
      ((Prog.prim F).within Directory.gateway).mapErr LocalGateway.internal := by
    rw [← hp]
    rfl
  rw [hprog]
  refine ⟨fun s => ?_, fun b => ?_⟩
  · simp only [Prog.within, Directory.gateway, hrefused]
    exact ⟨rfl, _, rfl⟩
  · cases b with
    | ok a => trivial
    | error e => trivial

/-- A call leaves every memory blank. -/
theorem AgentCall.Writes.blank [SerdeStrings] {c : AgentCall} {db db' : Db} (h : c.Writes db db') (hb : Blank db) : Blank db' := by
  cases h with
  | register hrow => exact hb.of_memories (Registry.upsertRow_memories hrow)
  | upsert hrow => exact hb.of_memories (Registry.upsertRow_memories hrow)
  | seed hrow => exact hb.of_memories (Registry.upsertRow_memories hrow)
  | memory hrow => exact hb.insertMemory hrow
  | appendMemory hrow =>
    rw [appendRow_eq_none] at hrow
    cases hrow
  | _ => exact hb

/-! ## Every interleaving -/

/-- Nothing has been remembered, and each append that was tried has failed. -/
def forgetting : Discipline MemoryHistory where
  inv s := Blank s.1.world.db ∧ ∀ e ∈ s.2, ∀ name content, e.label = .appendMemory name content →
    ∃ err, e.result = some (.error err)
  step _ _ := True
  refl _ := trivial
  trans _ _ _ _ _ := trivial

/-- One action of a call is written down. -/
theorem forgetting_action {s s' : MemoryHistory} {e : MemoryEvent} (hb : Blank s.1.world.db → Blank s'.1.world.db)
    (htrace : s'.2 = s.2 ++ [e])
    (he : ∀ name content, e.label = .appendMemory name content → ∃ err, e.result = some (.error err))
    (hi : forgetting.inv s) : forgetting.step s s' ∧ forgetting.inv s' := by
  refine ⟨trivial, hb hi.1, fun e' he' => ?_⟩
  rw [htrace] at he'
  rcases List.mem_append.1 he' with he' | he'
  · exact hi.2 e' he'
  · rw [List.mem_singleton.1 he']
    exact he

section
variable [SerdeStrings]

theorem MemoryCalls.obeys {s : MemoryHistory} {p : Prog MemoryHistory Status Unit} (h : MemoryCalls s p) :
    p.Obeys forgetting (fun _ _ => True) s := by
  obtain ⟨c, -, rfl⟩ := h
  have hkeeps : (c.prog.traced c fun _ => ()).Moves
      fun s s' : MemoryHistory => forgetting.inv s → forgetting.step s s' ∧ forgetting.inv s' := by
    by_cases hc : ∃ name content, c = .appendMemory name content
    · obtain ⟨name, content, rfl⟩ := hc
      refine (appendMemory_refused name content).mono fun s s' ⟨hdb, err, htrace⟩ hi => ?_
      exact forgetting_action (fun hb => by rwa [hdb]) htrace (fun _ _ _ => ⟨err, rfl⟩) hi
    · have hmoves := @Prog.Moves.traced _ _ _ _ _ c (fun _ : Directory => ()) _ _ c.writes
      refine hmoves.mono fun s s' ⟨hwrites, result, htrace⟩ hi => ?_
      exact forgetting_action hwrites.blank htrace (fun name content h => absurd ⟨name, content, h⟩ hc) hi
  exact (Prog.Moves.obeys hkeeps (forgetting.refl s)).post fun _ _ _ => trivial

/-- **Every append succeeds and every memory is what was appended if and only if nobody appends.** -/
theorem memory_grows_iff {c : Pool MemoryHistory Status}
    (h : Pool.Reachable (fun s => Blank s.1.world.db ∧ s.2 = []) MemoryCalls MemoriesStay c) :
    MemoryGrows c.state ↔ ∀ e ∈ c.state.2, ∀ name content, e.label ≠ .appendMemory name content := by
  have hinit : ∀ s : MemoryHistory, Blank s.1.world.db ∧ s.2 = [] → forgetting.inv s := by
    intro s hs
    refine ⟨hs.1, ?_⟩
    simp [hs.2]
  have hout : ∀ s s', forgetting.inv s → MemoriesStay s s' → forgetting.step s s' ∧ forgetting.inv s' := by
    intro s s' hi hs
    refine ⟨trivial, hi.1.of_memories hs.1, ?_⟩
    rw [hs.2]
    exact hi.2
  have hi := (h.good hinit (fun _ _ _ => MemoryCalls.obeys) hout).1
  constructor
  · intro hgrows e he name content hlabel
    obtain ⟨u, hok⟩ := hgrows.1 e he name content hlabel
    obtain ⟨err, herr⟩ := hi.2 e he name content hlabel
    rw [hok] at herr
    cases herr
  · intro hnone
    refine ⟨fun e he name content hlabel => absurd hlabel (hnone e he name content), fun name w hw hpass => ?_⟩
    have hadded : c.state.2.filterMap (appendedBy name) = [] := by
      refine List.filterMap_eq_nil_iff.2 fun e he => ?_
      unfold appendedBy
      split
      · rename_i hlabel _
        exact absurd hlabel (hnone e he _ _)
      · rfl
    have hempty : memoryOf name w.db = "" := by
      rw [hw]
      exact hi.1 name
    refine exec_query_iff.2 ⟨hpass, ?_, rfl⟩
    rw [hadded, hempty]
    rfl

end

/-! ## The first append -/

namespace DemoMemory

def registration : AgentCall :=
  .register "2026-01-01T00:00:00Z" "2026-01-01T00:00:00Z" ⟨"agent-a", "0.1.0", "http://agent-a:8080", [], ""⟩

def append : AgentCall := .appendMemory "agent-a" "# Day 1"

section
variable [SerdeStrings]

def start : MemoryHistory := (⟨.fresh, ∅⟩, [])

/-- The agent registers. -/
def registered : Pool MemoryHistory Status :=
  Pool.schedule [0, 0, 0] ⟨start, [registration.prog.traced registration fun _ => ()]⟩

theorem reachable_registered :
    Pool.Reachable (fun s => Blank s.1.world.db ∧ s.2 = []) MemoryCalls MemoriesStay registered := by
  have hcall : MemoryCalls start (registration.prog.traced registration fun _ => ()) := by
    refine ⟨registration, fun _ _ h => ?_, rfl⟩
    cases h
  exact ((Pool.Reachable.initial ⟨fun _ => rfl, rfl⟩).started hcall).scheduled [0, 0, 0]

/-- Then it appends. -/
def appended : Pool MemoryHistory Status :=
  Pool.schedule [1] ⟨registered.state, registered.threads ++ [append.prog.traced append fun _ => ()]⟩

theorem reachable_appended (hagent : registered.state.1.world.db.hasAgent "agent-a" = true) :
    Pool.Reachable (fun s => Blank s.1.world.db ∧ s.2 = []) MemoryCalls MemoriesStay appended := by
  have hcall : MemoryCalls registered.state (append.prog.traced append fun _ => ()) := by
    refine ⟨append, fun name content h => ?_, rfl⟩
    cases h
    exact hagent
  exact (reachable_registered.started hcall).scheduled [1]

end

theorem registered_ends : letI := SerdeStrings.recorded []
    (registered.threads.all fun p => p.ended.isSome) = true ∧ registered.state.1.world.db.hasAgent "agent-a" = true ∧
      ∀ e ∈ registered.state.2, e.label = registration := by
  decide +kernel

theorem append_fails : letI := SerdeStrings.recorded []
    appended.state.1.world.faults = [] ∧ ∃ e ∈ appended.state.2, e.label = append ∧ e.result.map Except.isOk = some false := by
  decide +kernel

end DemoMemory

theorem memory_grows_demo : letI := SerdeStrings.recorded []
    (DemoMemory.registered.threads.all fun p => p.ended.isSome) = true ∧ MemoryGrows DemoMemory.registered.state := by
  obtain ⟨hended, -, honly⟩ := DemoMemory.registered_ends
  refine ⟨hended, ?_⟩
  rw [@memory_grows_iff (.recorded []) _ (@DemoMemory.reachable_registered (.recorded []))]
  intro e he name content hlabel
  rw [honly e he] at hlabel
  cases hlabel

/-- **The memory row that the registration has made is there, and the append for it is refused.** -/
theorem append_to_memory_fails : letI := SerdeStrings.recorded []
    ∃ c : Pool MemoryHistory Status,
      Pool.Reachable (fun s => Blank s.1.world.db ∧ s.2 = []) MemoryCalls MemoriesStay c ∧
        c.state.1.world.faults = [] ∧ ¬ MemoryGrows c.state := by
  obtain ⟨-, hagent, -⟩ := DemoMemory.registered_ends
  obtain ⟨hcalm, e, he, hlabel, hfailed⟩ := DemoMemory.append_fails
  refine ⟨@DemoMemory.appended (.recorded []), @DemoMemory.reachable_appended (.recorded []) hagent, hcalm, ?_⟩
  intro hgrows
  obtain ⟨u, hok⟩ := hgrows.1 e he _ _ hlabel
  rw [hok] at hfailed
  cases hfailed

end A2AGateway
