import A2AGateway.AgentDirectory
import A2AGateway.Statements
import A2AGateway.Lib.Credits

/-!
# A soul is set once

Two statements write `agents.soul_toml`: the upsert, where the column is empty, and the unforced `UPDATE` of
`set_soul`, under the same condition. So in every interleaving of registrations, seeds, heartbeats and restarts
the column of a name stays empty until a statement brings a soul, and from then on holds that soul (`soul_lasts`).
-/

namespace A2AGateway

open Gw

/-- The soul that is stored for a name; empty if there is none. -/
def storedSoul (name : String) (db : Db) : String := ((Registry.rowNamed name db).map (·.soulToml)).getD ""

namespace AgentCall

/-- The soul that a call brings for an agent. Those of the configuration file come without. -/
def soulFor (name : String) : AgentCall → Option String
  | .register _ _ m => if m.name = name then some m.soulToml else none
  | .upsert entry => if entry.name = name then some entry.soulToml else none
  | .setSoul agent content _ => if agent = name then some content else none
  | _ => none

def Unforced : AgentCall → Prop
  | .setSoul _ _ force => force = false
  | _ => True

end AgentCall

/-! ## One statement -/

/-- The soul stays, or there was none and it is one of those that may come. -/
def SoulStep (name : String) (comes : String → Prop) (db db' : Db) : Prop :=
  storedSoul name db' = storedSoul name db ∨ storedSoul name db = "" ∧ comes (storedSoul name db')

section
variable {name : String} {comes : String → Prop} {db db' : Db}

theorem SoulStep.of_agents (h : db'.agents = db.agents) : SoulStep name comes db db' := by
  left
  rw [storedSoul, Registry.rowNamed, h]
  rfl

theorem soulStep_upsertRow {row : AgentRow} (h : Registry.upsertRow row db = some db')
    (hcomes : row.name = name → comes row.soulToml) : SoulStep name comes db db' := by
  have hrow := Registry.rowNamed_upsertRow h name
  by_cases hname : name = row.name
  · subst hname
    rw [if_pos rfl] at hrow
    cases hold : Registry.rowNamed row.name db with
    | none =>
      right
      simp [storedSoul, hrow, hold, hcomes rfl]
    | some old =>
      by_cases hsoul : old.soulToml = ""
      · right
        simp [storedSoul, hrow, hold, Registry.refreshed, hsoul, hcomes rfl]
      · left
        simp [storedSoul, hrow, hold, Registry.refreshed, hsoul]
  · left
    rw [storedSoul, hrow, if_neg hname]
    rfl

theorem soulStep_updateSoul {agent content : String} (hcomes : agent = name → comes content) :
    SoulStep name comes db (IdentityStore.updateSoul agent content false db) := by
  have hrow := IdentityStore.rowNamed_updateSoul agent content name false db
  cases hold : Registry.rowNamed name db with
  | none =>
    left
    simp [storedSoul, hrow, hold]
  | some old =>
    by_cases hset : name = agent ∧ old.soulToml = ""
    · obtain ⟨rfl, hblank⟩ := hset
      right
      simp [storedSoul, hrow, hold, hblank, hcomes rfl]
    · left
      simp [storedSoul, hrow, hold, hset]

theorem soulStep_setLastSeen (now agent : String) : SoulStep name comes db (Registry.setLastSeen now agent db) := by
  left
  rw [storedSoul, Registry.rowNamed_setLastSeen, storedSoul]
  cases Registry.rowNamed name db with
  | none => rfl
  | some r =>
    by_cases h : name = agent
    · simp [h]
    · simp [h]

end

/-- **A call that does not force leaves a soul that is there, and brings its own where there is none.** -/
theorem AgentCall.Writes.soulStep [SerdeStrings] {name : String} {c : AgentCall} {db db' : Db} (h : c.Writes db db')
    (hc : c.Unforced) : SoulStep name (fun soul => c.soulFor name = some soul ∨ soul = "") db db' := by
  cases h with
  | nothing => exact .of_agents rfl
  | register hrow =>
    refine soulStep_upsertRow hrow fun hname => Or.inl ?_
    exact if_pos hname
  | registerSoul =>
    refine soulStep_updateSoul fun hname => Or.inl ?_
    exact if_pos hname
  | upsert hrow =>
    refine soulStep_upsertRow hrow fun hname => Or.inl ?_
    exact if_pos hname
  | seed hrow => exact soulStep_upsertRow hrow fun _ => Or.inr rfl
  | memory hrow => exact .of_agents (Registry.insertMemory_agents hrow)
  | heartbeat => exact soulStep_setLastSeen _ _
  | setSoul =>
    cases hc
    refine soulStep_updateSoul fun hname => Or.inl ?_
    exact if_pos hname
  | appendMemory hrow =>
    rw [IdentityStore.appendRow_eq_none] at hrow
    cases hrow

/-! ## What has been written -/

/-- One action of a call: the soul of the agent that is watched, before and after. -/
abbrev SoulEvent := Prog.Event AgentCall String Status Unit

/-- The action put a soul there, the one that its call brings. -/
def wroteSoul (name : String) (e : SoulEvent) : Option String :=
  if e.after ≠ "" ∧ e.after ≠ e.before ∧ e.label.soulFor name = some e.after then some e.after else none

/-- The first soul that was written. -/
def firstSoul (name : String) (events : List SoulEvent) : Option String := events.findSome? (wroteSoul name)

theorem firstSoul_append (name : String) (events : List SoulEvent) (e : SoulEvent) :
    firstSoul name (events ++ [e]) = (firstSoul name events).or (wroteSoul name e) := by
  rw [firstSoul, List.findSome?_append, List.findSome?_singleton, firstSoul]

/-! ## Every interleaving -/

/-- The directory, with what has been done to it. -/
abbrev SoulHistory := Directory × List SoulEvent

section
variable [SerdeStrings] (name : String)

/-- Registrations, other upserts, heartbeats, unforced `set_soul`s and restarts. -/
def UnforcedCalls (_ : SoulHistory) (p : Prog SoulHistory Status Unit) : Prop :=
  ∃ c : AgentCall, c.Unforced ∧ p = c.prog.traced c fun d => storedSoul name d.world.db

omit [SerdeStrings] in
/-- The rest of the gateway does not write the agents; a crash loses the cache and nothing else. -/
def AgentsStay (s s' : SoulHistory) : Prop := s'.1.world.db.agents = s.1.world.db.agents ∧ s'.2 = s.2

omit [SerdeStrings] in
/-- No soul is set yet. -/
def Soulless (s : SoulHistory) : Prop := storedSoul name s.1.world.db = "" ∧ s.2 = []

/-- The soul that is stored is the first that was written, and does not change. -/
def keepingSoul : Discipline SoulHistory where
  inv s := firstSoul name s.2 = if storedSoul name s.1.world.db = "" then none else some (storedSoul name s.1.world.db)
  step s s' := storedSoul name s.1.world.db ≠ "" → storedSoul name s'.1.world.db = storedSoul name s.1.world.db
  refl _ _ := rfl
  trans _ _ _ h h' hset := by
    have hb := h hset
    rw [h' (by rwa [hb]), hb]

variable {name}

omit [SerdeStrings] in
/-- An action of a call that does not force. -/
theorem keepingSoul_action {s s' : SoulHistory} {c : AgentCall} {result : Option (Except Status Unit)}
    (hmove : SoulStep name (fun soul => c.soulFor name = some soul ∨ soul = "") s.1.world.db s'.1.world.db)
    (htrace : s'.2 = s.2 ++ [⟨c, storedSoul name s.1.world.db, storedSoul name s'.1.world.db, result⟩])
    (hi : (keepingSoul name).inv s) : (keepingSoul name).step s s' ∧ (keepingSoul name).inv s' := by
  simp only [keepingSoul] at hi ⊢
  rw [htrace, firstSoul_append, hi]
  rcases hmove with hsame | ⟨hnone, hcomes⟩
  · refine ⟨fun _ => hsame, ?_⟩
    simp [hsame, wroteSoul]
  · refine ⟨fun hset => absurd hnone hset, ?_⟩
    rw [if_pos hnone, hnone, Option.none_or]
    by_cases hblank : storedSoul name s'.1.world.db = ""
    · simp [wroteSoul, hblank]
    · simp [wroteSoul, hblank, hcomes.resolve_right hblank]

theorem UnforcedCalls.obeys {s : SoulHistory} {p : Prog SoulHistory Status Unit} (h : UnforcedCalls name s p) :
    p.Obeys (keepingSoul name) (fun _ _ => True) s := by
  obtain ⟨c, hc, rfl⟩ := h
  have hmoves := @Prog.Moves.traced _ _ _ _ _ c (fun d => storedSoul name d.world.db) _ _ c.writes
  have hkeeps := hmoves.mono fun s s' ⟨hwrites, result, htrace⟩ hi => keepingSoul_action (hwrites.soulStep hc) htrace hi
  exact (Prog.Moves.obeys hkeeps ((keepingSoul name).refl s)).post fun _ _ _ => trivial

omit [SerdeStrings] in
theorem AgentsStay.keeping {s s' : SoulHistory} (h : AgentsStay s s') (hi : (keepingSoul name).inv s) :
    (keepingSoul name).step s s' ∧ (keepingSoul name).inv s' := by
  have hsame : storedSoul name s'.1.world.db = storedSoul name s.1.world.db := by
    rw [storedSoul, Registry.rowNamed, h.1]
    rfl
  refine ⟨fun _ => hsame, ?_⟩
  simp only [keepingSoul] at hi ⊢
  rw [h.2, hsame, hi]

omit [SerdeStrings] in
theorem Soulless.inv {s : SoulHistory} (h : Soulless name s) : (keepingSoul name).inv s := by
  simp [keepingSoul, h.1, h.2, firstSoul]

/-- **A soul that is set stays, and is the first that was written.** -/
theorem soul_lasts {c c' : Pool SoulHistory Status} (h : Pool.Reachable (Soulless name) (UnforcedCalls name) AgentsStay c)
    (hset : storedSoul name c.state.1.world.db ≠ "") (hrun : Relation.ReflTransGen (Pool.Step (UnforcedCalls name) AgentsStay) c c') :
    storedSoul name c'.state.1.world.db = storedSoul name c.state.1.world.db ∧
      ∀ w, w.db = c'.state.1.world.db → Passes w → ∃ soul, firstSoul name c'.state.2 = some soul ∧
        (IdentityStore.getSoul name).exec w = (.ok soul, w.tick) := by
  have hsame := h.along hrun (fun _ => Soulless.inv) (fun _ _ _ => UnforcedCalls.obeys) (fun _ _ hi hs => hs.keeping hi) hset
  have hreach : Pool.Reachable (Soulless name) (UnforcedCalls name) AgentsStay c' := by
    obtain ⟨s, hs, hrun₀⟩ := h
    exact ⟨s, hs, hrun₀.trans hrun⟩
  have hgood := (hreach.good (fun _ => Soulless.inv) (fun _ _ _ => UnforcedCalls.obeys) fun _ _ hi hs => hs.keeping hi).1
  rw [← hsame] at hset
  refine ⟨hsame, fun w hw hpass => ⟨storedSoul name c'.state.1.world.db, hgood.trans (if_neg hset), ?_⟩⟩
  cases hrow : Registry.rowNamed name c'.state.1.world.db with
  | none => simp [storedSoul, hrow] at hset
  | some r =>
    rw [← hw] at hrow
    rw [IdentityStore.exec_getSoul hpass hrow, storedSoul, ← hw, hrow]
    rfl

end

/-! ## Two registrations at once -/

namespace DemoSouls

def call (soul : String) : AgentCall :=
  .register "2026-01-01T00:00:00Z" "2026-01-01T00:00:00Z" ⟨"agent-a", "0.1.0", "http://agent-a:8080", [], soul⟩

section
variable [SerdeStrings]

def registration (soul : String) : Prog SoulHistory Status Unit :=
  (call soul).prog.traced (call soul) fun d => storedSoul "agent-a" d.world.db

def start : SoulHistory := (⟨.fresh, ∅⟩, [])

/-- The first statement of one registration, then of the other. -/
def first : Pool SoulHistory Status :=
  Pool.schedule [0] ⟨start, [registration "role = 'researcher'", registration "role = 'writer'"]⟩

def finished : Pool SoulHistory Status := first.schedule [1, 1, 0, 1, 0, 1, 0]

theorem reachable_first : Pool.Reachable (Soulless "agent-a") (UnforcedCalls "agent-a") AgentsStay first := by
  have hcall : ∀ s soul, UnforcedCalls "agent-a" s (registration soul) := fun _ soul => ⟨call soul, trivial, rfl⟩
  have hstart : Pool.Reachable (Soulless "agent-a") (UnforcedCalls "agent-a") AgentsStay ⟨start, []⟩ := .initial ⟨rfl, rfl⟩
  exact ((hstart.started (hcall _ "role = 'researcher'")).started (hcall _ "role = 'writer'")).scheduled [0]

end

theorem first_sets : letI := SerdeStrings.recorded []
    storedSoul "agent-a" first.state.1.world.db = "role = 'researcher'" ∧
      (finished.threads.all fun p => p.ended.isSome) = true := by
  decide +kernel

end DemoSouls

theorem soul_lasts_demo : letI := SerdeStrings.recorded []
    (DemoSouls.finished.threads.all fun p => p.ended.isSome) = true ∧
      storedSoul "agent-a" DemoSouls.finished.state.1.world.db = "role = 'researcher'" := by
  obtain ⟨hsoul, hended⟩ := DemoSouls.first_sets
  refine ⟨hended, ?_⟩
  have hset : @storedSoul "agent-a" (@DemoSouls.first (.recorded [])).state.1.world.db ≠ "" := by
    rw [hsoul]
    decide
  have hlasts := @soul_lasts (.recorded []) "agent-a" _ _ (@DemoSouls.reachable_first (.recorded [])) hset
    (Pool.schedule_run [1, 1, 0, 1, 0, 1, 0] _)
  exact hlasts.1.trans hsoul

end A2AGateway
