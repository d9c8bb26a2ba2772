import A2AGateway.RegistryRestart
import A2AGateway.Statements
import A2AGateway.Lib.Credits
import A2AGateway.Lib.Marks

/-!
# Registrations side by side

"Upsert an agent — creates or updates the entry in both cache and DB" (`registry.rs:50-85`) takes three steps:
the row, the memory row, the cache. Nothing keeps two registrations of one agent apart, so the one that is the
last to write the row need not be the last to reach the cache, and one that fails in between never gets there.
Whether the cache, which the router asks, says where the agent lives is decided by who came last in each of the
two (`cache_agrees_iff`).
-/

namespace A2AGateway

open Gw

/-- Where an agent lives, in which version, and what it can do there. -/
structure Whereabouts where
  endpoint : String
  version : String
  capabilities : List String
deriving DecidableEq

def AgentEntry.whereabouts (e : AgentEntry) : Whereabouts := ⟨e.endpoint, e.version, e.capabilities⟩

namespace Registry

section
variable [SerdeStrings]

/-- What the agents table says. -/
def stored (name : String) (db : Db) : Option Whereabouts := (rowNamed name db).map fun r => (entryOf r).whereabouts

omit [SerdeStrings] in
/-- What the cache says. -/
def cached (name : String) (r : Registry) : Option Whereabouts := (r.get name).map (·.whereabouts)

def AgreesOn (name : String) (d : Directory) : Prop := cached name d.registry = stored name d.world.db

/-! ## The steps of a registration -/

/-- What a registration has brought about: its row is in the table, its entry in the cache. -/
inductive Mark
  | row (entry : AgentEntry)
  | cache (entry : AgentEntry)
deriving DecidableEq

def Mark.row? : Mark → Option AgentEntry
  | .row entry => some entry
  | .cache _ => none

def Mark.cache? : Mark → Option AgentEntry
  | .row _ => none
  | .cache entry => some entry

/-- What the last of the marks has brought, or else what was there at the start. -/
def latest (kind : Mark → Option AgentEntry) (start : Option Whereabouts) (marks : List Mark) : Option Whereabouts :=
  ((marks.filterMap kind).getLast?.map (·.whereabouts)).or start

/-- `upsert`, with its three steps marked. -/
def registration (entry : AgentEntry) : Prog (Directory × List Mark) Err Unit :=
  (upsert entry).marked [[.row entry], [], [.cache entry]]

omit [SerdeStrings] in
theorem latest_append (kind : Mark → Option AgentEntry) (start : Option Whereabouts) (marks : List Mark) (m : Mark) :
    latest kind start (marks ++ [m]) = ((kind m).map (·.whereabouts)).or (latest kind start marks) := by
  cases hm : kind m with
  | none => simp [latest, hm]
  | some entry => simp [latest, hm]

/-- Table and cache say what each of them was told last. -/
def tracks (name : String) (start : Option Whereabouts) : Discipline (Directory × List Mark) where
  inv s := stored name s.1.world.db = latest Mark.row? start s.2 ∧ cached name s.1.registry = latest Mark.cache? start s.2
  step _ _ := True
  refl _ := trivial
  trans _ _ _ _ _ := trivial

variable {name : String} {start : Option Whereabouts} {entry : AgentEntry}

theorem stored_upsertRow {db db' : Db} (h : upsertRow (rowOf entry) db = some db') (hserde : Readable entry.capabilities) :
    stored entry.name db' = some entry.whereabouts := by
  have hrow : rowNamed entry.name db' = some (rowAfter entry db) := (rowNamed_upsertRow h entry.name).trans (if_pos rfl)
  rw [stored, hrow, rowAfter]
  cases rowNamed entry.name db with
  | none => rw [Option.elim_none, Option.map_some, entryOf_rowOf hserde]
  | some r =>
    rw [Option.elim_some, Option.map_some, entryOf_refreshed hserde]
    rfl

omit [SerdeStrings] in
/-- A statement that is marked, and what follows it. -/
theorem moves_execute_marked {e : Err} {f : F64 → Db → Option Db} {g : Unit → Prog Directory Err Unit} {m : List Mark}
    {marks : List (List Mark)} {R : Directory × List Mark → Directory × List Mark → Prop}
    (hok : ∀ d log now w, f now d.world.db = some w.db → R (d, log) ({ d with world := w }, log ++ m))
    (herr : ∀ d log w, w.db = d.world.db → R (d, log) ({ d with world := w }, log)) (hg : (g ()).failed = false)
    (hrest : ((g ()).marked marks).Moves R) :
    ((((execute e f).within Directory.gateway).bind g).marked (m :: marks)).Moves R := by
  obtain ⟨F, hF, hends⟩ := execute_prim e f
  rw [hF, Prog.within_prim]
  refine Prog.Moves.marked_prim_bind ?_ ?_ (fun _ => hg) fun _ => hrest
  · intro d log u hr
    rcases hends d.world with h | ⟨db, hdb, h⟩
    · simp only [Directory.gateway, h, reduceCtorEq] at hr
    · simp only [Directory.gateway, h]
      exact hok d log _ _ hdb
  · intro d log e' hr
    rcases hends d.world with h | ⟨db, hdb, h⟩
    · simp only [Directory.gateway, h]
      exact herr d log _ rfl
    · simp only [Directory.gateway, h, reduceCtorEq] at hr

/-- **Each step keeps track.** -/
theorem moves_registration (hname : entry.name = name) (hserde : Readable entry.capabilities) :
    (registration entry).Moves fun s s' => (tracks name start).inv s → (tracks name start).inv s' := by
  subst hname
  have hfails : ∀ (d : Directory) (log : List Mark) (w : World), w.db = d.world.db → (tracks entry.name start).inv (d, log) →
      (tracks entry.name start).inv ({ d with world := w }, log) := by
    rintro d log w hw ⟨hstored, hcached⟩
    exact ⟨(congrArg (stored entry.name) hw).trans hstored, hcached⟩
  unfold registration upsert
  refine moves_execute_marked ?_ hfails rfl (moves_execute_marked ?_ hfails rfl ?_)
  · rintro d log now w hrow ⟨-, hcached⟩
    refine ⟨?_, ?_⟩
    · rw [latest_append]
      exact stored_upsertRow hrow hserde
    · rw [latest_append]
      exact hcached
  · rintro d log now w hmemory ⟨hstored, hcached⟩
    rw [List.append_nil]
    refine ⟨Eq.trans ?_ hstored, hcached⟩
    rw [stored, stored, rowNamed, insertMemory_agents hmemory]
    rfl
  · refine Prog.Moves.marked_act ?_
    rintro d log ⟨hstored, -⟩
    refine ⟨?_, ?_⟩
    · rw [latest_append]
      exact hstored
    · rw [latest_append]
      simp [cached, Registry.get, Mark.cache?]

/-! ## Any number of them -/

/-- A registration of the agent begins; its capabilities are written as a text that can be read again. -/
def Registers (name : String) (_ : Directory × List Mark) (p : Prog (Directory × List Mark) Err Unit) : Prop :=
  ∃ entry : AgentEntry, entry.name = name ∧ Readable entry.capabilities ∧ p = registration entry

/-- Whatever else happens does not touch what table and cache say of the agent. -/
def LeavesAlone (name : String) (s s' : Directory × List Mark) : Prop :=
  stored name s'.1.world.db = stored name s.1.world.db ∧ cached name s'.1.registry = cached name s.1.registry ∧ s'.2 = s.2

/-- Table and cache say the same, and no registration has begun. -/
def Begins (name : String) (start : Option Whereabouts) (s : Directory × List Mark) : Prop :=
  stored name s.1.world.db = start ∧ cached name s.1.registry = start ∧ s.2 = []

/-- **The cache says where the agent lives if and only if the last to reach it brought what the last to write the
row brought.** -/
theorem cache_agrees_iff {c : Pool (Directory × List Mark) Err}
    (h : Pool.Reachable (Begins name start) (Registers name) (LeavesAlone name) c) :
    AgreesOn name c.state.1 ↔ latest Mark.row? start c.state.2 = latest Mark.cache? start c.state.2 := by
  have hgood : Pool.Good (tracks name start) c := by
    refine h.good ?_ ?_ ?_
    · rintro ⟨d, log⟩ ⟨hstored, hcached, rfl⟩
      exact ⟨hstored, hcached⟩
    · rintro s p - ⟨entry, hname, hserde, rfl⟩
      have hmoves : (registration entry).Moves fun a b => (tracks name start).inv a →
          (tracks name start).step a b ∧ (tracks name start).inv b :=
        (moves_registration hname hserde).mono fun a b hab hi => ⟨trivial, hab hi⟩
      exact (hmoves.obeys ((tracks name start).refl s)).post fun _ _ _ => trivial
    · rintro ⟨d, log⟩ ⟨d', log'⟩ ⟨hstored, hcached⟩ ⟨hstored', hcached', rfl⟩
      exact ⟨trivial, hstored'.trans hstored, hcached'.trans hcached⟩
  rw [AgreesOn, hgood.1.1, hgood.1.2]
  exact eq_comm

/-! ## The calls themselves -/

def Upserts (name : String) (_ : Directory) (p : Prog Directory Err Unit) : Prop :=
  ∃ entry : AgentEntry, entry.name = name ∧ Readable entry.capabilities ∧ p = upsert entry

/-- Every interleaving of the calls is one in which they have left their marks. -/
theorem upserts_marked {c : Pool Directory Err}
    (h : Pool.Reachable (fun d => stored name d.world.db = start ∧ cached name d.registry = start) (Upserts name)
      (fun d d' => stored name d'.world.db = stored name d.world.db ∧ cached name d'.registry = cached name d.registry) c) :
    ∃ m, Pool.Reachable (Begins name start) (Registers name) (LeavesAlone name) m ∧ Pool.Beside m c := by
  refine h.marked ?_ ?_ ?_
  · rintro d ⟨hstored, hcached⟩
    exact ⟨hstored, hcached, rfl⟩
  · rintro d log p ⟨entry, hname, hserde, rfl⟩
    exact ⟨_, entry, hname, hserde, rfl⟩
  · rintro d d' log ⟨hstored, hcached⟩
    exact ⟨hstored, hcached, rfl⟩

end

/-! ## Two registrations -/

instance [SerdeStrings] (caps : List String) : Decidable (Readable caps) := inferInstanceAs (Decidable (_ = _))

namespace DemoCache

open DemoRestart (serde start)

/-- The agent as it was, and after it has moved. -/
def before : AgentEntry :=
  ⟨"agent-a", "0.1.0", "http://10.0.0.1:8080", ["research"], "", some "2026-01-01T00:00:00Z", "2026-01-01T00:00:00Z"⟩

def after : AgentEntry :=
  ⟨"agent-a", "0.2.0", "http://10.0.0.2:8080", ["research"], "", some "2026-01-01T00:00:01Z", "2026-01-01T00:00:01Z"⟩

/-- The two side by side: one step each in turn. -/
def inTurn [SerdeStrings] : Pool (Directory × List Mark) Err :=
  Pool.schedule [0, 1, 0, 1, 0, 1] ⟨(start, []), [registration before, registration after]⟩

/-- The second is done while the first has only written its row. -/
def overtaken [SerdeStrings] : Pool Directory Err := Pool.schedule [0, 1, 1, 1, 0, 0] ⟨start, [upsert before, upsert after]⟩

/-- Everybody may call everybody. -/
def router (r : Registry) : Router := ⟨⟨⟨∅, 8⟩⟩, r⟩

theorem inTurn_marks : letI := serde
    inTurn.state.2 = [.row before, .row after, .cache before, .cache after] ∧ Readable before.capabilities ∧
      Readable after.capabilities ∧ stored "agent-a" start.world.db = none ∧ cached "agent-a" start.registry = none := by
  decide +kernel

theorem overtaken_ends : letI := serde
    overtaken.threads.map Prog.ended = [some (.ok ()), some (.ok ())] ∧ overtaken.state.world.faults = [] ∧
      (router overtaken.state.registry).route "" "agent-a" 0 = .ok ⟨"http://10.0.0.1:8080", 1⟩ ∧
      cached "agent-a" overtaken.state.registry = some before.whereabouts ∧
      stored "agent-a" overtaken.state.world.db = some after.whereabouts := by
  decide +kernel

end DemoCache

section
open DemoRestart (serde start)
open DemoCache

theorem cache_agrees_demo : letI := serde
    inTurn.state.2.length = 4 ∧ AgreesOn "agent-a" inTurn.state.1 := by
  let := serde
  obtain ⟨hmarks, hbefore, hafter, hstored, hcached⟩ := inTurn_marks
  have hstart : Begins "agent-a" none (start, []) := ⟨hstored, hcached, rfl⟩
  have hbegun : Pool.Reachable (Begins "agent-a" none) (Registers "agent-a") (LeavesAlone "agent-a")
      ⟨(start, []), [registration before, registration after]⟩ :=
    ((Pool.Reachable.initial hstart).started ⟨before, rfl, hbefore, rfl⟩).started ⟨after, rfl, hafter, rfl⟩
  have hreach : Pool.Reachable (Begins "agent-a" none) (Registers "agent-a") (LeavesAlone "agent-a") inTurn := hbegun.scheduled _
  rw [cache_agrees_iff hreach, hmarks]
  exact ⟨rfl, rfl⟩

/-- **The router sends calls to where the agent no longer is.** -/
theorem cache_overtaken : letI := serde
    ∃ c : Pool Directory Err, Pool.Reachable (fun d => AgreesOn "agent-a" d) (Upserts "agent-a") (fun _ _ => False) c ∧
      c.threads.map Prog.ended = [some (.ok ()), some (.ok ())] ∧ c.state.world.faults = [] ∧
      (router c.state.registry).route "" "agent-a" 0 = .ok ⟨"http://10.0.0.1:8080", 1⟩ ∧
      stored "agent-a" c.state.world.db = some after.whereabouts ∧ ¬ AgreesOn "agent-a" c.state := by
  let := serde
  obtain ⟨-, hbefore, hafter, hstored, hcached⟩ := inTurn_marks
  obtain ⟨hended, hcalm, hroute, hcache, hrow⟩ := overtaken_ends
  have hstart : AgreesOn "agent-a" start := hcached.trans hstored.symm
  have hfirst : Upserts "agent-a" start (upsert before) := ⟨before, rfl, hbefore, rfl⟩
  have hsecond : Upserts "agent-a" start (upsert after) := ⟨after, rfl, hafter, rfl⟩
  have hbegun : Pool.Reachable (fun d => AgreesOn "agent-a" d) (Upserts "agent-a") (fun _ _ => False)
      ⟨start, [upsert before, upsert after]⟩ := ((Pool.Reachable.initial hstart).started hfirst).started hsecond
  have hreach : Pool.Reachable (fun d => AgreesOn "agent-a" d) (Upserts "agent-a") (fun _ _ => False) (@overtaken serde) :=
    hbegun.scheduled _
  refine ⟨_, hreach, hended, hcalm, hroute, hrow, ?_⟩
  rw [AgreesOn, hcache, hrow]
  simp [AgentEntry.whereabouts, before, after]

end

end Registry

end A2AGateway
