import A2AGateway.EntryPoints
import A2AGateway.Lib.Sql

/-!
# The agents of a gateway (`registry.rs`, `identity.rs`, `local_server.rs`)

| here | there |
| --- | --- |
| `Registry.new`, `.upsert`, `.heartbeat`, `.list`  | `registry.rs:40-139` |
| `IdentityStore.getSoul`, `.setSoul`               | `identity.rs:34-64` |
| `IdentityStore.getMemory`, `.appendMemory`        | `identity.rs:68-89` |
| `LocalGateway.validateEndpoint`, `.register`      | `local_server.rs:58-101`, `307-336` |
| `Registry.seedEntry`                              | `main.rs:66-79` |

The `DashMap` of the registry is the second half of a `Directory`; each access to it is an action of its own.
RFC 3339 texts of the clock are arguments.
-/

namespace A2AGateway

open Gw

/-- `serde_json` on a `Vec<String>`. -/
class SerdeStrings where
  toText : List String → String
  fromText : String → Option (List String)

/-- A codec that is known at the given texts. -/
@[reducible] def SerdeStrings.recorded (values : List (List String × String)) : SerdeStrings where
  toText l := (values.lookup l).getD "[]"
  fromText s := (values.find? (·.2 == s)).map (·.1)

/-- The database, and the registry in memory. -/
structure Directory where
  world : World
  registry : Registry

def Directory.gateway : Prog.Focus Directory World where
  get d := d.world
  set w d := { d with world := w }
  get_set _ _ := rfl
  set_get _ := rfl
  set_set _ _ _ := rfl

theorem Directory.exec_gateway {α : Type} {p : Gw α} {d : Directory} {r : Except Err α} {w : World}
    (h : p.exec d.world = (r, w)) : (p.within Directory.gateway).exec d = (r, { d with world := w }) := by
  rw [Prog.exec_within]
  show ((p.exec d.world).1, Directory.gateway.set (p.exec d.world).2 d) = _
  rw [h]
  rfl

/-! ## The registry -/

namespace Registry

/-- One access to the `DashMap`. -/
def touch (f : Registry → Registry) : Prog Directory Err Unit :=
  Prog.act (fun d => ((), { d with registry := f d.registry })) Prog.ret

/-- The rows of the agents table that concern one name: at most one. -/
def rowNamed (name : String) (db : Db) : Option AgentRow := db.agents.find? (·.name == name)

def columns : List String :=
  ["name", "version", "endpoint", "capabilities", "soul_toml", "last_seen", "registered_at"]

/-- The `TEXT NOT NULL` columns of a row. -/
def text (r : AgentRow) (column : String) : String :=
  if column = "name" then r.name
  else if column = "version" then r.version
  else if column = "endpoint" then r.endpoint
  else if column = "capabilities" then r.capabilities
  else if column = "soul_toml" then r.soulToml
  else r.registeredAt

/-- What the upsert sets `soul_toml` to. -/
def soulExpr : Sql.Expr :=
  .ifBlank (.column (some "agents") "soul_toml") (.column (some "excluded") "soul_toml") (.column (some "agents") "soul_toml")

/-- A row that is there already, after the upsert of `row` with the given soul. -/
def merged (soul : Sql.Term) (row old : AgentRow) : AgentRow :=
  { old with
    version := row.version
    endpoint := row.endpoint
    capabilities := row.capabilities
    soulToml := soul.eval (Sql.upsertValue (text old) (text row))
    lastSeen := row.lastSeen }

/-- The statement of `upsert` on the agents table. -/
def upsertRow (row : AgentRow) (db : Db) : Option Db := do
  let soul ← soulExpr.analyse (Sql.upsertRanges "agents" columns)
  return { db with agents := db.agents.upsert row (merged soul row) fun _ _ => rfl }

/-- "Ensure memory row exists for this agent". -/
def insertMemory (name : String) (db : Db) : Option Db :=
  match db.memories.insert ⟨name, ""⟩ with
  | none => some db
  | some memories => if db.hasAgent name then some { db with memories } else none

section
variable [SerdeStrings]

def rowOf (e : AgentEntry) : AgentRow where
  name := e.name
  version := e.version
  endpoint := e.endpoint
  capabilities := SerdeStrings.toText e.capabilities
  soulToml := e.soulToml
  lastSeen := e.lastSeen
  registeredAt := e.registeredAt

/-- A row as it is read back; capabilities that cannot be read are none. -/
def entryOf (r : AgentRow) : AgentEntry where
  name := r.name
  version := r.version
  endpoint := r.endpoint
  capabilities := (SerdeStrings.fromText r.capabilities).getD []
  soulToml := r.soulToml
  lastSeen := r.lastSeen
  registeredAt := r.registeredAt

def upsert (entry : AgentEntry) : Prog Directory Err Unit := do
  (execute .sqlx fun _ => upsertRow (rowOf entry)).within Directory.gateway
  (execute .sqlx fun _ => insertMemory entry.name).within Directory.gateway
  touch fun r => r.insert entry.name entry

/-- The rows, one by one, into the empty cache. -/
def reloadFrom (rows : List AgentRow) : Registry := rows.foldl (fun r row => r.insert row.name (entryOf row)) ∅

/-- `Registry::new`, and with it `reload_from_db`. -/
def new : Gw Registry := do
  let rows ← query .sqlx fun db => db.agents.rows
  return reloadFrom rows

end

/-- What an agent of the configuration file is seeded with at start-up. -/
def seedEntry (name endpoint now : String) : AgentEntry where
  name := name
  version := "unknown"
  endpoint := endpoint
  capabilities := []
  soulToml := ""
  lastSeen := none
  registeredAt := now

def setLastSeen (now : String) (name : String) (db : Db) : Db :=
  { db with agents := db.agents.update (·.name == name) (fun r => { r with lastSeen := some now }) fun _ _ => rfl }

def heartbeat (now name : String) : Prog Directory Err Bool := do
  let rows ← (statement .sqlx fun _ db =>
    some (db.agents.rows.countP (·.name == name), setLastSeen now name db)).within Directory.gateway
  if rows > 0 then
    touch fun r => match r.get name with
      | some e => r.insert name { e with lastSeen := some now }
      | none => r
    return true
  else return false

def list (r : Registry) : List AgentEntry := r.entries.map (·.2)

end Registry

/-! ## The identity store -/

namespace IdentityStore

def getSoul (agentName : String) : Gw String := do
  match ← query .sqlx fun db => (Registry.rowNamed agentName db).map (·.soulToml) with
  | some s => return s
  | none => throw (.msg s!"agent not found: {agentName}")

/-- The `UPDATE` of the two branches: with `force` of every row of the name, else of one without a soul. -/
def updateSoul (agentName content : String) (force : Bool) (db : Db) : Db :=
  let concerns (r : AgentRow) := r.name == agentName && (force || r.soulToml == "")
  { db with agents := db.agents.update concerns (fun r => { r with soulToml := content }) fun _ _ => rfl }

def setSoul (agentName content : String) (force : Bool) : Gw Unit :=
  execute .sqlx fun _ db => some (updateSoul agentName content force db)

def memoryOf (agentName : String) (db : Db) : String :=
  ((db.memories.find? (·.agentName == agentName)).map (·.contentMd)).getD ""

def getMemory (agentName : String) : Gw String := query .sqlx (memoryOf agentName)

def memoryColumns : List String := ["agent_name", "content_md"]

def memoryText (r : MemoryRow) (column : String) : String := if column = "agent_name" then r.agentName else r.contentMd

/-- `content_md || chr(10) || excluded.content_md` -/
def contentExpr : Sql.Expr :=
  .concat (.concat (.column none "content_md") (.text "\n")) (.column (some "excluded") "content_md")

def appendRow (agentName content : String) (db : Db) : Option Db := do
  let value ← contentExpr.analyse (Sql.upsertRanges "memories" memoryColumns)
  let row : MemoryRow := ⟨agentName, content⟩
  let set (old : MemoryRow) : MemoryRow :=
    { old with contentMd := value.eval (Sql.upsertValue (memoryText old) (memoryText row)) }
  match db.memories.insert row with
  | some memories => if db.hasAgent agentName then some { db with memories } else none
  | none => some { db with memories := db.memories.update (Constraints.clash · row) set fun _ _ => rfl }

/-- "Append markdown to the agent's memory (never overwrites)." -/
def appendMemory (agentName content : String) : Gw Unit := execute .sqlx fun _ => appendRow agentName content

end IdentityStore

/-! ## Registration -/

/-- `proto/local.proto`, `AgentManifest`. -/
structure AgentManifest where
  name : String
  version : String
  endpoint : String
  capabilities : List String
  soulToml : String
deriving DecidableEq

namespace LocalGateway

/-- `str::split` at a text that is not empty: the piece read so far, and how much of a separator to skip. -/
def splitAt (sep : List Char) : Nat → List Char → List Char → List (List Char)
  | _, piece, [] => [piece]
  | n + 1, piece, _ :: cs => splitAt sep n piece cs
  | 0, piece, c :: cs =>
    if sep.isPrefixOf (c :: cs) then piece :: splitAt sep (sep.length - 1) [] cs else splitAt sep 0 (piece ++ [c]) cs

/-- "Extract host portion (between :// and next / or :)". -/
def hostPortion (endpoint : String) : List Char :=
  let afterScheme := ((splitAt [':', '/', '/'] 0 [] endpoint.toList)[1]?).getD []
  afterScheme.takeWhile fun c => c != '/' && c != ':'

/-- `str::eq_ignore_ascii_case` -/
def eqIgnoreAsciiCase (a b : List Char) : Bool := a.map (·.toLower) == b.map (·.toLower)

/-- "Block cloud metadata services". -/
def blockedHosts : List String := ["169.254.169.254", "metadata.google.internal", "metadata.internal"]

def validateEndpoint (endpoint : String) : Except Status Unit :=
  if ¬ (['h', 't', 't', 'p', ':', '/', '/'].isPrefixOf endpoint.toList ||
      ['h', 't', 't', 'p', 's', ':', '/', '/'].isPrefixOf endpoint.toList) then
    .error ⟨.invalidArgument, "endpoint must use http or https scheme"⟩
  else
    let host := hostPortion endpoint
    if blockedHosts.any fun b => eqIgnoreAsciiCase host b.toList then
      .error ⟨.invalidArgument, "endpoint host is not allowed (blocked for SSRF prevention)"⟩
    else if ['1', '6', '9', '.', '2', '5', '4', '.'].isPrefixOf host then
      .error ⟨.invalidArgument, "endpoint host is not allowed (link-local)"⟩
    else .ok ()

/-- The checks of `register`, in their order. -/
def validateManifest (m : AgentManifest) : Except Status Unit :=
  if m.name = "" ∨ byteLen m.name.toList > 64 then
    .error ⟨.invalidArgument, "agent name must be 1-64 characters"⟩
  else if ¬ m.name.toList.all fun c => c.isAlphanum || c == '-' || c == '_' then
    .error ⟨.invalidArgument, "agent name must be alphanumeric, dash, or underscore"⟩
  else if m.endpoint = "" ∨ byteLen m.endpoint.toList > 256 then
    .error ⟨.invalidArgument, "agent endpoint must be 1-256 characters"⟩
  else validateEndpoint m.endpoint

/-- `fn internal` -/
def internal (e : Err) : Status := ⟨.internal, e.text⟩

/-- The entry of a manifest; the clock is read twice. -/
def entryOf (lastSeen registeredAt : String) (m : AgentManifest) : AgentEntry where
  name := m.name
  version := m.version
  endpoint := m.endpoint
  capabilities := m.capabilities
  soulToml := m.soulToml
  lastSeen := some lastSeen
  registeredAt := registeredAt

/-- The `agent_id` of the `RegisterAck`. -/
def register [SerdeStrings] (lastSeen registeredAt : String) (m : AgentManifest) : Prog Directory Status String := do
  Prog.ofExcept (validateManifest m)
  (Registry.upsert (entryOf lastSeen registeredAt m)).mapErr internal
  if m.soulToml ≠ "" then
    ((IdentityStore.setSoul m.name m.soulToml false).within Directory.gateway).mapErr internal
  return m.name

def heartbeat (now name : String) : Prog Directory Status Unit := do
  let found ← (Registry.heartbeat now name).mapErr internal
  if found then return () else Prog.fail ⟨.notFound, s!"unknown agent: {name}"⟩

end LocalGateway

/-- The calls that write an agent's rows. -/
inductive AgentCall
  | register (lastSeen registeredAt : String) (m : AgentManifest)
  | upsert (entry : AgentEntry)
  | heartbeat (now name : String)
  | setSoul (name content : String) (force : Bool)
  | appendMemory (name content : String)
  /-- A restart: the rows are read into a new cache, then the agents of the configuration file are seeded. -/
  | startUp (seeds : List (String × String)) (now : String)
deriving DecidableEq

def AgentCall.prog [SerdeStrings] : AgentCall → Prog Directory Status Unit
  | .register lastSeen registeredAt m => do
    let _ ← LocalGateway.register lastSeen registeredAt m
    return ()
  | .upsert entry => (Registry.upsert entry).mapErr LocalGateway.internal
  | .heartbeat now name => LocalGateway.heartbeat now name
  | .setSoul name content force =>
    ((IdentityStore.setSoul name content force).within Directory.gateway).mapErr LocalGateway.internal
  | .appendMemory name content =>
    ((IdentityStore.appendMemory name content).within Directory.gateway).mapErr LocalGateway.internal
  | .startUp seeds now => do
    let registry ← (Registry.new.within Directory.gateway).mapErr LocalGateway.internal
    (Registry.touch fun _ => registry).mapErr LocalGateway.internal
    Prog.forEach seeds fun s => (Registry.upsert (Registry.seedEntry s.1 s.2 now)).mapErr LocalGateway.internal

/-! ## What a call writes -/

/-- What one statement of a call may do to the database. -/
inductive AgentCall.Writes [SerdeStrings] : AgentCall → Db → Db → Prop
  | nothing {c : AgentCall} {db : Db} : Writes c db db
  | register {lastSeen registeredAt : String} {m : AgentManifest} {db db' : Db} :
      Registry.upsertRow (Registry.rowOf (LocalGateway.entryOf lastSeen registeredAt m)) db = some db' →
      Writes (.register lastSeen registeredAt m) db db'
  | registerSoul {lastSeen registeredAt : String} {m : AgentManifest} {db : Db} :
      Writes (.register lastSeen registeredAt m) db (IdentityStore.updateSoul m.name m.soulToml false db)
  | upsert {entry : AgentEntry} {db db' : Db} :
      Registry.upsertRow (Registry.rowOf entry) db = some db' → Writes (.upsert entry) db db'
  | seed {seeds : List (String × String)} {now : String} {s : String × String} {db db' : Db} :
      Registry.upsertRow (Registry.rowOf (Registry.seedEntry s.1 s.2 now)) db = some db' →
      Writes (.startUp seeds now) db db'
  | memory {c : AgentCall} {name : String} {db db' : Db} : Registry.insertMemory name db = some db' → Writes c db db'
  | heartbeat {now name : String} {db : Db} : Writes (.heartbeat now name) db (Registry.setLastSeen now name db)
  | setSoul {name content : String} {force : Bool} {db : Db} :
      Writes (.setSoul name content force) db (IdentityStore.updateSoul name content force db)
  | appendMemory {name content : String} {db db' : Db} :
      IdentityStore.appendRow name content db = some db' → Writes (.appendMemory name content) db db'

section
variable [SerdeStrings]

/-- The same of the directory. -/
def AgentCall.WritesIn (c : AgentCall) (d d' : Directory) : Prop := c.Writes d.world.db d'.world.db

theorem writes_touch (c : AgentCall) (f : Registry → Registry) : (Registry.touch f).Moves c.WritesIn :=
  ⟨fun _ => .nothing, fun _ => trivial⟩

theorem writes_within {c : AgentCall} {α : Type} {p : Gw α} (hp : p.Moves fun w w' => c.Writes w.db w'.db) :
    (p.within Directory.gateway).Moves c.WritesIn :=
  hp.within_of fun _ _ h => h

theorem writes_execute {c : AgentCall} {e : Err} {f : F64 → Db → Option Db}
    (h : ∀ now db db', f now db = some db' → c.Writes db db') : ((execute e f).within Directory.gateway).Moves c.WritesIn := by
  apply writes_within
  apply moves_execute (fun _ => .nothing)
  intro w db hf
  exact h _ _ _ hf

theorem writes_upsert {c : AgentCall} {entry : AgentEntry}
    (h : ∀ db db', Registry.upsertRow (Registry.rowOf entry) db = some db' → c.Writes db db') :
    (Registry.upsert entry).Moves c.WritesIn := by
  unfold Registry.upsert
  apply Prog.Moves.bind
  · exact writes_execute fun _ _ _ => h _ _
  intro _
  apply Prog.Moves.bind
  · exact writes_execute fun _ _ _ => .memory
  intro _
  exact writes_touch c _

theorem writes_setSoul {c : AgentCall} {name content : String} {force : Bool}
    (h : ∀ db, c.Writes db (IdentityStore.updateSoul name content force db)) :
    ((IdentityStore.setSoul name content force).within Directory.gateway).Moves c.WritesIn := by
  apply writes_execute
  intro now db db' hdb
  cases hdb
  exact h db

/-- **Each action of a call is one of its statements, or leaves the database alone.** -/
theorem AgentCall.writes (c : AgentCall) : c.prog.Moves c.WritesIn := by
  cases c with
  | register lastSeen registeredAt m =>
    unfold AgentCall.prog LocalGateway.register
    refine Prog.Moves.bind (Prog.Moves.bind (Prog.moves_ofExcept _) fun _ => ?_) fun _ => Prog.moves_ret _
    apply Prog.Moves.bind (writes_upsert fun _ _ => .register).mapErr
    intro _
    split
    · exact (writes_setSoul fun _ => .registerSoul).mapErr.bind fun _ => Prog.moves_ret _
    · exact Prog.moves_ret _
  | upsert entry => exact (writes_upsert fun _ _ => .upsert).mapErr
  | heartbeat now name =>
    unfold AgentCall.prog LocalGateway.heartbeat Registry.heartbeat
    apply Prog.Moves.bind
    · apply Prog.Moves.mapErr
      apply Prog.Moves.bind
      · apply writes_within
        apply moves_statement (fun _ => .nothing)
        intro w n db hf
        cases hf
        exact .heartbeat
      intro rows
      split
      · exact (writes_touch _ _).bind fun _ => Prog.moves_ret _
      · exact Prog.moves_ret _
    intro found
    split
    · exact Prog.moves_ret _
    · exact Prog.moves_fail _
  | setSoul name content force => exact (writes_setSoul fun _ => .setSoul).mapErr
  | appendMemory name content =>
    unfold AgentCall.prog IdentityStore.appendMemory
    exact (writes_execute fun _ _ _ => .appendMemory).mapErr
  | startUp seeds now =>
    unfold AgentCall.prog Registry.new
    apply Prog.Moves.bind
    · apply Prog.Moves.mapErr
      apply writes_within
      exact (moves_query fun _ => .nothing).bind fun _ => Prog.moves_ret _
    intro registry
    apply Prog.Moves.bind (writes_touch _ _).mapErr
    intro _
    exact Prog.Moves.forEach fun s _ => (writes_upsert fun _ _ => .seed).mapErr

end

/-! ## What the statements do -/

namespace Registry

/-- The soul after an upsert: the one that is there, if there is one. -/
theorem exists_soul : ∃ soul, soulExpr.analyse (Sql.upsertRanges "agents" columns) = some soul ∧
    ∀ row old, soul.eval (Sql.upsertValue (text old) (text row)) = if old.soulToml = "" then row.soulToml else old.soulToml := by
  have htarget := @Sql.analyse_target "agents" "soul_toml" columns (by decide) (by decide)
  have hexcluded := @Sql.analyse_excluded "agents" "soul_toml" columns (by decide) (by decide)
  refine ⟨_, Sql.analyse_ifBlank htarget hexcluded htarget, fun row old => ?_⟩
  simp [Sql.Term.eval, Sql.upsertValue, text]

theorem name_of_rowNamed {name : String} {db : Db} {r : AgentRow} (h : rowNamed name db = some r) : r.name = name := by
  have hkey := Table.prop_of_find? h
  exact beq_iff_eq.1 hkey

/-- What an upsert of `row` makes of a row with its name. -/
def refreshed (row old : AgentRow) : AgentRow :=
  { row with soulToml := if old.soulToml = "" then row.soulToml else old.soulToml, registeredAt := old.registeredAt }

theorem upsertRow_eq (row : AgentRow) (db : Db) : ∃ soul : Sql.Term,
    (∀ old, soul.eval (Sql.upsertValue (text old) (text row)) = if old.soulToml = "" then row.soulToml else old.soulToml) ∧
      upsertRow row db = some { db with agents := db.agents.upsert row (merged soul row) fun _ _ => rfl } := by
  obtain ⟨soul, hsoul, heval⟩ := exists_soul
  exact ⟨soul, heval row, by simp [upsertRow, hsoul]⟩

theorem rowNamed_upsertRow {row : AgentRow} {db db' : Db} (h : upsertRow row db = some db') (name : String) :
    rowNamed name db' = if name = row.name then some ((rowNamed row.name db).elim row (refreshed row)) else rowNamed name db := by
  obtain ⟨soul, heval, hdb⟩ := upsertRow_eq row db
  rw [hdb, Option.some.injEq] at h
  subst h
  split
  · rename_i hname
    subst hname
    have hself := @Table.find?_upsert_self _ _ db.agents row (merged soul row) (fun _ _ => rfl) (·.name == row.name)
      (beq_self_eq_true _) fun _ => rfl
    rw [rowNamed, hself]
    cases hold : rowNamed row.name db with
    | none => rw [show db.agents.find? (·.name == row.name) = none from hold]; rfl
    | some old =>
      rw [show db.agents.find? (·.name == row.name) = some old from hold]
      simp [merged, refreshed, heval, name_of_rowNamed hold]
  · rename_i hname
    refine Table.find?_upsert_of_ne (beq_false_of_ne (Ne.symm hname)) fun x _ hx => ?_
    have hkey : x.name = row.name := beq_iff_eq.1 hx
    simp [merged, hkey, Ne.symm hname]

theorem upsertRow_isSome (row : AgentRow) (db : Db) : ∃ db', upsertRow row db = some db' := by
  obtain ⟨soul, -, hdb⟩ := upsertRow_eq row db
  exact ⟨_, hdb⟩

theorem upsertRow_memories {row : AgentRow} {db db' : Db} (h : upsertRow row db = some db') : db'.memories = db.memories := by
  obtain ⟨soul, -, hdb⟩ := upsertRow_eq row db
  rw [hdb, Option.some.injEq] at h
  rw [← h]

theorem insertMemory_agents {name : String} {db db' : Db} (h : insertMemory name db = some db') : db'.agents = db.agents := by
  unfold insertMemory at h
  split at h
  · cases h
    rfl
  · split at h <;> cases h
    rfl

theorem rowNamed_setLastSeen (now name other : String) (db : Db) : rowNamed other (setLastSeen now name db) =
    (rowNamed other db).map fun r => if other = name then { r with lastSeen := some now } else r := by
  have hfind := @Table.find?_update_where _ _ db.agents (·.name == name) (·.name == other)
    (fun r => { r with lastSeen := some now }) (fun _ _ => rfl) fun _ => rfl
  refine hfind.trans ?_
  cases h : rowNamed other db with
  | none => rw [show db.agents.find? (·.name == other) = none from h]; rfl
  | some r =>
    rw [show db.agents.find? (·.name == other) = some r from h]
    simp [name_of_rowNamed h]

end Registry

theorem IdentityStore.rowNamed_updateSoul (name content other : String) (force : Bool) (db : Db) :
    Registry.rowNamed other (updateSoul name content force db) = (Registry.rowNamed other db).map fun r =>
      if other = name ∧ (force = true ∨ r.soulToml = "") then { r with soulToml := content } else r := by
  have hfind := @Table.find?_update_where _ _ db.agents (fun r => r.name == name && (force || r.soulToml == ""))
    (·.name == other) (fun r => { r with soulToml := content }) (fun _ _ => rfl) fun _ => rfl
  refine hfind.trans ?_
  cases h : Registry.rowNamed other db with
  | none => rw [show db.agents.find? (·.name == other) = none from h]; rfl
  | some r =>
    rw [show db.agents.find? (·.name == other) = some r from h]
    simp [Registry.name_of_rowNamed h]

theorem IdentityStore.exec_getSoul {name : String} {w : World} {r : AgentRow} (hpass : Passes w)
    (hrow : Registry.rowNamed name w.db = some r) : (getSoul name).exec w = (.ok r.soulToml, w.tick) := by
  have hread : (query .sqlx fun db => (Registry.rowNamed name db).map (·.soulToml)).exec w =
      (.ok ((Registry.rowNamed name w.db).map (·.soulToml)), w.tick) := exec_query_iff.2 ⟨hpass, rfl, rfl⟩
  rw [getSoul, Prog.bind_eq, Prog.exec_bind_of_ok hread, hrow]
  rfl

/-- The `SET` of `append_memory` says `content_md` without a range, which is ambiguous. -/
theorem IdentityStore.appendRow_eq_none (name content : String) (db : Db) : appendRow name content db = none := by
  have hambiguous := @Sql.analyse_unqualified "memories" "content_md" memoryColumns
  have hexpr : contentExpr.analyse (Sql.upsertRanges "memories" memoryColumns) = none :=
    Sql.analyse_concat_of_none (Sql.analyse_concat_of_none hambiguous _) _
  simp [appendRow, hexpr]

end A2AGateway
