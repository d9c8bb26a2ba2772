import A2AGateway.AgentDirectory

/-!
# The registry after a restart

The registry answers from a cache, which a restart fills again from the agents table. The two are written by
different rules: the upsert keeps `registered_at` and a soul that is there, the cache takes the whole new
entry; `set_soul` writes the table only. A restart goes unnoticed in exactly the runs in which no call makes
use of such a difference (`restart_invisible_iff`).
-/

namespace A2AGateway

open Gw

namespace Registry

section
variable [SerdeStrings]

/-- What a registry that is created now would answer is what this one answers. -/
def Invisible (d : Directory) : Prop :=
  ∀ w r w', w.db = d.world.db → new.exec w = (.ok r, w') →
    (∀ name, d.registry.get name = r.get name) ∧ d.registry.list.Perm r.list

/-- The cache has the entry of each row, and no other. -/
def Synced (d : Directory) : Prop := ∀ name, d.registry.get name = (rowNamed name d.world.db).map entryOf

/-! ## A new registry -/

theorem get_foldl_insert (name : String) (rows : List AgentRow) :
    ∀ r : Registry, rows.Pairwise (fun a b => Constraints.clash a b = false) →
      Registry.get (rows.foldl (fun r row => r.insert row.name (entryOf row)) r) name =
        ((rows.find? (·.name == name)).map entryOf).or (r.get name) := by
  induction rows with
  | nil =>
    intro r _
    rfl
  | cons row rows ih =>
    intro r hrows
    rw [List.pairwise_cons] at hrows
    rw [List.foldl_cons, ih _ hrows.2]
    by_cases hname : row.name = name
    · subst hname
      have hnone : rows.find? (·.name == row.name) = none := by
        refine List.find?_eq_none.2 fun x hx hkey => ?_
        have hclash := hrows.1 x hx
        simp only [Constraints.clash, beq_eq_false_iff_ne] at hclash
        exact hclash (beq_iff_eq.1 hkey).symm
      rw [hnone]
      simp [Registry.get]
    · rw [List.find?_cons_of_neg (by simpa using hname)]
      simp [Registry.get, AList.lookup_insert_ne (Ne.symm hname)]

theorem get_reloadFrom (db : Db) (name : String) :
    (reloadFrom db.agents.rows).get name = (rowNamed name db).map entryOf := by
  rw [reloadFrom, get_foldl_insert name _ _ db.agents.unique]
  exact Option.or_none

theorem exec_new {w w' : World} {r : Registry} (h : new.exec w = (.ok r, w')) : r = reloadFrom w.db.agents.rows := by
  obtain ⟨rows, w₁, hrows, hret⟩ := Prog.exec_bind_ok.1 h
  obtain ⟨-, rfl, -⟩ := exec_query_iff.1 hrows
  cases hret
  rfl

omit [SerdeStrings] in
/-- Registries that find the same list the same. -/
theorem list_perm {r r' : Registry} (h : ∀ name, r.get name = r'.get name) : r.list.Perm r'.list := by
  apply List.Perm.map
  refine List.lookup_ext r.nodupKeys r'.nodupKeys fun name e => ?_
  have hname : r.entries.dlookup name = r'.entries.dlookup name := h name
  rw [hname]

theorem invisible_iff {d : Directory} : Invisible d ↔ Synced d := by
  constructor
  · intro h name
    have hrun : new.exec d.world.calm = (.ok (reloadFrom d.world.db.agents.rows), d.world.calm) := rfl
    rw [(h d.world.calm _ _ rfl hrun).1 name, get_reloadFrom]
  · intro h w r w' hw hrun
    have hget : ∀ name, d.registry.get name = r.get name := by
      intro name
      rw [exec_new hrun, get_reloadFrom, h name, hw]
    exact ⟨hget, list_perm hget⟩

end

/-! ## What a call leaves -/

/-- Rows and cache are as before. -/
def Untouched (d d' : Directory) : Prop :=
  (∀ name, rowNamed name d'.world.db = rowNamed name d.world.db) ∧ d'.registry = d.registry

theorem hasAgent_of_rowNamed {name : String} {db : Db} {r : AgentRow} (h : rowNamed name db = some r) : db.hasAgent name = true :=
  List.any_eq_true.2 ⟨r, Table.mem_of_find? h, beq_iff_eq.2 (name_of_rowNamed h)⟩

theorem insertMemory_isSome {name : String} {db : Db} (h : db.hasAgent name = true) : ∃ db', insertMemory name db = some db' := by
  unfold insertMemory
  split
  · exact ⟨_, rfl⟩
  · rw [if_pos h]
    exact ⟨_, rfl⟩

section
variable [SerdeStrings] {entry : AgentEntry} {d : Directory}

/-- The row of an agent after the upsert. -/
def rowAfter (entry : AgentEntry) (db : Db) : AgentRow :=
  (rowNamed entry.name db).elim (rowOf entry) (refreshed (rowOf entry))

/-- The rows with that row in its place, and the given cache. -/
def Upserted (entry : AgentEntry) (cache : Registry) (d d' : Directory) : Prop :=
  (∀ name, rowNamed name d'.world.db = if name = entry.name then some (rowAfter entry d.world.db) else rowNamed name d.world.db) ∧
    d'.registry = cache

theorem exec_upsert (entry : AgentEntry) (d : Directory) :
    ¬ Passes d.world ∧ (∃ e d', (upsert entry).exec d = (.error e, d') ∧ Untouched d d') ∨
      Passes d.world ∧ ¬ Passes d.world.tick ∧
        (∃ e d', (upsert entry).exec d = (.error e, d') ∧ Upserted entry d.registry d d') ∨
      Passes d.world ∧ Passes d.world.tick ∧
        ∃ d', (upsert entry).exec d = (.ok (), d') ∧ Upserted entry (d.registry.insert entry.name entry) d d' := by
  by_cases hpass : Passes d.world
  · obtain ⟨db₁, hdb₁⟩ := upsertRow_isSome (rowOf entry) d.world.db
    have hrows : ∀ name, rowNamed name db₁ =
        if name = entry.name then some (rowAfter entry d.world.db) else rowNamed name d.world.db := rowNamed_upsertRow hdb₁
    have hrow : (execute .sqlx fun _ => upsertRow (rowOf entry)).exec d.world = (.ok (), { d.world.tick with db := db₁ }) :=
      exec_execute_iff.2 ⟨hpass, db₁, hdb₁, rfl⟩
    right
    unfold upsert
    rw [Prog.bind_eq, Prog.exec_bind_of_ok (Directory.exec_gateway hrow)]
    by_cases hpass₁ : Passes d.world.tick
    · right
      refine ⟨hpass, hpass₁, ?_⟩
      have hagent : db₁.hasAgent entry.name = true := by
        apply hasAgent_of_rowNamed
        rw [hrows, if_pos rfl]
      obtain ⟨db₂, hdb₂⟩ := insertMemory_isSome hagent
      have hmemory : (execute .sqlx fun _ => insertMemory entry.name).exec { d.world.tick with db := db₁ } =
          (.ok (), { d.world.tick.tick with db := db₂ }) := exec_execute_iff.2 ⟨hpass₁, db₂, hdb₂, rfl⟩
      rw [Prog.bind_eq, Prog.exec_bind_of_ok (Directory.exec_gateway hmemory)]
      refine ⟨_, rfl, fun name => ?_, rfl⟩
      show rowNamed name db₂ = _
      rw [rowNamed, insertMemory_agents hdb₂]
      exact hrows name
    · left
      refine ⟨hpass, hpass₁, ?_⟩
      have hmemory : (execute .sqlx fun _ => insertMemory entry.name).exec { d.world.tick with db := db₁ } =
          (.error .sqlx, { d.world.tick.tick with db := db₁ }) := exec_statement_of_not_passes hpass₁
      rw [Prog.bind_eq, Prog.exec_bind_of_error (Directory.exec_gateway hmemory)]
      exact ⟨_, _, rfl, hrows, rfl⟩
  · left
    refine ⟨hpass, ?_⟩
    have hrow : (execute .sqlx fun _ => upsertRow (rowOf entry)).exec d.world = (.error .sqlx, d.world.tick) :=
      exec_statement_of_not_passes hpass
    unfold upsert
    rw [Prog.bind_eq, Prog.exec_bind_of_error (Directory.exec_gateway hrow)]
    exact ⟨_, _, rfl, fun _ => rfl, rfl⟩

/-- An upsert that ends well has done all three steps. -/
theorem exec_upsert_ok {d' : Directory} {u : Unit} (h : (upsert entry).exec d = (.ok u, d')) :
    Upserted entry (d.registry.insert entry.name entry) d d' := by
  rcases exec_upsert entry d with ⟨-, e, d₁, hrun, -⟩ | ⟨-, -, e, d₁, hrun, -⟩ | ⟨-, -, d₁, hrun, hups⟩
  · rw [h] at hrun
    cases hrun
  · rw [h] at hrun
    cases hrun
  · rw [h] at hrun
    cases hrun
    exact hups

/-! ## Table and cache -/

theorem Untouched.synced_iff {d' : Directory} (h : Untouched d d') : Synced d' ↔ Synced d := by
  simp only [Synced, h.1, h.2]

/-- The upsert finds nothing that it would keep and the cache would not; if it fails half-way, nothing to change. -/
def UpsertAgrees (entry : AgentEntry) (d : Directory) : Prop :=
  Passes d.world →
    (Passes d.world.tick → ∀ r ∈ rowNamed entry.name d.world.db,
      r.registeredAt = entry.registeredAt ∧ (r.soulToml = "" ∨ r.soulToml = entry.soulToml)) ∧
    (¬ Passes d.world.tick → ∃ r ∈ rowNamed entry.name d.world.db, r.version = entry.version ∧
      r.endpoint = entry.endpoint ∧ (entryOf r).capabilities = entry.capabilities ∧
      (r.soulToml ≠ "" ∨ entry.soulToml = "") ∧ r.lastSeen = entry.lastSeen)

/-- The text that is written for the capabilities can be read again. -/
def Readable (caps : List String) : Prop := SerdeStrings.fromText (SerdeStrings.toText caps) = some caps

theorem entryOf_rowOf (h : Readable entry.capabilities) : entryOf (rowOf entry) = entry := by
  rw [Readable] at h
  simp [entryOf, rowOf, h]

theorem entryOf_refreshed (h : Readable entry.capabilities) (r : AgentRow) :
    entryOf (refreshed (rowOf entry) r) =
      { entry with soulToml := if r.soulToml = "" then entry.soulToml else r.soulToml, registeredAt := r.registeredAt } := by
  rw [Readable] at h
  simp [entryOf, rowOf, refreshed, h]

/-- With the whole new entry in the cache. -/
theorem entryOf_rowAfter_iff (h : Readable entry.capabilities) (db : Db) :
    some entry = some (entryOf (rowAfter entry db)) ↔ ∀ r ∈ rowNamed entry.name db,
      r.registeredAt = entry.registeredAt ∧ (r.soulToml = "" ∨ r.soulToml = entry.soulToml) := by
  rw [rowAfter]
  cases hold : rowNamed entry.name db with
  | none => simp [entryOf_rowOf h]
  | some r =>
    rw [Option.elim_some, entryOf_refreshed h]
    obtain ⟨name, version, endpoint, capabilities, soul, lastSeen, registeredAt⟩ := entry
    by_cases hblank : r.soulToml = ""
    · simp only [hblank, Option.some.injEq, if_true, AgentEntry.mk.injEq]
      grind
    · simp only [hblank, Option.some.injEq, if_false, AgentEntry.mk.injEq]
      grind

/-- With the old entry still in the cache. -/
theorem entryOf_kept_iff (h : Readable entry.capabilities) (db : Db) :
    (rowNamed entry.name db).map entryOf = some (entryOf (rowAfter entry db)) ↔
      ∃ r ∈ rowNamed entry.name db, r.version = entry.version ∧ r.endpoint = entry.endpoint ∧
        (entryOf r).capabilities = entry.capabilities ∧ (r.soulToml ≠ "" ∨ entry.soulToml = "") ∧
        r.lastSeen = entry.lastSeen := by
  rw [rowAfter]
  cases hold : rowNamed entry.name db with
  | none => simp
  | some r =>
    have hname := name_of_rowNamed hold
    rw [Option.elim_some, entryOf_refreshed h]
    obtain ⟨name, version, endpoint, capabilities, soul, lastSeen, registeredAt⟩ := entry
    by_cases hblank : r.soulToml = ""
    · simp only [entryOf, hname, hblank, Option.map_some, Option.some.injEq, if_true, AgentEntry.mk.injEq]
      grind
    · simp only [entryOf, hname, hblank, Option.map_some, Option.some.injEq, if_false, AgentEntry.mk.injEq]
      grind

/-- After the upsert table and cache can only differ in the one entry. -/
theorem Upserted.synced_iff {cache : Registry} {d' : Directory} (h : Upserted entry cache d d') (hs : Synced d)
    (hcache : ∀ name, name ≠ entry.name → cache.get name = d.registry.get name) :
    Synced d' ↔ cache.get entry.name = some (entryOf (rowAfter entry d.world.db)) := by
  obtain ⟨hrows, hregistry⟩ := h
  simp only [Synced, hrows, hregistry]
  constructor
  · intro hall
    have hname := hall entry.name
    rwa [if_pos rfl] at hname
  · intro hentry name
    by_cases hname : name = entry.name
    · rw [hname, if_pos rfl, hentry]
      rfl
    · rw [if_neg hname, hcache name hname]
      exact hs name

theorem upsert_synced_iff (h : Readable entry.capabilities) (hs : Synced d) :
    Synced ((upsert entry).exec d).2 ↔ UpsertAgrees entry d := by
  rcases exec_upsert entry d with ⟨hfail, e, d', hrun, hsame⟩ | ⟨hpass, hfail, e, d', hrun, hafter⟩ |
    ⟨hpass, hpass₁, d', hrun, hafter⟩
  · rw [hrun, hsame.synced_iff]
    exact ⟨fun _ hpass => absurd hpass hfail, fun _ => hs⟩
  · rw [hrun, hafter.synced_iff hs fun _ _ => rfl, hs entry.name, entryOf_kept_iff h]
    exact ⟨fun hr _ => ⟨fun hpass₁ => absurd hpass₁ hfail, fun _ => hr⟩, fun hagrees => (hagrees hpass).2 hfail⟩
  · have hcache : ∀ name, name ≠ entry.name → Registry.get (d.registry.insert entry.name entry) name = d.registry.get name :=
      fun name hname => AList.lookup_insert_ne hname
    have hentry : Registry.get (d.registry.insert entry.name entry) entry.name = some entry := AList.lookup_insert _
    rw [hrun, hafter.synced_iff hs hcache, hentry, entryOf_rowAfter_iff h]
    exact ⟨fun hr _ => ⟨fun _ => hr, fun hfail => absurd hpass₁ hfail⟩, fun hagrees => (hagrees hpass).1 hpass₁⟩

end

/-- `set_soul` changes nothing, or fails. -/
def SoulAgrees (name content : String) (force : Bool) (d : Directory) : Prop :=
  Passes d.world → ∀ r ∈ rowNamed name d.world.db, force = true ∨ r.soulToml = "" → r.soulToml = content

section
variable {name content now : String} {force : Bool} {d : Directory}

theorem exec_setSoul : ¬ Passes d.world ∧ (∃ e d', ((IdentityStore.setSoul name content force).within Directory.gateway).exec d =
      (.error e, d') ∧ Untouched d d') ∨
    Passes d.world ∧ ∃ d', ((IdentityStore.setSoul name content force).within Directory.gateway).exec d = (.ok (), d') ∧
      d'.registry = d.registry ∧ d'.world.db = IdentityStore.updateSoul name content force d.world.db := by
  by_cases hpass : Passes d.world
  · right
    have hrun : (IdentityStore.setSoul name content force).exec d.world =
        (.ok (), { d.world.tick with db := IdentityStore.updateSoul name content force d.world.db }) :=
      exec_execute_iff.2 ⟨hpass, _, rfl, rfl⟩
    exact ⟨hpass, _, Directory.exec_gateway hrun, rfl, rfl⟩
  · left
    have hrun : (IdentityStore.setSoul name content force).exec d.world = (.error .sqlx, d.world.tick) := by
      rw [IdentityStore.setSoul, execute, exec_statement_of_not_passes hpass]
    exact ⟨hpass, _, _, Directory.exec_gateway hrun, fun _ => rfl, rfl⟩

/-- The unforced `set_soul` of a registration comes after the upsert, and finds a soul. -/
theorem setSoul_untouched {r : AgentRow} (hrow : rowNamed name d.world.db = some r) (hsoul : r.soulToml ≠ "") :
    Untouched d (((IdentityStore.setSoul name content false).within Directory.gateway).exec d).2 := by
  rcases @exec_setSoul name content false d with ⟨-, e, d', hrun, hsame⟩ | ⟨-, d', hrun, hregistry, hdb⟩
  · rw [hrun]
    exact hsame
  · rw [hrun]
    refine ⟨fun other => ?_, hregistry⟩
    rw [hdb, IdentityStore.rowNamed_updateSoul]
    cases hother : rowNamed other d.world.db with
    | none => rfl
    | some x =>
      by_cases hname : other = name
      · subst hname
        rw [hrow, Option.some.injEq] at hother
        simp [← hother, hsoul]
      · simp [hname]

variable [SerdeStrings]

theorem setSoul_synced_iff (hs : Synced d) :
    Synced (((IdentityStore.setSoul name content force).within Directory.gateway).exec d).2 ↔ SoulAgrees name content force d := by
  rcases @exec_setSoul name content force d with ⟨hfail, e, d', hrun, hsame⟩ | ⟨hpass, d', hrun, hregistry, hdb⟩
  · rw [hrun, hsame.synced_iff]
    exact ⟨fun _ hpass => absurd hpass hfail, fun _ => hs⟩
  · rw [hrun]
    simp only [Synced, hregistry, hdb, IdentityStore.rowNamed_updateSoul]
    constructor
    · intro hall _ r hrow hset
      have hname := hall name
      rw [hs name, hrow] at hname
      simpa [hset, entryOf] using hname
    · intro hagrees other
      rw [hs other]
      cases hother : rowNamed other d.world.db with
      | none => rfl
      | some r =>
        by_cases hset : other = name ∧ (force = true ∨ r.soulToml = "")
        · obtain ⟨rfl, hset⟩ := hset
          have hsame := hagrees hpass r hother hset
          simp only [Option.map_some, ← hsame, true_and, if_pos hset]
        · simp [hset]

omit [SerdeStrings] in
theorem countP_pos_iff {db : Db} : db.agents.rows.countP (·.name == name) > 0 ↔ ∃ r, rowNamed name db = some r := by
  rw [gt_iff_lt, List.countP_pos_iff, ← Option.isSome_iff_exists, rowNamed, Table.find?, List.find?_isSome]

/-- A heartbeat writes the same to both. -/
theorem heartbeat_synced (hs : Synced d) : Synced ((heartbeat now name).exec d).2 := by
  by_cases hpass : Passes d.world
  · have hrun : (statement .sqlx fun _ db => some (db.agents.rows.countP (·.name == name), setLastSeen now name db)).exec d.world =
        (.ok (d.world.db.agents.rows.countP (·.name == name)), { d.world.tick with db := setLastSeen now name d.world.db }) :=
      exec_statement_iff.2 ⟨hpass, _, rfl, rfl⟩
    unfold heartbeat
    rw [Prog.bind_eq, Prog.exec_bind_of_ok (Directory.exec_gateway hrun)]
    split
    · rename_i hcount
      intro other
      obtain ⟨r, hrow⟩ := countP_pos_iff.1 hcount
      have hentry : d.registry.get name = some (entryOf r) := by rw [hs name, hrow, Option.map_some]
      simp only [touch, Prog.bind, Prog.exec, Prog.pure_eq, Prog.bind_eq, hentry]
      rw [rowNamed_setLastSeen]
      by_cases hname : other = name
      · rw [hname, hrow]
        simp [Registry.get, entryOf]
      · have hother := hs other
        simp only [Registry.get] at hother
        simp [Registry.get, AList.lookup_insert_ne hname, hname, hother]
    · rename_i hcount
      intro other
      show d.registry.get other = (rowNamed other (setLastSeen now name d.world.db)).map entryOf
      have hnone : rowNamed name d.world.db = none := by
        rw [countP_pos_iff, ← Option.isSome_iff_exists, Option.not_isSome_iff_eq_none] at hcount
        exact hcount
      rw [rowNamed_setLastSeen, hs other]
      by_cases hname : other = name
      · rw [hname, hnone]
        rfl
      · simp [hname]
  · have hrun : (statement .sqlx fun _ db => some (db.agents.rows.countP (·.name == name), setLastSeen now name db)).exec d.world =
        (.error .sqlx, d.world.tick) := exec_statement_of_not_passes hpass
    unfold heartbeat
    rw [Prog.bind_eq, Prog.exec_bind_of_error (Directory.exec_gateway hrun)]
    exact hs

/-! ## One call -/

/-- The row after an upsert has the soul of the entry, or had one before. -/
theorem rowAfter_soul {entry : AgentEntry} {db : Db} (h : entry.soulToml ≠ "") : (rowAfter entry db).soulToml ≠ "" := by
  rw [rowAfter]
  cases rowNamed entry.name db with
  | none => exact h
  | some r =>
    by_cases hblank : r.soulToml = ""
    · simpa [refreshed, hblank, rowOf] using h
    · simp [refreshed, hblank]

/-- A registration leaves what its upsert leaves. -/
theorem register_untouched (lastSeen registeredAt : String) {m : AgentManifest} (hm : LocalGateway.validateManifest m = .ok ()) :
    Untouched ((upsert (LocalGateway.entryOf lastSeen registeredAt m)).exec d).2
      ((LocalGateway.register lastSeen registeredAt m).exec d).2 := by
  have hvalid : (Prog.ofExcept (LocalGateway.validateManifest m)).exec d = (.ok (), d) := by
    rw [hm]
    rfl
  rw [LocalGateway.register, Prog.bind_eq, Prog.exec_bind_of_ok hvalid, Prog.bind_eq]
  have hmapped := Prog.exec_mapErr LocalGateway.internal (upsert (LocalGateway.entryOf lastSeen registeredAt m)) d
  refine Prog.exec_bind_state (P := Untouched _) ?_ fun u d' hrun hd' => ?_
  · rw [hmapped]
    exact ⟨fun _ => rfl, rfl⟩
  · split
    · rename_i hsoul
      obtain ⟨hrows, -⟩ := exec_upsert_ok (Prog.exec_mapErr_ok.1 hrun)
      have hset := @setSoul_untouched m.name m.soulToml d' _ ((hrows m.name).trans (if_pos rfl)) (rowAfter_soul hsoul)
      show Untouched _ (((((IdentityStore.setSoul m.name m.soulToml false).within Directory.gateway).mapErr
        LocalGateway.internal).bind fun _ => .ret m.name).exec d').2
      rw [Prog.exec_bind_ret_state, Prog.exec_mapErr]
      exact ⟨fun name => (hset.1 name).trans (hd'.1 name), hset.2.trans hd'.2⟩
    · exact hd'

end

end Registry

open Registry

/-- The calls of a run: all but the restart itself. -/
def AgentCall.Ordinary : AgentCall → Prop
  | .startUp _ _ => False
  | _ => True

section
variable [SerdeStrings]

/-- The call leaves table and cache with the same. -/
def AgentCall.Agrees (d : Directory) : AgentCall → Prop
  | .register lastSeen registeredAt m =>
    LocalGateway.validateManifest m = .ok () → UpsertAgrees (LocalGateway.entryOf lastSeen registeredAt m) d
  | .upsert entry => UpsertAgrees entry d
  | .setSoul name content force => SoulAgrees name content force d
  | _ => True

/-- The capabilities the call registers are written as a text that can be read again. -/
def AgentCall.WritesReadable : AgentCall → Prop
  | .register _ _ m => Readable m.capabilities
  | .upsert entry => Readable entry.capabilities
  | _ => True

theorem exec_appendMemory (name content : String) (d : Directory) :
    Untouched d ((AgentCall.appendMemory name content).prog.exec d).2 := by
  have hrun : (IdentityStore.appendMemory name content).exec d.world = (.error .sqlx, d.world.tick) := by
    rcases exec_statement_cases .sqlx (fun _ db => (IdentityStore.appendRow name content db).map ((), ·)) d.world with
      h | ⟨a, db, hf, -⟩
    · exact h
    · simp [IdentityStore.appendRow_eq_none] at hf
  unfold AgentCall.prog
  rw [Prog.exec_mapErr, Directory.exec_gateway hrun]
  exact ⟨fun _ => rfl, rfl⟩

/-- **A call keeps table and cache together if and only if it agrees.** -/
theorem AgentCall.synced_iff {c : AgentCall} {d : Directory} (hc : c.Ordinary) (hserde : c.WritesReadable) (hs : Synced d) :
    Synced (c.prog.exec d).2 ↔ c.Agrees d := by
  cases c with
  | register lastSeen registeredAt m =>
    have hrun : ((AgentCall.register lastSeen registeredAt m).prog.exec d).2 =
        ((LocalGateway.register lastSeen registeredAt m).exec d).2 := Prog.exec_bind_ret_state _ _ d
    rw [hrun]
    cases hm : LocalGateway.validateManifest m with
    | error e =>
      have hinvalid : (LocalGateway.register lastSeen registeredAt m).exec d = (.error e, d) := by
        rw [LocalGateway.register, hm]
        rfl
      rw [hinvalid]
      refine ⟨fun _ hvalid => ?_, fun _ => hs⟩
      rw [hm] at hvalid
      cases hvalid
    | ok _ =>
      have hreadable : Readable (LocalGateway.entryOf lastSeen registeredAt m).capabilities := hserde
      rw [(register_untouched lastSeen registeredAt hm).synced_iff, upsert_synced_iff hreadable hs]
      exact ⟨fun h _ => h, fun h => h hm⟩
  | upsert entry =>
    unfold AgentCall.prog
    rw [Prog.exec_mapErr]
    exact upsert_synced_iff hserde hs
  | heartbeat now name =>
    have hbeat := @heartbeat_synced name now d _ hs
    refine iff_of_true ?_ trivial
    show Synced ((LocalGateway.heartbeat now name).exec d).2
    rw [LocalGateway.heartbeat, Prog.bind_eq]
    refine Prog.exec_bind_state ?_ fun found d' _ hd' => ?_
    · rw [Prog.exec_mapErr]
      exact hbeat
    · cases found <;> exact hd'
  | setSoul name content force =>
    unfold AgentCall.prog
    rw [Prog.exec_mapErr]
    exact setSoul_synced_iff hs
  | appendMemory name content => exact iff_of_true ((exec_appendMemory name content d).synced_iff.2 hs) trivial
  | startUp seeds now => exact hc.elim

/-! ## Every run -/

/-- A call that was made, and the directory it found. -/
structure AgentCall.Made where
  call : AgentCall
  before : Directory

/-- Calls one after the other, with the states on the way. Between them anything may happen that does not write
the agents or the cache. -/
inductive DirectoryRun (d₀ : Directory) : List AgentCall.Made → List Directory → Directory → Prop
  | nil : DirectoryRun d₀ [] [d₀] d₀
  | idle {h : List AgentCall.Made} {ds : List Directory} {d d' : Directory} :
      DirectoryRun d₀ h ds d → Untouched d d' → DirectoryRun d₀ h (ds ++ [d']) d'
  | call {h : List AgentCall.Made} {ds : List Directory} {d : Directory} (c : AgentCall) :
      DirectoryRun d₀ h ds d → c.Ordinary → DirectoryRun d₀ (h ++ [⟨c, d⟩]) (ds ++ [(c.prog.exec d).2]) (c.prog.exec d).2

variable {h : List AgentCall.Made} {ds : List Directory} {d₀ d : Directory}

theorem DirectoryRun.mem (hs : DirectoryRun d₀ h ds d) : d ∈ ds := by
  cases hs with
  | nil => exact List.mem_singleton.2 rfl
  | _ => exact List.mem_append_right _ (List.mem_singleton.2 rfl)

/-- **A restart goes unnoticed at every moment of a run if and only if every call in it agrees.** -/
theorem restart_invisible_iff (h₀ : d₀.registry = reloadFrom d₀.world.db.agents.rows) (hrun : DirectoryRun d₀ h ds d)
    (hserde : ∀ x ∈ h, x.call.WritesReadable) :
    (∀ x ∈ ds, Invisible x) ↔ ∀ x ∈ h, x.call.Agrees x.before := by
  simp only [invisible_iff]
  induction hrun with
  | nil =>
    refine iff_of_true (fun x hx name => ?_) (by simp)
    rw [List.mem_singleton.1 hx, h₀, get_reloadFrom]
  | idle hprev hsame ih =>
    rw [List.forall_mem_append, List.forall_mem_singleton, ← ih hserde]
    exact and_iff_left_of_imp fun hall => hsame.synced_iff.2 (hall _ hprev.mem)
  | call c hprev hc ih =>
    rw [List.forall_mem_append, List.forall_mem_singleton] at hserde
    rw [List.forall_mem_append, List.forall_mem_singleton, List.forall_mem_append, List.forall_mem_singleton, ← ih hserde.1]
    exact and_congr_right fun hall => c.synced_iff hc hserde.2 (hall _ hprev.mem)

end

instance : (c : AgentCall) → Decidable c.Ordinary
  | .startUp _ _ => inferInstanceAs (Decidable False)
  | .register .. | .upsert _ | .heartbeat .. | .setSoul .. | .appendMemory .. => inferInstanceAs (Decidable True)

section
variable [SerdeStrings] (d : Directory)

instance (entry : AgentEntry) : Decidable (UpsertAgrees entry d) :=
  inferInstanceAs (Decidable (_ → (_ → ∀ r ∈ rowNamed entry.name d.world.db, _) ∧ (_ → ∃ r ∈ rowNamed entry.name d.world.db, _)))

omit [SerdeStrings] in
instance (name content : String) (force : Bool) : Decidable (SoulAgrees name content force d) :=
  inferInstanceAs (Decidable (_ → ∀ r ∈ rowNamed name d.world.db, _))

instance : (c : AgentCall) → Decidable (c.Agrees d)
  | .register .. => inferInstanceAs (Decidable (_ → UpsertAgrees _ d))
  | .upsert entry => inferInstanceAs (Decidable (UpsertAgrees entry d))
  | .setSoul name content force => inferInstanceAs (Decidable (SoulAgrees name content force d))
  | .heartbeat .. | .appendMemory .. | .startUp .. => inferInstanceAs (Decidable True)

instance : (c : AgentCall) → Decidable c.WritesReadable
  | .register .. | .upsert _ => inferInstanceAs (Decidable (_ = _))
  | .heartbeat .. | .setSoul .. | .appendMemory .. | .startUp .. => inferInstanceAs (Decidable True)

end

/-! ## A second registration -/

theorem seen_of_registeredAt [SerdeStrings] {d : Directory} {name a b : String} (hne : a ≠ b)
    (hcache : (d.registry.get name).map (·.registeredAt) = some a)
    (hrow : (rowNamed name d.world.db).map (·.registeredAt) = some b) : ¬ Invisible d := by
  intro h
  rw [invisible_iff.1 h name, Option.map_map] at hcache
  have hsame : (fun e : AgentEntry => e.registeredAt) ∘ entryOf = fun r : AgentRow => r.registeredAt := rfl
  rw [hsame, hrow, Option.some.injEq] at hcache
  exact hne hcache.symm

namespace DemoRestart

/-- `agent-a` at the given time. -/
def registration (now soul : String) : AgentCall :=
  .register now now ⟨"agent-a", "0.1.0", "http://agent-a:8080", ["research"], soul⟩

/-- A fresh gateway. -/
def start : Directory := ⟨.fresh, ∅⟩

@[reducible] def serde : SerdeStrings := .recorded [(["research"], "[\"research\"]")]

/-- The soul is set with the first registration; what `set_soul` brings later is ignored. -/
def quiet : List AgentCall :=
  [registration "2026-01-01T00:00:00Z" "role = 'researcher'", .heartbeat "2026-01-01T00:01:00Z" "agent-a",
    .setSoul "agent-a" "role = 'writer'" false]

/-- The agent starts again a day later. -/
def again : List AgentCall := [registration "2026-01-01T00:00:00Z" "", registration "2026-01-02T00:00:00Z" ""]

section
variable [SerdeStrings]

/-- The calls, one after the other. -/
def perform : List AgentCall → Directory → List AgentCall.Made × List Directory × Directory
  | [], d => ([], [], d)
  | c :: cs, d =>
    let d' := (c.prog.exec d).2
    (⟨c, d⟩ :: (perform cs d').1, d' :: (perform cs d').2.1, (perform cs d').2.2)

theorem run_perform {d₀ : Directory} (cs : List AgentCall) (hcs : ∀ c ∈ cs, c.Ordinary) :
    ∀ {h : List AgentCall.Made} {ds : List Directory} {d : Directory}, DirectoryRun d₀ h ds d →
      DirectoryRun d₀ (h ++ (perform cs d).1) (ds ++ (perform cs d).2.1) (perform cs d).2.2 := by
  induction cs with
  | nil =>
    intro h ds d hrun
    rw [perform, List.append_nil, List.append_nil]
    exact hrun
  | cons c cs ih =>
    intro h ds d hrun
    rw [List.forall_mem_cons] at hcs
    have hrest := ih hcs.2 (hrun.call c hcs.1)
    rw [List.append_assoc, List.append_assoc] at hrest
    exact hrest

end

theorem quiet_agrees : letI := serde
    (perform quiet start).1.length = 3 ∧ (∀ x ∈ (perform quiet start).1, x.call.WritesReadable) ∧
      ∀ x ∈ (perform quiet start).1, x.call.Agrees x.before := by
  decide +kernel

theorem again_differs : letI := serde
    (∀ x ∈ (perform again start).1, x.call.WritesReadable ∧ x.before.world.faults = []) ∧
      ((perform again start).2.2.registry.get "agent-a").map (·.registeredAt) = some "2026-01-02T00:00:00Z" ∧
      (rowNamed "agent-a" (perform again start).2.2.world.db).map (·.registeredAt) = some "2026-01-01T00:00:00Z" := by
  decide +kernel

end DemoRestart

theorem restart_invisible_demo : letI := DemoRestart.serde
    ∃ h ds d, h.length = 3 ∧ DirectoryRun DemoRestart.start h ds d ∧ ∀ x ∈ ds, Invisible x := by
  let := DemoRestart.serde
  obtain ⟨hlength, hreadable, hagrees⟩ := DemoRestart.quiet_agrees
  have hrun := DemoRestart.run_perform DemoRestart.quiet (by decide) (@DirectoryRun.nil _ DemoRestart.start)
  exact ⟨_, _, _, hlength, hrun, (restart_invisible_iff rfl hrun hreadable).2 hagrees⟩

/-- **The cache has the time of the second registration, the table and every registry to come that of the first.** -/
theorem restart_seen : letI := DemoRestart.serde
    ∃ h ds d, DirectoryRun DemoRestart.start h ds d ∧
      DemoRestart.start.registry = reloadFrom DemoRestart.start.world.db.agents.rows ∧
      (∀ x ∈ h, x.call.WritesReadable ∧ x.before.world.faults = []) ∧ ¬ ∀ x ∈ ds, Invisible x := by
  let := DemoRestart.serde
  obtain ⟨hcalls, hcache, hrow⟩ := DemoRestart.again_differs
  have hrun := DemoRestart.run_perform DemoRestart.again (by decide) (@DirectoryRun.nil _ DemoRestart.start)
  rw [List.nil_append] at hrun
  exact ⟨_, _, _, hrun, rfl, hcalls, fun hall => seen_of_registeredAt (by decide) hcache hrow (hall _ hrun.mem)⟩

end A2AGateway
