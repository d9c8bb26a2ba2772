import A2AGateway.ContextBuilder
import A2AGateway.Contributions
import A2AGateway.FileSync
import A2AGateway.FinishedTodos
import A2AGateway.Groups
import A2AGateway.Lib.Lasting
import A2AGateway.MemoryFacts
import A2AGateway.SyncDaemon

/-!
# What is stored, and what one statement may do to it (`migrations/*.sql`)

No routine of the gateway has a `DELETE`, and its `UPDATE`s and upserts rewrite few columns. `Row` is what lasts of a
row: the columns that no statement sets a second time. `Frame may fresh` says of a step that nothing of this has been
lost or moved, that what has been added is `fresh`, and that only the tables in `may` have changed at all. Every
routine goes along such a frame (`frames_*`), with its own tables and rows.
-/

namespace A2AGateway

open Gw

/-! ## The tables -/

inductive TableName
  | projects
  | objects
  | snapshots
  | projectHeads
  | agents
  | memories
  | todos
  | projectTodos
  | taskLog
  | peerCursorState
  | groups
  | groupMembers
  | groupProjects
  | invites
  | contributionProposals
  | contributionVotes
  | memoryFacts
deriving DecidableEq

@[reducible] def TableName.Columns : TableName → Type
  | projects => Project
  | objects => ObjectRow
  | snapshots => Snapshot
  | projectHeads => ProjectHead
  | agents => AgentRow
  | memories => MemoryRow
  | todos => Todo
  | projectTodos => ProjectTodo
  | taskLog => LogRow
  | peerCursorState => PeerCursor
  | groups => Group
  | groupMembers => GroupMember
  | groupProjects => GroupProject
  | invites => Invite
  | contributionProposals => Proposal
  | contributionVotes => Vote
  | memoryFacts => MemoryFactRow

instance TableName.constraints : (t : TableName) → Constraints t.Columns
  | projects => inferInstanceAs (Constraints Project)
  | objects => inferInstanceAs (Constraints ObjectRow)
  | snapshots => inferInstanceAs (Constraints Snapshot)
  | projectHeads => inferInstanceAs (Constraints ProjectHead)
  | agents => inferInstanceAs (Constraints AgentRow)
  | memories => inferInstanceAs (Constraints MemoryRow)
  | todos => inferInstanceAs (Constraints Todo)
  | projectTodos => inferInstanceAs (Constraints ProjectTodo)
  | taskLog => inferInstanceAs (Constraints LogRow)
  | peerCursorState => inferInstanceAs (Constraints PeerCursor)
  | groups => inferInstanceAs (Constraints Group)
  | groupMembers => inferInstanceAs (Constraints GroupMember)
  | groupProjects => inferInstanceAs (Constraints GroupProject)
  | invites => inferInstanceAs (Constraints Invite)
  | contributionProposals => inferInstanceAs (Constraints Proposal)
  | contributionVotes => inferInstanceAs (Constraints Vote)
  | memoryFacts => inferInstanceAs (Constraints MemoryFactRow)

def Db.table (db : Db) : (t : TableName) → Table t.Columns
  | .projects => db.projects
  | .objects => db.objects
  | .snapshots => db.snapshots
  | .projectHeads => db.projectHeads
  | .agents => db.agents
  | .memories => db.memories
  | .todos => db.todos
  | .projectTodos => db.projectTodos
  | .taskLog => db.taskLog
  | .peerCursorState => db.peerCursorState
  | .groups => db.groups
  | .groupMembers => db.groupMembers
  | .groupProjects => db.groupProjects
  | .invites => db.invites
  | .contributionProposals => db.contributionProposals
  | .contributionVotes => db.contributionVotes
  | .memoryFacts => db.memoryFacts

def Db.put (db : Db) : (t : TableName) → Table t.Columns → Db
  | .projects, projects => { db with projects }
  | .objects, objects => { db with objects }
  | .snapshots, snapshots => { db with snapshots }
  | .projectHeads, projectHeads => { db with projectHeads }
  | .agents, agents => { db with agents }
  | .memories, memories => { db with memories }
  | .todos, todos => { db with todos }
  | .projectTodos, projectTodos => { db with projectTodos }
  | .taskLog, taskLog => { db with taskLog }
  | .peerCursorState, peerCursorState => { db with peerCursorState }
  | .groups, groups => { db with groups }
  | .groupMembers, groupMembers => { db with groupMembers }
  | .groupProjects, groupProjects => { db with groupProjects }
  | .invites, invites => { db with invites }
  | .contributionProposals, contributionProposals => { db with contributionProposals }
  | .contributionVotes, contributionVotes => { db with contributionVotes }
  | .memoryFacts, memoryFacts => { db with memoryFacts }

@[simp] theorem Db.table_put_self (db : Db) (t : TableName) (rows : Table t.Columns) : (db.put t rows).table t = rows := by
  cases t <;> rfl

theorem Db.table_put_of_ne {t t' : TableName} (h : t' ≠ t) (db : Db) (rows : Table t.Columns) :
    (db.put t rows).table t' = db.table t' := by
  cases t <;> cases t' <;> first | rfl | exact absurd rfl h

theorem Db.engine_put (t : TableName) (db : Db) (rows : Table t.Columns) : (db.put t rows).engine = db.engine := by
  cases t <;> rfl

@[simp] theorem Db.put_table (db : Db) (t : TableName) : db.put t (db.table t) = db := by
  cases t <;> rfl

/-! ## What lasts -/

/-- The columns that no statement rewrites. -/
inductive Row
  | project (id name repoUrl description : String) (createdAt : F64) (originGateway peerGateway peerProjectId : String)
  | object (r : ObjectRow)
  | snapshot (s : Snapshot)
  | projectHead (projectId : String)
  | agent (name registeredAt : String)
  | memory (agentName : String)
  | todo (id : Int) (agentName task createdAt : String)
  | projectTodo (r : ProjectTodo)
  | log (r : LogRow)
  | peerCursor (peerName projectId : String)
  | group (g : Group)
  | groupMember (m : GroupMember)
  | groupProject (p : GroupProject)
  | invite (token groupId createdBy : String) (createdAt expiresAt : F64)
  | proposal (id projectId proposerGateway proposerAgent snapshotId description : String) (gatewayCount : Int)
      (createdAt : F64)
  | vote (v : Vote)
  | fact (id : Int) (agentName : String) (projectId : Option String) (topic content : String) (createdAt validFrom : F64)
deriving DecidableEq

def TableName.lasting : (t : TableName) → t.Columns → Row
  | projects => fun p =>
    .project p.id p.name p.repoUrl p.description p.createdAt p.originGateway p.peerGateway p.peerProjectId
  | objects => .object
  | snapshots => .snapshot
  | projectHeads => fun h => .projectHead h.projectId
  | agents => fun a => .agent a.name a.registeredAt
  | memories => fun m => .memory m.agentName
  | todos => fun t => .todo t.id t.agentName t.task t.createdAt
  | projectTodos => .projectTodo
  | taskLog => .log
  | peerCursorState => fun c => .peerCursor c.peerName c.projectId
  | groups => .group
  | groupMembers => .groupMember
  | groupProjects => .groupProject
  | invites => fun i => .invite i.token i.groupId i.createdBy i.createdAt i.expiresAt
  | contributionProposals => fun p =>
    .proposal p.id p.projectId p.proposerGateway p.proposerAgent p.snapshotId p.description p.gatewayCount p.createdAt
  | contributionVotes => .vote
  | memoryFacts => fun f => .fact f.id f.agentName f.projectId f.topic f.content f.createdAt f.validFrom

/-- What lasts of the rows of a table, in their order. -/
def Db.lasting (db : Db) (t : TableName) : List Row := (db.table t).rows.map t.lasting

theorem Db.lasting_put_self (db : Db) (t : TableName) (rows : Table t.Columns) :
    (db.put t rows).lasting t = rows.rows.map t.lasting := by
  rw [lasting, table_put_self]

theorem Db.lasting_put_of_ne {t t' : TableName} (h : t' ≠ t) (db : Db) (rows : Table t.Columns) :
    (db.put t rows).lasting t' = db.lasting t' := by
  rw [lasting, table_put_of_ne h]
  rfl

/-- What the row references is there. -/
def Refers (db : Db) : Row → Prop
  | .snapshot s => db.hasProject s.projectId = true
  | .projectHead projectId => db.hasProject projectId = true
  | .memory agentName => db.hasAgent agentName = true
  | .todo _ agentName _ _ => db.hasAgent agentName = true
  | .log r => db.hasProject r.projectId = true ∧ db.hasTodo r.todoId = true
  | .groupMember m => db.hasGroup m.groupId = true
  | .groupProject p => db.hasGroup p.groupId = true ∧ db.hasProject p.projectId = true
  | .invite _ groupId _ _ _ => db.hasGroup groupId = true
  | .proposal _ projectId _ _ snapshotId _ _ _ => db.hasProject projectId = true ∧ db.hasSnapshot snapshotId = true
  | .vote v => db.hasProposal v.proposalId = true
  | .fact _ agentName _ _ _ _ _ => db.hasAgent agentName = true
  | _ => True

section
variable {db db' : Db} (hrows : ∀ t, ∀ r ∈ db.lasting t, r ∈ db'.lasting t)
include hrows

/-- What is found by columns that last is found for ever. -/
theorem any_of_lasting {t : TableName} {key : t.Columns → Bool} (hkey : ∀ a b, t.lasting a = t.lasting b → key a = key b)
    (h : (db.table t).rows.any key = true) : (db'.table t).rows.any key = true := by
  obtain ⟨a, ha, hk⟩ := List.any_eq_true.1 h
  obtain ⟨b, hb, hlast⟩ := List.mem_map.1 (hrows t _ (List.mem_map_of_mem ha))
  refine List.any_eq_true.2 ⟨b, hb, ?_⟩
  rw [hkey b a hlast, hk]

theorem hasProject_of_lasting {id : String} (h : db.hasProject id = true) : db'.hasProject id = true := by
  refine any_of_lasting hrows (t := .projects) (fun a b hlast => ?_) h
  injection hlast with hid
  rw [hid]

theorem hasSnapshot_of_lasting {id : String} (h : db.hasSnapshot id = true) : db'.hasSnapshot id = true := by
  refine any_of_lasting hrows (t := .snapshots) (fun a b hlast => ?_) h
  injection hlast with hsame
  rw [hsame]

theorem hasAgent_of_lasting {name : String} (h : db.hasAgent name = true) : db'.hasAgent name = true := by
  refine any_of_lasting hrows (t := .agents) (fun a b hlast => ?_) h
  injection hlast with hname
  rw [hname]

theorem hasGroup_of_lasting {id : String} (h : db.hasGroup id = true) : db'.hasGroup id = true := by
  refine any_of_lasting hrows (t := .groups) (fun a b hlast => ?_) h
  injection hlast with hsame
  rw [hsame]

theorem hasProposal_of_lasting {id : String} (h : db.hasProposal id = true) : db'.hasProposal id = true := by
  refine any_of_lasting hrows (t := .contributionProposals) (fun a b hlast => ?_) h
  injection hlast with hid
  rw [hid]

theorem hasTodo_of_lasting {id : Option Int} (h : db.hasTodo id = true) : db'.hasTodo id = true := by
  cases id with
  | none => rfl
  | some id =>
    refine any_of_lasting hrows (t := .todos) (fun a b hlast => ?_) h
    injection hlast with hid
    rw [hid]

theorem Refers.of_lasting {r : Row} (h : Refers db r) : Refers db' r := by
  cases r with
  | snapshot s => exact hasProject_of_lasting hrows h
  | projectHead projectId => exact hasProject_of_lasting hrows h
  | memory agentName => exact hasAgent_of_lasting hrows h
  | todo id agentName task createdAt => exact hasAgent_of_lasting hrows h
  | log r => exact ⟨hasProject_of_lasting hrows h.1, hasTodo_of_lasting hrows h.2⟩
  | groupMember m => exact hasGroup_of_lasting hrows h
  | groupProject p => exact ⟨hasGroup_of_lasting hrows h.1, hasProject_of_lasting hrows h.2⟩
  | invite token groupId createdBy createdAt expiresAt => exact hasGroup_of_lasting hrows h
  | proposal id projectId gateway agent snapshotId description count createdAt =>
    exact ⟨hasProject_of_lasting hrows h.1, hasSnapshot_of_lasting hrows h.2⟩
  | vote v => exact hasProposal_of_lasting hrows h
  | fact id agentName projectId topic content createdAt validFrom => exact hasAgent_of_lasting hrows h
  | project | object | agent | projectTodo | peerCursor | group => trivial

end

/-! ## One statement -/

/-- The statement has written at most the one table and lost nothing of it; what it has added is fresh and references
what is there. -/
def Puts (fresh : Row → Prop) (t : TableName) (db db' : Db) : Prop :=
  ∃ rows, db' = db.put t rows ∧ Grows (fun r => fresh r ∧ Refers db r) (db.lasting t) (rows.rows.map t.lasting)

section
variable {fresh : Row → Prop} {t : TableName} {db : Db}

theorem Puts.refl : Puts fresh t db db := ⟨db.table t, (db.put_table t).symm, Grows.refl _⟩

theorem Puts.insert {r : t.Columns} {rows : Table t.Columns} (h : (db.table t).insert r = some rows)
    (hfresh : fresh (t.lasting r)) (hrefers : Refers db (t.lasting r)) : Puts fresh t db (db.put t rows) :=
  ⟨rows, rfl, Table.grows_insert h ⟨hfresh, hrefers⟩⟩

theorem Puts.insertIgnore {r : t.Columns} (hfresh : fresh (t.lasting r)) (hrefers : Refers db (t.lasting r)) :
    Puts fresh t db (db.put t ((db.table t).insertIgnore r)) := ⟨_, rfl, Table.grows_insertIgnore ⟨hfresh, hrefers⟩⟩

theorem Puts.update {p : t.Columns → Bool} {f : t.Columns → t.Columns}
    {hf : ∀ a b, Constraints.clash (f a) b = Constraints.clash a b} (hlast : ∀ a, t.lasting (f a) = t.lasting a) :
    Puts fresh t db (db.put t ((db.table t).update p f hf)) := ⟨_, rfl, Table.grows_update hlast⟩

theorem Puts.upsert {r : t.Columns} {f : t.Columns → t.Columns}
    {hf : ∀ a b, Constraints.clash (f a) b = Constraints.clash a b} (hlast : ∀ a, t.lasting (f a) = t.lasting a)
    (hfresh : fresh (t.lasting r)) (hrefers : Refers db (t.lasting r)) :
    Puts fresh t db (db.put t ((db.table t).upsert r f hf)) := ⟨_, rfl, Table.grows_upsert hlast ⟨hfresh, hrefers⟩⟩

end

/-! ## Frames -/

/-- Nothing has been lost or moved; what has been added is fresh and references what is there; only these tables have
changed, and columns are decoded as before. The object files belong to the table `objects`. -/
structure Frame (may : TableName → Prop) (fresh : Row → Prop) (w w' : World) : Prop where
  rows : ∀ t, Grows (fun r => fresh r ∧ Refers w'.db r) (w.db.lasting t) (w'.db.lasting t)
  others : ∀ t, ¬ may t → w'.db.table t = w.db.table t
  files : ¬ may .objects → w'.disk = w.disk
  engine : w'.db.engine = w.db.engine

section
variable {may may' : TableName → Prop} {fresh fresh' : Row → Prop}

theorem Frame.of_same {w w' : World} (h : SameStored w w') : Frame may fresh w w' := by
  have hdb : w'.db = w.db := congrArg Prod.fst h
  have hdisk : w'.disk = w.disk := congrArg Prod.snd h
  refine ⟨fun t => ?_, fun t _ => ?_, fun _ => hdisk, by rw [hdb]⟩
  · rw [hdb]
    exact Grows.refl _
  · rw [hdb]

theorem Frame.refl (w : World) : Frame may fresh w w := .of_same (SameStored.refl w)

theorem Frame.tick (w : World) : Frame may fresh w w.tick := .of_same (SameStored.tick w)

theorem Frame.trans (a b c : World) (h : Frame may fresh a b) (h' : Frame may fresh b c) : Frame may fresh a c where
  rows t := by
    have hkept : ∀ t, ∀ r ∈ b.db.lasting t, r ∈ c.db.lasting t := fun t => (h'.rows t).subset
    refine ((h.rows t).mono fun r hr => ?_).trans (h'.rows t)
    exact ⟨hr.1, hr.2.of_lasting hkept⟩
  others t ht := (h'.others t ht).trans (h.others t ht)
  files ho := (h'.files ho).trans (h.files ho)
  engine := h'.engine.trans h.engine

theorem Frame.mono (hmay : ∀ t, may t → may' t) (hfresh : ∀ r, fresh r → fresh' r) {w w' : World}
    (h : Frame may fresh w w') : Frame may' fresh' w w' where
  rows t := (h.rows t).mono fun r hr => ⟨hfresh r hr.1, hr.2⟩
  others t ht := h.others t fun hm => ht (hmay t hm)
  files ho := h.files fun hm => ho (hmay _ hm)
  engine := h.engine

theorem Frame.put {t : TableName} (ht : may t) {w : World} {db : Db} (h : Puts fresh t w.db db) :
    Frame may fresh w { w.tick with db } := by
  obtain ⟨rows, rfl, hgrows⟩ := h
  have hkept : ∀ t', ∀ r ∈ w.db.lasting t', r ∈ (w.db.put t rows).lasting t' := by
    intro t'
    by_cases hsame : t' = t
    · subst hsame
      rw [Db.lasting_put_self]
      exact hgrows.subset
    · rw [Db.lasting_put_of_ne hsame]
      exact fun _ hr => hr
  refine ⟨fun t' => ?_, fun t' ht' => ?_, fun _ => rfl, Db.engine_put t _ _⟩
  · show Grows _ (w.db.lasting t') ((w.db.put t rows).lasting t')
    by_cases hsame : t' = t
    · subst hsame
      rw [Db.lasting_put_self]
      exact hgrows.mono fun r hr => ⟨hr.1, hr.2.of_lasting hkept⟩
    · rw [Db.lasting_put_of_ne hsame]
      exact Grows.refl _
  · refine Db.table_put_of_ne (fun hsame => ht' ?_) _ _
    rw [hsame]
    exact ht

/-- A statement on one of the tables. -/
theorem frames_execute {t : TableName} (ht : may t) {e : Err} {f : F64 → Db → Option Db}
    (h : ∀ now db db', f now db = some db' → Puts fresh t db db') : (execute e f).Moves (Frame may fresh) :=
  moves_execute .tick fun _ _ hdb => .put ht (h _ _ _ hdb)

theorem frames_statement {α : Type} {t : TableName} (ht : may t) {e : Err} {f : F64 → Db → Option (α × Db)}
    (h : ∀ now db a db', f now db = some (a, db') → Puts fresh t db db') : (statement e f).Moves (Frame may fresh) :=
  moves_statement .tick fun _ _ _ hdb => .put ht (h _ _ _ _ hdb)

theorem frames_insertReturning {α : Type} {t : TableName} (ht : may t) {e : Err} {f : F64 → Db → Option (α × Db)}
    (h : ∀ now db a db', f now db = some (a, db') → Puts fresh t db db') : (insertReturning e f).Moves (Frame may fresh) :=
  moves_insertReturning .tick fun _ _ _ hdb => .put ht (h _ _ _ _ hdb)

theorem frames_query {α : Type} {e : Err} {f : Db → α} : (query e f).Moves (Frame may fresh) := moves_query .tick

theorem frames_fetch {α : Type} {e : Err} {f : Db → Option α} : (fetch e f).Moves (Frame may fresh) := moves_fetch .tick

theorem frames_ioRead {α : Type} {e : Err} {f : World → α} : (ioRead e f).Moves (Frame may fresh) := moves_ioRead .tick

theorem frames_nowSecs : nowSecs.Moves (Frame may fresh) := Prog.moves_look .refl _

/-! ## The routines -/

/-! ### Projects -/

theorem frames_updateProjects (ht : may .projects) {e : Err} {id : String} {f : Project → Project}
    {hf : ∀ a b, Constraints.clash (f a) b = Constraints.clash a b}
    (hlast : ∀ p, TableName.projects.lasting (f p) = TableName.projects.lasting p) :
    (execute e fun _ db => some { db with projects := db.projects.update (·.id == id) f hf }).Moves (Frame may fresh) := by
  refine frames_execute ht fun _ db db' hdb => ?_
  cases hdb
  have hputs : Puts fresh .projects db (db.put .projects (db.projects.update (·.id == id) f hf)) := Puts.update hlast
  exact hputs

namespace Projects

theorem frames_get (id : String) : (get id).Moves (Frame may fresh) := frames_fetch

theorem frames_create (ht : may .projects) {id : Uuid} {name repoUrl description origin peer peerId : String}
    (hfresh : ∀ now, fresh (.project id.text name repoUrl description now origin peer peerId)) :
    (create id name repoUrl description origin peer peerId).Moves (Frame may fresh) := by
  unfold create
  refine frames_nowSecs.bind fun now => Prog.Moves.bind ?_ fun _ => (frames_get _).bind fun _ => moves_orThrow
  refine frames_execute ht fun _ db db' hdb => ?_
  obtain ⟨rows, hrows, rfl⟩ := Option.map_eq_some_iff.1 hdb
  exact Puts.insert (t := .projects) hrows (hfresh now) trivial

theorem frames_setFolderPath (ht : may .projects) (id path : String) :
    (setFolderPath id path).Moves (Frame may fresh) := by
  refine moves_setFolderPath .tick fun w dir => Frame.put ht ?_
  exact Puts.update (t := .projects) fun _ => rfl

theorem frames_setFileGlob (ht : may .projects) (id glob : String) : (setFileGlob id glob).Moves (Frame may fresh) :=
  frames_updateProjects ht fun _ => rfl

theorem frames_setOnboardingStep (ht : may .projects) (id : String) (step : Option String) :
    (setOnboardingStep id step).Moves (Frame may fresh) :=
  frames_updateProjects ht fun _ => rfl

theorem frames_setActive (ht : may .projects) (id : String) (active : Bool) :
    (setActive id active).Moves (Frame may fresh) :=
  frames_updateProjects ht fun _ => rfl

theorem frames_setVisibility (ht : may .projects) (id : String) (next : Visibility) :
    (setVisibility id next).Moves (Frame may fresh) := by
  unfold setVisibility
  refine (frames_get id).bind fun _ => moves_orThrow.bind fun project => ?_
  split
  · trivial
  · split
    · exact frames_updateProjects ht fun _ => rfl
    · trivial

end Projects

/-! ### Files and snapshots -/

namespace ObjectStore

theorem frames_put [Sha256] (ht : may .objects) (content : Bytes)
    (hfresh : fresh (.object ⟨Sha256.sha256Hex content, content.length⟩)) : (put content).Moves (Frame may fresh) := by
  unfold put existsDb
  refine frames_query.bind fun there => ?_
  split
  · trivial
  · refine moves_orThrow.bind fun path => frames_ioRead.bind fun _ => Prog.Moves.bind ?_ fun _ => Prog.Moves.bind ?_ fun _ => trivial
    · exact moves_ioWrite fun w o => ⟨fun t => Grows.refl _, fun _ _ => rfl, fun ho => absurd ht ho, rfl⟩
    · refine frames_execute ht fun _ db db' hdb => ?_
      unfold insertObject at hdb
      split at hdb <;> cases hdb
      exact Puts.insertIgnore (t := .objects) hfresh trivial

/-- A scan takes the state where its `put`s do. -/
theorem moves_scan_along [Sha256] {R : World → World → Prop} (ht : ∀ w, R w w.tick) (hput : ∀ content, (put content).Moves R)
    (glob : String) (l : Listing) : ∀ (dir : String) (out : List TranscriptEntry),
      (scanDirRecursive glob dir l out).Moves R := by
  induction l with
  | done =>
    intro dir out
    simp only [scanDirRecursive, Prog.bind_eq]
    exact (moves_ioRead ht).bind fun _ => trivial
  | file name content mtime rest ih =>
    intro dir out
    simp only [scanDirRecursive, Prog.bind_eq]
    refine (moves_ioRead ht).bind fun _ => (moves_ioRead ht).bind fun _ => ?_
    split
    · exact (moves_ioRead ht).bind fun _ => (hput content).bind fun _ => ih _ _
    · exact ih _ _
  | dir name sub rest ihsub ih =>
    intro dir out
    simp only [scanDirRecursive, Prog.bind_eq]
    refine (moves_ioRead ht).bind fun _ => (moves_ioRead ht).bind fun _ => (moves_ioRead ht).bind fun _ => ?_
    exact (ihsub _ _).bind fun _ => ih _ _
  | other name rest ih =>
    intro dir out
    simp only [scanDirRecursive, Prog.bind_eq]
    exact (moves_ioRead ht).bind fun _ => (moves_ioRead ht).bind fun _ => ih _ _

end ObjectStore

namespace FileSync

theorem puts_insertSnapshot {snap : Snapshot} {db db' : Db} (hfresh : fresh (.snapshot snap))
    (h : insertSnapshot snap db = some db') : Puts fresh .snapshots db db' := by
  unfold insertSnapshot at h
  split at h
  · rename_i hproject
    obtain ⟨rows, hrows, rfl⟩ := Option.map_eq_some_iff.1 h
    exact Puts.insert (t := .snapshots) hrows hfresh hproject
  · cases h

theorem puts_upsertHead {projectId snapId : String} {db db' : Db} (hfresh : fresh (.projectHead projectId))
    (h : upsertHead projectId snapId db = some db') : Puts fresh .projectHeads db db' := by
  unfold upsertHead at h
  split at h
  · rename_i hthere
    cases h
    rw [Bool.and_eq_true] at hthere
    exact Puts.upsert (t := .projectHeads) (fun _ => rfl) hfresh hthere.1
  · cases h

section
variable (hs : may .snapshots) (hh : may .projectHeads) {projectId : String} (hhead : fresh (.projectHead projectId))
include hs hh hhead

theorem frames_applyPeerSnapshot {snapId transcript fromGateway : String}
    (hsnap : ∀ now, fresh (.snapshot ⟨snapId, projectId, fromGateway, transcript, now⟩)) :
    (applyPeerSnapshot projectId snapId transcript fromGateway).Moves (Frame may fresh) :=
  moves_applyPeerSnapshot .refl .tick (fun _ now _ hdb => .put hs (puts_insertSnapshot (hsnap now) hdb))
    fun _ _ hdb => .put hh (puts_upsertHead hhead hdb)

theorem frames_recordScan [Sha256] {gateway transcript : String}
    (hsnap : ∀ now, fresh (.snapshot ⟨transcriptId transcript, projectId, gateway, transcript, now⟩)) :
    (recordScan gateway projectId transcript).Moves (Frame may fresh) := by
  unfold recordScan getSnapshot writeSnapshot advanceHead
  refine frames_query.bind fun existing => ?_
  split
  · exact frames_query
  · refine Prog.Moves.bind (frames_nowSecs.bind fun now => ?_) fun _ => Prog.Moves.bind ?_ fun _ => trivial
    · exact (frames_execute hs fun _ _ _ hdb => puts_insertSnapshot (hsnap now) hdb).bind fun _ => trivial
    · exact frames_execute hh fun _ _ _ hdb => puts_upsertHead hhead hdb

theorem frames_scanAndSnapshot [Sha256] (ho : may .objects) {gateway : String}
    (hobject : ∀ content : Bytes, fresh (.object ⟨Sha256.sha256Hex content, content.length⟩))
    (hsnap : ∀ transcript now, fresh (.snapshot ⟨transcriptId transcript, projectId, gateway, transcript, now⟩)) :
    (scanAndSnapshot gateway projectId).Moves (Frame may fresh) := by
  unfold scanAndSnapshot ObjectStore.scanDirectory
  refine (Projects.frames_get projectId).bind fun _ => moves_orThrow.bind fun project => ?_
  split
  · trivial
  · refine frames_ioRead.attempt.bind fun there => ?_
    split
    · refine Prog.Moves.bind (frames_ioRead.bind fun _ => moves_orThrow.bind fun listing => ?_) fun entries => ?_
      · exact ObjectStore.moves_scan_along .tick (fun content => ObjectStore.frames_put ho content (hobject content)) _ _ _ _
      · exact frames_recordScan hs hh hhead (hsnap _)
    · trivial

end

end FileSync

/-! ### The task log -/

namespace TaskLog

theorem puts_insertRow {row : LogRow} {db db' : Db} (hfresh : fresh (.log row)) (h : insertRow row db = some db') :
    Puts fresh .taskLog db db' := by
  unfold insertRow at h
  split at h
  · rename_i hthere
    simp only [Bool.and_eq_true] at hthere
    obtain ⟨rows, hrows, rfl⟩ := Option.map_eq_some_iff.1 h
    exact Puts.insert (t := .taskLog) hrows hfresh ⟨hthere.1.2, hthere.2⟩
  · cases h

theorem frames_appendWithStatus [HmacSha256] (ht : may .taskLog) {secret : Bytes} {id : Uuid}
    {projectId gatewayName agentName : String} {entryType : EntryType} {content : String} {todoId : Option Int}
    {taskStatus : Option TaskStatus} {validTo : Option F64}
    (hfresh : ∀ r : LogRow, r.gatewayName = gatewayName → Signed secret r → fresh (.log r)) :
    (appendWithStatus secret id projectId gatewayName agentName entryType content todoId taskStatus validTo).Moves
      (Frame may fresh) := by
  unfold appendWithStatus
  refine frames_nowSecs.bind fun now => Prog.Moves.bind ?_ fun _ => trivial
  refine frames_insertReturning ht fun _ db cursor db' hdb => ?_
  obtain ⟨db₁, hins, hpair⟩ := Option.map_eq_some_iff.1 hdb
  cases hpair
  refine puts_insertRow (hfresh _ ?_ ?_) hins
  · rfl
  · rfl

theorem frames_insertPeerEntry (ht : may .taskLog) {projectId source : String} {e : LogEntry}
    (hfresh : fresh (.log (e.toRow projectId))) : (insertPeerEntry projectId e source).Moves (Frame may fresh) := by
  refine frames_execute ht fun _ db db' hdb => ?_
  rcases insertRowIgnore_eq_some hdb with ⟨-, rfl⟩ | hins
  · exact Puts.refl
  · exact puts_insertRow hfresh hins

end TaskLog

theorem PeerSync.frames_updatePeerCursor (ht : may .peerCursorState) {peerName projectId : String}
    (hfresh : fresh (.peerCursor peerName projectId)) (cursor : Int) :
    (updatePeerCursor peerName projectId cursor).Moves (Frame may fresh) := by
  refine frames_execute ht fun _ db db' hdb => ?_
  cases hdb
  exact Puts.upsert (t := .peerCursorState) (fun _ => rfl) hfresh trivial

/-! ### Agents and todos -/

namespace Registry

theorem frames_upsert [SerdeStrings] (ha : may .agents) (hm : may .memories) {entry : AgentEntry}
    (hagent : fresh (.agent entry.name entry.registeredAt)) (hmemory : fresh (.memory entry.name))
    {R : Directory → Directory → Prop} (hR : ∀ d w, Frame may fresh d.world w → R d { d with world := w })
    (htouch : ∀ d, R d { d with registry := d.registry.insert entry.name entry }) : (upsert entry).Moves R := by
  unfold upsert
  refine Prog.Moves.bind (Prog.Moves.within_of hR ?_) fun _ => Prog.Moves.bind (Prog.Moves.within_of hR ?_) fun _ => ?_
  · refine frames_execute ha fun _ db db' hdb => ?_
    obtain ⟨soul, -, heq⟩ := upsertRow_eq (rowOf entry) db
    rw [heq] at hdb
    cases hdb
    exact Puts.upsert (t := .agents) (fun _ => rfl) hagent trivial
  · refine frames_execute hm fun _ db db' hdb => ?_
    unfold insertMemory at hdb
    split at hdb
    · cases hdb
      exact Puts.refl
    · rename_i rows hrows
      split at hdb
      · rename_i hthere
        cases hdb
        exact Puts.insert (t := .memories) hrows hmemory hthere
      · cases hdb
  · exact ⟨htouch, fun _ => trivial⟩

end Registry

namespace IdentityStore

theorem frames_getSoul (agentName : String) : (getSoul agentName).Moves (Frame may fresh) := by
  unfold getSoul
  refine frames_query.bind fun soul => ?_
  split <;> trivial

theorem frames_setSoul (ht : may .agents) (agentName content : String) (force : Bool) :
    (setSoul agentName content force).Moves (Frame may fresh) := by
  refine frames_execute ht fun _ db db' hdb => ?_
  cases hdb
  exact Puts.update (t := .agents) fun _ => rfl

theorem frames_appendMemory (agentName content : String) : (appendMemory agentName content).Moves (Frame may fresh) := by
  refine moves_execute .tick fun w db hdb => ?_
  rw [appendRow_eq_none] at hdb
  cases hdb

theorem frames_appendTodo (ht : may .todos) {agentName task now : String}
    (hfresh : ∀ id, fresh (.todo id agentName task now)) (skipped : Nat) :
    (appendTodo agentName task now skipped).Moves (Frame may fresh) := by
  refine frames_statement ht fun _ db id db' hdb => ?_
  simp only [insertTodo, Option.bind_eq_bind, Option.bind_eq_some_iff] at hdb
  obtain ⟨id', -, rows, hrows, hdb⟩ := hdb
  split at hdb
  · rename_i hthere
    cases hdb
    exact Puts.insert (t := .todos) hrows (hfresh id) hthere
  · cases hdb

theorem frames_completeTodo (ht : may .todos) (id : Int) (notes now : String) :
    (completeTodo id notes now).Moves (Frame may fresh) := by
  unfold completeTodo
  refine Prog.Moves.bind ?_ fun rows => ?_
  · refine frames_statement ht fun _ db _ db' hdb => ?_
    cases hdb
    exact Puts.update (t := .todos) fun _ => rfl
  · split <;> trivial

theorem frames_listTodos (agentName : String) (includeDone : Bool) :
    (listTodos agentName includeDone).Moves (Frame may fresh) := by
  unfold listTodos
  split
  · exact frames_query.bind fun _ => trivial
  · exact frames_query.bind fun _ => trivial

end IdentityStore

/-! ### Groups -/

namespace Groups

theorem frames_addMember (ht : may .groupMembers) {groupId gatewayName invitedBy : String}
    (hfresh : ∀ now, fresh (.groupMember ⟨groupId, gatewayName, now, invitedBy⟩)) :
    (addMember groupId gatewayName invitedBy).Moves (Frame may fresh) := by
  unfold addMember
  refine frames_nowSecs.bind fun now => frames_execute ht fun _ db db' hdb => ?_
  unfold insertMember at hdb
  split at hdb
  · rename_i hthere
    obtain ⟨rows, hrows, rfl⟩ := Option.map_eq_some_iff.1 hdb
    exact Puts.insert (t := .groupMembers) hrows (hfresh now) (Bool.and_eq_true_iff.1 hthere).1
  · cases hdb

theorem frames_createGroup (hg : may .groups) (hm : may .groupMembers) {id : Uuid} {name description createdBy : String}
    (hgroup : ∀ now, fresh (.group ⟨id.text, name, description, createdBy, now⟩))
    (hmember : ∀ now, fresh (.groupMember ⟨id.text, createdBy, now, createdBy⟩)) :
    (createGroup id name description createdBy).Moves (Frame may fresh) := by
  unfold createGroup
  refine frames_nowSecs.bind fun now => Prog.Moves.bind ?_ fun _ => (frames_addMember hm hmember).bind fun _ => trivial
  refine frames_execute hg fun _ db db' hdb => ?_
  obtain ⟨rows, hrows, rfl⟩ := Option.map_eq_some_iff.1 hdb
  exact Puts.insert (t := .groups) hrows (hgroup now) trivial

theorem frames_createInvite (ht : may .invites) {token groupId createdBy : String}
    (hfresh : ∀ now, fresh (.invite token groupId createdBy now (now.add inviteTtlSecs))) :
    (createInvite token groupId createdBy).Moves (Frame may fresh) := by
  unfold createInvite
  refine frames_nowSecs.bind fun now => Prog.Moves.bind ?_ fun _ => trivial
  refine frames_execute ht fun _ db db' hdb => ?_
  unfold insertInvite at hdb
  split at hdb
  · rename_i hthere
    obtain ⟨rows, hrows, rfl⟩ := Option.map_eq_some_iff.1 hdb
    exact Puts.insert (t := .invites) hrows (hfresh now) hthere
  · cases hdb

theorem frames_consumeInvite (hi : may .invites) (hm : may .groupMembers) {token joiningGateway : String}
    (hfresh : ∀ groupId now invitedBy, fresh (.groupMember ⟨groupId, joiningGateway, now, invitedBy⟩)) :
    (consumeInvite token joiningGateway).Moves (Frame may fresh) := by
  unfold consumeInvite getGroup
  refine frames_nowSecs.bind fun now => Prog.Moves.bind ?_ fun row => moves_orThrow.bind fun g => ?_
  · refine frames_statement hi fun _ db row db' hdb => ?_
    have hsame : db' = (useInvite token joiningGateway now db).2 := by rw [Option.some.inj hdb]
    rw [hsame]
    unfold useInvite
    split
    · exact Puts.update (t := .invites) fun _ => rfl
    · exact Puts.refl
  · exact (frames_addMember hm fun now => hfresh g.1 now g.2).bind fun _ => frames_query.bind fun _ => moves_orThrow

theorem frames_addProject (ht : may .groupProjects) {groupId projectId : String}
    (hfresh : ∀ now, fresh (.groupProject ⟨groupId, projectId, now⟩)) :
    (addProject groupId projectId).Moves (Frame may fresh) := by
  unfold addProject
  refine frames_nowSecs.bind fun now => frames_execute ht fun _ db db' hdb => ?_
  unfold insertGroupProject at hdb
  split at hdb
  · rename_i hthere
    rw [Bool.and_eq_true] at hthere
    cases hdb
    exact Puts.insertIgnore (t := .groupProjects) (hfresh now) hthere
  · cases hdb

end Groups

/-! ### Proposals -/

namespace Contributions

theorem frames_updateProposal (ht : may .contributionProposals) {e : Err} {id : String} {f : Proposal → Proposal}
    {hf : ∀ p, (f p).id = p.id}
    (hlast : ∀ p, TableName.contributionProposals.lasting (f p) = TableName.contributionProposals.lasting p) :
    (execute e fun _ db => some (updateProposal id f hf db)).Moves (Frame may fresh) := by
  refine frames_execute ht fun _ db db' hdb => ?_
  cases hdb
  exact Puts.update (t := .contributionProposals) hlast

theorem puts_insertProposal {p : Proposal} {db db' : Db}
    (hfresh : fresh (TableName.contributionProposals.lasting p)) (h : insertProposal p db = some db') :
    Puts fresh .contributionProposals db db' := by
  unfold insertProposal at h
  split at h
  · rename_i hthere
    simp only [Bool.and_eq_true] at hthere
    obtain ⟨rows, hrows, rfl⟩ := Option.map_eq_some_iff.1 h
    exact Puts.insert (t := .contributionProposals) hrows hfresh ⟨hthere.1.2, hthere.2⟩
  · cases h

theorem frames_open (ht : may .contributionProposals) {id : Uuid}
    {projectId gateway agent snapshotId description : String} {gatewayCount : Int}
    (hfresh : ∀ now, fresh (.proposal id.text projectId gateway agent snapshotId description gatewayCount now)) :
    («open» id projectId gateway agent snapshotId description gatewayCount).Moves (Frame may fresh) := by
  unfold «open»
  refine frames_nowSecs.bind fun now => Prog.Moves.bind ?_ fun _ => trivial
  refine frames_execute ht fun _ _ _ hdb => puts_insertProposal ?_ hdb
  exact hfresh now

section
variable (ht : may .contributionProposals)
include ht

theorem frames_resolve (id : String) (status : ProposalStatus) (resolvedBy : String) :
    (resolve id status resolvedBy).Moves (Frame may fresh) :=
  frames_nowSecs.bind fun _ => frames_updateProposal ht fun _ => rfl

theorem frames_setStatus (id : String) (status : ProposalStatus) : (setStatus id status).Moves (Frame may fresh) :=
  frames_updateProposal ht fun _ => rfl

theorem frames_acceptPr (id reviewer : String) : (acceptPr id reviewer).Moves (Frame may fresh) := by
  unfold acceptPr
  refine frames_fetch.bind fun _ => moves_orThrow.bind fun p => ?_
  split
  · trivial
  · exact (frames_setStatus ht _ _).bind fun _ => frames_resolve ht _ _ _

theorem frames_rejectPr (id reviewer : String) : (rejectPr id reviewer).Moves (Frame may fresh) := by
  unfold rejectPr
  refine frames_fetch.bind fun _ => moves_orThrow.bind fun p => ?_
  split
  · trivial
  · exact frames_resolve ht _ _ _

theorem frames_castVote (hv : may .contributionVotes) {voteId : Uuid} {id gateway agent : String} {vote : VoteKind}
    {reason : String} (hfresh : ∀ now, fresh (.vote ⟨voteId.text, id, gateway, agent, vote, reason, now⟩)) :
    (castVote voteId id gateway agent vote reason).Moves (Frame may fresh) := by
  unfold castVote checkVoteOutcome
  refine frames_fetch.bind fun _ => moves_orThrow.bind fun p => ?_
  split
  · trivial
  · refine frames_nowSecs.bind fun now => Prog.Moves.bind ?_ fun _ => frames_query.bind fun _ => moves_orThrow.bind fun sums => ?_
    · refine frames_execute hv fun _ db db' hdb => ?_
      unfold insertVote at hdb
      split at hdb
      · cases hdb
        exact Puts.refl
      · split at hdb
        · rename_i hthere
          obtain ⟨rows, hrows, rfl⟩ := Option.map_eq_some_iff.1 hdb
          exact Puts.insert (t := .contributionVotes) hrows (hfresh now) hthere
        · cases hdb
    · simp only
      split
      · exact (frames_resolve ht _ _ _).bind fun _ => trivial
      · split
        · exact (frames_resolve ht _ _ _).bind fun _ => trivial
        · trivial

end

end Contributions

/-! ### Facts and assignments -/

namespace MemoryService

theorem frames_store (ht : may .memoryFacts) {a : StoreArgs}
    (hfresh : ∀ id now, fresh (.fact id a.agentName a.projectId a.topic a.content now now)) (skipped : Nat) :
    (store a skipped).Moves (Frame may fresh) := by
  unfold store
  refine frames_nowSecs.bind fun now => Prog.Moves.bind ?_ fun _ => trivial
  refine frames_statement ht fun _ db id db' hdb => ?_
  simp only [insertFact, Option.bind_eq_bind, Option.bind_eq_some_iff] at hdb
  obtain ⟨id', -, rows, hrows, hdb⟩ := hdb
  split at hdb
  · rename_i hthere
    cases hdb
    exact Puts.insert (t := .memoryFacts) hrows (hfresh id now) hthere
  · cases hdb

theorem frames_expire (ht : may .memoryFacts) (id : Int) : (expire id).Moves (Frame may fresh) := by
  unfold expire
  refine frames_nowSecs.bind fun now => frames_execute ht fun _ db db' hdb => ?_
  cases hdb
  exact Puts.update (t := .memoryFacts) fun _ => rfl

end MemoryService

namespace Reconciler

theorem frames_upsertProjectTodo (ht : may .projectTodos) {task : String} {assignedTo : Option String}
    {status notes : String} {ids : List Int} {now : String}
    (hfresh : ∀ id, fresh (.projectTodo ⟨id, task, assignedTo, status, notes, sourceJson ids, now, now⟩)) :
    (upsertProjectTodo task assignedTo status notes ids now).Moves (Frame may fresh) := by
  refine frames_execute ht fun _ db db' hdb => ?_
  rw [insertProjectTodo_eq_some hdb]
  exact Puts.insertIgnore (t := .projectTodos) (hfresh _) trivial

section
variable [Lowercase] [SerdeStrings] {R : Board → Board → Prop}
  (hR : ∀ b w, Frame may fresh b.world w → R b { b with world := w })
  (hpublish : ∀ (b : Board) (l : List TaskAssigned), R b { b with published := l })
include hR hpublish

theorem frames_reconcileTask (ht : may .projectTodos) {now task : String}
    (hfresh : ∀ r : ProjectTodo, r.task = task → r.createdAt = now → fresh (.projectTodo r))
    (entries : List (String × Int)) (counts : Counts) : (reconcileTask now task entries counts).Moves R := by
  have hrow : ∀ assignedTo status notes ids,
      ((upsertProjectTodo task assignedTo status notes ids now).within Board.gateway).Moves R := by
    intro assignedTo status notes ids
    exact (frames_upsertProjectTodo ht fun id => hfresh _ rfl rfl).within_of hR
  match entries with
  | [] => trivial
  | [(agent, id)] =>
    refine Prog.Moves.bind (Prog.Moves.within_of hR frames_query) fun b => ?_
    split
    · exact (hrow _ _ _ _).bind fun _ => Prog.Moves.bind ⟨fun b => hpublish b _, fun _ => trivial⟩ fun _ => trivial
    · exact (hrow _ _ _ _).bind fun _ => trivial
  | first :: second :: rest => exact (hrow _ _ _ _).bind fun _ => trivial

theorem frames_reconcileAll (ht : may .projectTodos) {now : String}
    (hfresh : ∀ r : ProjectTodo, r.createdAt = now → fresh (.projectTodo r)) :
    ∀ (groups : List Group) (counts : Counts), (reconcileAll now groups counts).Moves R
  | [], _ => trivial
  | g :: gs, counts =>
    (frames_reconcileTask hR hpublish ht (fun r _ => hfresh r) g.2 counts).bind fun _ =>
      frames_reconcileAll ht hfresh gs _

theorem frames_runOnce [Collation] (ht : may .projectTodos) {now : String}
    (hfresh : ∀ r : ProjectTodo, r.createdAt = now → fresh (.projectTodo r))
    (hwrite : ∀ (b : Board) md, R b { b with world := b.world.tick, todoMd := md }) (order : Iteration) :
    (runOnce order now).Moves R := by
  unfold runOnce reconcileTodos writeTodoMd
  refine Prog.Moves.bind ?_ fun _ => (Prog.Moves.within_of hR frames_query).bind fun rows => ?_
  · exact (Prog.Moves.within_of hR frames_query).bind fun rows => frames_reconcileAll hR hpublish ht hfresh _ _
  · refine ⟨fun b => ?_, fun _ => trivial⟩
    simp only
    split
    · exact hwrite b _
    · exact hwrite b _

end

end Reconciler

/-! ### Onboarding -/

namespace Onboarding

section
variable (hp : may .projects) {m : Manager} {R : Desk → Desk → Prop}
  (hR : ∀ d w, Frame may fresh d.world w → R d { d with world := w })
  (hdesk : ∀ d d' : Desk, d'.world = d.world → R d d')
include hR

omit hR in
theorem frames_theProject (projectId : String) : (theProject projectId).Moves (Frame may fresh) :=
  (Projects.frames_get projectId).bind fun _ => moves_orThrow

theorem frames_lift {α : Type} {p : Gw α} (h : p.Moves (Frame may fresh)) : (lift p).Moves R := h.within_of hR

omit hR in
include hdesk in
theorem frames_modify {f : Desk → Desk} (hf : ∀ d, (f d).world = d.world) : (modify f).Moves R :=
  ⟨fun d => hdesk d (f d) (hf d), fun _ => trivial⟩

omit hR in
include hdesk in
theorem frames_pushNotification (message eventType : String) : (pushNotification m message eventType).Moves R := by
  refine frames_modify hdesk fun d => ?_
  split <;> rfl

omit hR in
include hdesk in
theorem frames_emitPrompt (prompt : OnboardingPrompt) : (emitPrompt m prompt).Moves R := by
  unfold emitPrompt
  refine Prog.Moves.bind ?_ fun _ => frames_pushNotification hdesk _ _
  exact frames_modify hdesk fun _ => rfl

include hdesk

theorem frames_prompt (projectId : String) (prompt : Project → F64 → OnboardingPrompt) :
    ((lift (theProject projectId)).bind fun project => (lift nowSecs).bind fun now =>
      emitPrompt m (prompt project now)).Moves R :=
  (frames_lift hR (frames_theProject _)).bind fun _ => (frames_lift hR frames_nowSecs).bind fun _ =>
    frames_emitPrompt hdesk _

theorem frames_start (projectId : String) : (start m projectId).Moves R :=
  frames_prompt hR hdesk projectId _

include hp

theorem frames_handleFolderAnswer (projectId value : String) : (handleFolderAnswer m projectId value).Moves R := by
  unfold handleFolderAnswer answeredPath
  refine Prog.Moves.bind ?_ fun path => (frames_lift hR (Projects.frames_setFolderPath hp _ _)).bind fun _ =>
    (frames_lift hR (Projects.frames_setOnboardingStep hp _ _)).bind fun _ => frames_prompt hR hdesk projectId _
  refine frames_lift hR ?_
  split
  · exact (frames_theProject _).bind fun _ => trivial
  · trivial

theorem frames_contextReady (projectId summary : String) : (contextReady m projectId summary).Moves R :=
  (frames_lift hR (Projects.frames_setOnboardingStep hp _ _)).bind fun _ => frames_prompt hR hdesk projectId _

/-- An answer writes the project, and entries in the gateway's own name. -/
theorem frames_answer [HmacSha256] (hl : may .taskLog)
    (hfresh : ∀ r : LogRow, r.gatewayName = m.gatewayName → TaskLog.Signed m.secret r → fresh (.log r))
    (entryId : Uuid) (projectId step value : String) : (answer m entryId projectId step value).Moves R := by
  have happend : ∀ agent entryType content, (lift (TaskLog.append m.secret entryId projectId m.gatewayName agent entryType
      content none)).Moves R := fun _ _ _ => frames_lift hR (TaskLog.frames_appendWithStatus hl hfresh)
  have hstep : ∀ step, (lift (Projects.setOnboardingStep projectId step)).Moves R := fun _ =>
    frames_lift hR (Projects.frames_setOnboardingStep hp _ _)
  have hproject : (lift (theProject projectId)).Moves R := frames_lift hR (frames_theProject _)
  unfold answer
  split
  · exact frames_handleFolderAnswer hp hR hdesk projectId value
  · split
    · unfold handleFilesAnswer
      refine (frames_lift hR (Projects.frames_setFileGlob hp _ _)).bind fun _ => (hstep _).bind fun _ =>
        hproject.bind fun project => (happend _ _ _).bind fun _ => Prog.Moves.bind ?_ fun _ =>
          frames_pushNotification hdesk _ _
      refine frames_modify hdesk fun d => ?_
      split <;> rfl
    · split
      · unfold handleUserTask
        split
        · trivial
        · refine hproject.bind fun project => (happend _ _ _).bind fun _ => (hstep _).bind fun _ => Prog.Moves.bind ?_
            fun _ => frames_pushNotification hdesk _ _
          exact frames_modify hdesk fun _ => rfl
      · trivial

end

end Onboarding

end

end A2AGateway
