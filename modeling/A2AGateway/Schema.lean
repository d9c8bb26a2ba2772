import A2AGateway.Basic
import A2AGateway.Lib.Table

/-!
# The database schema (`migrations/*.sql`)

One row type for each table, with its primary key and `UNIQUE` constraints as `Constraints.clash`.
Rows carry the columns under the names of the Rust structs they are read into. Columns that no
routine reads back (`created_at` of `objects`, `updated_at` of `projects` and `project_heads`)
are left out.

Two limits of PostgreSQL and its driver reach the code and are part of the database (`Engine`). The columns
`projects.is_active`, `task_log.cursor` and `contribution_proposals.gateway_count` are declared `INTEGER` and read
into an `i64`, which `sqlx` refuses at the first row: a `SELECT` of one fails as soon as it finds something. And a
B-tree index refuses a key of more than 2704 bytes. That limit is checked where the key is a text that a stranger
chooses and a routine relies on its insertion (`group_members`, `project_todos`); for the other tables it is one more
reason for which the environment may fail a statement (`World.faults`).
-/

namespace A2AGateway

/-! ## PostgreSQL and its driver -/

/-- What comes of an `INTEGER` column that is read into an `i64`. -/
inductive IntegerDecoding
  /-- An error (`mismatched types`): the code as shipped. -/
  | refused
  /-- Its value, as the code takes for granted. -/
  | widened
deriving DecidableEq, Repr

theorem IntegerDecoding.ne_refused {i : IntegerDecoding} : i ≠ .refused ↔ i = .widened := by
  cases i <;> simp

structure Engine where
  integers : IntegerDecoding
  /-- Whether an index takes an entry with these texts as its key. -/
  indexes : List String → Bool

/-- As shipped, with room for every key. -/
def Engine.shipped : Engine := ⟨.refused, fun _ => true⟩

/-- With `INTEGER` columns that are read, and room for every key. -/
def Engine.widening : Engine := ⟨.widened, fun _ => true⟩

namespace Engine

variable {α : Type} (e : Engine)

/-- A value with an `INTEGER` column in it. -/
def decode (a : α) : Option α :=
  match e.integers with
  | .refused => none
  | .widened => some a

/-- The row of a `fetch_optional`. -/
def decodeRow : Option α → Option (Option α)
  | none => some none
  | some a => (e.decode a).map some

/-- The rows of a `fetch_all`. -/
def decodeRows : List α → Option (List α)
  | [] => some []
  | a :: l => e.decode (a :: l)

variable {e}

theorem decode_refused (h : e.integers = .refused) (a : α) : e.decode a = none := by
  rw [decode, h]

theorem decode_widened (h : e.integers = .widened) (a : α) : e.decode a = some a := by
  rw [decode, h]

theorem decode_eq_some {a b : α} : e.decode a = some b ↔ e.integers = .widened ∧ a = b := by
  cases h : e.integers with
  | refused => simp [decode_refused h]
  | widened => simp [decode_widened h]

theorem decodeRow_refused (h : e.integers = .refused) (a : α) : e.decodeRow (some a) = none := by
  rw [decodeRow, decode_refused h, Option.map_none]

theorem decodeRow_widened (h : e.integers = .widened) (o : Option α) : e.decodeRow o = some o := by
  cases o with
  | none => rfl
  | some a => rw [decodeRow, decode_widened h, Option.map_some]

/-- What is read is what is there. -/
theorem decodeRow_eq_some {o o' : Option α} :
    e.decodeRow o = some o' ↔ o' = o ∧ (e.integers = .refused → o = none) := by
  cases o with
  | none => simp [decodeRow, eq_comm]
  | some a =>
    cases h : e.integers with
    | refused => simp [decodeRow_refused h]
    | widened => simp [decodeRow_widened h, eq_comm]

theorem decodeRows_eq_some {l l' : List α} :
    e.decodeRows l = some l' ↔ l' = l ∧ (e.integers = .refused → l = []) := by
  cases l with
  | nil => simp [decodeRows, eq_comm]
  | cons a l =>
    cases h : e.integers with
    | refused => simp [decodeRows, decode_refused h]
    | widened => simp [decodeRows, decode_widened h, eq_comm]

end Engine

/-! ## Projects (`002_projects.sql`, `projects.rs:22-80`) -/

inductive Visibility
  | lanOnly
  | group
  | «public»
deriving DecidableEq, Repr

def Visibility.asStr : Visibility → String
  | .lanOnly => "lan-only"
  | .group => "group"
  | .public => "public"

structure Project where
  id : String
  name : String
  repoUrl : String := ""
  description : String := ""
  visibility : Visibility := .lanOnly
  folderPath : String := ""
  fileGlob : String := "**/*"
  isActive : Bool := false
  createdAt : F64 := .fin 0
  onboardingStep : Option String := none
  originGateway : String := ""
  /-- Empty for a local-origin project. -/
  peerGateway : String := ""
  /-- Empty for a local-origin project. -/
  peerProjectId : String := ""
deriving DecidableEq

instance : Constraints Project where
  clash a b := a.id == b.id || a.name == b.name
  comm a b := by rw [Bool.beq_comm, @Bool.beq_comm _ _ _ a.name]

/-! ## Objects, snapshots and heads (`003_file_sync.sql`) -/

structure ObjectRow where
  sha256 : String
  sizeBytes : Int
deriving DecidableEq

instance : Constraints ObjectRow where
  clash a b := a.sha256 == b.sha256
  comm _ _ := Bool.beq_comm

/-- `file_sync.rs:20-27`. -/
structure Snapshot where
  id : String
  projectId : String
  gateway : String
  transcript : String
  createdAt : F64
deriving DecidableEq

instance : Constraints Snapshot where
  clash a b := a.id == b.id
  comm _ _ := Bool.beq_comm

structure ProjectHead where
  projectId : String
  snapshotId : String
deriving DecidableEq

instance : Constraints ProjectHead where
  clash a b := a.projectId == b.projectId
  comm _ _ := Bool.beq_comm

/-! ## Task log (`004_task_log.sql`, `007_task_status.sql`) -/

/-- `task_log.rs:354-369`. -/
structure LogRow where
  id : String
  projectId : String
  gatewayName : String
  agentName : String
  entryType : String
  content : String
  cursor : Int
  createdAt : F64
  todoId : Option Int
  signature : Option String
  taskStatus : Option String
  validFrom : Option F64
  validTo : Option F64
deriving DecidableEq

instance : Constraints LogRow where
  clash a b := a.id == b.id
  comm _ _ := Bool.beq_comm

/-- Last cursor seen from a peer for a project (`009_peer_cursors.sql`). -/
structure PeerCursor where
  peerName : String
  projectId : String
  lastCursor : Int
  updatedAt : F64
deriving DecidableEq

instance : Constraints PeerCursor where
  clash a b := a.peerName == b.peerName && a.projectId == b.projectId
  comm a b := by rw [Bool.beq_comm, @Bool.beq_comm _ _ _ a.projectId]

/-! ## Agents (`001_init.sql`) -/

/-- `registry.rs:141-150`; `capabilities` is the text of a JSON array. -/
structure AgentRow where
  name : String
  version : String
  endpoint : String
  capabilities : String
  soulToml : String
  lastSeen : Option String
  registeredAt : String
deriving DecidableEq

instance : Constraints AgentRow where
  clash a b := a.name == b.name
  comm _ _ := Bool.beq_comm

structure MemoryRow where
  agentName : String
  contentMd : String
deriving DecidableEq

instance : Constraints MemoryRow where
  clash a b := a.agentName == b.agentName
  comm _ _ := Bool.beq_comm

/-- The todos of the agents; a log entry may be linked to one. -/
structure Todo where
  id : Int
  agentName : String
  task : String
  status : String
  notes : String
  createdAt : String
  completedAt : Option String
deriving DecidableEq

instance : Constraints Todo where
  clash a b := a.id == b.id
  comm _ _ := Bool.beq_comm

/-- `sourceTodos` is the text of a JSON array of ids. -/
structure ProjectTodo where
  id : Int
  task : String
  assignedTo : Option String
  status : String
  notes : String
  sourceTodos : String
  createdAt : String
  updatedAt : String
deriving DecidableEq

instance : Constraints ProjectTodo where
  clash a b := a.id == b.id || a.task == b.task
  comm a b := by rw [Bool.beq_comm, @Bool.beq_comm _ _ _ a.task]

/-- A fact that an agent has stored (`008_memory_facts.sql`, `memory_service.rs:196-205`). -/
structure MemoryFactRow where
  id : Int
  agentName : String
  projectId : Option String
  topic : String
  content : String
  createdAt : F64
  validFrom : F64
  validTo : Option F64
deriving DecidableEq

instance : Constraints MemoryFactRow where
  clash a b := a.id == b.id
  comm _ _ := Bool.beq_comm

/-! ## Groups (`006_groups.sql`, `groups.rs:20-36`) -/

structure Group where
  id : String
  name : String
  description : String
  createdBy : String
  createdAt : F64
deriving DecidableEq

instance : Constraints Group where
  clash a b := a.id == b.id || a.name == b.name
  comm a b := by rw [Bool.beq_comm, @Bool.beq_comm _ _ _ a.name]

structure GroupMember where
  groupId : String
  gatewayName : String
  joinedAt : F64
  invitedBy : String
deriving DecidableEq

instance : Constraints GroupMember where
  clash a b := a.groupId == b.groupId && a.gatewayName == b.gatewayName
  comm a b := by rw [Bool.beq_comm, @Bool.beq_comm _ _ _ a.gatewayName]

structure GroupProject where
  groupId : String
  projectId : String
  addedAt : F64
deriving DecidableEq

instance : Constraints GroupProject where
  clash a b := a.groupId == b.groupId && a.projectId == b.projectId
  comm a b := by rw [Bool.beq_comm, @Bool.beq_comm _ _ _ a.projectId]

/-- A one-time invite; `used_at` and `used_by` are NULL until it is consumed. -/
structure Invite where
  token : String
  groupId : String
  createdBy : String
  createdAt : F64
  expiresAt : F64
  usedAt : Option F64 := none
  usedBy : Option String := none
deriving DecidableEq

instance : Constraints Invite where
  clash a b := a.token == b.token
  comm _ _ := Bool.beq_comm

/-! ## Contribution proposals (`005_contributions.sql`, `contributions.rs:31-88`)

The CHECK constraints hold status and vote to the texts of their enumerations. -/

inductive ProposalStatus
  | «open»
  | voting
  | prPending
  | prAccepted
  | accepted
  | rejected
deriving DecidableEq, Repr

def ProposalStatus.asStr : ProposalStatus → String
  | .open => "open"
  | .voting => "voting"
  | .prPending => "pr_pending"
  | .prAccepted => "pr_accepted"
  | .accepted => "accepted"
  | .rejected => "rejected"

structure Proposal where
  id : String
  projectId : String
  proposerGateway : String
  proposerAgent : String
  snapshotId : String
  description : String
  status : ProposalStatus
  gatewayCount : Int
  createdAt : F64
  resolvedAt : Option F64 := none
  resolvedBy : Option String := none
deriving DecidableEq

instance : Constraints Proposal where
  clash a b := a.id == b.id
  comm _ _ := Bool.beq_comm

inductive VoteKind
  | approve
  | reject
deriving DecidableEq, Repr

structure Vote where
  id : String
  proposalId : String
  gatewayName : String
  agentName : String
  vote : VoteKind
  reason : String
  votedAt : F64
deriving DecidableEq

/-- `UNIQUE (proposal_id, gateway_name, agent_name)`. -/
def Vote.sameVoter (a b : Vote) : Bool :=
  a.proposalId == b.proposalId && a.gatewayName == b.gatewayName && a.agentName == b.agentName

theorem Vote.sameVoter_iff {a b : Vote} : a.sameVoter b = true ↔
    a.proposalId = b.proposalId ∧ a.gatewayName = b.gatewayName ∧ a.agentName = b.agentName := by
  simp [sameVoter, and_assoc]

instance : Constraints Vote where
  clash a b := a.id == b.id || a.sameVoter b
  comm a b := by
    simp only [Vote.sameVoter]
    rw [Bool.beq_comm, @Bool.beq_comm _ _ _ a.proposalId, @Bool.beq_comm _ _ _ a.gatewayName,
      @Bool.beq_comm _ _ _ a.agentName]

/-! ## The database of one gateway -/

structure Db where
  engine : Engine
  projects : Table Project
  objects : Table ObjectRow
  snapshots : Table Snapshot
  projectHeads : Table ProjectHead
  agents : Table AgentRow
  memories : Table MemoryRow
  todos : Table Todo
  projectTodos : Table ProjectTodo
  taskLog : Table LogRow
  peerCursorState : Table PeerCursor
  groups : Table Group
  groupMembers : Table GroupMember
  groupProjects : Table GroupProject
  invites : Table Invite
  contributionProposals : Table Proposal
  contributionVotes : Table Vote
  memoryFacts : Table MemoryFactRow

/-- The database after the migrations. -/
def Db.empty (engine : Engine := .shipped) : Db where
  engine
  projects := .empty
  objects := .empty
  snapshots := .empty
  projectHeads := .empty
  agents := .empty
  memories := .empty
  todos := .empty
  projectTodos := .empty
  taskLog := .empty
  peerCursorState := .empty
  groups := .empty
  groupMembers := .empty
  groupProjects := .empty
  invites := .empty
  contributionProposals := .empty
  contributionVotes := .empty
  memoryFacts := .empty

/-- `REFERENCES projects(id)`. -/
def Db.hasProject (db : Db) (id : String) : Bool := db.projects.rows.any (·.id == id)

/-- `REFERENCES snapshots(id)`. -/
def Db.hasSnapshot (db : Db) (id : String) : Bool := db.snapshots.rows.any (·.id == id)

/-- `REFERENCES todos(id)`; a NULL reference is accepted. -/
def Db.hasTodo (db : Db) : Option Int → Bool
  | none => true
  | some id => db.todos.rows.any (·.id == id)

/-- `REFERENCES agents(name)`. -/
def Db.hasAgent (db : Db) (name : String) : Bool := db.agents.rows.any (·.name == name)

/-- `REFERENCES groups(id)`. -/
def Db.hasGroup (db : Db) (id : String) : Bool := db.groups.rows.any (·.id == id)

/-- `REFERENCES contribution_proposals(id)`. -/
def Db.hasProposal (db : Db) (id : String) : Bool := db.contributionProposals.rows.any (·.id == id)

end A2AGateway
