import A2AGateway.World
import Mathlib.Data.List.Dedup

/-!
# Groups and invites (`groups.rs`)

| here | there |
| --- | --- |
| `createGroup`, `getGroup`   | `groups.rs:66-91` |
| `addMember`                 | `groups.rs:105-116` |
| `createInvite`              | `groups.rs:161-184` |
| `consumeInvite`             | `groups.rs:186-213` |
| `addProject`                | `groups.rs:223-231` |
| `gatewayCountForProject`    | `groups.rs:241-252` |

The UUID of a group and the random token of an invite are parameters.
-/

namespace A2AGateway

open Gw

namespace Groups

/-- `INVITE_TTL_SECS`. -/
def inviteTtlSecs : F64 := .fin (48 * 3600)

/-- `INSERT INTO group_members ..`, whose primary key is indexed. -/
def insertMember (row : GroupMember) (db : Db) : Option Db :=
  if db.hasGroup row.groupId && db.engine.indexes [row.groupId, row.gatewayName] then
    (db.groupMembers.insert row).map fun groupMembers => { db with groupMembers }
  else none

def addMember (groupId gatewayName invitedBy : String) : Gw Unit := do
  let now ← nowSecs
  execute (.msg "add group member") fun _ => insertMember { groupId, gatewayName, joinedAt := now, invitedBy }

/-- `INSERT INTO groups ..`. -/
def insertGroup (row : Group) (db : Db) : Option Db := (db.groups.insert row).map fun groups => { db with groups }

def createGroup (id : Uuid) (name description createdBy : String) : Gw Group := do
  let now ← nowSecs
  let group : Group := { id := id.text, name, description, createdBy, createdAt := now }
  execute (.msg "create group") fun _ => insertGroup group
  -- "Creator auto-joins"
  addMember id.text createdBy createdBy
  return group

def getGroup (id : String) : Gw (Option Group) := query (.msg "get group") fun db => db.groups.find? (·.id == id)

/-- `INSERT INTO invites ..`. -/
def insertInvite (row : Invite) (db : Db) : Option Db :=
  if db.hasGroup row.groupId then (db.invites.insert row).map fun invites => { db with invites } else none

def createInvite (token groupId createdBy : String) : Gw Invite := do
  let now ← nowSecs
  let invite : Invite := { token, groupId, createdBy, createdAt := now, expiresAt := now.add inviteTtlSecs }
  execute (.msg "create invite") fun _ => insertInvite invite
  return invite

/-- `token = $3 AND used_at IS NULL AND expires_at > $4`. -/
def usable (token : String) (now : F64) (i : Invite) : Bool :=
  i.token == token && i.usedAt.isNone && now.lt i.expiresAt

/-- `UPDATE invites SET used_at, used_by WHERE .. RETURNING group_id, created_by`. -/
def useInvite (token joiningGateway : String) (now : F64) (db : Db) : Option (String × String) × Db :=
  match db.invites.find? (usable token now) with
  | some i => (some (i.groupId, i.createdBy), { db with
      invites := db.invites.update (usable token now)
        (fun i => { i with usedAt := some now, usedBy := some joiningGateway }) fun _ _ => rfl })
  | none => (none, db)

def consumeInvite (token joiningGateway : String) : Gw Group := do
  let now ← nowSecs
  let row ← statement (.msg "consume invite") fun _ db => some (useInvite token joiningGateway now db)
  let (groupId, createdBy) ← orThrow (.msg "invite token is expired or already used") row
  addMember groupId joiningGateway createdBy
  orThrow (.msg "group not found after invite consume") (← getGroup groupId)

/-- `INSERT INTO group_projects .. ON CONFLICT DO NOTHING`. -/
def insertGroupProject (row : GroupProject) (db : Db) : Option Db :=
  if db.hasGroup row.groupId && db.hasProject row.projectId then
    some { db with groupProjects := db.groupProjects.insertIgnore row }
  else none

def addProject (groupId projectId : String) : Gw Unit := do
  let now ← nowSecs
  execute (.msg "add project to group") fun _ => insertGroupProject { groupId, projectId, addedAt := now }

/-- The gateways of the join of `group_members` and `group_projects`, one for each pair of rows. -/
def gatewaysOf (db : Db) (projectId : String) : List String :=
  db.groupMembers.rows.flatMap fun m =>
    (db.groupProjects.rows.filter fun gp => gp.groupId == m.groupId && gp.projectId == projectId).map fun _ => m.gatewayName

/-- `count(DISTINCT m.gateway_name)`: "Used to determine contribution approval mode (vote vs PR)." -/
def gatewayCountForProject (projectId : String) : Gw Int :=
  query (.msg "gateway count for project") fun db => (gatewaysOf db projectId).dedup.length

end Groups

end A2AGateway
