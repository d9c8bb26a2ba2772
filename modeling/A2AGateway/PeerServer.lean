import A2AGateway.Auth
import A2AGateway.FileSync
import A2AGateway.TaskLog

/-!
# The peer RPC server (`peer_server.rs`)

| here | there |
| --- | --- |
| the message structures           | `proto/peer.proto:96-165` |
| `groupsForGateway`               | `groups.rs:145-157` |
| `PeerHandler.authJwt`            | `peer_server.rs:71-74` |
| `PeerHandler.fetchSnapshot`      | `peer_server.rs:177-208` |
| `PeerHandler.fetchObject`        | `peer_server.rs:212-234` |
| `PeerHandler.listProjects`       | `peer_server.rs:238-281` |
| `PeerHandler.syncTaskLog`        | `peer_server.rs:285-314` |

A handler either answers or fails with a `Status`. All four only read.
-/

namespace A2AGateway

open Gw

/-! ## Messages -/

structure FetchSnapshotRequest where
  projectId : String
  snapshotId : String
  jwt : String
deriving DecidableEq

structure FetchSnapshotResponse where
  snapshotId : String
  transcript : String
  /-- "sha256 hashes the caller needs to fetch" -/
  missingObjects : List String
  error : String
deriving DecidableEq

structure FetchObjectRequest where
  sha256 : String
  jwt : String
deriving DecidableEq

structure FetchObjectResponse where
  sha256 : String
  data : Bytes
  error : String
deriving DecidableEq

structure ListProjectsRequest where
  jwt : String
  groupId : String
deriving DecidableEq

structure RemoteProject where
  projectId : String
  projectName : String
  repoUrl : String := ""
  description : String := ""
  visibility : String := "public"
  snapshotId : String
  gatewayName : String
deriving DecidableEq

structure ListProjectsResponse where
  projects : List RemoteProject
  error : String
deriving DecidableEq

structure TaskLogSyncRequest where
  projectId : String
  afterCursor : Int
  jwt : String
deriving DecidableEq

/-- `TaskLogEntry` on the wire; an absent signature is the empty string. -/
structure ProtoLogEntry where
  id : String
  gatewayName : String
  agentName : String
  entryType : String
  content : String
  cursor : Int
  createdAt : F64
  signature : String
deriving DecidableEq

structure TaskLogSyncResponse where
  entries : List ProtoLogEntry
  headCursor : Int
  error : String
deriving DecidableEq

/-! ## The handler -/

namespace Groups

/-- The groups a gateway belongs to, in the order it joined them. -/
def groupsForGateway (gatewayName : String) : Gw (List Group) :=
  query (.msg "groups for gateway") fun db =>
    ((db.groupMembers.rows.filter (·.gatewayName == gatewayName)).insertionSort
      fun a b => a.joinedAt.le b.joinedAt).flatMap fun m => db.groups.rows.filter (·.id == m.groupId)

end Groups

/-- An entry as `sync_task_log` sends it. -/
def LogEntry.toProto (e : LogEntry) : ProtoLogEntry where
  id := e.id
  gatewayName := e.gatewayName
  agentName := e.agentName
  entryType := e.entryType.asStr
  content := e.content
  cursor := e.cursor
  createdAt := e.createdAt
  signature := e.signature.getD ""

/-- `PeerGatewayHandler`. -/
structure PeerHandler where
  gatewayName : String
  auth : JwtAuth

namespace PeerHandler

/-- `Status::internal(e.to_string())`. -/
def internal (e : Err) : Status := ⟨.internal, e.text⟩

def authJwt (h : PeerHandler) (jwt : String) : Prog World Status PeerClaims := do
  let now ← Prog.look (·.now)
  match h.auth.validateFor jwt h.gatewayName now with
  | .ok claims => return claims
  | .error e => Prog.fail ⟨.unauthenticated, e.text⟩

def fetchSnapshot (h : PeerHandler) (r : FetchSnapshotRequest) :
    Prog World Status FetchSnapshotResponse := do
  let _ ← h.authJwt r.jwt
  match ← (FileSync.getSnapshot r.snapshotId).mapErr internal with
  | none =>
    return { snapshotId := r.snapshotId, transcript := "", missingObjects := [], error := "snapshot not found" }
  | some snap =>
    -- "Tell the caller which objects it already has vs needs to fetch"
    let allHashes := (parseTranscript snap.transcript).map (·.sha256)
    let missing ← (ObjectStore.missing allHashes).mapErr internal
    return { snapshotId := snap.id, transcript := snap.transcript, missingObjects := missing, error := "" }

def fetchObject (h : PeerHandler) (r : FetchObjectRequest) : Prog World Status FetchObjectResponse := do
  let _ ← h.authJwt r.jwt
  match ← (ObjectStore.get r.sha256).mapErr internal with
  | none => return { sha256 := r.sha256, data := [], error := "object not found" }
  | some bytes => return { sha256 := r.sha256, data := bytes, error := "" }

/-- Is a project of this visibility shown to the requester? -/
def visibleTo (iss : String) : Visibility → Prog World Status Bool
  | .public => return true
  | .group => do
    let groups ← (Groups.groupsForGateway iss).mapErr internal |>.attempt
    return (groups.map fun gs => !gs.isEmpty).getD false
  | .lanOnly => return false

/-- The loop of `list_projects` over the projects of the gateway. -/
def listVisible (h : PeerHandler) (iss : String) : List Project → Prog World Status (List RemoteProject)
  | [] => return []
  | p :: ps => do
    if ← visibleTo iss p.visibility then
      let head ← ((FileSync.head p.id).mapErr internal).attempt
      let shown : RemoteProject :=
        { projectId := p.id, projectName := p.name, repoUrl := p.repoUrl, description := p.description,
          visibility := p.visibility.asStr, snapshotId := (head.join.map (·.id)).getD "",
          gatewayName := h.gatewayName }
      return shown :: (← h.listVisible iss ps)
    else
      h.listVisible iss ps

def listProjects (h : PeerHandler) (r : ListProjectsRequest) : Prog World Status ListProjectsResponse := do
  let claims ← h.authJwt r.jwt
  let allProjects ← Projects.list.mapErr internal
  return { projects := ← h.listVisible claims.iss allProjects, error := "" }

def syncTaskLog (h : PeerHandler) (r : TaskLogSyncRequest) : Prog World Status TaskLogSyncResponse := do
  let _ ← h.authJwt r.jwt
  let entries ← (TaskLog.since r.projectId r.afterCursor).mapErr internal
  let head ← ((TaskLog.headCursor r.projectId).mapErr internal).attempt
  return { entries := entries.map (·.toProto), headCursor := head.getD 0, error := "" }

/-! ## The handlers only read -/

section
variable {R : World → World → Prop} (h : PeerHandler) (h₀ : ∀ w, R w w) (ht : ∀ w, R w w.tick)
include h₀

theorem moves_authJwt (jwt : String) : (h.authJwt jwt).Moves R := by
  simp only [authJwt, Prog.bind_eq]
  refine (Prog.moves_look h₀ _).bind fun now => ?_
  split <;> trivial

include ht

theorem moves_fetchSnapshot (r : FetchSnapshotRequest) : (h.fetchSnapshot r).Moves R := by
  simp only [fetchSnapshot, Prog.bind_eq]
  refine (moves_authJwt h h₀ _).bind fun _ => (moves_query ht).mapErr.bind fun snap => ?_
  split
  · trivial
  · exact (ObjectStore.moves_missing ht _).mapErr.bind fun _ => trivial

theorem moves_fetchObject (r : FetchObjectRequest) : (h.fetchObject r).Moves R := by
  simp only [fetchObject, Prog.bind_eq]
  refine (moves_authJwt h h₀ _).bind fun _ => (ObjectStore.moves_get ht _).mapErr.bind fun data => ?_
  split <;> trivial

theorem moves_syncTaskLog (r : TaskLogSyncRequest) : (h.syncTaskLog r).Moves R := by
  simp only [syncTaskLog, Prog.bind_eq]
  refine (moves_authJwt h h₀ _).bind fun _ => (moves_fetch ht).mapErr.bind fun entries => ?_
  exact (moves_fetch ht).mapErr.attempt.bind fun _ => trivial

end

/-! ## What they answer -/

section
variable {h : PeerHandler} {w w' : World}

theorem exec_authJwt (h : PeerHandler) (w : World) (jwt : String) :
    (h.authJwt jwt).exec w =
      ((h.auth.validateFor jwt h.gatewayName w.now).mapError fun e => ⟨.unauthenticated, e.text⟩, w) := by
  simp only [authJwt, Prog.bind_eq]
  rw [Prog.exec_bind_of_ok (Prog.exec_look _ w)]
  cases h.auth.validateFor jwt h.gatewayName w.now <;> rfl

theorem exec_authJwt_ok {jwt : String} {c : PeerClaims} (he : (h.authJwt jwt).exec w = (.ok c, w')) :
    h.auth.validateFor jwt h.gatewayName w.now = .ok c ∧ w = w' := by
  rw [exec_authJwt] at he
  cases hv : h.auth.validateFor jwt h.gatewayName w.now with
  | error e =>
    rw [hv] at he
    cases he
  | ok c' =>
    rw [hv] at he
    cases he
    exact ⟨rfl, rfl⟩

theorem exec_authJwt_valid {jwt : String} {c : PeerClaims}
    (hv : h.auth.validateFor jwt h.gatewayName w.now = .ok c) : (h.authJwt jwt).exec w = (.ok c, w) := by
  rw [exec_authJwt, hv]
  rfl

/-- The answer for a snapshot that is there, as far as the objects are recorded. -/
def snapshotAnswer (db : Db) (snap : Snapshot) : FetchSnapshotResponse where
  snapshotId := snap.id
  transcript := snap.transcript
  missingObjects := ((parseTranscript snap.transcript).map (·.sha256)).filter fun x => !ObjectStore.recorded db x
  error := ""

/-- **`fetch_snapshot` looks the id up among all snapshots, and lists as missing what is not recorded
*here*.** -/
theorem exec_fetchSnapshot_ok {r : FetchSnapshotRequest} {resp : FetchSnapshotResponse}
    (he : (h.fetchSnapshot r).exec w = (.ok resp, w')) :
    (∃ snap, FileSync.snapshotRow w.db r.snapshotId = some snap ∧ resp = snapshotAnswer w.db snap) ∨
      FileSync.snapshotRow w.db r.snapshotId = none ∧ resp = ⟨r.snapshotId, "", [], "snapshot not found"⟩ := by
  simp only [fetchSnapshot, Prog.bind_eq] at he
  obtain ⟨c, w₁, e₁, he⟩ := Prog.exec_bind_ok.1 he
  obtain ⟨-, rfl⟩ := exec_authJwt_ok e₁
  obtain ⟨o, w₂, e₂, he⟩ := Prog.exec_bind_ok.1 he
  obtain ⟨rfl, rfl⟩ := exec_query_ok (Prog.exec_mapErr_ok.1 e₂)
  split at he
  · rename_i hnone
    cases he
    exact Or.inr ⟨hnone, rfl⟩
  · rename_i snap hsome
    obtain ⟨m, w₃, e₃, he⟩ := Prog.exec_bind_ok.1 he
    obtain ⟨rfl, -⟩ := ObjectStore.exec_missing_ok (Prog.exec_mapErr_ok.1 e₃)
    cases he
    exact Or.inl ⟨snap, hsome, rfl⟩

theorem exec_fetchObject_ok {r : FetchObjectRequest} {resp : FetchObjectResponse}
    (he : (h.fetchObject r).exec w = (.ok resp, w')) :
    (∃ b, ObjectStore.objectBytes w.disk r.sha256 = some b ∧ resp = ⟨r.sha256, b, ""⟩) ∨
      resp = ⟨r.sha256, [], "object not found"⟩ := by
  simp only [fetchObject, Prog.bind_eq] at he
  obtain ⟨c, w₁, e₁, he⟩ := Prog.exec_bind_ok.1 he
  obtain ⟨-, rfl⟩ := exec_authJwt_ok e₁
  obtain ⟨o, w₂, e₂, he⟩ := Prog.exec_bind_ok.1 he
  cases o with
  | none =>
    cases he
    exact Or.inr rfl
  | some b =>
    cases he
    exact Or.inl ⟨b, (ObjectStore.exec_get_ok (Prog.exec_mapErr_ok.1 e₂)).1, rfl⟩

/-- The entries that a delta after `after` consists of. -/
def logAnswer (db : Db) (projectId : String) (after : Int) : List ProtoLogEntry :=
  (TaskLog.rowsSince db projectId after).map (·.toEntry.toProto)

theorem exec_syncTaskLog_ok {r : TaskLogSyncRequest} {resp : TaskLogSyncResponse}
    (he : (h.syncTaskLog r).exec w = (.ok resp, w')) :
    resp.entries = logAnswer w.db r.projectId r.afterCursor := by
  simp only [syncTaskLog, Prog.bind_eq] at he
  obtain ⟨c, w₁, e₁, he⟩ := Prog.exec_bind_ok.1 he
  obtain ⟨-, rfl⟩ := exec_authJwt_ok e₁
  obtain ⟨entries, w₂, e₂, he⟩ := Prog.exec_bind_ok.1 he
  obtain ⟨-, ⟨rfl, -⟩, rfl⟩ := TaskLog.since_iff.1 (Prog.exec_mapErr_ok.1 e₂)
  obtain ⟨head, w₃, -, he⟩ := Prog.exec_bind_ok.1 he
  cases he
  simp [logAnswer]

/-- **As shipped the answer to a valid request is an error, or it is empty with the head 0.** -/
theorem exec_syncTaskLog_shipped {r : TaskLogSyncRequest} {resp : TaskLogSyncResponse} (hw : w.AsShipped)
    (he : (h.syncTaskLog r).exec w = (.ok resp, w')) : resp = ⟨[], 0, ""⟩ := by
  simp only [syncTaskLog, Prog.bind_eq] at he
  obtain ⟨c, w₁, e₁, he⟩ := Prog.exec_bind_ok.1 he
  obtain ⟨-, rfl⟩ := exec_authJwt_ok e₁
  obtain ⟨entries, w₂, e₂, he⟩ := Prog.exec_bind_ok.1 he
  obtain ⟨-, ⟨rfl, hnone⟩, rfl⟩ := TaskLog.since_iff.1 (Prog.exec_mapErr_ok.1 e₂)
  have hhead : (TaskLog.headCursor r.projectId).exec w.tick = (.error (.msg "head cursor"), w.tick.tick) :=
    TaskLog.headCursor_refused hw
  rw [Prog.exec_bind_of_ok (Prog.exec_attempt _ _), Prog.exec_mapErr, hhead, hnone hw] at he
  cases he
  rfl

/-! With a valid token and nothing failing every request for something that is there is served. -/

theorem exec_fetchSnapshot_calm {r : FetchSnapshotRequest} {c : PeerClaims} {snap : Snapshot}
    (hw : w.faults = []) (hv : h.auth.validateFor r.jwt h.gatewayName w.now = .ok c)
    (hs : FileSync.snapshotRow w.db r.snapshotId = some snap) :
    (h.fetchSnapshot r).exec w = (.ok (snapshotAnswer w.db snap), w) := by
  simp only [fetchSnapshot, FileSync.getSnapshot, Prog.bind_eq]
  rw [Prog.exec_bind_of_ok (exec_authJwt_valid hv),
    Prog.exec_bind_of_ok (Prog.exec_mapErr_of_ok (exec_query_calm hw)), hs]
  simp only
  rw [Prog.exec_bind_of_ok (Prog.exec_mapErr_of_ok (ObjectStore.exec_missing_calm hw _))]
  rfl

theorem exec_fetchObject_calm {r : FetchObjectRequest} {c : PeerClaims} {b : Bytes} (hw : w.faults = [])
    (hv : h.auth.validateFor r.jwt h.gatewayName w.now = .ok c)
    (hb : ObjectStore.objectBytes w.disk r.sha256 = some b) :
    (h.fetchObject r).exec w = (.ok ⟨r.sha256, b, ""⟩, w) := by
  have hval : ObjectStore.validHash r.sha256 = true := by
    by_contra hn
    simp [ObjectStore.objectBytes, hn] at hb
  simp only [fetchObject, Prog.bind_eq]
  rw [Prog.exec_bind_of_ok (exec_authJwt_valid hv),
    Prog.exec_bind_of_ok (Prog.exec_mapErr_of_ok (ObjectStore.exec_get_calm hw hval)), hb]
  rfl

theorem exec_syncTaskLog_calm {r : TaskLogSyncRequest} {c : PeerClaims} (hw : w.faults = [])
    (hread : w.db.engine.integers = .widened) (hv : h.auth.validateFor r.jwt h.gatewayName w.now = .ok c) :
    (h.syncTaskLog r).exec w =
      (.ok ⟨logAnswer w.db r.projectId r.afterCursor, TaskLog.maxCursor w.db r.projectId, ""⟩, w) := by
  have hrows : (TaskLog.since r.projectId r.afterCursor).exec w =
      (.ok ((TaskLog.rowsSince w.db r.projectId r.afterCursor).map (·.toEntry)), w) := by
    refine TaskLog.since_calm hw fun hrefused => ?_
    rw [hread] at hrefused
    cases hrefused
  simp only [syncTaskLog, Prog.bind_eq]
  rw [Prog.exec_bind_of_ok (exec_authJwt_valid hv), Prog.exec_bind_of_ok (Prog.exec_mapErr_of_ok hrows),
    Prog.exec_bind_of_ok (Prog.exec_attempt _ _), Prog.exec_mapErr_of_ok (TaskLog.headCursor_calm hw hread)]
  simp [logAnswer, Except.toOption]

/-- A token that does not validate gets no answer. -/
theorem exec_syncTaskLog_refused {r : TaskLogSyncRequest} {e : Err}
    (hv : h.auth.validateFor r.jwt h.gatewayName w.now = .error e) :
    (h.syncTaskLog r).exec w = (.error ⟨.unauthenticated, e.text⟩, w) := by
  have hauth : (h.authJwt r.jwt).exec w = (.error ⟨.unauthenticated, e.text⟩, w) := by
    rw [exec_authJwt, hv]
    rfl
  simp only [syncTaskLog, Prog.bind_eq]
  rw [Prog.exec_bind_of_error hauth]

end

end PeerHandler

end A2AGateway
