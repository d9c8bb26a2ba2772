import A2AGateway.PeerServer

/-!
# The peer client and the sync coordinator (`peer_client.rs`, `peer_sync.rs`)

| here | there |
| --- | --- |
| `Peer`                                   | the remote end of a `PeerGatewayClient` |
| `PeerClient.syncTaskLog`                 | `peer_client.rs:169-180` |
| `PeerClient.fetchSnapshot`, `.fetchObject` | `peer_client.rs:130-154` |
| `acceptEntry`, `syncLog`                 | `peer_sync.rs:131-197`, the task-log delta |
| `fetchObjects`, `pullSnapshot`           | `peer_sync.rs:199-238`, the snapshot pull |
| `syncProject`                            | `peer_sync.rs:123-239` |
| `updatePeerCursor`                       | `peer_sync.rs:242-261` |

A round runs on a state `σ` in which the local gateway is one part (`L`); the peer's answers are
programs on `σ` too. An honest peer is the handler of another gateway in `σ` (`Peer.serving`);
for one gateway alone `σ` is its `World` and the peer answers as it likes (`Peer.answering`).
-/

namespace A2AGateway

open Gw

/-- The RPCs that a round makes. `fetchObject` also gets the number of the request in the round,
so that a peer may answer the same request differently each time. -/
structure Peer (σ : Type) where
  syncTaskLog : TaskLogSyncRequest → Prog σ Status TaskLogSyncResponse
  fetchSnapshot : FetchSnapshotRequest → Prog σ Status FetchSnapshotResponse
  fetchObject : Nat → FetchObjectRequest → Prog σ Status FetchObjectResponse

/-- What a peer answers to each request of a round. -/
structure Answers where
  syncTaskLog : TaskLogSyncRequest → Except Status TaskLogSyncResponse
  fetchSnapshot : FetchSnapshotRequest → Except Status FetchSnapshotResponse
  fetchObject : Nat → FetchObjectRequest → Except Status FetchObjectResponse

def Peer.answering {σ : Type} (a : Answers) : Peer σ where
  syncTaskLog r := Prog.ofExcept (a.syncTaskLog r)
  fetchSnapshot r := Prog.ofExcept (a.fetchSnapshot r)
  fetchObject n r := Prog.ofExcept (a.fetchObject n r)

/-- The peer that runs the gateway's own handlers on its part of the state. -/
def Peer.serving {σ : Type} (h : PeerHandler) (L : Prog.Focus σ World) : Peer σ where
  syncTaskLog r := (h.syncTaskLog r).within L
  fetchSnapshot r := (h.fetchSnapshot r).within L
  fetchObject _ r := (h.fetchObject r).within L

/-! ## The client -/

structure PeerClient (σ : Type) where
  inner : Peer σ
  auth : JwtAuth
  peerName : String

namespace PeerClient

variable {σ : Type} (c : PeerClient σ) (L : Prog.Focus σ World)

/-- `self.auth.issue(&self.peer_name, scope).unwrap_or_default()`. -/
def jwt (scope : String) : Prog σ Err String :=
  (Prog.look fun w : World => (c.auth.issue c.peerName scope w.now).toOption.getD "").within L

def syncTaskLog (projectId : String) (afterCursor : Int) : Prog σ Err TaskLogSyncResponse := do
  let jwt ← c.jwt L "sync"
  (c.inner.syncTaskLog { projectId, afterCursor, jwt }).mapErr fun _ => .msg "sync task log"

def fetchSnapshot (projectId snapshotId : String) : Prog σ Err FetchSnapshotResponse := do
  let jwt ← c.jwt L "sync"
  (c.inner.fetchSnapshot { projectId, snapshotId, jwt }).mapErr fun _ => .msg "fetch snapshot"

/-- The `n`-th `fetch_object` of the round. -/
def fetchObject (n : Nat) (sha256 : String) : Prog σ Err Bytes := do
  let jwt ← c.jwt L "sync"
  let r ← (c.inner.fetchObject n { sha256 := sha256, jwt }).mapErr fun _ => Err.msg "fetch object"
  if r.error = "" then
    return r.data
  else
    Prog.fail (.msg s!"fetch object error: {r.error}")

end PeerClient

/-! ## The coordinator -/

/-- `config.rs:63-72`; `endpoint`, `cert_path` and `tls` only matter to the transport. -/
structure PeerConfig where
  name : String
deriving DecidableEq

namespace PeerSync

/-- `INSERT INTO peer_cursor_state .. ON CONFLICT (peer_name, project_id) DO UPDATE`. -/
def upsertPeerCursor (peerName projectId : String) (cursor : Int) (now : F64) (db : Db) : Db :=
  let row : PeerCursor := ⟨peerName, projectId, cursor, now⟩
  let set := fun (c : PeerCursor) => { c with lastCursor := cursor, updatedAt := now }
  { db with peerCursorState := db.peerCursorState.upsert row set fun _ _ => rfl }

def updatePeerCursor (peerName projectId : String) (cursor : Int) : Gw Unit :=
  execute (.msg "update peer cursor state") fun now db =>
    some (upsertPeerCursor peerName projectId cursor now db)

/-- The `LogEntry` that a wire entry is taken for, under the project id of the *remote* project. -/
def reconstruct (remoteProjectId : String) (e : ProtoLogEntry) : LogEntry where
  id := e.id
  projectId := remoteProjectId
  gatewayName := e.gatewayName
  agentName := e.agentName
  entryType := .fromStr e.entryType
  content := e.content
  cursor := e.cursor
  createdAt := e.createdAt
  todoId := none
  signature := if e.signature = "" then none else some e.signature
  taskStatus := none
  validFrom := some e.createdAt
  validTo := none

/-- The two checks an entry must pass: it names the peer as its writer, and its HMAC verifies. -/
def accepts [HmacSha256] (secret : Bytes) (peer : PeerConfig) (remoteProjectId : String)
    (e : ProtoLogEntry) : Bool :=
  e.gatewayName == peer.name && TaskLog.verifyEntry secret (reconstruct remoteProjectId e)

section
variable [HmacSha256] {secret : Bytes} {peer : PeerConfig} {remoteProjectId : String} {e : ProtoLogEntry}

/-- An entry is accepted if it names the peer and carries the signature of its own fields under the remote
project's id. -/
theorem accepts_iff : accepts secret peer remoteProjectId e = true ↔
    e.gatewayName = peer.name ∧
      e.signature = TaskLog.sign secret e.id remoteProjectId e.gatewayName e.content e.createdAt := by
  have hne : TaskLog.sign secret e.id remoteProjectId e.gatewayName e.content e.createdAt ≠ "" :=
    HmacSha256.ne_empty _ _
  simp only [accepts, Bool.and_eq_true, beq_iff_eq, TaskLog.verifyEntry, reconstruct]
  by_cases hs : e.signature = ""
  · rw [if_pos hs, hs]
    simp [hne.symm]
  · rw [if_neg hs]
    simp

/-- An accepted entry keeps its signature. -/
theorem signature_reconstruct (hacc : accepts secret peer remoteProjectId e = true) :
    (reconstruct remoteProjectId e).signature =
      some (TaskLog.sign secret e.id remoteProjectId e.gatewayName e.content e.createdAt) := by
  have hsig := (accepts_iff.1 hacc).2
  have hne : e.signature ≠ "" := by
    rw [hsig]
    exact HmacSha256.ne_empty _ _
  rw [reconstruct, if_neg hne, hsig]

omit [HmacSha256] in
/-- What is rebuilt from the wire and stored is sent on as it came. -/
theorem toProto_reconstruct (remoteProjectId localId : String) (x : LogEntry) :
    ((reconstruct remoteProjectId x.toProto).toRow localId).toEntry.toProto = x.toProto := by
  rw [LogEntry.toEntry_toRow]
  simp only [reconstruct, LogEntry.toProto, EntryType.fromStr_asStr]
  by_cases hs : x.signature.getD "" = ""
  · simp [hs]
  · simp [hs]

/-- A row that is signed passes, under its own project's id, with a peer of its writer's name. -/
theorem accepts_of_signed {r : LogRow} (hsigned : TaskLog.Signed secret r) (hname : r.gatewayName = peer.name) :
    accepts secret peer r.projectId r.toEntry.toProto = true := by
  refine accepts_iff.2 ⟨hname, ?_⟩
  have hs : r.signature = _ := hsigned
  show r.signature.getD "" = _
  rw [hs]
  rfl

end

section
variable {σ : Type} (L : Prog.Focus σ World) (client : PeerClient σ) (peer : PeerConfig)
  (remote : RemoteProject)

/-! ### The task-log delta -/

/-- One entry of the delta: rejected, or inserted under the local project ("best-effort"). -/
def acceptEntry [HmacSha256] (secret : Bytes) (localId : String) (e : ProtoLogEntry) : Prog σ Err Unit :=
  if accepts secret peer remote.projectId e then do
    let _ ← ((TaskLog.insertPeerEntry localId (reconstruct remote.projectId e) peer.name).within L).attempt
    return ()
  else
    return ()

/-- `head_cursor(..).unwrap_or(0)` of the local copy. -/
def localCursor : Option Project → Prog σ Err Int
  | some p => do return (← ((TaskLog.headCursor p.id).within L).attempt).getD 0
  | none => return 0

def syncLog [HmacSha256] (secret : Bytes) (localCopy : Option Project) : Prog σ Err Unit := do
  let cursor ← localCursor L localCopy
  let logSync ← client.syncTaskLog L remote.projectId cursor
  match localCopy with
  | some p =>
    Prog.forEach logSync.entries (acceptEntry L peer remote secret p.id)
    -- "Update peer cursor state for delta sync."
    if cursor < logSync.headCursor then
      let _ ← ((updatePeerCursor peer.name p.id logSync.headCursor).within L).attempt
      return ()
    else
      return ()
  | none => return ()

/-! ### The snapshot pull -/

/-- The id of the local copy's head, or the empty string. -/
def currentHead : Option Project → Prog σ Err String
  | some p => do
    let head ← ((FileSync.head p.id).within L).attempt
    return (head.join.map (·.id)).getD ""
  | none => return ""

/-- `for hash in &snap_resp.missing_objects`, from the `n`-th on. -/
def fetchObjects [Sha256] : Nat → List String → Prog σ Err Unit
  | _, [] => return ()
  | n, hash :: rest => do
    let data ← client.fetchObject L n hash
    let _ ← (ObjectStore.put data).within L
    fetchObjects (n + 1) rest

def pullSnapshot [Sha256] (localCopy : Option Project) : Prog σ Err Unit := do
  let current ← currentHead L localCopy
  if current = remote.snapshotId ∨ remote.snapshotId = "" then
    return () -- "already up to date"
  else
    let snap ← client.fetchSnapshot L remote.projectId remote.snapshotId
    if snap.error ≠ "" then
      Prog.fail (.msg s!"fetch snapshot error: {snap.error}")
    else
      fetchObjects L client 0 snap.missingObjects
      match localCopy with
      | some p =>
        let _ ← (FileSync.applyPeerSnapshot p.id remote.snapshotId snap.transcript peer.name).within L
        return ()
      | none => return ()

def syncProject [Sha256] [HmacSha256] (secret : Bytes) : Prog σ Err Unit := do
  -- "Find our local copy (if any)"
  let localCopy ← (Projects.getByName remote.projectName).within L
  syncLog L client peer remote secret localCopy
  pullSnapshot L client peer remote localCopy

end

/-! ## Where the steps of a round may take the state -/

section
variable {σ : Type} {L : Prog.Focus σ World} {T : World → World → Prop} {R : σ → σ → Prop}

/-- The peer's answers go along `R`. -/
structure AnswersMove (peer : Peer σ) (R : σ → σ → Prop) : Prop where
  syncTaskLog : ∀ r, (peer.syncTaskLog r).Moves R
  fetchSnapshot : ∀ r, (peer.fetchSnapshot r).Moves R
  fetchObject : ∀ n r, (peer.fetchObject n r).Moves R

theorem moves_answering (a : Answers) : AnswersMove (.answering a) R :=
  ⟨fun _ => Prog.moves_ofExcept _, fun _ => Prog.moves_ofExcept _, fun _ _ => Prog.moves_ofExcept _⟩

/-- A peer that serves its part of the state only reads it. -/
theorem moves_serving (h : PeerHandler) (hR : ∀ s t, SameStored (L.get s) t → R s (L.set t s)) :
    AnswersMove (.serving h L) R where
  syncTaskLog r := (h.moves_syncTaskLog .refl .tick r).within_of hR
  fetchSnapshot r := (h.moves_fetchSnapshot .refl .tick r).within_of hR
  fetchObject _ r := (h.moves_fetchObject .refl .tick r).within_of hR

section
variable (h₀ : ∀ s, R s s) {client : PeerClient σ} (hpeer : AnswersMove client.inner R)
include h₀

theorem moves_jwt (client : PeerClient σ) (scope : String) : (client.jwt L scope).Moves R := by
  refine ⟨fun s => ?_, fun _ => trivial⟩
  show R s (L.set (L.get s) s)
  rw [L.set_get]
  exact h₀ s

include hpeer

theorem moves_client_syncTaskLog (projectId : String) (after : Int) :
    (client.syncTaskLog L projectId after).Moves R := by
  simp only [PeerClient.syncTaskLog, Prog.bind_eq]
  exact (moves_jwt h₀ client _).bind fun _ => (hpeer.syncTaskLog _).mapErr

theorem moves_client_fetchSnapshot (projectId snapshotId : String) :
    (client.fetchSnapshot L projectId snapshotId).Moves R := by
  simp only [PeerClient.fetchSnapshot, Prog.bind_eq]
  exact (moves_jwt h₀ client _).bind fun _ => (hpeer.fetchSnapshot _).mapErr

theorem moves_client_fetchObject (n : Nat) (hash : String) : (client.fetchObject L n hash).Moves R := by
  simp only [PeerClient.fetchObject, Prog.bind_eq]
  refine (moves_jwt h₀ client _).bind fun _ => (hpeer.fetchObject _ _).mapErr.bind fun r => ?_
  split <;> trivial

/-- The log half without a local copy only asks. -/
theorem moves_syncLog_none [HmacSha256] (peer : PeerConfig) (remote : RemoteProject) (secret : Bytes) :
    (syncLog L client peer remote secret none).Moves R := by
  simp only [syncLog, localCursor, Prog.bind_eq, Prog.pure_eq, Prog.ret_bind]
  exact (moves_client_syncTaskLog h₀ hpeer _ _).bind fun _ => trivial

variable (hT : ∀ s t, T (L.get s) t → R s (L.set t s))
include hT

theorem moves_fetchObjects [Sha256] (hput : ∀ data, (ObjectStore.put data).Moves T) :
    ∀ (hashes : List String) (n : Nat), (fetchObjects L client n hashes).Moves R
  | [], _ => trivial
  | hash :: rest, n => by
    simp only [fetchObjects, Prog.bind_eq]
    refine (moves_client_fetchObject h₀ hpeer n hash).bind fun data => ?_
    exact ((hput data).within_of hT).bind fun _ => moves_fetchObjects hput rest (n + 1)

variable {peer : PeerConfig} {remote : RemoteProject}

omit h₀ hpeer in
theorem moves_acceptEntry [HmacSha256] {remote : RemoteProject} {secret : Bytes} {localId : String} (e : ProtoLogEntry)
    (hins : accepts secret peer remote.projectId e = true →
      (TaskLog.insertPeerEntry localId (reconstruct remote.projectId e) peer.name).Moves T) :
    (acceptEntry L peer remote secret localId e).Moves R := by
  unfold acceptEntry
  split
  · rename_i hacc
    exact ((hins hacc).within_of hT).attempt.bind fun _ => trivial
  · trivial

variable (ht : ∀ w, T w w.tick)
include ht

omit h₀ hpeer in
theorem moves_localCursor (localCopy : Option Project) : (localCursor L localCopy).Moves R := by
  cases localCopy with
  | none => trivial
  | some p =>
    simp only [localCursor, Prog.bind_eq]
    exact ((moves_fetch ht).within_of hT).attempt.bind fun _ => trivial

omit h₀ hpeer in
theorem moves_currentHead (localCopy : Option Project) : (currentHead L localCopy).Moves R := by
  cases localCopy with
  | none => trivial
  | some p =>
    simp only [currentHead, Prog.bind_eq]
    exact ((FileSync.moves_head ht p.id).within_of hT).attempt.bind fun _ => trivial

theorem moves_syncLog [HmacSha256] {secret : Bytes} {p : Project}
    (hins : ∀ e, accepts secret peer remote.projectId e = true →
      (TaskLog.insertPeerEntry p.id (reconstruct remote.projectId e) peer.name).Moves T)
    (hcur : ∀ c, (updatePeerCursor peer.name p.id c).Moves T) :
    (syncLog L client peer remote secret (some p)).Moves R := by
  simp only [syncLog, Prog.bind_eq]
  refine (moves_localCursor hT ht (some p)).bind fun c => ?_
  refine (moves_client_syncTaskLog h₀ hpeer _ _).bind fun r => ?_
  refine (Prog.Moves.forEach fun e _ => moves_acceptEntry hT e (hins e)).bind fun _ => ?_
  split
  · exact ((hcur _).within_of hT).attempt.bind fun _ => trivial
  · trivial

theorem moves_pullSnapshot [Sha256] {localCopy : Option Project}
    (hput : ∀ data, (ObjectStore.put data).Moves T)
    (happ : ∀ p ∈ localCopy, ∀ t, (FileSync.applyPeerSnapshot p.id remote.snapshotId t peer.name).Moves T) :
    (pullSnapshot L client peer remote localCopy).Moves R := by
  simp only [pullSnapshot, Prog.bind_eq]
  refine (moves_currentHead hT ht localCopy).bind fun c => ?_
  split
  · trivial
  · refine (moves_client_fetchSnapshot h₀ hpeer _ _).bind fun snap => ?_
    split
    · trivial
    · refine (moves_fetchObjects h₀ hpeer hT hput _ 0).bind fun _ => ?_
      cases localCopy with
      | none => trivial
      | some p => exact ((happ p rfl _).within_of hT).bind fun _ => trivial

end

end

/-! ## A peer that answers as it likes -/

/-- The client whose peer answers as given. -/
def clientOf (auth : JwtAuth) (peer : PeerConfig) (answers : Answers) : PeerClient World :=
  ⟨.answering answers, auth, peer.name⟩

/-- The token of the round's requests, `unwrap_or_default`. -/
def roundToken (auth : JwtAuth) (peer : PeerConfig) (now : F64) : String :=
  (auth.issue peer.name "sync" now).toOption.getD ""

section
variable (auth : JwtAuth) (peer : PeerConfig) (answers : Answers) (projectId : String) (w : World)

theorem exec_client_syncTaskLog (after : Int) :
    ((clientOf auth peer answers).syncTaskLog .whole projectId after).exec w =
      ((answers.syncTaskLog ⟨projectId, after, roundToken auth peer w.now⟩).mapError fun _ => .msg "sync task log",
        w) := by
  simp only [PeerClient.syncTaskLog, PeerClient.jwt, Prog.within_whole, Prog.bind_eq]
  rw [Prog.exec_bind_of_ok (Prog.exec_look _ w), Prog.exec_mapErr, clientOf, Peer.answering, Prog.exec_ofExcept]
  rfl

theorem exec_client_fetchSnapshot (snapshotId : String) :
    ((clientOf auth peer answers).fetchSnapshot .whole projectId snapshotId).exec w =
      ((answers.fetchSnapshot ⟨projectId, snapshotId, roundToken auth peer w.now⟩).mapError
        fun _ => .msg "fetch snapshot", w) := by
  simp only [PeerClient.fetchSnapshot, PeerClient.jwt, Prog.within_whole, Prog.bind_eq]
  rw [Prog.exec_bind_of_ok (Prog.exec_look _ w), Prog.exec_mapErr, clientOf, Peer.answering, Prog.exec_ofExcept]
  rfl

/-- The bytes that the `n`-th `fetch_object` of the round hands over. -/
def handedOver (answers : Answers) (token : String) (n : Nat) (hash : String) : Option Bytes :=
  match answers.fetchObject n ⟨hash, token⟩ with
  | .ok r => if r.error = "" then some r.data else none
  | .error _ => none

theorem exec_client_fetchObject_ok {n : Nat} {hash : String} {data : Bytes}
    (h : handedOver answers (roundToken auth peer w.now) n hash = some data) :
    ((clientOf auth peer answers).fetchObject .whole n hash).exec w = (.ok data, w) := by
  simp only [PeerClient.fetchObject, PeerClient.jwt, Prog.within_whole, Prog.bind_eq]
  rw [Prog.exec_bind_of_ok (Prog.exec_look _ w), Prog.exec_bind, Prog.exec_mapErr, clientOf, Peer.answering,
    Prog.exec_ofExcept]
  unfold handedOver at h
  split at h
  · rename_i r hr
    split at h
    · rename_i he
      cases h
      rw [← roundToken.eq_def, hr]
      simp only [Except.mapError]
      rw [if_pos he]
      rfl
    · cases h
  · cases h

end

/-- A run that stores nothing but what `put` does. -/
theorem keeps_fetchObjects [Sha256] (auth : JwtAuth) (peer : PeerConfig) (answers : Answers)
    {P : World → Prop} (hput : ∀ data, (ObjectStore.put data).Keeps P) :
    ∀ (hashes : List String) (n : Nat), (fetchObjects .whole (clientOf auth peer answers) n hashes).Keeps P
  | [], _ => Prog.keeps_ret ()
  | hash :: rest, n => by
    simp only [fetchObjects, Prog.within_whole, Prog.bind_eq]
    refine (moves_client_fetchObject (fun _ => id) (moves_answering answers) n hash).keeps.bind fun data => ?_
    exact (hput data).bind fun _ => keeps_fetchObjects auth peer answers hput rest (n + 1)

/-- On the whole state the part moves as the whole does. -/
theorem whole_of {R : World → World → Prop} (s t : World) (h : R (Prog.Focus.whole.get s) t) :
    R s (Prog.Focus.whole.set t s) := h

/-! ## The log half with nothing failing from outside -/

section
variable {σ : Type} (L : Prog.Focus σ World) {s : σ}

theorem exec_localCopy_calm {name : String} {localCopy : Option Project} (hs : (L.get s).faults = [])
    (hread : (L.get s).db.engine.integers = .widened) (hp : Projects.byName (L.get s).db name = localCopy) :
    ((Projects.getByName name).within L).exec s = (.ok localCopy, s) := by
  have hname : (Projects.getByName name).exec (L.get s) = (.ok (Projects.byName (L.get s).db name), L.get s) := by
    refine Projects.getByName_calm hs fun hrefused => ?_
    rw [hread] at hrefused
    cases hrefused
  rw [Prog.exec_within, hname, hp]
  exact Prod.ext rfl (L.set_get s)

theorem exec_localCursor_calm (hs : (L.get s).faults = []) (hread : (L.get s).db.engine.integers = .widened) (p : Project) :
    (localCursor L (some p)).exec s = (.ok (TaskLog.maxCursor (L.get s).db p.id), s) := by
  simp only [localCursor, Prog.bind_eq]
  rw [Prog.exec_bind_of_ok (Prog.exec_attempt _ s), Prog.exec_within, TaskLog.headCursor_calm hs hread]
  exact Prod.ext rfl (L.set_get s)

/-- **As shipped a round for a project that has a local copy ends at its first statement**, whatever the peer answers. -/
theorem exec_syncProject_shipped [Sha256] [HmacSha256] {client : PeerClient σ} {peer : PeerConfig} {remote : RemoteProject}
    {secret : Bytes} {p : Project} (hs : (L.get s).AsShipped) (hp : Projects.byName (L.get s).db remote.projectName = some p) :
    (syncProject L client peer remote secret).exec s = (.error (.msg "get project by name"), L.set (L.get s).tick s) := by
  unfold syncProject
  rw [Prog.bind_eq, Prog.exec_bind_of_error]
  rw [Prog.exec_within, Projects.getByName_refused hs hp]

end

/-- Only the task log and the peer cursors differ, and no fault has been added. -/
def LogOnly (w w' : World) : Prop :=
  w'.db = { w.db with taskLog := w'.db.taskLog, peerCursorState := w'.db.peerCursorState } ∧
    w'.disk = w.disk ∧ w'.now = w.now ∧ (w.faults = [] → w'.faults = [])

theorem LogOnly.refl (w : World) : LogOnly w w := ⟨rfl, rfl, rfl, id⟩

theorem LogOnly.trans {a b c : World} (h : LogOnly a b) (h' : LogOnly b c) : LogOnly a c := by
  obtain ⟨h₁, h₂, h₃, h₄⟩ := h
  obtain ⟨h₁', h₂', h₃', h₄'⟩ := h'
  refine ⟨?_, h₂'.trans h₂, h₃'.trans h₃, fun h => h₄' (h₄ h)⟩
  rw [h₁', h₁]

theorem LogOnly.tick (w : World) : LogOnly w w.tick := ⟨rfl, rfl, rfl, World.tick_faults⟩

section
variable [HmacSha256] (auth : JwtAuth) (peer : PeerConfig) (remote : RemoteProject) (secret : Bytes)
  (answers : Answers) (localId : String) (w : World)

omit [HmacSha256] in
theorem moves_insertPeerEntry (e : LogEntry) : (TaskLog.insertPeerEntry localId e peer.name).Moves LogOnly := by
  refine moves_execute LogOnly.tick fun w db hdb => ?_
  rcases TaskLog.insertRowIgnore_eq_some hdb with ⟨-, rfl⟩ | hins
  · exact LogOnly.tick w
  · obtain ⟨-, -, -, -, hd, -⟩ := TaskLog.insertRow_eq_some.1 hins
    refine ⟨?_, rfl, rfl, World.tick_faults⟩
    rw [hd]

/-- "best-effort": whatever the statement does, the loop goes on. -/
theorem exec_acceptEntry (e : ProtoLogEntry) :
    ((acceptEntry .whole peer remote secret localId e).exec w).1 = .ok () := by
  unfold acceptEntry
  split
  · simp only [Prog.within_whole, Prog.bind_eq]
    rw [Prog.exec_bind_of_ok (Prog.exec_attempt _ w)]
    rfl
  · rfl

omit [HmacSha256] in
theorem moves_updatePeerCursor (cursor : Int) : (updatePeerCursor peer.name localId cursor).Moves LogOnly := by
  refine moves_execute LogOnly.tick fun w db hdb => ?_
  cases hdb
  exact ⟨rfl, rfl, rfl, World.tick_faults⟩

variable {w}

/-- **The task-log delta with nothing failing from outside**: it fails exactly if the peer does, and
only touches the task log and the peer cursors. -/
theorem exec_syncLog_calm (hw : w.faults = []) (hread : w.db.engine.integers = .widened) (p : Project) :
    ∃ w', (syncLog .whole (clientOf auth peer answers) peer remote secret (some p)).exec w =
        ((match answers.syncTaskLog ⟨remote.projectId, TaskLog.maxCursor w.db p.id, roundToken auth peer w.now⟩ with
          | .ok _ => .ok ()
          | .error _ => .error (.msg "sync task log")), w') ∧ LogOnly w w' := by
  have hcur : (localCursor .whole (some p)).exec w = (.ok (TaskLog.maxCursor w.db p.id), w) :=
    exec_localCursor_calm .whole hw hread p
  simp only [syncLog, Prog.bind_eq, Prog.within_whole]
  rw [Prog.exec_bind_of_ok hcur, Prog.exec_bind, exec_client_syncTaskLog]
  cases answers.syncTaskLog ⟨remote.projectId, TaskLog.maxCursor w.db p.id, roundToken auth peer w.now⟩ with
  | error e => exact ⟨w, rfl, LogOnly.refl w⟩
  | ok r =>
    simp only [Except.mapError]
    have hok := Prog.exec_forEach_ok (fun e s => exec_acceptEntry peer remote secret p.id s e) r.entries w
    have hentry : ∀ e, (acceptEntry .whole peer remote secret p.id e).Moves LogOnly := fun e =>
      moves_acceptEntry whole_of e fun _ => moves_insertPeerEntry peer p.id _
    have hmove := Prog.Moves.exec LogOnly.refl (fun _ _ _ => LogOnly.trans)
      (Prog.Moves.forEach fun e (_ : e ∈ r.entries) => hentry e) w
    rw [Prog.exec_bind_of_ok (Prog.exec_eq_of_fst hok)]
    split
    · rw [Prog.exec_bind_of_ok (Prog.exec_attempt _ _)]
      refine ⟨_, rfl, hmove.trans ?_⟩
      exact (moves_updatePeerCursor peer p.id r.headCursor).exec LogOnly.refl
        (fun _ _ _ => LogOnly.trans) _
    · exact ⟨_, rfl, hmove⟩

end

end PeerSync

end A2AGateway
