import A2AGateway.Runs

/-!
# When a pull reaches the peer's head

As shipped none does: a project that is there cannot be read, and the round ends at its first statement. With the
columns of a project decoded a round inserts the peer's snapshot with a plain `INSERT` (`file_sync.rs:127-130`),
although its id is a hash and the row may be there: from an earlier pull, from a pull that failed before
`advance_head`, or from another project with the same files. Then the statement fails, the round ends with an
error, and so does every later one while the peer stays at that head.
-/

namespace A2AGateway

open FileSync PeerSync ObjectStore
open Sha256 (sha256Hex)

/-- The head of the project is the snapshot with the given id. -/
def IsHead (w : World) (projectId snapId : String) : Prop :=
  ∃ snap, ((head projectId).exec w.calm).1 = .ok (some snap) ∧ snap.id = snapId

theorem isHead_iff {w : World} {projectId snapId : String} :
    IsHead w projectId snapId ↔ ∃ snap, headOf w.db projectId = some snap ∧ snap.id = snapId := by
  unfold IsHead
  rw [exec_head_calm rfl]
  simp

/-! ## The objects of a round -/

/-- What the peer hands over for the requests from the `n`-th on; `none` if it fails one. -/
def handedOverAll (answers : Answers) (token : String) : Nat → List String → Option (List Bytes)
  | _, [] => some []
  | n, hash :: rest => do
    let data ← handedOver answers token n hash
    return data :: (← handedOverAll answers token (n + 1) rest)

section
variable [Sha256]

/-- Each object is known already or its size fits the row that it gets. -/
def Storable (known : String → Bool) : List Bytes → Prop
  | [] => True
  | data :: rest => (known (sha256Hex data) = true ∨ fitsInteger data.length = true) ∧
      Storable (fun h => known h || h == sha256Hex data) rest

/-- **With nothing failing, the objects handed over are stored exactly if they are storable.** -/
theorem exec_fetchObjects_calm {auth : JwtAuth} {peer : PeerConfig} {answers : Answers} :
    ∀ {hashes : List String} {n : Nat} {objects : List Bytes} {w : World}, w.faults = [] →
      handedOverAll answers (roundToken auth peer w.now) n hashes = some objects →
      (((fetchObjects .whole (clientOf auth peer answers) n hashes).exec w).1 = .ok () ↔
        Storable (recorded w.db) objects)
  | [], _, _, w, _, h => by
    cases h
    exact ⟨fun _ => trivial, fun _ => rfl⟩
  | hash :: rest, n, _, w, hw, h => by
    obtain ⟨data, hd, h⟩ := Option.bind_eq_some_iff.1 h
    obtain ⟨others, ho, h⟩ := Option.bind_eq_some_iff.1 h
    cases h
    simp only [fetchObjects, Prog.within_whole, Prog.bind_eq, Storable]
    rw [Prog.exec_bind_of_ok (exec_client_fetchObject_ok auth peer answers w hd), ← exec_put_calm hw]
    have hsame := (moves_put data).exec ObjectsOnly.refl (fun _ _ _ => ObjectsOnly.trans) w
    rw [Prog.exec_bind]
    cases hput : (put data).exec w with
    | mk r w₁ =>
      rw [hput] at hsame
      obtain ⟨-, -, hnow, hcalm⟩ := hsame
      cases r with
      | error e => simp
      | ok hash' =>
        obtain rfl := (exec_put_ok hput).1
        have hrec : recorded w₁.db = fun h => recorded w.db h || h == sha256Hex data :=
          funext fun x => recorded_put hput x
        rw [← hnow] at ho
        rw [← hrec, ← exec_fetchObjects_calm (hcalm hw) ho]
        simp only [true_and]

/-! ## The round -/

/-- The peer serves the snapshot it reports, and every object it lists as missing. -/
structure Serves (answers : Answers) (token : String) (remote : RemoteProject)
    (resp : FetchSnapshotResponse) (objects : List Bytes) : Prop where
  snapshot : answers.fetchSnapshot ⟨remote.projectId, remote.snapshotId, token⟩ = .ok resp
  noError : resp.error = ""
  objects : handedOverAll answers token 0 resp.missingObjects = some objects

/-- The snapshot can be pulled: it is the head already, or its id has no row yet and its objects
can be stored. -/
def Pullable (db : Db) (projectId snapId : String) (objects : List Bytes) : Prop :=
  (∃ snap, headOf db projectId = some snap ∧ snap.id = snapId) ∨
    (∀ r ∈ db.snapshots.rows, r.id ≠ snapId) ∧ Storable (recorded db) objects

variable {auth : JwtAuth} {peer : PeerConfig} {remote : RemoteProject} {answers : Answers}
  {p : Project} {w : World} {resp : FetchSnapshotResponse} {objects : List Bytes}

omit [Sha256] in
theorem exec_currentHead_calm (hw : w.faults = []) :
    (currentHead .whole (some p)).exec w = (.ok (((headOf w.db p.id).map (·.id)).getD ""), w) := by
  simp only [currentHead, Prog.within_whole, Prog.bind_eq]
  rw [Prog.exec_bind, Prog.exec_attempt, exec_head_calm hw]
  rfl

omit [Sha256] in
/-- No head has the empty id. -/
theorem headId_eq_iff {db : Db} {projectId id : String} (hid : id ≠ "") :
    ((headOf db projectId).map (·.id)).getD "" = id ↔ ∃ snap, headOf db projectId = some snap ∧ snap.id = id := by
  cases headOf db projectId with
  | none => simp [hid.symm]
  | some snap => simp

/-- **The snapshot part of a round, with nothing failing.** -/
theorem exec_pullSnapshot_calm (hw : w.faults = []) (hp : w.db.hasProject p.id = true)
    (hs : remote.snapshotId ≠ "")
    (hserves : Serves answers (roundToken auth peer w.now) remote resp objects) :
    (∃ w', (pullSnapshot .whole (clientOf auth peer answers) peer remote (some p)).exec w = (.ok (), w') ∧
        IsHead w' p.id remote.snapshotId) ↔
      Pullable w.db p.id remote.snapshotId objects := by
  simp only [pullSnapshot, Prog.bind_eq, Prog.within_whole]
  rw [Prog.exec_bind_of_ok (exec_currentHead_calm hw)]
  by_cases hhead : ((headOf w.db p.id).map (·.id)).getD "" = remote.snapshotId
  · -- "already up to date"
    rw [if_pos (Or.inl hhead)]
    have hh := (headId_eq_iff hs).1 hhead
    exact ⟨fun _ => Or.inl hh, fun _ => ⟨w, rfl, isHead_iff.2 hh⟩⟩
  · rw [if_neg (by tauto)]
    have hnot := (headId_eq_iff hs).not.1 hhead
    have hresp : ((clientOf auth peer answers).fetchSnapshot .whole remote.projectId remote.snapshotId).exec w =
        (.ok resp, w) := by
      rw [exec_client_fetchSnapshot, hserves.snapshot]
      rfl
    rw [Prog.exec_bind_of_ok hresp, if_neg (by simpa using hserves.noError), Pullable, or_iff_right hnot,
      ← snapshotRow_eq_none, ← exec_fetchObjects_calm hw hserves.objects, Prog.exec_bind]
    have hmoves : (fetchObjects .whole (clientOf auth peer answers) 0 resp.missingObjects).Moves ObjectsOnly :=
      moves_fetchObjects ObjectsOnly.refl (moves_answering answers) whole_of moves_put _ _
    have hsame := hmoves.exec ObjectsOnly.refl (fun _ _ _ => ObjectsOnly.trans) w
    cases hf : (fetchObjects .whole (clientOf auth peer answers) 0 resp.missingObjects).exec w with
    | mk r w₁ =>
      rw [hf] at hsame
      obtain ⟨hdb, -, -, hcalm⟩ := hsame
      cases r with
      | error e => simp
      | ok _ =>
        have hp₁ : w₁.db.hasProject p.id = true := by rw [hdb]; exact hp
        have hrow₁ : snapshotRow w₁.db remote.snapshotId = snapshotRow w.db remote.snapshotId := by
          rw [hdb]
          rfl
        simp only [and_true]
        rcases exec_applyPeerSnapshot_calm (hcalm hw) hp₁ with
          ⟨⟨snap, w₂, happ, hid, hhd⟩, hn⟩ | ⟨⟨e, w₂, happ⟩, hn⟩
        · rw [Prog.exec_bind_of_ok happ]
          exact ⟨fun _ => hrow₁ ▸ hn, fun _ => ⟨w₂, rfl, isHead_iff.2 ⟨snap, hhd, hid⟩⟩⟩
        · rw [Prog.exec_bind_of_error happ]
          constructor
          · rintro ⟨_, h, -⟩
            cases h
          · exact fun h => absurd (hrow₁.trans h) hn

/-- The peer answers the round's `sync_task_log`. -/
def AnswersLog (answers : Answers) (token : String) (remote : RemoteProject) (afterCursor : Int) : Prop :=
  ∃ r, answers.syncTaskLog ⟨remote.projectId, afterCursor, token⟩ = .ok r

theorem sync_reachesHead_of_widened [HmacSha256] (g : Gateway) (hw : w.faults = [])
    (hread : w.db.engine.integers = .widened) (hp : Projects.byName w.db remote.projectName = some p)
    (hs : remote.snapshotId ≠ "") (hserves : Serves answers (roundToken g.auth peer w.now) remote resp objects) :
    (∃ w', (g.syncProject peer remote answers).exec w = (.ok (), w') ∧ IsHead w' p.id remote.snapshotId) ↔
      AnswersLog answers (roundToken g.auth peer w.now) remote (TaskLog.maxCursor w.db p.id) ∧
        Pullable w.db p.id remote.snapshotId objects := by
  have hname : ((Projects.getByName remote.projectName).within .whole).exec w = (.ok (some p), w) :=
    exec_localCopy_calm .whole hw hread hp
  obtain ⟨w₁, hlog, hdb, -, hnow, hcalm⟩ := exec_syncLog_calm g.auth peer remote g.secret answers hw hread p
  simp only [Gateway.syncProject, syncProject, Prog.bind_eq]
  rw [Prog.exec_bind_of_ok hname]
  cases hans : answers.syncTaskLog
      ⟨remote.projectId, TaskLog.maxCursor w.db p.id, roundToken g.auth peer w.now⟩ with
  | error e =>
    rw [hans] at hlog
    rw [Prog.exec_bind_of_error hlog]
    constructor
    · rintro ⟨_, h, _⟩
      cases h
    · rintro ⟨⟨r, hr⟩, _⟩
      rw [hans] at hr
      cases hr
  | ok r =>
    rw [hans] at hlog
    rw [Prog.exec_bind_of_ok hlog]
    -- The log half has left projects, snapshots, heads and objects as they were.
    have hp₁ : w₁.db.hasProject p.id = true := by
      rw [hdb]
      exact Projects.hasProject_of_mem (Projects.byName_eq_some.1 hp).1
    rw [← hnow] at hserves
    rw [exec_pullSnapshot_calm (hcalm hw) hp₁ hs hserves]
    have hpull : Pullable w₁.db p.id remote.snapshotId objects ↔ Pullable w.db p.id remote.snapshotId objects := by
      rw [hdb]
      rfl
    rw [hpull]
    exact ⟨fun h => ⟨⟨r, hans⟩, h⟩, fun h => h.2⟩

/-- **A round reaches the peer's head exactly if the columns of a project are decoded, which they are not as shipped,
the log half is answered and the snapshot is the head already, or has no row yet and storable objects.** -/
theorem sync_reachesHead_iff [HmacSha256] (g : Gateway) (hw : w.faults = [])
    (hp : Projects.byName w.db remote.projectName = some p) (hs : remote.snapshotId ≠ "")
    (hserves : Serves answers (roundToken g.auth peer w.now) remote resp objects) :
    (∃ w', (g.syncProject peer remote answers).exec w = (.ok (), w') ∧ IsHead w' p.id remote.snapshotId) ↔
      w.db.engine.integers = .widened ∧
        AnswersLog answers (roundToken g.auth peer w.now) remote (TaskLog.maxCursor w.db p.id) ∧
        Pullable w.db p.id remote.snapshotId objects := by
  cases hread : w.db.engine.integers with
  | refused =>
    have hrun : (g.syncProject peer remote answers).exec w = (.error (.msg "get project by name"), _) :=
      exec_syncProject_shipped (L := .whole) hread hp
    rw [hrun]
    constructor
    · rintro ⟨_, h, -⟩
      cases h
    · rintro ⟨h, -⟩
      cases h
  | widened => exact (sync_reachesHead_of_widened g hw hread hp hs hserves).trans (and_iff_right rfl).symm

end

/-! ## A peer that goes back to an earlier head -/

section demo

def demoPeer : PeerConfig := ⟨"gw-b"⟩

/-- The peer's project `demo`, at the given head. -/
def demoRemote (snapshotId : String) : RemoteProject where
  projectId := "00000000-0000-4000-8000-000000000002"
  projectName := "demo"
  snapshotId := snapshotId
  gatewayName := "gw-b"

/-- The peer has nothing in its log, serves its two snapshots and lists no object as missing. -/
def demoServing : Answers where
  syncTaskLog _ := .ok ⟨[], 0, ""⟩
  fetchSnapshot r := .ok ⟨r.snapshotId,
    if r.snapshotId = demoSnapshot₁ then
      "F|a.txt|6b86b273ff34fce19d6b804eff5a3f5747ada4eaa22f1d49c01e52ddb7875b4b|1|644|100"
    else "F|a.txt|d4735e3a265e16eee03f59718b9b5d03019c07d8b6c51f90da3a666eec13ab35|2|644|200", [], ""⟩
  fetchObject _ r := .ok ⟨r.sha256, [], "object not found"⟩

/-- The gateway pulls the first snapshot and then the second. -/
def demoPulls : List Event :=
  demoSetup ++ [.call (.sync demoPeer (demoRemote demoSnapshot₁) demoServing),
    .call (.sync demoPeer (demoRemote demoSnapshot₂) demoServing)]

theorem demoServing_serves (snapshotId token : String) :
    ∃ resp, Serves demoServing token (demoRemote snapshotId) resp [] := by
  exact ⟨_, rfl, rfl, rfl⟩

/-- With the columns decoded a first pull reaches the head. -/
theorem sync_reachesHead_demo :
    letI := demoSha256
    letI := HmacSha256.recorded []
    ∃ w w', (demoGateway.syncProject demoPeer (demoRemote demoSnapshot₁) demoServing).exec w = (.ok (), w') ∧
      IsHead w' demoId.text demoSnapshot₁ := by
  let := demoSha256
  let := HmacSha256.recorded []
  obtain ⟨⟨hfaults, hread⟩, hdemo, hrows⟩ := demo_set_up
  generalize replay demoGateway demoSetup .widening = w at hfaults hread hdemo hrows
  obtain ⟨resp, hserves⟩ := demoServing_serves demoSnapshot₁ (roundToken demoGateway.auth demoPeer w.now)
  obtain ⟨p, hp, hid⟩ := Option.map_eq_some_iff.1 hdemo
  have hnew : ∀ r ∈ w.db.snapshots.rows, r.id ≠ (demoRemote demoSnapshot₁).snapshotId := by
    intro r hr
    rw [List.length_eq_zero_iff.1 hrows] at hr
    cases hr
  obtain ⟨w', hrun, hh⟩ := (sync_reachesHead_iff demoGateway hfaults hp (by decide) hserves).2
    ⟨hread, ⟨_, rfl⟩, Or.inr ⟨hnew, trivial⟩⟩
  exact ⟨w, w', hrun, hid ▸ hh⟩

/-- **As shipped the first pull fails, although everything is served and nothing fails.** -/
theorem first_pull_fails :
    letI := demoSha256
    letI := HmacSha256.recorded []
    ∃ w, Reachable demoGateway w ∧ w.AsShipped ∧ w.faults = [] ∧
      (Projects.byName w.db "demo").isSome = true ∧
      (∃ resp, Serves demoServing (roundToken demoGateway.auth demoPeer w.now) (demoRemote demoSnapshot₁) resp []) ∧
      ((demoGateway.syncProject demoPeer (demoRemote demoSnapshot₁) demoServing).exec w).1 =
        .error (.msg "get project by name") := by
  let := demoSha256
  let := HmacSha256.recorded []
  let w := replay demoGateway demoSetup
  have h : w.AsShipped ∧ w.faults = [] ∧ (Projects.byName w.db "demo").isSome = true ∧
      ((demoGateway.syncProject demoPeer (demoRemote demoSnapshot₁) demoServing).exec w).1 =
        .error (.msg "get project by name") := by decide +kernel
  exact ⟨w, ⟨_, _, rfl⟩, h.1, h.2.1, h.2.2.1, demoServing_serves _ _, h.2.2.2⟩

-- With the columns decoded the round fails when the peer goes back to its first snapshot.
example :
    letI := demoSha256
    letI := HmacSha256.recorded []
    ((demoGateway.syncProject demoPeer (demoRemote demoSnapshot₁) demoServing).exec (replay demoGateway demoPulls .widening)).1 =
      .error (.msg "insert peer snapshot") := by
  decide +kernel

end demo

end A2AGateway
