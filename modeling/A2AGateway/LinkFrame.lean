import A2AGateway.Runs

/-!
# What a peer can touch

A peer project is linked to its remote by `peer_gateway` and `peer_project_id` (`002_projects.sql`),
and "user must explicitly add projects" (`peer_server.rs:164`). The coordinator looks at neither
column: it takes whatever local project carries the remote's *name* (`peer_sync.rs:129`), and without
one it still stores the objects it is handed. As shipped it fails to read a project that carries the name, and
only the objects are left (`sync_respectsLinks_iff`).
-/

namespace A2AGateway

open FileSync PeerSync ObjectStore Gw
open Sha256 (sha256Hex)

/-- The local project is a copy of the peer's project. -/
def Linked (peer : PeerConfig) (remote : RemoteProject) (p : Project) : Prop :=
  p.peerGateway = peer.name ∧ p.peerProjectId = remote.projectId

/-! ## Rows about a project -/

/-- The four tables hold the same rows about the project `q`. -/
structure SameAbout (q : String) (db db' : Db) : Prop where
  taskLog : db'.taskLog.rows.filter (·.projectId == q) = db.taskLog.rows.filter (·.projectId == q)
  snapshots : db'.snapshots.rows.filter (·.projectId == q) = db.snapshots.rows.filter (·.projectId == q)
  projectHeads :
    db'.projectHeads.rows.filter (·.projectId == q) = db.projectHeads.rows.filter (·.projectId == q)
  peerCursorState :
    db'.peerCursorState.rows.filter (·.projectId == q) = db.peerCursorState.rows.filter (·.projectId == q)

theorem SameAbout.refl (q : String) (db : Db) : SameAbout q db db := ⟨rfl, rfl, rfl, rfl⟩

theorem SameAbout.trans {q : String} {a b c : Db} (h : SameAbout q a b) (h' : SameAbout q b c) :
    SameAbout q a c :=
  ⟨h'.1.trans h.1, h'.2.trans h.2, h'.3.trans h.3, h'.4.trans h.4⟩

/-- Only rows about the project `p` differ; the projects themselves do not. -/
def OnlyAbout (p : String) (w w' : World) : Prop :=
  w'.db.projects = w.db.projects ∧ ∀ q, q ≠ p → SameAbout q w.db w'.db

section
variable {p : String}

theorem OnlyAbout.refl (w : World) : OnlyAbout p w w := ⟨rfl, fun q _ => .refl q _⟩

theorem OnlyAbout.tick (w : World) : OnlyAbout p w w.tick := ⟨rfl, fun q _ => .refl q _⟩

theorem OnlyAbout.trans {a b c : World} (h : OnlyAbout p a b) (h' : OnlyAbout p b c) : OnlyAbout p a c :=
  ⟨h'.1.trans h.1, fun q hq => (h.2 q hq).trans (h'.2 q hq)⟩

theorem OnlyAbout.of_objectsOnly {w w' : World} (h : ObjectsOnly w w') : OnlyAbout p w w' := by
  obtain ⟨hdb, -⟩ := h
  rw [OnlyAbout, hdb]
  exact ⟨rfl, fun q _ => ⟨rfl, rfl, rfl, rfl⟩⟩

theorem filter_append_other {α : Type} {q : α → Bool} {l : List α} {a : α} (h : q a = false) :
    (l ++ [a]).filter q = l.filter q := by
  simp [h]

theorem moves_insertPeerEntry_about (e : LogEntry) (src : String) :
    (TaskLog.insertPeerEntry p e src).Moves (OnlyAbout p) := by
  refine moves_execute OnlyAbout.tick fun w db hdb => ?_
  rcases TaskLog.insertRowIgnore_eq_some hdb with ⟨-, rfl⟩ | hins
  · exact OnlyAbout.tick w
  · obtain ⟨-, -, -, -, hd, hr⟩ := TaskLog.insertRow_eq_some.1 hins
    rw [hd]
    refine ⟨rfl, fun q hq => ⟨?_, rfl, rfl, rfl⟩⟩
    simp only [hr]
    exact filter_append_other (by simpa [LogEntry.toRow] using hq.symm)

theorem moves_updatePeerCursor_about (peerName : String) (cursor : Int) :
    (updatePeerCursor peerName p cursor).Moves (OnlyAbout p) := by
  refine moves_execute OnlyAbout.tick fun w db hdb => ?_
  cases hdb
  refine ⟨rfl, fun q hq => ⟨rfl, rfl, rfl, ?_⟩⟩
  refine Table.filter_upsert (by simpa using hq.symm) fun x _ hx => ?_
  have hx' : x.projectId = p := by
    have := (Bool.and_eq_true _ _ ▸ hx : _ ∧ _).2
    simpa using this
  simp [hx', hq.symm]

theorem moves_applyPeerSnapshot_about (snapId transcript fromGateway : String) :
    (applyPeerSnapshot p snapId transcript fromGateway).Moves (OnlyAbout p) := by
  apply moves_applyPeerSnapshot OnlyAbout.refl OnlyAbout.tick
  · intro w now db hdb
    obtain ⟨-, -, hd, hr⟩ := insertSnapshot_eq_some.1 hdb
    rw [hd]
    refine ⟨rfl, fun q hq => ⟨rfl, ?_, rfl, rfl⟩⟩
    simp only [hr]
    exact filter_append_other (by simpa using hq.symm)
  · intro w db hdb
    unfold upsertHead at hdb
    split at hdb
    · cases hdb
      refine ⟨rfl, fun q hq => ⟨rfl, rfl, ?_, rfl⟩⟩
      refine Table.filter_upsert (by simpa using hq.symm) fun x _ hx => ?_
      have hx' : x.projectId = p := by simpa [Constraints.clash] using hx
      simp [hx', hq.symm]
    · cases hdb

end

/-! ## The claim on one round -/

/-- A round that began in `w` and ended in `w'` kept to the projects that are linked to the peer's. -/
structure RespectsLinks (peer : PeerConfig) (remote : RemoteProject) (w w' : World) : Prop where
  projects : w'.db.projects = w.db.projects
  /-- Whatever is not about a linked project is left exactly as it was. -/
  others : ∀ q, (∀ p ∈ w.db.projects.rows, p.id = q → ¬ Linked peer remote p) → SameAbout q w.db w'.db
  /-- Without a linked project nothing changes at all. -/
  nothing : (∀ p ∈ w.db.projects.rows, ¬ Linked peer remote p) → w'.stored = w.stored

variable [Sha256]

/-- The local project that carries the remote's name is linked to it, or it cannot be read; if there is none, the
remote has no head, or the peer has some linked project here, or every digest is recorded already. -/
def LinkedByName (peer : PeerConfig) (remote : RemoteProject) (db : Db) : Prop :=
  match Projects.byName db remote.projectName with
  | some p => Linked peer remote p ∨ db.engine.integers = .refused
  | none => remote.snapshotId = "" ∨ (∃ p ∈ db.projects.rows, Linked peer remote p) ∨
      ∀ b, recorded db (sha256Hex b) = true

variable {g : Gateway} {peer : PeerConfig} {remote : RemoteProject} {answers : Answers}

/-! ## A round on a linked project keeps to it -/

/-- If every digest is recorded, `put` never writes. -/
theorem keeps_put {x : Db × (ObjectPath → Option Bytes)} (hx : ∀ b, recorded x.1 (sha256Hex b) = true)
    (b : Bytes) : (put b).Keeps fun w => w.stored = x := by
  intro w hw
  have hrec : recorded w.db (sha256Hex b) = true := by
    have hdb : w.db = x.1 := congrArg Prod.fst hw
    rw [hdb]
    exact hx b
  simp only [put, existsDb, Prog.bind_eq, Prog.exec_bind]
  rcases exec_op (.msg "exists check") (fun w => (.ok (recorded w.db (sha256Hex b)), w)) w with h | h
  · rw [query, h]
    exact hw
  · rw [query, h]
    simp only [World.tick_db, hrec, if_true]
    exact hw

/-- Without a local copy nothing is stored if there is nothing to pull or nothing new to record. -/
theorem keeps_pullSnapshot_none {x : Db × (ObjectPath → Option Bytes)}
    (hx : remote.snapshotId = "" ∨ ∀ b, recorded x.1 (sha256Hex b) = true) :
    (pullSnapshot .whole (clientOf g.auth peer answers) peer remote none).Keeps fun w => w.stored = x := by
  simp only [pullSnapshot, currentHead, Prog.bind_eq, Prog.pure_eq, Prog.ret_bind]
  split
  · exact Prog.keeps_ret ()
  · rename_i hs
    have hall := hx.resolve_left fun h => hs (Or.inr h)
    refine (moves_client_fetchSnapshot (fun _ => id) (moves_answering answers) _ _).keeps.bind fun snap => ?_
    split
    · exact Prog.keeps_fail _
    · exact (keeps_fetchObjects g.auth peer answers (keeps_put hall) _ _).bind fun _ => Prog.keeps_ret ()

variable [HmacSha256]

variable (g peer remote answers) in
/-- After the lookup, every action of a round is about the local copy. -/
theorem moves_rest_about (p : Project) :
    ((syncLog .whole (clientOf g.auth peer answers) peer remote g.secret (some p)).bind fun _ =>
      pullSnapshot .whole (clientOf g.auth peer answers) peer remote (some p)).Moves (OnlyAbout p.id) := by
  refine (moves_syncLog OnlyAbout.refl (moves_answering answers) whole_of OnlyAbout.tick
    (fun _ _ => moves_insertPeerEntry_about _ _) fun c => moves_updatePeerCursor_about _ c).bind fun _ => ?_
  refine moves_pullSnapshot OnlyAbout.refl (moves_answering answers) whole_of OnlyAbout.tick
    (fun d => (moves_put d).mono fun _ _ => OnlyAbout.of_objectsOnly) fun q hq t => ?_
  cases hq
  exact moves_applyPeerSnapshot_about _ _ _

variable (g peer remote answers) in
/-- Without one, all it writes is objects. -/
theorem moves_rest_none :
    ((syncLog .whole (clientOf g.auth peer answers) peer remote g.secret none).bind fun _ =>
      pullSnapshot .whole (clientOf g.auth peer answers) peer remote none).Moves ObjectsOnly := by
  refine (moves_syncLog_none ObjectsOnly.refl (moves_answering answers) peer remote g.secret).bind fun _ => ?_
  refine moves_pullSnapshot ObjectsOnly.refl (moves_answering answers) whole_of ObjectsOnly.tick moves_put ?_
  intro q hq
  cases hq

/-- **A round on a project that is linked, or that has nothing to pull, respects the links.** -/
theorem respectsLinks_of_linkedByName {w : World} (h : LinkedByName peer remote w.db)
    (faults : List (Option Nat)) :
    RespectsLinks peer remote w ((g.syncProject peer remote answers).exec { w with faults }).2 := by
  let w₀ : World := { w with faults }
  have hrefl : RespectsLinks peer remote w w₀.tick := ⟨rfl, fun q _ => .refl q _, fun _ => rfl⟩
  simp only [Gateway.syncProject, syncProject, Prog.within_whole, Prog.bind_eq]
  rw [Prog.exec_bind]
  rcases hread : (Projects.getByName remote.projectName).exec w₀ with ⟨res, w₁⟩
  cases res with
  | error e =>
    have hw₁ : w₁ = w₀.tick := exec_fetch_error hread
    rw [hw₁]
    exact hrefl
  | ok localCopy =>
    obtain ⟨-, ⟨hcopy, hrefused⟩, rfl⟩ := Projects.getByName_iff.1 hread
    have hdb : w₀.db = w.db := rfl
    rw [hdb] at hcopy hrefused
    subst hcopy
    simp only [LinkedByName] at h
    cases hp : Projects.byName w.db remote.projectName with
    | some p =>
      -- All that happens is about `p`, which is linked.
      rw [hp] at h
      have hlinked : Linked peer remote p := h.resolve_right fun hint => by
        have hnone := hrefused hint
        rw [hp] at hnone
        cases hnone
      have hmem := (Projects.byName_eq_some.1 hp).1
      have hrun := (moves_rest_about g peer remote answers p).exec OnlyAbout.refl (fun _ _ _ => OnlyAbout.trans) w₀.tick
      refine ⟨hrun.1, fun q hq => hrun.2 q ?_, fun hn => absurd hlinked (hn p hmem)⟩
      rintro rfl
      exact hq p hmem rfl hlinked
    | none =>
      rw [hp] at h
      have hrun := (moves_rest_none g peer remote answers).exec ObjectsOnly.refl (fun _ _ _ => ObjectsOnly.trans) w₀.tick
      refine ⟨?_, fun q _ => ?_, fun hn => ?_⟩
      · rw [hrun.1]
        rfl
      · rw [hrun.1]
        exact ⟨rfl, rfl, rfl, rfl⟩
      · have hx : remote.snapshotId = "" ∨ ∀ b, recorded w₀.tick.stored.1 (sha256Hex b) = true := by
          rcases h with hs | ⟨q, hq, hl⟩ | hall
          · exact Or.inl hs
          · exact absurd hl (hn q hq)
          · exact Or.inr hall
        refine Prog.Keeps.bind ?_ (fun _ => keeps_pullSnapshot_none hx) w₀.tick rfl
        exact (moves_syncLog_none (fun _ => id) (moves_answering answers) peer remote g.secret).keeps

/-! ## Otherwise some answers break it -/

/-- The row a round keeps for a peer and a project. -/
def cursorRow (db : Db) (peerName projectId : String) : Option PeerCursor :=
  db.peerCursorState.find? fun c => c.peerName == peerName && c.projectId == projectId

omit [Sha256] [HmacSha256] in
/-- The row is among those about its project. -/
theorem cursorRow_of_sameAbout {q peerName : String} {db db' : Db} (h : SameAbout q db db') :
    cursorRow db' peerName q = cursorRow db peerName q := by
  have key : ∀ d : Db, cursorRow d peerName q =
      (d.peerCursorState.rows.filter (·.projectId == q)).find? (·.peerName == peerName) := by
    intro d
    rw [List.find?_filter]
    refine congrArg (d.peerCursorState.rows.find? ·) (funext fun c => ?_)
    rw [Bool.and_comm, Bool.decide_and, Bool.decide_eq_true, Bool.decide_eq_true]
  rw [key, key, h.peerCursorState]

/-- A peer that only reports a cursor. -/
def reporting (headCursor : Int) : Answers where
  syncTaskLog _ := .ok ⟨[], headCursor, ""⟩
  fetchSnapshot _ := .error ⟨.unavailable, ""⟩
  fetchObject _ _ := .error ⟨.unavailable, ""⟩

omit [Sha256] [HmacSha256] in
theorem cursorRow_upsertPeerCursor (peerName projectId : String) (c : Int) (now : F64) (db : Db) :
    (cursorRow (upsertPeerCursor peerName projectId c now db) peerName projectId).map (·.lastCursor) = some c := by
  have hs := @Table.find?_upsert_self _ _ db.peerCursorState ⟨peerName, projectId, c, now⟩
    (fun r => { r with lastCursor := c, updatedAt := now }) (fun _ _ => rfl)
    (fun r => r.peerName == peerName && r.projectId == projectId) (by simp) fun r => rfl
  simp only [cursorRow, upsertPeerCursor, hs]
  cases db.peerCursorState.find? fun r => r.peerName == peerName && r.projectId == projectId <;> rfl

omit [Sha256] in
theorem exec_syncLog_reporting {w : World} (hw : w.faults = []) (hread : w.db.engine.integers = .widened) (p : Project) {c : Int}
    (hc : TaskLog.maxCursor w.db p.id < c) :
    (syncLog .whole (clientOf g.auth peer (reporting c)) peer remote g.secret (some p)).exec w =
      (.ok (), { w with db := upsertPeerCursor peer.name p.id c w.now w.db }) := by
  have hcur : (localCursor .whole (some p)).exec w = (.ok (TaskLog.maxCursor w.db p.id), w) :=
    exec_localCursor_calm .whole hw hread p
  simp only [syncLog, Prog.bind_eq, Prog.within_whole]
  rw [Prog.exec_bind_of_ok hcur, Prog.exec_bind, exec_client_syncTaskLog]
  simp only [reporting, Prog.mapError_ok, Prog.forEach, Prog.ret_bind, if_pos hc]
  rw [Prog.exec_bind, Prog.exec_attempt, updatePeerCursor, exec_execute_calm hw]
  rfl

/-- The peer cursors are as before. -/
def KeepsCursors (w w' : World) : Prop := w'.db.peerCursorState = w.db.peerCursorState

omit [Sha256] [HmacSha256] in
theorem KeepsCursors.refl (w : World) : KeepsCursors w w := rfl

omit [HmacSha256] in
variable (g peer remote answers) in
/-- The snapshot half does not touch them. -/
theorem moves_pullSnapshot_cursors (p : Project) :
    (pullSnapshot .whole (clientOf g.auth peer answers) peer remote (some p)).Moves KeepsCursors := by
  have ht : ∀ w : World, KeepsCursors w w.tick := fun _ => rfl
  refine moves_pullSnapshot KeepsCursors.refl (moves_answering _) whole_of ht (fun d => (moves_put d).mono fun w w' h => ?_)
    fun q hq t => ?_
  · show w'.db.peerCursorState = w.db.peerCursorState
    rw [h.1]
  · cases hq
    refine moves_applyPeerSnapshot KeepsCursors.refl ht (fun w now db hdb => ?_) fun w db hdb => ?_
    · show db.peerCursorState = w.db.peerCursorState
      rw [(insertSnapshot_eq_some.1 hdb).2.2.1]
    · show db.peerCursorState = w.db.peerCursorState
      rw [upsertHead_frame hdb]

/-- A reported cursor beyond the local one ends up in the row of whatever project has the name. -/
theorem cursorRow_after_reporting {w : World} (hw : w.faults = []) (hread : w.db.engine.integers = .widened) {p : Project}
    (hp : Projects.byName w.db remote.projectName = some p) {c : Int}
    (hc : TaskLog.maxCursor w.db p.id < c) :
    (cursorRow ((g.syncProject peer remote (reporting c)).exec w).2.db peer.name p.id).map (·.lastCursor) =
      some c := by
  have hname : ((Projects.getByName remote.projectName).within .whole).exec w = (.ok (some p), w) :=
    exec_localCopy_calm .whole hw hread hp
  have hkept := (moves_pullSnapshot_cursors g peer remote (reporting c) p).exec KeepsCursors.refl
    (fun _ _ _ h h' => Eq.trans h' h) { w with db := upsertPeerCursor peer.name p.id c w.now w.db }
  unfold KeepsCursors at hkept
  simp only [Gateway.syncProject, syncProject, Prog.bind_eq]
  rw [Prog.exec_bind_of_ok hname, Prog.exec_bind_of_ok (exec_syncLog_reporting hw hread p hc),
    ← cursorRow_upsertPeerCursor peer.name p.id c w.now w.db, cursorRow, cursorRow, hkept]

/-- A peer that hands over one object for a snapshot nobody has here. -/
def handing (data : Bytes) : Answers where
  syncTaskLog _ := .ok ⟨[], 0, ""⟩
  fetchSnapshot r := .ok ⟨r.snapshotId, "", ["object"], ""⟩
  fetchObject _ r := .ok ⟨r.sha256, data, ""⟩

/-- Without a local copy, the object handed over is stored all the same. -/
theorem exec_handing {w : World} {faults : List (Option Nat)} {data : Bytes}
    (hp : Projects.byName w.db remote.projectName = none) (hs : remote.snapshotId ≠ "") :
    ((g.syncProject peer remote (handing data)).exec { w with faults := none :: faults }).2 =
      ((put data).exec { w with faults }).2 := by
  let w₁ : World := { w with faults }
  have hname : ((Projects.getByName remote.projectName).within .whole).exec { w with faults := none :: faults } =
      (.ok none, w₁) := by
    rw [Prog.within_whole]
    refine Projects.getByName_iff.2 ⟨?_, ⟨hp.symm, fun _ => hp⟩, rfl⟩
    simp [Passes]
  have hlog : (syncLog .whole (clientOf g.auth peer (handing data)) peer remote g.secret none).exec w₁ =
      (.ok (), w₁) := by
    simp only [syncLog, localCursor, Prog.bind_eq, Prog.pure_eq, Prog.ret_bind]
    rw [Prog.exec_bind, exec_client_syncTaskLog]
    rfl
  have hresp : ((clientOf g.auth peer (handing data)).fetchSnapshot .whole remote.projectId remote.snapshotId).exec w₁ =
      (.ok ⟨remote.snapshotId, "", ["object"], ""⟩, w₁) := by
    rw [exec_client_fetchSnapshot]
    rfl
  have hobj : ((clientOf g.auth peer (handing data)).fetchObject .whole 0 "object").exec w₁ = (.ok data, w₁) :=
    exec_client_fetchObject_ok g.auth peer _ w₁ rfl
  simp only [Gateway.syncProject, syncProject, Prog.bind_eq]
  rw [Prog.exec_bind_of_ok hname, Prog.exec_bind_of_ok hlog]
  simp only [pullSnapshot, currentHead, Prog.bind_eq, Prog.pure_eq, Prog.ret_bind]
  have hnew : ¬ ("" = remote.snapshotId ∨ remote.snapshotId = "") := by
    rintro (h | h)
    · exact hs h.symm
    · exact hs h
  rw [if_neg hnew, Prog.exec_bind_of_ok hresp, if_neg (by simp)]
  simp only [fetchObjects, Prog.bind_eq, Prog.within_whole]
  rw [Prog.exec_bind, Prog.exec_bind_of_ok hobj, Prog.exec_bind]
  cases (put data).exec w₁ with
  | mk r w₂ => cases r <;> rfl

omit [HmacSha256] in
/-- An object that is not recorded cannot be put without a trace: one way of ending changes what is
stored. -/
theorem put_leaves_trace {w : World} {data : Bytes} (hrec : recorded w.db (sha256Hex data) = false) :
    ∃ faults, ((put data).exec { w with faults }).2.stored ≠ w.stored := by
  obtain ⟨p, hp⟩ := objectPath_of_valid (validHash_sha256Hex data)
  by_cases hd : data = []
  · -- An empty object fits its row.
    refine ⟨[], fun h => ?_⟩
    have hput := (@exec_put_calm _ data { w with faults := [] } rfl).2 (Or.inr (by rw [hd]; rfl))
    have hafter := recorded_put (Prog.exec_eq_of_fst hput) (sha256Hex data)
    have hdb : ((put data).exec { w with faults := [] }).2.db = w.db := congrArg Prod.fst h
    rw [hdb, hrec] at hafter
    simp at hafter
  · -- A whole write and one that failed at once leave different files.
    have hdisk : ∀ (f : Option Nat) (b : Bytes), b = f.elim data (data.take ·) →
        ((put data).exec { w with faults := [none, none, f] }).2.disk = Function.update w.disk p (some b) := by
      intro f b hb
      simp only [put, existsDb, Prog.bind_eq, Prog.exec_bind]
      cases f <;> subst hb <;> simp [query, ioRead, ioWrite, op, execute, statement, hrec, hp, orThrow, World.tick,
        insertObject] <;> split <;> rfl
    by_cases h₁ : ((put data).exec { w with faults := [none, none, none] }).2.stored = w.stored
    · refine ⟨[none, none, some 0], fun h₂ => hd ?_⟩
      have e₁ : _ = w.disk := congrArg Prod.snd h₁
      have e₂ : _ = w.disk := congrArg Prod.snd h₂
      have e := e₁.trans e₂.symm
      have e' := congrFun ((hdisk none data rfl).symm.trans (e.trans (hdisk (some 0) [] rfl))) p
      simpa using e'
    · exact ⟨_, h₁⟩

/-- **A round respects the links whatever the peer answers exactly if the name leads to a linked
project or to nothing that could be stored.** -/
theorem sync_respectsLinks_iff (g : Gateway) (peer : PeerConfig) (remote : RemoteProject) (w : World) :
    (∀ answers faults,
      RespectsLinks peer remote w ((g.syncProject peer remote answers).exec { w with faults }).2) ↔
      LinkedByName peer remote w.db := by
  refine ⟨fun h => ?_, fun h answers faults => respectsLinks_of_linkedByName h faults⟩
  unfold LinkedByName
  cases hp : Projects.byName w.db remote.projectName with
  | some p =>
    -- Two reported cursors would have to leave the same row of an unlinked project.
    by_contra hneither
    rw [not_or] at hneither
    obtain ⟨hl, hrefused⟩ := hneither
    have hread := IntegerDecoding.ne_refused.1 hrefused
    have hmem := Projects.byName_eq_some.1 hp
    have hnot : ∀ q ∈ w.db.projects.rows, q.id = p.id → ¬ Linked peer remote q := by
      intro q hq hid
      have : q = p := w.db.projects.eq_of_clash hq hmem.1 (by simp [Constraints.clash, hid])
      rwa [this]
    have hrow : ∀ c, TaskLog.maxCursor w.db p.id < c → (cursorRow w.db peer.name p.id).map (·.lastCursor) = some c := by
      intro c hc
      have hsame := (h (reporting c) []).others p.id hnot
      rw [← cursorRow_of_sameAbout hsame]
      exact @cursorRow_after_reporting _ g peer remote _ { w with faults := [] } rfl hread p hp c hc
    have h₁ := hrow (TaskLog.maxCursor w.db p.id + 1) (by omega)
    have h₂ := hrow (TaskLog.maxCursor w.db p.id + 2) (by omega)
    rw [h₁] at h₂
    injection h₂ with h₂
    omega
  | none =>
    -- One object that is not recorded would have to leave no trace.
    by_contra hn
    push Not at hn
    obtain ⟨hs, hnone, b, hb⟩ := hn
    obtain ⟨faults, htrace⟩ := put_leaves_trace (by simpa using hb)
    have hrun := (h (handing b) (none :: faults)).nothing hnone
    rw [exec_handing hp hs] at hrun
    exact htrace hrun

/-! ## A project that is not here -/

omit [Sha256] [HmacSha256] in
/-- **What a peer hands over for a project that nobody has here is stored.** -/
theorem object_without_project :
    letI := demoSha256
    letI := HmacSha256.recorded []
    ∃ w peer remote answers, Reachable demoGateway w ∧ w.AsShipped ∧
      (∀ p ∈ w.db.projects.rows, ¬ Linked peer remote p) ∧
      ¬ RespectsLinks peer remote w ((demoGateway.syncProject peer remote answers).exec w).2 := by
  let := demoSha256
  let := HmacSha256.recorded []
  let peer : PeerConfig := ⟨"gw-b"⟩
  let remote : RemoteProject := { projectId := "p-b", projectName := "demo", snapshotId := "s-b", gatewayName := "gw-b" }
  refine ⟨replay demoGateway [], peer, remote, handing (asBytes "1"), ⟨[], _, rfl⟩, rfl, ?_, fun h => ?_⟩
  · intro p hp
    cases hp
  · have hstored := h.nothing fun p hp => by cases hp
    have hobjects : ((demoGateway.syncProject peer remote (handing (asBytes "1"))).exec (replay demoGateway [])).2.db.objects.rows =
        [] := congrArg (fun x => x.1.objects.rows) hstored
    revert hobjects
    decide +kernel

end A2AGateway
