import A2AGateway.ObjectStore
import A2AGateway.Projects

/-!
# Snapshots and heads (`file_sync.rs`)

| here | there |
| --- | --- |
| `scanAndSnapshot`                 | `file_sync.rs:75-109` |
| `applyPeerSnapshot`               | `file_sync.rs:112-142` |
| `head`, `getSnapshot`             | `file_sync.rs:159-180` |
| `writeSnapshot`, `advanceHead`    | `file_sync.rs:204-241` |
-/

namespace A2AGateway

open Gw

namespace FileSync

/-- `SELECT * FROM snapshots WHERE id = $1`. -/
def snapshotRow (db : Db) (snapId : String) : Option Snapshot := db.snapshots.find? (·.id == snapId)

/-- `SELECT snapshot_id FROM project_heads WHERE project_id = $1`. -/
def headRow (db : Db) (projectId : String) : Option String :=
  (db.projectHeads.find? (·.projectId == projectId)).map (·.snapshotId)

/-- The snapshot that is the project's head. -/
def headOf (db : Db) (projectId : String) : Option Snapshot :=
  (headRow db projectId).bind (snapshotRow db)

def getSnapshot (snapId : String) : Gw (Option Snapshot) := query .sqlx fun db => snapshotRow db snapId

def head (projectId : String) : Gw (Option Snapshot) := do
  match ← query .sqlx fun db => headRow db projectId with
  | none => return none
  | some snapId => getSnapshot snapId

/-- `INSERT INTO snapshots`: a new row that references a project. -/
def insertSnapshot (snap : Snapshot) (db : Db) : Option Db :=
  if db.hasProject snap.projectId then
    (db.snapshots.insert snap).map fun snapshots => { db with snapshots }
  else none

/-- `INSERT INTO project_heads .. ON CONFLICT(project_id) DO UPDATE SET snapshot_id=excluded.snapshot_id`. -/
def upsertHead (projectId snapId : String) (db : Db) : Option Db :=
  if db.hasProject projectId && db.hasSnapshot snapId then
    some { db with projectHeads :=
      db.projectHeads.upsert ⟨projectId, snapId⟩ (fun h => { h with snapshotId := snapId }) fun _ _ => rfl }
  else none

def advanceHead (projectId snapId : String) : Gw Unit :=
  execute (.msg "advance project head") fun _ db => upsertHead projectId snapId db

def writeSnapshot (gateway projectId snapId transcript : String) : Gw Snapshot := do
  let now ← nowSecs
  let snap : Snapshot := ⟨snapId, projectId, gateway, transcript, now⟩
  execute (.msg "write snapshot") fun _ db => insertSnapshot snap db
  return snap

/-- The part of `scan_and_snapshot` after the transcript has been built. -/
def recordScan [Sha256] (gateway projectId transcript : String) : Gw (Option Snapshot) := do
  let snapId := transcriptId transcript
  -- "Check if this snapshot already exists (no-op if identical)"
  let existing ← query .sqlx fun db => (snapshotRow db snapId).map (·.id)
  if existing.isSome then
    getSnapshot snapId
  else
    let snap ← writeSnapshot gateway projectId snapId transcript
    advanceHead projectId snapId
    return some snap

def scanAndSnapshot [Sha256] (gateway projectId : String) : Gw (Option Snapshot) := do
  let project ← orThrow (.msg "project not found") (← Projects.get projectId)
  if project.folderPath = "" then
    return none
  else
    -- `Path::exists` answers `false` when the folder cannot be looked up.
    let there ← (ioRead .io fun w => (w.folders project.folderPath).isSome).attempt
    if there.getD false then
      let entries ← ObjectStore.scanDirectory project.folderPath project.fileGlob
      recordScan gateway projectId (buildTranscript entries)
    else
      throw (.msg s!"project folder does not exist: {project.folderPath}")

/-- "Write a snapshot received from a peer (objects must already be stored)." -/
def applyPeerSnapshot (projectId snapId transcript fromGateway : String) : Gw Snapshot := do
  let now ← nowSecs
  let snap : Snapshot := ⟨snapId, projectId, fromGateway, transcript, now⟩
  execute (.msg "insert peer snapshot") fun _ db => insertSnapshot snap db
  advanceHead projectId snapId
  return snap

/-! ## One statement at a time -/

section
variable {db db' : Db} {snap : Snapshot} {projectId snapId : String}

theorem snapshotRow_id {s : Snapshot} (h : snapshotRow db snapId = some s) : s.id = snapId := by
  simpa using Table.prop_of_find? h

theorem snapshotRow_eq_none : snapshotRow db snapId = none ↔ ∀ r ∈ db.snapshots.rows, r.id ≠ snapId := by
  simp [snapshotRow, Table.find?]

theorem snapshotRow_eq_some {r : Snapshot} :
    snapshotRow db snapId = some r ↔ r ∈ db.snapshots.rows ∧ r.id = snapId := by
  constructor
  · intro h
    exact ⟨Table.mem_of_find? h, snapshotRow_id h⟩
  · rintro ⟨hr, rfl⟩
    exact Table.find?_eq_some_of_mem hr (by simp) fun _ _ hy => hy

theorem headOf_eq_some {s : Snapshot} :
    headOf db projectId = some s ↔ headRow db projectId = some s.id ∧ snapshotRow db s.id = some s := by
  simp only [headOf, Option.bind_eq_some_iff]
  constructor
  · rintro ⟨id, hid, hs⟩
    rw [← snapshotRow_id hs] at hid hs
    exact ⟨hid, hs⟩
  · rintro ⟨h₁, h₂⟩
    exact ⟨_, h₁, h₂⟩

/-- A snapshot row is inserted exactly if its project exists and its id is new. -/
theorem insertSnapshot_eq_some : insertSnapshot snap db = some db' ↔
    db.hasProject snap.projectId = true ∧ snapshotRow db snap.id = none ∧
      db' = { db with snapshots := db'.snapshots } ∧ db'.snapshots.rows = db.snapshots.rows ++ [snap] := by
  unfold insertSnapshot
  by_cases hp : db.hasProject snap.projectId = true
  · rw [if_pos hp, Option.map_eq_some_iff]
    constructor
    · rintro ⟨t, ht, rfl⟩
      obtain ⟨hc, hr⟩ := Table.insert_eq_some.1 ht
      refine ⟨hp, ?_, rfl, hr⟩
      refine List.find?_eq_none.2 fun x hx => ?_
      simpa [Constraints.clash] using hc x hx
    · rintro ⟨-, hn, hd, hr⟩
      refine ⟨db'.snapshots, Table.insert_eq_some.2 ⟨fun x hx => ?_, hr⟩, hd.symm⟩
      simpa [Constraints.clash] using List.find?_eq_none.1 hn x hx
  · rw [if_neg hp]
    simp [hp]

theorem insertSnapshot_isSome : (insertSnapshot snap db).isSome = true ↔
    db.hasProject snap.projectId = true ∧ snapshotRow db snap.id = none := by
  constructor
  · intro h
    obtain ⟨db', h⟩ := Option.isSome_iff_exists.1 h
    obtain ⟨h₁, h₂, -⟩ := insertSnapshot_eq_some.1 h
    exact ⟨h₁, h₂⟩
  · rintro ⟨hp, hn⟩
    have hc : ∀ x ∈ db.snapshots.rows, Constraints.clash x snap = false := fun x hx => by
      simpa [Constraints.clash] using List.find?_eq_none.1 hn x hx
    cases ht : db.snapshots.insert snap with
    | none =>
      obtain ⟨x, hx, hxc⟩ := Table.insert_eq_none.1 ht
      rw [hc x hx] at hxc
      cases hxc
    | some t => simp [insertSnapshot, hp, ht]

/-- After the row went in, it is the one found under its id, and it can be referenced. -/
theorem snapshotRow_insertSnapshot (h : insertSnapshot snap db = some db') :
    snapshotRow db' snap.id = some snap ∧ db'.hasSnapshot snap.id = true := by
  obtain ⟨-, hn, -, hr⟩ := insertSnapshot_eq_some.1 h
  constructor
  · have hn' : db.snapshots.find? (·.id == snap.id) = none := hn
    rw [snapshotRow, Table.find?_of_rows_append hr, hn']
    simp
  · simp only [Db.hasSnapshot, hr, List.any_append, List.any_cons]
    simp

/-- After the upsert, the head row of the project is the given snapshot; other projects keep theirs. -/
theorem headRow_upsertHead (h : upsertHead projectId snapId db = some db') (q : String) :
    headRow db' q = if q = projectId then some snapId else headRow db q := by
  unfold upsertHead at h
  split at h
  · cases h
    by_cases hq : q = projectId
    · subst hq
      have hs := @Table.find?_upsert_self _ _ db.projectHeads ⟨q, snapId⟩
        (fun h => { h with snapshotId := snapId }) (fun _ _ => rfl) (·.projectId == q) (by simp)
        fun x => by simp [Constraints.clash]
      simp only [headRow, hs, if_true]
      cases db.projectHeads.find? (·.projectId == q) <;> rfl
    · rw [if_neg hq]
      have hs := @Table.find?_upsert_of_ne _ _ db.projectHeads ⟨projectId, snapId⟩
        (fun h => { h with snapshotId := snapId }) (fun _ _ => rfl) (·.projectId == q)
        (by simpa using Ne.symm hq) fun x _ hx => ?_
      · simp only [headRow, hs]
      · have hx' : x.projectId = projectId := by simpa [Constraints.clash] using hx
        simp [hx', Ne.symm hq]
  · cases h

theorem upsertHead_frame (h : upsertHead projectId snapId db = some db') :
    db' = { db with projectHeads := db'.projectHeads } := by
  unfold upsertHead at h
  split at h <;> cases h
  rfl

end

/-! ## What the engine does -/

theorem exec_head_calm {w : World} (hw : w.faults = []) (projectId : String) :
    (head projectId).exec w = (.ok (headOf w.db projectId), w) := by
  simp only [head, Prog.bind_eq]
  rw [Prog.exec_bind_of_ok (exec_query_calm hw)]
  cases h : headRow w.db projectId with
  | none => simp [headOf, h]
  | some id =>
    simp only [headOf, h, Option.bind_some]
    exact exec_query_calm hw

theorem moves_head {R : World → World → Prop} (ht : ∀ w, R w w.tick) (projectId : String) :
    (head projectId).Moves R := by
  simp only [head, Prog.bind_eq]
  refine (moves_query ht).bind fun o => ?_
  split
  · trivial
  · exact moves_query ht

/-- Applying a peer's snapshot takes the state where its two statements do. -/
theorem moves_applyPeerSnapshot {R : World → World → Prop} (h₀ : ∀ w, R w w) (ht : ∀ w, R w w.tick)
    {projectId snapId transcript fromGateway : String}
    (hins : ∀ w now db, insertSnapshot ⟨snapId, projectId, fromGateway, transcript, now⟩ w.db = some db →
      R w { w.tick with db })
    (hup : ∀ w db, upsertHead projectId snapId w.db = some db → R w { w.tick with db }) :
    (applyPeerSnapshot projectId snapId transcript fromGateway).Moves R := by
  unfold applyPeerSnapshot
  simp only [Prog.bind_eq]
  apply Prog.Moves.bind (Prog.moves_look h₀ _)
  intro now
  apply Prog.Moves.bind
  · apply moves_execute ht
    intro w db hdb
    exact hins w now db hdb
  · intro u
    apply Prog.Moves.bind (moves_execute ht hup)
    intro u
    trivial

theorem exec_advanceHead_ok {projectId snapId : String} {w w' : World}
    (h : (advanceHead projectId snapId).exec w = (.ok (), w')) :
    upsertHead projectId snapId w.db = some w'.db ∧ w' = { w.tick with db := w'.db } := by
  obtain ⟨db, hdb, rfl⟩ := exec_execute_ok h
  exact ⟨hdb, rfl⟩

/-- Applying a snapshot that succeeds has found its id free, and leaves it as the head; the objects are
as they were. -/
theorem exec_applyPeerSnapshot_ok {projectId snapId transcript fromGateway : String} {w w' : World}
    {snap : Snapshot} (h : (applyPeerSnapshot projectId snapId transcript fromGateway).exec w = (.ok snap, w')) :
    snap = ⟨snapId, projectId, fromGateway, transcript, w.now⟩ ∧ snapshotRow w.db snapId = none ∧
      headOf w'.db projectId = some snap ∧ w'.disk = w.disk := by
  simp only [applyPeerSnapshot, nowSecs, Prog.bind_eq] at h
  rw [Prog.exec_bind_of_ok (Prog.exec_look _ w)] at h
  obtain ⟨_, w₁, e₁, h⟩ := Prog.exec_bind_ok.1 h
  obtain ⟨db, hins, rfl⟩ := exec_execute_ok e₁
  obtain ⟨_, w₂, e₂, h⟩ := Prog.exec_bind_ok.1 h
  obtain ⟨hup, hw₂⟩ := exec_advanceHead_ok e₂
  cases h
  obtain ⟨hrow, -⟩ := snapshotRow_insertSnapshot hins
  refine ⟨rfl, (insertSnapshot_eq_some.1 hins).2.1, ?_, ?_⟩
  · refine headOf_eq_some.2 ⟨by rw [headRow_upsertHead hup, if_pos rfl], ?_⟩
    rw [← hrow]
    simp only [snapshotRow]
    rw [upsertHead_frame hup]
  · rw [hw₂]
    rfl

/-- With nothing failing, applying a snapshot to a project that is there fails exactly if its id is
taken; if not, it is the new head. -/
theorem exec_applyPeerSnapshot_calm {projectId snapId transcript fromGateway : String} {w : World}
    (hw : w.faults = []) (hp : w.db.hasProject projectId = true) :
    (∃ snap w', (applyPeerSnapshot projectId snapId transcript fromGateway).exec w = (.ok snap, w') ∧
        snap.id = snapId ∧ headOf w'.db projectId = some snap) ∧ snapshotRow w.db snapId = none ∨
      (∃ e w', (applyPeerSnapshot projectId snapId transcript fromGateway).exec w = (.error e, w')) ∧
        snapshotRow w.db snapId ≠ none := by
  let snap : Snapshot := ⟨snapId, projectId, fromGateway, transcript, w.now⟩
  simp only [applyPeerSnapshot, nowSecs, Prog.bind_eq]
  rw [Prog.exec_bind_of_ok (Prog.exec_look _ w), Prog.exec_bind, exec_execute_calm hw]
  cases hins : insertSnapshot snap w.db with
  | none =>
    right
    refine ⟨⟨_, _, rfl⟩, fun hn => ?_⟩
    have := (@insertSnapshot_isSome w.db snap).2 ⟨hp, hn⟩
    rw [hins] at this
    cases this
  | some db =>
    left
    obtain ⟨-, hn, hdb, -⟩ := insertSnapshot_eq_some.1 hins
    obtain ⟨hrow, href⟩ := snapshotRow_insertSnapshot hins
    have hp' : db.hasProject projectId = true := by rw [hdb]; exact hp
    have href' : db.hasSnapshot snapId = true := href
    obtain ⟨db', hup⟩ : ∃ db', upsertHead projectId snapId db = some db' :=
      ⟨_, if_pos (by rw [hp', href']; rfl)⟩
    have hw' : ({ w with db } : World).faults = [] := hw
    refine ⟨⟨snap, { w with db := db' }, ?_, rfl, ?_⟩, hn⟩
    · simp only [advanceHead]
      rw [Prog.exec_bind, exec_execute_calm hw']
      simp only [hup]
      rfl
    · refine headOf_eq_some.2 ⟨by rw [headRow_upsertHead hup, if_pos rfl], ?_⟩
      rw [← hrow]
      simp only [snapshotRow]
      rw [upsertHead_frame hup]

section
variable [Sha256] {gateway projectId transcript : String} {s : Snapshot} {w w' : World}

/-- A scan's snapshot is either the row that is already there, with nothing written, or a new row
that becomes the head. -/
theorem exec_recordScan_ok (h : (recordScan gateway projectId transcript).exec w = (.ok (some s), w')) :
    (snapshotRow w.db (transcriptId transcript) = some s ∧ w'.db = w.db) ∨
      (snapshotRow w.db (transcriptId transcript) = none ∧
        s = ⟨transcriptId transcript, projectId, gateway, transcript, w.now⟩ ∧
        ∃ db, insertSnapshot s w.db = some db ∧ upsertHead projectId s.id db = some w'.db) := by
  simp only [recordScan, writeSnapshot, Prog.bind_eq] at h
  obtain ⟨o, w₁, e₁, h⟩ := Prog.exec_bind_ok.1 h
  obtain ⟨rfl, rfl⟩ := exec_query_ok e₁
  cases hrow : snapshotRow w.db (transcriptId transcript) with
  | some r =>
    simp only [hrow, Option.map_some, Option.isSome_some, if_true] at h
    obtain ⟨hs, rfl⟩ := exec_query_ok h
    left
    rw [World.tick_db, hrow] at hs
    exact ⟨hs.symm, rfl⟩
  | none =>
    simp only [hrow, Option.map_none, Option.isSome_none, Bool.false_eq_true, if_false] at h
    obtain ⟨snap, w₂, e₂, h⟩ := Prog.exec_bind_ok.1 h
    obtain ⟨now, w₃, e₃, e₂⟩ := Prog.exec_bind_ok.1 e₂
    cases e₃
    obtain ⟨_, w₄, e₄, e₂⟩ := Prog.exec_bind_ok.1 e₂
    obtain ⟨db, hdb, rfl⟩ := exec_execute_ok e₄
    cases e₂
    obtain ⟨_, w₅, e₅, h⟩ := Prog.exec_bind_ok.1 h
    obtain ⟨hup, -⟩ := exec_advanceHead_ok e₅
    cases h
    exact Or.inr ⟨rfl, rfl, db, hdb, hup⟩

/-- The transcript of the project's folder as it is now. -/
def folderTranscript (w : World) (projectId : String) : Option String := do
  let project ← Projects.byId w.db projectId
  let listing ← w.folders project.folderPath
  return buildTranscript (ObjectStore.folderEntries project.fileGlob "" listing)

/-- **A scan that returns a snapshot has stored the folder's objects and then recorded the
folder's transcript.** -/
theorem exec_scanAndSnapshot_ok
    (h : (scanAndSnapshot gateway projectId).exec w = (.ok (some s), w')) :
    ∃ t w₁, folderTranscript w projectId = some t ∧ ObjectStore.ObjectsOnly w w₁ ∧
      (recordScan gateway projectId t).exec w₁ = (.ok (some s), w') := by
  simp only [scanAndSnapshot, Prog.bind_eq] at h
  obtain ⟨o, w₁, e₁, h⟩ := Prog.exec_bind_ok.1 h
  obtain ⟨-, ⟨rfl, -⟩, rfl⟩ := Projects.get_iff.1 e₁
  obtain ⟨project, w₂, e₂, h⟩ := Prog.exec_bind_ok.1 h
  obtain ⟨hp, rfl⟩ := exec_orThrow_ok e₂
  split at h
  · cases h
  · obtain ⟨there, w₃, e₃, h⟩ := Prog.exec_bind_ok.1 h
    have hw₃ : w₃ = w.tick.tick := by
      rw [Prog.exec_attempt] at e₃
      rcases exec_op .io (fun w => (.ok (w.folders project.folderPath).isSome, w)) w.tick with h' | h' <;>
        rw [ioRead, h'] at e₃ <;> cases e₃ <;> rfl
    subst hw₃
    split at h
    · obtain ⟨entries, w₄, e₄, h⟩ := Prog.exec_bind_ok.1 h
      obtain ⟨⟨l, hl, rfl⟩, ho⟩ := ObjectStore.exec_scanDirectory_ok e₄
      refine ⟨_, w₄, ?_, ((ObjectStore.ObjectsOnly.tick w).trans (ObjectStore.ObjectsOnly.tick _)).trans ho, h⟩
      have hl' : w.folders project.folderPath = some l := hl
      simp [folderTranscript, hp, hl']
    · cases h

/-- **As shipped every scan fails at its first statement**: a project that is there cannot be read. -/
theorem exec_scanAndSnapshot_refused (h : w.db.engine.integers = .refused) (gateway projectId : String) :
    ∃ e, (scanAndSnapshot gateway projectId).exec w = (.error e, w.tick) := by
  simp only [scanAndSnapshot, Prog.bind_eq]
  rcases exec_fetch_cases (.msg "get project") (fun db => db.engine.decodeRow (Projects.byId db projectId)) w with
    hget | ⟨o, ho, hget⟩
  · exact ⟨_, Prog.exec_bind_of_error hget⟩
  · obtain ⟨rfl, hnone⟩ := Engine.decodeRow_eq_some.1 ho
    rw [hnone h] at hget
    exact ⟨_, Prog.exec_bind_of_ok hget⟩

end

end FileSync

end A2AGateway
