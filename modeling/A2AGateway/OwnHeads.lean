import A2AGateway.FileSync
import A2AGateway.Statements

/-!
# A head is a snapshot of its own project

Snapshot ids are global and heads are per project; the foreign key of `project_heads` only asks for a
snapshot with the id. What keeps a head in its project is the order of the statements: a caller advances
the head after its own `INSERT` into `snapshots` has gone through (`file_sync.rs:105-106`, `127-140`), and a
row that is there stays.
-/

namespace A2AGateway

open Gw FileSync

/-- The snapshot is there, and is one of the project's. -/
def SnapshotOf (projectId snapId : String) (db : Db) : Prop :=
  ∃ snap, snapshotRow db snapId = some snap ∧ snap.projectId = projectId

/-- Each head is a snapshot of its project; snapshots stay. -/
def ownHeads : Discipline Db where
  inv db := ∀ p s, headRow db p = some s → SnapshotOf p s db
  step db db' := ∀ id snap, snapshotRow db id = some snap → snapshotRow db' id = some snap
  refl _ _ _ h := h
  trans _ _ _ h h' id snap hs := h' id snap (h id snap hs)

theorem SnapshotOf.kept {projectId snapId : String} {db db' : Db} (h : SnapshotOf projectId snapId db)
    (hs : ownHeads.step db db') : SnapshotOf projectId snapId db' := by
  obtain ⟨snap, hrow, hproject⟩ := h
  exact ⟨snap, hs _ _ hrow, hproject⟩

/-- Neither table has changed. -/
def SameHeads (db db' : Db) : Prop := db'.snapshots = db.snapshots ∧ db'.projectHeads = db.projectHeads

theorem ownHeads_of_same {db db' : Db} (h : SameHeads db db') (hi : ownHeads.inv db) :
    ownHeads.step db db' ∧ ownHeads.inv db' := by
  obtain ⟨hsnapshots, hheads⟩ := h
  have hrow : ∀ id, snapshotRow db' id = snapshotRow db id := fun id => by rw [snapshotRow, hsnapshots, snapshotRow]
  refine ⟨fun id snap hs => (hrow id).trans hs, fun p s hp => ?_⟩
  have hp' : headRow db p = some s := by rwa [headRow, hheads] at hp
  obtain ⟨snap, hs, hproject⟩ := hi p s hp'
  exact ⟨snap, (hrow s).trans hs, hproject⟩

/-! ## The two statements -/

section
variable {db db' : Db} {snap : Snapshot} {projectId snapId : String}

theorem ownHeads_insertSnapshot (h : insertSnapshot snap db = some db') (hi : ownHeads.inv db) :
    (ownHeads.step db db' ∧ ownHeads.inv db') ∧ SnapshotOf snap.projectId snap.id db' := by
  obtain ⟨-, -, hdb, hrows⟩ := insertSnapshot_eq_some.1 h
  have hkept : ownHeads.step db db' := by
    intro id s hs
    rw [snapshotRow, Table.find?_of_rows_append hrows]
    rw [snapshotRow] at hs
    rw [hs]
    rfl
  refine ⟨⟨hkept, fun p s hp => ?_⟩, snap, (snapshotRow_insertSnapshot h).1, rfl⟩
  have hp' : headRow db p = some s := by
    rw [hdb] at hp
    exact hp
  exact (hi p s hp').kept hkept

/-- The head may be advanced to a snapshot of the project. -/
theorem ownHeads_upsertHead (h : upsertHead projectId snapId db = some db') (hsnap : SnapshotOf projectId snapId db)
    (hi : ownHeads.inv db) : ownHeads.step db db' ∧ ownHeads.inv db' := by
  have hrow : ∀ id, snapshotRow db' id = snapshotRow db id := fun id => by
    rw [snapshotRow, upsertHead_frame h, snapshotRow]
  have hkept : ownHeads.step db db' := fun id s hs => (hrow id).trans hs
  refine ⟨hkept, fun p s hp => ?_⟩
  rw [headRow_upsertHead h] at hp
  split at hp
  · rename_i heq
    cases hp
    rw [heq]
    exact hsnap.kept hkept
  · exact (hi p s hp).kept hkept

end

/-! ## The calls -/

section
variable {projectId snapId : String} {w : World} {α : Type}

/-- The discipline, of one gateway's state. -/
abbrev ownHeadsWorld : Discipline World := ownHeads.comap World.db

theorem obeys_advanceHead (hsnap : SnapshotOf projectId snapId w.db) :
    (advanceHead projectId snapId).Obeys ownHeadsWorld (fun _ _ => True) w := by
  refine obeys_execute (Q := fun _ _ => True) ?_ fun _ _ _ => trivial
  intro now db db' hs hi hup
  exact ⟨ownHeads_upsertHead hup (hsnap.kept hs) hi, trivial⟩

/-- A snapshot is inserted, and then, if that went well, becomes the head. -/
theorem obeys_insert_advance {e : Err} {snap : Snapshot} (hid : snap.id = snapId) (hproject : snap.projectId = projectId)
    (a : α) : ((execute e fun _ db => insertSnapshot snap db).bind fun _ =>
      (advanceHead projectId snapId).bind fun _ => Prog.ret a).Obeys ownHeadsWorld (fun _ _ => True) w := by
  subst hid
  subst hproject
  refine obeys_execute_bind (Q := fun _ _ => True) ?_ ?_ fun _ _ _ => trivial
  · intro now db db' _ hi hins
    exact (ownHeads_insertSnapshot hins hi).1
  · intro now db w' _ hi hins
    exact (obeys_advanceHead (ownHeads_insertSnapshot hins hi).2).bind (fun _ _ _ => trivial) fun _ _ _ => trivial

theorem obeys_applyPeerSnapshot (transcript fromGateway : String) :
    (applyPeerSnapshot projectId snapId transcript fromGateway).Obeys ownHeadsWorld (fun _ _ => True) w := by
  unfold applyPeerSnapshot nowSecs
  simp only [Prog.bind_eq, Prog.pure_eq]
  intro w₁ _ hi₁
  refine ⟨⟨ownHeads.refl _, hi₁⟩, ?_⟩
  exact obeys_insert_advance rfl rfl _

/-- What touches neither table obeys. -/
theorem obeys_of_same {β : Type} {p : Gw β} (hp : p.Moves fun w w' => SameHeads w.db w'.db) :
    p.Obeys ownHeadsWorld (fun _ _ => True) w := by
  have hmoves : p.Moves fun w w' => ownHeadsWorld.inv w → ownHeadsWorld.step w w' ∧ ownHeadsWorld.inv w' :=
    hp.mono fun _ _ h hi => ownHeads_of_same h hi
  exact (hmoves.obeys (ownHeadsWorld.refl w)).post fun _ _ _ => trivial

variable [Sha256]

theorem obeys_recordScan (gateway transcript : String) :
    (recordScan gateway projectId transcript).Obeys ownHeadsWorld (fun _ _ => True) w := by
  unfold recordScan
  simp only [Prog.bind_eq]
  refine obeys_query_bind (Q := fun _ _ => True) (fun w₁ _ _ => ?_) fun _ _ _ => trivial
  split
  · -- The row that is there is read back.
    exact obeys_of_same (moves_query fun _ => ⟨rfl, rfl⟩)
  · unfold writeSnapshot nowSecs
    simp only [Prog.bind_eq, Prog.pure_eq, Prog.bind_assoc]
    intro w₂ _ hi₂
    refine ⟨⟨ownHeads.refl _, hi₂⟩, ?_⟩
    exact obeys_insert_advance rfl rfl _

theorem moves_scanDirectory (root glob : String) :
    (ObjectStore.scanDirectory root glob).Moves fun w w' => SameHeads w.db w'.db := by
  unfold ObjectStore.scanDirectory
  simp only [Prog.bind_eq]
  refine (moves_ioRead fun _ => ⟨rfl, rfl⟩).bind fun _ => moves_orThrow.bind fun listing => ?_
  refine (ObjectStore.moves_scanDirRecursive glob listing "" []).mono fun w w' h => ?_
  rw [h.1]
  exact ⟨rfl, rfl⟩

theorem obeys_scanAndSnapshot (gateway : String) :
    (scanAndSnapshot gateway projectId).Obeys ownHeadsWorld (fun _ _ => True) w := by
  have ht : ∀ w : World, SameHeads w.db w.tick.db := fun _ => ⟨rfl, rfl⟩
  unfold scanAndSnapshot
  simp only [Prog.bind_eq]
  refine (obeys_of_same (moves_fetch ht)).bind (fun _ _ _ => ?_) fun _ _ _ => trivial
  refine (obeys_of_same moves_orThrow).bind (fun project _ _ => ?_) fun _ _ _ => trivial
  split
  · trivial
  · refine (obeys_of_same (moves_ioRead ht).attempt).bind (fun there _ _ => ?_) fun _ _ _ => trivial
    split
    · refine (obeys_of_same (moves_scanDirectory _ _)).bind (fun _ _ _ => ?_) fun _ _ _ => trivial
      exact obeys_recordScan _ _
    · trivial

end

/-! ## Any number of calls -/

section
variable [Sha256]

/-- A scan, or a peer's snapshot being applied, of whatever project. -/
inductive SnapshotCall : Gw Unit → Prop
  | scan (gateway projectId : String) :
      SnapshotCall ((scanAndSnapshot gateway projectId).bind fun _ => Prog.ret ())
  | apply (projectId snapId transcript fromGateway : String) :
      SnapshotCall ((applyPeerSnapshot projectId snapId transcript fromGateway).bind fun _ => Prog.ret ())

/-- **A head always belongs to its project**: in every state of every interleaving of scans and applied peer
snapshots that began without heads, whatever else happens to the gateway. -/
theorem head_belongs {c : Pool World Err}
    (h : Pool.Reachable (fun w => w.db.projectHeads.rows = []) (fun _ p => SnapshotCall p)
      (fun w w' => SameHeads w.db w'.db) c)
    {p s : String} (hhead : headRow c.state.db p = some s) : SnapshotOf p s c.state.db := by
  have hgood : Pool.Good ownHeadsWorld c := by
    refine h.good ?_ ?_ fun _ _ hi hsame => ownHeads_of_same hsame hi
    · intro w hnone q id hq
      rw [headRow, Table.find?, hnone] at hq
      cases hq
    · intro w q _ hcall
      cases hcall with
      | scan gateway projectId =>
        exact (obeys_scanAndSnapshot gateway).bind (fun _ _ _ => trivial) fun _ _ _ => trivial
      | apply projectId snapId transcript fromGateway =>
        exact (obeys_applyPeerSnapshot transcript fromGateway).bind (fun _ _ _ => trivial) fun _ _ _ => trivial
  exact hgood.1 p s hhead

end

namespace DemoHeads

/-- Two projects without heads. -/
def world : World :=
  { World.fresh with
    db := { Db.empty with projects := ⟨[{ id := "p", name := "p" }, { id := "q", name := "q" }], by decide⟩ } }

/-- A snapshot of a peer is applied. -/
def call (projectId snapId : String) : Gw Unit :=
  (applyPeerSnapshot projectId snapId "" "gw-b").bind fun _ => Prog.ret ()

/-- `p` and `q` both take the snapshot `s`, and `q` takes `t`. -/
def pool : Pool World Err := Pool.schedule [0, 1, 2, 0, 1, 2, 0, 1, 2] ⟨world, [call "p" "s", call "q" "s", call "q" "t"]⟩

end DemoHeads

/-- Of two projects that are given one snapshot, the first one has it as its head; the second one's head is
another. -/
theorem head_belongs_demo :
    SnapshotOf "p" "s" DemoHeads.pool.state.db ∧ SnapshotOf "q" "t" DemoHeads.pool.state.db := by
  let : Sha256 := .recorded [] (by simp)
  have hcall : ∀ projectId snapId, SnapshotCall (DemoHeads.call projectId snapId) := fun _ _ => .apply _ _ _ _
  have hreach : Pool.Reachable (fun w => w.db.projectHeads.rows = []) (fun _ p => SnapshotCall p)
      (fun w w' => SameHeads w.db w'.db) DemoHeads.pool := by
    refine ⟨DemoHeads.world, rfl, ?_⟩
    exact (((Relation.ReflTransGen.single (.start (hcall "p" "s"))).tail (.start (hcall "q" "s"))).tail
      (.start (hcall "q" "t"))).trans (Pool.schedule_run _ _)
  exact ⟨head_belongs hreach (by decide +kernel), head_belongs hreach (by decide +kernel)⟩

end A2AGateway
