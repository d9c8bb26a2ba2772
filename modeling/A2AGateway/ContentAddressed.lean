import A2AGateway.ShippedCalls
import Mathlib.Data.List.Chain

/-!
# Are snapshots content-addressed?

`scan_and_snapshot` computes a snapshot's id from its transcript. `sync_project` takes the id from
the peer's listing and the transcript from its answer to `fetch_snapshot`, and stores them as they
came. As shipped neither gets as far as its insert, and every row stays addressed by its content. With
the columns of a project decoded it does in a run of calls side by side exactly as long as no step takes
in a peer's snapshot whose transcript does not hash to its id (`snapshots_addressed`); with peers that answer
honestly none does (`addressed_of_honest`).
-/

namespace A2AGateway

open Gw FileSync

/-- "id TEXT PRIMARY KEY, -- sha256 of the transcript". -/
def Addressed [Sha256] (db : Db) : Prop := ∀ s ∈ db.snapshots.rows, s.id = transcriptId s.transcript

instance [Sha256] (db : Db) : Decidable (Addressed db) :=
  inferInstanceAs (Decidable (∀ s ∈ db.snapshots.rows, _))

/-- The statement that inserts a snapshot a peer sent. -/
def peerStatement (snap : Snapshot) : Gw Unit :=
  execute (.msg "insert peer snapshot") fun _ db => insertSnapshot snap db

/-- One step, in which the statement of some call takes `snap` in: nothing fails it, the project is there
and the id is new. -/
def TakesIn (snap : Snapshot) (c c' : Pool World Err) : Prop :=
  Passes c.state ∧ (insertSnapshot snap c.state.db).isSome = true ∧
    ∃ (ts₁ ts₂ : List (Gw Unit)) (g : Unit → Gw Unit), c.threads = ts₁ ++ (peerStatement snap).bind g :: ts₂ ∧
      c' = ⟨((peerStatement snap).exec c.state).2, ts₁ ++ g () :: ts₂⟩

/-- No step takes in a peer's snapshot whose transcript does not hash to its id. -/
def TakesMatching [Sha256] (c c' : Pool World Err) : Prop :=
  ∀ snap, TakesIn snap c c' → snap.id = transcriptId snap.transcript

section
variable [Sha256] [HmacSha256] (g : Gateway)

/-- Any call may be made at any time; a sync brings its listing and what the peer answers. -/
def MayCall (_ : World) (p : Gw Unit) : Prop := ∃ c : Call, p = c.prog g

end

/-- The rest of the gateway does not write snapshots. -/
def SameSnapshots (w w' : World) : Prop := w'.db.snapshots = w.db.snapshots

/-! ## Only one statement can take in what does not match -/

section
variable [Sha256] {w w' : World}

/-- Rows that are addressed stay so. -/
def StaysAddressed (w w' : World) : Prop := Addressed w.db → Addressed w'.db

/-- What is left of a call that is about to insert a peer's snapshot. -/
def AboutToInsert (p : Gw Unit) : Prop := ∃ snap g, p = (peerStatement snap).bind g

theorem StaysAddressed.of_same (h : SameSnapshots w w') : StaysAddressed w w' := by
  intro haddr s hs
  rw [h] at hs
  exact haddr s hs

theorem StaysAddressed.refl (w : World) : StaysAddressed w w := fun h => h

theorem StaysAddressed.tick (w : World) : StaysAddressed w w.tick := fun h => h

theorem insertSnapshot_addressed {snap : Snapshot} {db db' : Db} (hins : insertSnapshot snap db = some db')
    (haddr : Addressed db) : Addressed db' ↔ snap.id = transcriptId snap.transcript := by
  obtain ⟨-, -, -, hrows⟩ := insertSnapshot_eq_some.1 hins
  constructor
  · intro h
    apply h
    rw [hrows]
    exact List.mem_append_right _ (List.mem_singleton_self snap)
  · intro hsnap s hs
    rw [hrows] at hs
    rcases List.mem_append.1 hs with hs | hs
    · exact haddr s hs
    · rw [List.mem_singleton.1 hs]
      exact hsnap

/-- A statement that writes no snapshot. -/
theorem moves_otherExecute {e : Err} {f : F64 → Db → Option Db}
    (h : ∀ now db db', f now db = some db' → db'.snapshots = db.snapshots) : (execute e f).Moves StaysAddressed := by
  apply moves_execute StaysAddressed.tick
  intro w db hdb
  apply StaysAddressed.of_same
  exact h _ _ _ hdb

theorem moves_advanceHead (projectId snapId : String) : (advanceHead projectId snapId).Moves StaysAddressed := by
  apply moves_otherExecute
  intro now db db' hdb
  rw [upsertHead_frame hdb]

/-- A scan computes the id from the transcript. -/
theorem moves_recordScan (gateway projectId transcript : String) :
    (recordScan gateway projectId transcript).Moves StaysAddressed := by
  unfold recordScan
  simp only [Prog.bind_eq]
  apply Prog.Moves.bind (moves_query StaysAddressed.tick)
  intro existing
  split
  · exact moves_query StaysAddressed.tick
  · apply Prog.Moves.bind
    · unfold writeSnapshot
      simp only [Prog.bind_eq]
      apply Prog.Moves.bind (Prog.moves_look StaysAddressed.refl _)
      intro now
      apply Prog.Moves.bind
      · apply moves_execute StaysAddressed.tick
        intro w db hdb haddr
        exact (insertSnapshot_addressed hdb haddr).2 rfl
      · intro u
        trivial
    · intro snap
      apply Prog.Moves.bind (moves_advanceHead _ _)
      intro u
      trivial

theorem moves_scanAndSnapshot (gateway projectId : String) :
    (scanAndSnapshot gateway projectId).Moves StaysAddressed := by
  unfold scanAndSnapshot
  simp only [Prog.bind_eq]
  apply Prog.Moves.bind (moves_fetch StaysAddressed.tick)
  intro o
  apply Prog.Moves.bind moves_orThrow
  intro project
  split
  · trivial
  apply Prog.Moves.bind (Prog.Moves.attempt (moves_ioRead StaysAddressed.tick))
  intro there
  split
  · apply Prog.Moves.bind
    · unfold ObjectStore.scanDirectory
      simp only [Prog.bind_eq]
      apply Prog.Moves.bind (moves_ioRead StaysAddressed.tick)
      intro o
      apply Prog.Moves.bind moves_orThrow
      intro l
      apply (ObjectStore.moves_scanDirRecursive _ l _ _).mono
      intro w w' h
      apply StaysAddressed.of_same
      rw [SameSnapshots, h.1]
    · intro entries
      exact moves_recordScan _ _ _
  · trivial

end

/-! ## A round -/

section
variable [Sha256] {auth : JwtAuth} {peer : PeerConfig} {remote : RemoteProject} {answers : Answers} {X : Gw Unit → Prop}

theorem moves_put_addressed (data : Bytes) : (ObjectStore.put data).Moves StaysAddressed := by
  apply (ObjectStore.moves_put data).mono
  intro w w' h
  apply StaysAddressed.of_same
  rw [SameSnapshots, h.1]

theorem StaysAddressed.of_logOnly {w w' : World} (h : PeerSync.LogOnly w w') : StaysAddressed w w' := by
  apply StaysAddressed.of_same
  rw [SameSnapshots, h.1]

/-- The peer's snapshot either matches, or its insert statement is an `X`. -/
theorem apply_movesBut {projectId snapId transcript fromGateway : String}
    (hx : snapId = transcriptId transcript ∨
      ∀ now g, X ((peerStatement ⟨snapId, projectId, fromGateway, transcript, now⟩).bind g)) :
    ((applyPeerSnapshot projectId snapId transcript fromGateway).bind fun _ => Prog.ret ()).MovesBut StaysAddressed X := by
  unfold applyPeerSnapshot
  simp only [Prog.bind_eq, Prog.pure_eq, Prog.bind_assoc]
  apply Prog.Moves.bind_but (Prog.moves_look StaysAddressed.refl _)
  intro now
  have hrest : ((advanceHead projectId snapId).bind fun _ =>
      (Prog.ret (⟨snapId, projectId, fromGateway, transcript, now⟩ : Snapshot) : Gw Snapshot).bind fun _ =>
        (Prog.ret () : Gw Unit)).Moves StaysAddressed := by
    apply Prog.Moves.bind (moves_advanceHead _ _)
    intro u
    trivial
  rcases hx with hmatch | hx
  · apply Prog.Moves.bind_but
    · apply moves_execute StaysAddressed.tick
      intro w db hdb haddr
      exact (insertSnapshot_addressed hdb haddr).2 hmatch
    · intro u
      exact hrest.but
  · obtain ⟨F, hp, -⟩ := execute_prim (.msg "insert peer snapshot")
      fun _ db => insertSnapshot ⟨snapId, projectId, fromGateway, transcript, now⟩ db
    have hx' := hx now
    rw [peerStatement, hp] at hx'
    rw [hp]
    apply Prog.MovesBut.prim_bind (hx' _)
    intro u
    exact hrest.but

theorem pull_movesBut {localCopy : Option Project}
    (hx : ∀ jwt resp, answers.fetchSnapshot ⟨remote.projectId, remote.snapshotId, jwt⟩ = .ok resp → resp.error = "" →
      remote.snapshotId ≠ "" → remote.snapshotId = transcriptId resp.transcript ∨
        ∀ projectId now g, X ((peerStatement ⟨remote.snapshotId, projectId, peer.name, resp.transcript, now⟩).bind g)) :
    (PeerSync.pullSnapshot .whole (PeerSync.clientOf auth peer answers) peer remote localCopy).MovesBut
      StaysAddressed X := by
  have hcurrent : (PeerSync.currentHead .whole localCopy).Moves StaysAddressed :=
    PeerSync.moves_currentHead PeerSync.whole_of StaysAddressed.tick localCopy
  unfold PeerSync.pullSnapshot PeerClient.fetchSnapshot
  simp only [Prog.bind_eq, Prog.bind_assoc]
  apply Prog.Moves.bind_but hcurrent
  intro current
  split
  · trivial
  rename_i hnew
  apply Prog.Moves.bind_but (PeerSync.moves_jwt StaysAddressed.refl _ _)
  intro jwt
  cases hanswer : answers.fetchSnapshot ⟨remote.projectId, remote.snapshotId, jwt⟩ with
  | error e =>
    have hfail : (PeerSync.clientOf auth peer answers).inner.fetchSnapshot ⟨remote.projectId, remote.snapshotId, jwt⟩ =
        Prog.fail e := congrArg Prog.ofExcept hanswer
    rw [hfail]
    trivial
  | ok resp =>
    have hret : (PeerSync.clientOf auth peer answers).inner.fetchSnapshot ⟨remote.projectId, remote.snapshotId, jwt⟩ =
        Prog.ret resp := congrArg Prog.ofExcept hanswer
    rw [hret, Prog.mapErr, Prog.ret_bind]
    split
    · trivial
    rename_i herror
    apply Prog.Moves.bind_but
    · exact PeerSync.moves_fetchObjects StaysAddressed.refl (PeerSync.moves_answering answers) PeerSync.whole_of
        moves_put_addressed _ _
    intro u
    cases localCopy with
    | none => trivial
    | some p =>
      simp only [Prog.within_whole]
      apply apply_movesBut
      rcases hx jwt resp hanswer (not_not.1 herror) (fun h => hnew (Or.inr h)) with h | h
      · exact Or.inl h
      · exact Or.inr (h p.id)

end

/-! ## Every call -/

section
variable [Sha256]

theorem moves_projects (id : String) (path glob : String) :
    (Projects.setFolderPath id path).Moves StaysAddressed ∧ (Projects.setFileGlob id glob).Moves StaysAddressed := by
  constructor
  · apply Projects.moves_setFolderPath StaysAddressed.tick
    intro w dir
    exact StaysAddressed.of_same rfl
  · apply moves_otherExecute
    intro now db db' hdb
    cases hdb
    rfl

theorem moves_create (id : Uuid) (name repoUrl description origin peer peerId : String) :
    (Projects.create id name repoUrl description origin peer peerId).Moves StaysAddressed := by
  unfold Projects.create
  simp only [Prog.bind_eq]
  apply Prog.Moves.bind (Prog.moves_look StaysAddressed.refl _)
  intro now
  apply Prog.Moves.bind
  · apply moves_otherExecute
    intro now' db db' hdb
    obtain ⟨t, -, rfl⟩ := Option.map_eq_some_iff.1 hdb
    rfl
  · intro u
    apply Prog.Moves.bind (moves_fetch StaysAddressed.tick)
    intro o
    exact moves_orThrow

theorem moves_append_addressed [HmacSha256] (id : Uuid) (projectId gatewayName agentName : String) (entryType : EntryType)
    (content : String) (todoId : Option Int) (secret : Bytes) :
    (TaskLog.append secret id projectId gatewayName agentName entryType content todoId).Moves StaysAddressed := by
  apply TaskLog.moves_append StaysAddressed.refl StaysAddressed.tick
  intro w row db hins
  apply StaysAddressed.of_same
  show db.snapshots = w.db.snapshots
  rw [(TaskLog.insertRow_eq_some.1 hins).2.2.2.2.1]

end

section
variable [Sha256] [HmacSha256] {g : Gateway} {X : Gw Unit → Prop}

/-- A round: the log half writes no snapshot, the pull one at most. -/
theorem sync_movesBut {peer : PeerConfig} {remote : RemoteProject} {answers : Answers}
    (hx : ∀ jwt resp, answers.fetchSnapshot ⟨remote.projectId, remote.snapshotId, jwt⟩ = .ok resp → resp.error = "" →
      remote.snapshotId ≠ "" → remote.snapshotId = transcriptId resp.transcript ∨
        ∀ projectId now g, X ((peerStatement ⟨remote.snapshotId, projectId, peer.name, resp.transcript, now⟩).bind g)) :
    (g.syncProject peer remote answers).MovesBut StaysAddressed X := by
  unfold Gateway.syncProject PeerSync.syncProject
  simp only [Prog.bind_eq, Prog.within_whole]
  apply Prog.Moves.bind_but (moves_fetch StaysAddressed.tick)
  intro localCopy
  have hlog : (PeerSync.syncLog .whole (PeerSync.clientOf g.auth peer answers) peer remote g.secret localCopy).Moves
      StaysAddressed := by
    cases localCopy with
    | none => exact PeerSync.moves_syncLog_none StaysAddressed.refl (PeerSync.moves_answering answers) _ _ _
    | some p =>
      apply PeerSync.moves_syncLog StaysAddressed.refl (PeerSync.moves_answering answers) PeerSync.whole_of
        StaysAddressed.tick
      · intro e _
        exact (PeerSync.moves_insertPeerEntry peer p.id _).mono fun _ _ => StaysAddressed.of_logOnly
      · intro c
        exact (PeerSync.moves_updatePeerCursor peer p.id c).mono fun _ _ => StaysAddressed.of_logOnly
  apply Prog.Moves.bind_but hlog
  intro u
  exact pull_movesBut hx

/-- Of all actions of a call only the insert of a peer's snapshot can store what is not addressed by its
content: that of a transcript that does not hash to the listed id. -/
theorem prog_movesBut {call : Call}
    (hx : ∀ peer remote answers jwt resp, call = .sync peer remote answers →
      answers.fetchSnapshot ⟨remote.projectId, remote.snapshotId, jwt⟩ = .ok resp → resp.error = "" →
        remote.snapshotId = transcriptId resp.transcript ∨
          ∀ projectId now k, X ((peerStatement ⟨remote.snapshotId, projectId, peer.name, resp.transcript, now⟩).bind k)) :
    (call.prog g).MovesBut StaysAddressed X := by
  cases call with
  | createProject id name repoUrl description origin peer peerId =>
    apply Prog.Moves.but
    exact (moves_create id name repoUrl description origin peer peerId).bind fun _ => trivial
  | setFolderPath id path => exact (moves_projects id path "").1.but
  | setFileGlob id glob => exact (moves_projects id "" glob).2.but
  | append id projectId agent entryType content todoId =>
    apply Prog.Moves.but
    exact (moves_append_addressed id projectId g.name agent entryType content todoId g.secret).bind fun _ => trivial
  | scan projectId =>
    apply Prog.Moves.but
    exact (moves_scanAndSnapshot g.name projectId).bind fun _ => trivial
  | sync peer remote answers =>
    apply sync_movesBut
    intro jwt resp hanswer herror _
    exact hx peer remote answers jwt resp rfl hanswer herror

theorem call_movesBut (call : Call) : (call.prog g).MovesBut StaysAddressed AboutToInsert := by
  apply prog_movesBut
  intro peer remote answers jwt resp _ _ _
  right
  intro projectId now k
  exact ⟨_, k, rfl⟩

end

/-! ## One step, and a run -/

section
variable [Sha256] [HmacSha256] {g : Gateway} {c c' : Pool World Err}

omit [HmacSha256] in
/-- Taking a snapshot in keeps the rows addressed exactly if its transcript hashes to its id. -/
theorem TakesIn.stays_addressed {snap : Snapshot} (h : TakesIn snap c c') (haddr : Addressed c.state.db) :
    Addressed c'.state.db ↔ snap.id = transcriptId snap.transcript := by
  obtain ⟨hpass, hsome, ts₁, ts₂, k, -, rfl⟩ := h
  obtain ⟨db, hins⟩ := Option.isSome_iff_exists.1 hsome
  have hexec : (peerStatement snap).exec c.state = (.ok (), { c.state.tick with db }) :=
    exec_execute_iff.2 ⟨hpass, db, hins, rfl⟩
  rw [hexec]
  exact insertSnapshot_addressed hins haddr

/-- What takes no peer's snapshot in keeps the rows addressed. -/
theorem addressed_of_not_takesIn (h : Pool.Step (MayCall g) SameSnapshots c c')
    (hthreads : ∀ p ∈ c.threads, p.MovesBut StaysAddressed AboutToInsert) (hno : ∀ snap, ¬ TakesIn snap c c')
    (haddr : Addressed c.state.db) : Addressed c'.state.db := by
  have hstart : ∀ w p, MayCall g w p → p.MovesBut StaysAddressed AboutToInsert := by
    rintro w p ⟨call, rfl⟩
    exact call_movesBut call
  obtain ⟨-, hstays | ⟨ts₁, ts₂, β, f, k, ⟨snap, r, hx⟩, hc, rfl⟩⟩ :=
    h.but StaysAddressed.refl hthreads hstart fun _ _ => StaysAddressed.of_same
  · exact hstays haddr
  · obtain ⟨F, hp, hF⟩ := execute_prim (.msg "insert peer snapshot") fun _ db => insertSnapshot snap db
    have hnode : peerStatement snap = Prog.prim F := hp
    have hact : Prog.act f k = (Prog.prim F).bind r := by rw [hx, hnode]
    cases hact
    rcases hF c.state with hfail | ⟨db, hins, hok⟩
    · rw [hfail]
      exact haddr
    · -- The statement went through: the step takes the snapshot in.
      have hexec : (peerStatement snap).exec c.state = (.ok (), { c.state.tick with db }) := by
        rw [hnode, Prog.exec_prim, hok]
      have hpass : Passes c.state := (exec_execute_iff.1 hexec).1
      refine absurd ⟨hpass, ?_, ts₁, ts₂, r, ?_, ?_⟩ (hno snap)
      · rw [hins]
        rfl
      · rw [hc, hnode]
        rfl
      · rw [hexec, hok]
        rfl

/-- As shipped no call stores a snapshot. -/
theorem addressed_as_shipped {c₀ : Pool World Err} {cs : List (Pool World Err)} (h₀ : c₀.threads = [])
    (haddr : Addressed c₀.state.db) (hrun : List.IsChain (Pool.Step (MayCall g) SameSnapshots) (c₀ :: cs))
    (hshipped : ∀ c ∈ c₀ :: cs, c.state.AsShipped) : ∀ c ∈ cs, Addressed c.state.db := by
  have hwrites : ∀ w w' : World, w.AsShipped ∧ Addressed w.db → ShippedWrites w w' → w'.AsShipped ∧ Addressed w'.db := by
    rintro w w' ⟨hw, haddr⟩ hwrites
    refine ⟨hwrites.asShipped hw, StaysAddressed.of_same ?_ haddr⟩
    rw [SameSnapshots, hwrites]
  have hstart : ∀ w p, MayCall g w p → p.Upholds (fun w => w.AsShipped ∧ Addressed w.db) fun _ => True := by
    rintro w p ⟨call, rfl⟩
    exact call.upholds_shipped (fun w hw => hw.1) hwrites
  have hthreads : ∀ p ∈ c₀.threads, p.Upholds (fun w => w.AsShipped ∧ Addressed w.db) fun _ => True := by
    intro p hp
    rw [h₀] at hp
    cases hp
  clear h₀
  induction cs generalizing c₀ with
  | nil => simp
  | cons c₁ cs ih =>
    rw [List.isChain_cons_cons] at hrun
    rw [List.forall_mem_cons] at hshipped
    have hc₁ : c₁.state.AsShipped := hshipped.2 c₁ (List.mem_cons_self ..)
    obtain ⟨hkept, hthreads₁⟩ := hrun.1.upheld ⟨hshipped.1, haddr⟩ hthreads hstart
      fun hout => ⟨hc₁, StaysAddressed.of_same hout haddr⟩
    rw [List.forall_mem_cons]
    exact ⟨hkept.2, ih hkept.2 hrun.2 hshipped.2 hthreads₁⟩

/-- **A step leaves the rows addressed by their content exactly if the snapshot it takes in, if any, hashes to its id.** -/
theorem addressed_step_iff {c c' : Pool World Err} (h : Pool.Step (MayCall g) SameSnapshots c c')
    (hthreads : ∀ p ∈ c.threads, p.MovesBut StaysAddressed AboutToInsert) (haddr : Addressed c.state.db) :
    Addressed c'.state.db ↔ TakesMatching c c' := by
  constructor
  · intro haddr' snap htake
    exact (htake.stays_addressed haddr).1 haddr'
  · intro hmatch
    by_cases htake : ∃ snap, TakesIn snap c c'
    · obtain ⟨snap, htake⟩ := htake
      exact (htake.stays_addressed haddr).2 (hmatch snap htake)
    · exact addressed_of_not_takesIn h hthreads (not_exists.1 htake) haddr

/-- **As shipped the rows are addressed by their content throughout every run. Whatever is decoded, they are as long as
no step takes in a peer's snapshot whose transcript does not hash to the id it was listed under**, and no longer. -/
theorem snapshots_addressed {c₀ : Pool World Err} {cs : List (Pool World Err)} (h₀ : c₀.threads = [])
    (haddr : Addressed c₀.state.db) (hrun : List.IsChain (Pool.Step (MayCall g) SameSnapshots) (c₀ :: cs)) :
    ((∀ c ∈ c₀ :: cs, c.state.AsShipped) → ∀ c ∈ cs, Addressed c.state.db) ∧
      ((∀ c ∈ cs, Addressed c.state.db) ↔ List.IsChain TakesMatching (c₀ :: cs)) := by
  refine ⟨addressed_as_shipped h₀ haddr hrun, ?_⟩
  have hthreads : ∀ p ∈ c₀.threads, p.MovesBut StaysAddressed AboutToInsert := by
    intro p hp
    rw [h₀] at hp
    cases hp
  clear h₀
  induction cs generalizing c₀ with
  | nil => simp
  | cons c₁ cs ih =>
    rw [List.isChain_cons_cons] at hrun ⊢
    obtain ⟨hstep, hrun⟩ := hrun
    have hstart : ∀ w p, MayCall g w p → p.MovesBut StaysAddressed AboutToInsert := by
      rintro w p ⟨call, rfl⟩
      exact call_movesBut call
    have hthreads₁ : ∀ p ∈ c₁.threads, p.MovesBut StaysAddressed AboutToInsert :=
      (hstep.but StaysAddressed.refl hthreads hstart fun _ _ => StaysAddressed.of_same).1
    have hone := addressed_step_iff hstep hthreads haddr
    rw [List.forall_mem_cons, hone]
    constructor
    · rintro ⟨hmatch, hrest⟩
      exact ⟨hmatch, (ih (hone.2 hmatch) hrun hthreads₁).1 hrest⟩
    · rintro ⟨hmatch, hrest⟩
      exact ⟨hmatch, (ih (hone.2 hmatch) hrun hthreads₁).2 hrest⟩

/-! ## Peers that answer honestly -/

/-- The transcript handed over hashes to the id it was asked for under. -/
def Call.Honest : Call → Prop
  | .sync _ _ answers => ∀ r resp, answers.fetchSnapshot r = .ok resp → resp.error = "" →
      r.snapshotId = transcriptId resp.transcript
  | _ => True

theorem honest_moves {call : Call} (h : call.Honest) : (call.prog g).MovesBut StaysAddressed fun _ => False := by
  apply prog_movesBut
  rintro peer remote answers jwt resp rfl hanswer herror
  exact Or.inl (h _ resp hanswer herror)

/-- **With honest peers every reachable store is addressed by its content.** -/
theorem addressed_of_honest {w : World} (hw : Addressed w.db)
    (h : Relation.ReflTransGen (Pool.Step (fun _ p => ∃ c : Call, c.Honest ∧ p = c.prog g) SameSnapshots) ⟨w, []⟩ c) :
    Addressed c.state.db := by
  have hstart : ∀ (_ : World) (p : Gw Unit), (∃ c : Call, c.Honest ∧ p = c.prog g) →
      p.MovesBut StaysAddressed fun _ => False := by
    rintro _ p ⟨call, hcall, rfl⟩
    exact honest_moves hcall
  have hall : (∀ p ∈ c.threads, p.MovesBut StaysAddressed fun _ => False) ∧ Addressed c.state.db := by
    induction h with
    | refl => exact ⟨by simp, hw⟩
    | @tail c₁ c₂ _ hstep ih =>
      obtain ⟨hthreads, haddr⟩ := ih
      obtain ⟨hthreads', hstays | ⟨_, _, _, _, _, hfalse, -⟩⟩ :=
        hstep.but StaysAddressed.refl hthreads hstart fun _ _ => StaysAddressed.of_same
      · exact ⟨hthreads', hstays haddr⟩
      · exact hfalse.elim
  exact hall.2

end

/-! ## A peer that does not -/

namespace DemoMislabelled

/-- The transcript of the folder at time 100, listed under the id of the one at time 200. -/
def sync : Call :=
  .sync ⟨"gw-b"⟩ { projectId := "p-b", projectName := "demo", snapshotId := demoSnapshot₂, gatewayName := "gw-b" }
    ⟨fun _ => .ok ⟨[], 0, ""⟩,
      fun r => .ok ⟨r.snapshotId, "F|a.txt|" ++ demoObject₁ ++ "|1|644|100", [], ""⟩,
      fun _ r => .ok ⟨r.sha256, [], "object not found"⟩⟩

def events : List Event := demoSetup ++ [.call sync]

/-- The call is under way. -/
def pool [Sha256] [HmacSha256] : Pool World Err := ⟨replay demoGateway demoSetup, [sync.prog demoGateway]⟩

/-- It is started and takes its first action. -/
theorem pool_runs [Sha256] [HmacSha256] :
    List.IsChain (Pool.Step (MayCall demoGateway) SameSnapshots) [⟨pool.state, []⟩, pool, pool.advance 0] := by
  have hstart : Pool.Step (MayCall demoGateway) SameSnapshots ⟨pool.state, []⟩ pool := Pool.Step.start ⟨sync, rfl⟩
  obtain ⟨β, f, k, hfirst⟩ : ∃ (β : Type) (f : World → β × World) (k : β → Gw Unit), pool.threads[0]? = some (.act f k) :=
    ⟨_, _, _, rfl⟩
  have hact : Pool.Step (MayCall demoGateway) SameSnapshots pool (pool.advance 0) := Pool.step_advance hfirst
  rw [List.isChain_cons_cons, List.isChain_cons_cons]
  exact ⟨hstart, hact, List.isChain_singleton _⟩

theorem pool_shipped : letI := demoSha256; letI := HmacSha256.recorded []
    pool.state.AsShipped ∧ (pool.advance 0).state.AsShipped ∧ Addressed pool.state.db ∧
      (Projects.byName pool.state.db "demo").isSome := by
  decide +kernel

end DemoMislabelled

/-- As shipped the round ends with its first action, and the peer's transcript is not stored. -/
theorem snapshots_addressed_demo : letI := demoSha256; letI := HmacSha256.recorded []
    (Projects.byName DemoMislabelled.pool.state.db "demo").isSome ∧ Addressed (DemoMislabelled.pool.advance 0).state.db := by
  obtain ⟨hpool, hnext, haddr, hdemo⟩ := DemoMislabelled.pool_shipped
  have hchain := @DemoMislabelled.pool_runs demoSha256 (.recorded [])
  let := demoSha256
  let := HmacSha256.recorded []
  refine ⟨hdemo, (@snapshots_addressed _ _ _ ⟨DemoMislabelled.pool.state, []⟩ _ rfl haddr hchain).1 ?_ _
    (List.mem_cons_of_mem _ (List.mem_singleton_self _))⟩
  rintro c (_ | ⟨_, _ | ⟨_, _ | ⟨_, ⟨⟩⟩⟩⟩)
  · exact hpool
  · exact hpool
  · exact hnext

-- With the columns decoded it is stored, under an id that is not its hash.
example : letI := demoSha256; letI := HmacSha256.recorded []
    ¬ Addressed (replay demoGateway DemoMislabelled.events .widening).db := by
  decide +kernel

end A2AGateway
