import A2AGateway.Federation

/-!
# What the calls of a gateway come to as shipped

`INTEGER` columns are read into an `i64`, which the driver refuses (`Engine.shipped`). So a row of `projects` is
stored by `create` and then never read: `get` and `get_by_name` fail as soon as there is one, and with them
`scan_and_snapshot` and each round of a project that has a local copy. `append` stores its row and fails. What the
calls still write is listed in `ShippedWrites`: no snapshot, no head, no peer cursor and no entry of a peer. So
every gateway of a net keeps to the entries it has appended itself (`ownEntries`).
-/

namespace A2AGateway

open Gw

/-- Only `projects`, the task log and the object store differ. -/
def ShippedWrites (w w' : World) : Prop :=
  w'.db = { w.db with projects := w'.db.projects, taskLog := w'.db.taskLog, objects := w'.db.objects }

theorem ShippedWrites.tick (w : World) : ShippedWrites w w.tick := rfl

theorem ShippedWrites.of_objects {w w' : World} (h : ObjectStore.ObjectsOnly w w') : ShippedWrites w w' := by
  rw [ShippedWrites, h.1]

theorem ShippedWrites.of_projects (w : World) (projects : Table Project) :
    ShippedWrites w { w.tick with db := { w.db with projects } } := rfl

theorem ShippedWrites.of_insertRow {w : World} {row : LogRow} {db : Db} (h : TaskLog.insertRow row w.db = some db) :
    ShippedWrites w { w.tick with db } := by
  rw [ShippedWrites, (TaskLog.insertRow_eq_some.1 h).2.2.2.2.1]

theorem ShippedWrites.asShipped {w w' : World} (h : ShippedWrites w w') (hw : w.AsShipped) : w'.AsShipped := by
  rw [World.AsShipped, h]
  exact hw

/-! ## Reads of rows that are there -/

section
variable {σ : Type} {L : Prog.Focus σ World} {I : σ → Prop} (hship : ∀ s, I s → (L.get s).AsShipped)
  (ht : ∀ s, I s → I (L.set (L.get s).tick s))
include hship ht

theorem Projects.upholds_getByName_shipped (name : String) :
    ((Projects.getByName name).within L).Upholds I fun o => o = none := by
  refine upholds_fetch_within ht fun s o hs ho => ?_
  obtain ⟨rfl, hnone⟩ := Engine.decodeRow_eq_some.1 ho
  exact hnone (hship s hs)

theorem Projects.upholds_get_shipped (id : String) : ((Projects.get id).within L).Upholds I fun o => o = none := by
  refine upholds_fetch_within ht fun s o hs ho => ?_
  obtain ⟨rfl, hnone⟩ := Engine.decodeRow_eq_some.1 ho
  exact hnone (hship s hs)

end

/-! ## A round -/

namespace PeerSync

/-- As shipped a round stores nothing but objects. -/
theorem upholds_syncProject_shipped [Sha256] [HmacSha256] {σ : Type} {L : Prog.Focus σ World} {I : σ → Prop}
    {client : PeerClient σ} {peer : PeerConfig} {remote : RemoteProject} {secret : Bytes}
    (hship : ∀ s, I s → (L.get s).AsShipped) (hobjects : ∀ s w, I s → ObjectStore.ObjectsOnly (L.get s) w → I (L.set w s))
    (hpeer : AnswersMove client.inner fun s s' => I s → I s') :
    (syncProject L client peer remote secret).Upholds I fun _ => True := by
  unfold syncProject
  rw [Prog.bind_eq]
  refine (Projects.upholds_getByName_shipped hship (fun s hs => hobjects s _ hs (.tick _)) _).bind ?_
  rintro _ rfl
  rw [Prog.bind_eq]
  apply Prog.Moves.upholds
  apply Prog.Moves.bind (moves_syncLog_none (fun _ => id) hpeer peer remote secret)
  intro u
  apply moves_pullSnapshot (fun _ => id) hpeer (fun s w h hs => hobjects s w hs h) .tick ObjectStore.moves_put
  intro p hp
  cases hp

end PeerSync

/-! ## The calls of one gateway -/

section
variable {I : World → Prop} (hship : ∀ w, I w → w.AsShipped)
include hship

/-- A scan of a project that is there fails, and so does one of a project that is not. -/
theorem FileSync.upholds_scanAndSnapshot_shipped [Sha256] (ht : ∀ w, I w → I w.tick) (gateway projectId : String) :
    (scanAndSnapshot gateway projectId).Upholds I fun _ => False := by
  have hget := Projects.upholds_get_shipped (L := Prog.Focus.whole) hship ht projectId
  rw [Prog.within_whole] at hget
  unfold scanAndSnapshot
  rw [Prog.bind_eq]
  refine hget.bind ?_
  rintro _ rfl
  trivial

/-- The row of the project is there, and `create` fails to read it. -/
theorem Projects.upholds_create_shipped (hprojects : ∀ w projects, I w → I { w.tick with db := { w.db with projects } })
    (ht : ∀ w, I w → I w.tick) (id : Uuid) (name repoUrl description origin peer peerId : String) :
    (create id name repoUrl description origin peer peerId).Upholds I fun _ => False := by
  have hget := Projects.upholds_get_shipped (L := Prog.Focus.whole) hship ht id.text
  rw [Prog.within_whole] at hget
  unfold create
  rw [Prog.bind_eq]
  refine (Prog.upholds_look fun _ _ => trivial).seq fun now => ?_
  rw [Prog.bind_eq]
  refine Prog.Upholds.seq (upholds_execute ht fun w db hw hdb => ?_) fun u => ?_
  · obtain ⟨projects, -, rfl⟩ := Option.map_eq_some_iff.1 hdb
    exact hprojects w projects hw
  · rw [Prog.bind_eq]
    refine hget.bind ?_
    rintro _ rfl
    trivial

/-- The row of the entry is there, and `append` fails to read its cursor. -/
theorem TaskLog.upholds_append_shipped [HmacSha256] (ht : ∀ w, I w → I w.tick)
    (hinsert : ∀ w row db, I w → insertRow row w.db = some db → I { w.tick with db })
    (secret : Bytes) (id : Uuid) (projectId gatewayName agentName : String) (entryType : EntryType) (content : String)
    (todoId : Option Int) (taskStatus : Option TaskStatus) (validTo : Option F64) :
    (appendWithStatus secret id projectId gatewayName agentName entryType content todoId taskStatus validTo).Upholds I
      fun _ => False := by
  unfold appendWithStatus
  rw [Prog.bind_eq]
  refine (Prog.upholds_look fun _ _ => trivial).seq fun now => ?_
  rw [Prog.bind_eq]
  refine (upholds_insertReturning ht hship fun w cursor db hw hdb => ?_).bind fun _ hno => hno.elim
  obtain ⟨db', hins, hpair⟩ := Option.map_eq_some_iff.1 hdb
  cases hpair
  exact hinsert w _ _ hw hins

end

section
variable [Sha256] [HmacSha256] {g : Gateway} {I : World → Prop} (hship : ∀ w, I w → w.AsShipped)
  (hwrites : ∀ w w', I w → ShippedWrites w w' → I w')
include hship hwrites

/-- **As shipped the calls of a gateway write projects, entries of its own and objects, and nothing else.** -/
theorem Call.upholds_shipped (c : Call) : (c.prog g).Upholds I fun _ => True := by
  have ht : ∀ w, I w → I w.tick := fun w hw => hwrites w _ hw (.tick w)
  cases c with
  | createProject id name repoUrl description origin peer peerId =>
    refine (Projects.upholds_create_shipped hship ?_ ht id name repoUrl description origin peer peerId).bind fun _ _ => trivial
    exact fun w projects hw => hwrites w _ hw (.of_projects w projects)
  | setFolderPath id path =>
    refine Prog.Moves.upholds (Projects.moves_setFolderPath ht fun w dir hw => ?_)
    exact hwrites w _ hw (.of_projects w _)
  | setFileGlob id glob =>
    unfold prog Projects.setFileGlob
    refine upholds_execute ht fun w db hw hdb => ?_
    cases hdb
    exact hwrites w _ hw (.of_projects w _)
  | append id projectId agent entryType content todoId =>
    refine (TaskLog.upholds_append_shipped hship ht ?_ g.secret id projectId g.name agent entryType content todoId none
      none).bind fun _ _ => trivial
    exact fun w row db hw hins => hwrites w _ hw (.of_insertRow hins)
  | scan projectId =>
    exact (FileSync.upholds_scanAndSnapshot_shipped hship ht g.name projectId).bind fun _ _ => trivial
  | sync peer remote answers =>
    exact PeerSync.upholds_syncProject_shipped hship (fun w w' hw h => hwrites w w' hw (.of_objects h))
      (PeerSync.moves_answering answers)

end

/-! ## The gateways of a net -/

section
variable [HmacSha256] {G : List Gateway} {n n' : Net}

/-- Every gateway is as shipped, and its log has entries of its own only, with its signature. -/
def OwnEntries (G : List Gateway) (n : Net) : Prop :=
  ∀ g ∈ G, (n g.name).AsShipped ∧ ∀ r ∈ (n g.name).db.taskLog.rows,
    r.gatewayName = g.name ∧ ∃ h ∈ G, TaskLog.Signed h.secret r

/-- Somewhere something else has changed. -/
theorem OwnEntries.set {name : String} {w : World} (h : OwnEntries G n) (hengine : w.db.engine = (n name).db.engine)
    (hlog : w.db.taskLog = (n name).db.taskLog) : OwnEntries G ((Net.at_ name).set w n) := by
  intro g hg
  by_cases hname : g.name = name
  · subst hname
    rw [Net.at_set_self, World.AsShipped, hengine, hlog]
    exact h g hg
  · rw [Net.at_set_of_ne hname]
    exact h g hg

theorem OwnEntries.inserted {g : Gateway} (h : OwnEntries G n) (hg : g ∈ G) {row : LogRow} {db : Db}
    (hsigned : TaskLog.Signed g.secret row) (hname : row.gatewayName = g.name)
    (hins : TaskLog.insertRow row (n g.name).db = some db) :
    OwnEntries G ((Net.at_ g.name).set { (n g.name).tick with db } n) := by
  intro k hk
  refine ⟨?_, fun r hr => ?_⟩
  · by_cases hkg : k.name = g.name
    · rw [hkg, Net.at_set_self]
      exact (ShippedWrites.of_insertRow hins).asShipped (h g hg).1
    · rw [Net.at_set_of_ne hkg]
      exact (h k hk).1
  · rcases (mem_rows_inserted hins).1 hr with hr | ⟨hkg, rfl⟩
    · exact (h k hk).2 r hr
    · exact ⟨hname.trans hkg.symm, g, hg, hsigned⟩

theorem Outside.ownEntries (h : Outside G n n') (hn : OwnEntries G n) : OwnEntries G n' := by
  cases h with
  | @append g hg id fresh projectId agentName entryType content todoId =>
    rcases TaskLog.exec_append_cases with hrun | ⟨db, hins, hrun⟩
    · rw [hrun]
      exact hn.set rfl rfl
    · rw [hrun]
      exact hn.inserted hg TaskLog.signed_appendRow rfl hins
  | environment name folders canonical now faults => exact hn.set rfl rfl

variable [Sha256]

theorem Gateway.upholds_round_shipped {b a : Gateway} (hb : b ∈ G) (peer : PeerConfig) (remote : RemoteProject) :
    (b.round a peer remote).Upholds (OwnEntries G) fun _ => True := by
  refine PeerSync.upholds_syncProject_shipped (fun n hn => (hn b hb).1) (fun n w hn hobjects => ?_)
    (PeerSync.moves_serving a.handler fun n w hsame hn => ?_)
  · refine OwnEntries.set hn ?_ ?_ <;> rw [hobjects.1] <;> rfl
  · have hdb : w.db = (n a.name).db := congrArg Prod.fst hsame
    exact OwnEntries.set hn (by rw [hdb]) (by rw [hdb])

/-- **As shipped no entry goes from one gateway to another**, whatever is appended and however rounds overlap. -/
theorem ownEntries {init : Net → Prop} {rounds : Gateway → Gateway → PeerConfig → Prop}
    {outside : Net → Net → Prop} {pool : Pool Net Err} (hpool : Pool.Reachable init (Starts rounds) outside pool)
    (hinit : ∀ n, init n → OwnEntries G n) (hrounds : ∀ b a peer, rounds b a peer → b ∈ G)
    (hout : ∀ n n', OwnEntries G n → outside n n' → OwnEntries G n') : OwnEntries G pool.state := by
  refine hpool.upheld hinit (fun n p _ hp => ?_) hout
  obtain ⟨b, a, peer, remote, hround, -, rfl⟩ := hp
  exact Gateway.upholds_round_shipped (hrounds b a peer hround) peer remote

end

end A2AGateway
