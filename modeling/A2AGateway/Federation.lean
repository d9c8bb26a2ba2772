import A2AGateway.Net
import A2AGateway.Statements

/-!
# Appends and rounds side by side

The gateways of a list append to their task logs and run rounds against one another, statement by
statement in any order. An append is one statement (its cursor is computed inside the `INSERT`), so it
happens at once; a round is a program under way. Which rounds there are is a parameter. The projects
are there from the start, and the ids that `append` draws are never drawn twice.
-/

namespace A2AGateway

open PeerSync ObjectStore FileSync Gw

/-! ## The system -/

section
variable [HmacSha256]

/-- What happens besides the rounds: somebody appends, or a gateway's environment changes. -/
inductive Outside (G : List Gateway) : Net → Net → Prop
  | append {n : Net} {g : Gateway} (hg : g ∈ G) (id : Uuid)
      (fresh : ∀ h ∈ G, ∀ r ∈ (n h.name).db.taskLog.rows, r.id ≠ id.text) (projectId agentName : String)
      (entryType : EntryType) (content : String) (todoId : Option Int) :
      Outside G n ((Net.at_ g.name).set
        ((TaskLog.append g.secret id projectId g.name agentName entryType content todoId).exec (n g.name)).2 n)
  | environment {n : Net} (name : String) (folders : String → Option Listing) (canonical : String → Option String)
      (now : F64) (faults : List (Option Nat)) :
      Outside G n ((Net.at_ name).set { n name with folders, canonical, now, faults } n)

/-- The gateway lists the project to its peers. -/
def Listed (w : World) (remote : RemoteProject) : Prop :=
  ∃ p ∈ w.db.projects.rows, remote.projectId = p.id ∧ remote.projectName = p.name

/-- Somebody starts a round for a project that the peer lists. -/
def Starts [Sha256] (rounds : Gateway → Gateway → PeerConfig → Prop) (n : Net) (p : Prog Net Err Unit) : Prop :=
  ∃ b a peer remote, rounds b a peer ∧ Listed (n a.name) remote ∧ p = b.round a peer remote

end

/-- Some token of `b` for the peer is taken by `a`. -/
def TokenAccepted (b a : Gateway) (peer : PeerConfig) : Prop :=
  ∃ now now' c, a.auth.validateFor (roundToken b.auth peer now) a.name now' = .ok c

/-! ## Everything but the log -/

/-- Task log and projects are the same, and columns are read as before. -/
structure LogSame (w w' : World) : Prop where
  taskLog : w'.db.taskLog = w.db.taskLog
  projects : w'.db.projects = w.db.projects
  engine : w'.db.engine = w.db.engine

theorem LogSame.refl (w : World) : LogSame w w := ⟨rfl, rfl, rfl⟩

theorem LogSame.tick (w : World) : LogSame w w.tick := ⟨rfl, rfl, rfl⟩

theorem LogSame.trans {a b c : World} (h : LogSame a b) (h' : LogSame b c) : LogSame a c :=
  ⟨h'.1.trans h.1, h'.2.trans h.2, h'.3.trans h.3⟩

theorem LogSame.of_same {w w' : World} (h : SameStored w w') : LogSame w w' := by
  have hdb : w'.db = w.db := congrArg Prod.fst h
  exact ⟨by rw [hdb], by rw [hdb], by rw [hdb]⟩

theorem LogSame.of_objectsOnly {w w' : World} (h : ObjectsOnly w w') : LogSame w w' :=
  ⟨by rw [h.1], by rw [h.1], by rw [h.1]⟩

theorem moves_updatePeerCursor_logSame (peerName projectId : String) (cursor : Int) :
    (updatePeerCursor peerName projectId cursor).Moves LogSame := by
  refine moves_execute LogSame.tick fun w db hdb => ?_
  cases hdb
  exact ⟨rfl, rfl, rfl⟩

theorem moves_applyPeerSnapshot_logSame (projectId snapId transcript fromGateway : String) :
    (applyPeerSnapshot projectId snapId transcript fromGateway).Moves LogSame := by
  apply moves_applyPeerSnapshot LogSame.refl LogSame.tick
  · intro w now db hdb
    have hframe := (insertSnapshot_eq_some.1 hdb).2.2.1
    constructor <;> rw [hframe]
  · intro w db hdb
    have hframe := upsertHead_frame hdb
    constructor <;> rw [hframe]

/-- The snapshot half of a round touches neither logs nor projects. -/
theorem moves_pullSnapshot_logSame [Sha256] (b a : Gateway) (peer : PeerConfig) (remote : RemoteProject)
    (localCopy : Option Project) :
    (pullSnapshot (Net.at_ b.name) (b.client a peer) peer remote localCopy).Moves (Net.Each LogSame) :=
  moves_pullSnapshot (Net.Each.refl .refl) (moves_client_serving b a peer .refl fun _ _ => .of_same)
    (Net.each_of_at .refl) .tick (fun d => (moves_put d).mono fun _ _ => .of_objectsOnly)
    fun p _ t => moves_applyPeerSnapshot_logSame p.id remote.snapshotId t peer.name

/-! ## One row more -/

section
variable {name : String} {row : LogRow} {db : Db} {n : Net}

theorem mem_rows_inserted (h : TaskLog.insertRow row (n name).db = some db) {g : String} {r : LogRow} :
    r ∈ ((Net.at_ name).set { (n name).tick with db } n g).db.taskLog.rows ↔
      r ∈ (n g).db.taskLog.rows ∨ g = name ∧ r = row := by
  by_cases hg : g = name
  · subst hg
    simp [Net.at_set_self, (TaskLog.insertRow_eq_some.1 h).2.2.2.2.2]
  · simp [Net.at_set_of_ne hg, hg]

theorem projects_inserted (h : TaskLog.insertRow row (n name).db = some db) (g : String) :
    ((Net.at_ name).set { (n name).tick with db } n g).db.projects = (n g).db.projects := by
  by_cases hg : g = name
  · subst hg
    rw [Net.at_set_self, (TaskLog.insertRow_eq_some.1 h).2.2.2.2.1]
  · rw [Net.at_set_of_ne hg]

/-- Besides the rounds only a gateway's own, signed rows are added, under ids that are new. -/
theorem Outside.cases [HmacSha256] {G : List Gateway} {n' : Net} (h : Outside G n n') :
    Net.Each LogSame n n' ∨ ∃ g ∈ G, ∃ row db, TaskLog.Signed g.secret row ∧ row.gatewayName = g.name ∧
      (∀ h ∈ G, ∀ r ∈ (n h.name).db.taskLog.rows, r.id ≠ row.id) ∧
      TaskLog.insertRow row (n g.name).db = some db ∧ n' = (Net.at_ g.name).set { (n g.name).tick with db } n := by
  cases h with
  | @append g hg id fresh projectId agentName entryType content todoId =>
    rcases TaskLog.exec_append_cases with hrun | ⟨db, hins, hrun⟩
    · rw [hrun]
      exact Or.inl (Net.each_of_at .refl n _ (.tick _))
    · rw [hrun]
      exact Or.inr ⟨g, hg, _, db, TaskLog.signed_appendRow, rfl, fresh, hins, rfl⟩
  | environment name folders canonical now faults =>
    exact Or.inl (Net.each_of_at .refl n _ ⟨rfl, rfl, rfl⟩)

end

/-! ## Moments at which nothing fails -/

section
variable [Sha256] [HmacSha256] {G : List Gateway} {rounds : Gateway → Gateway → PeerConfig → Prop} {init : Net → Prop}

/-- Two gateways can be brought to any times, with nothing failing. -/
theorem exists_calm {pool : Pool Net Err} (h : Pool.Reachable init (Starts rounds) (Outside G) pool) {b a : String}
    (hne : a ≠ b) (now now' : F64) :
    ∃ n, Pool.Reachable init (Starts rounds) (Outside G) ⟨n, pool.threads⟩ ∧
      (∀ g, (n g).db = (pool.state g).db) ∧ ((n b).faults = [] ∧ (n b).now = now) ∧
      (n a).faults = [] ∧ (n a).now = now' := by
  obtain ⟨n, threads⟩ := pool
  have hcalm : ∀ n g now, ∃ w : World, Outside G n ((Net.at_ g).set w n) ∧ w.db = (n g).db ∧ w.faults = [] ∧ w.now = now :=
    fun n g now => ⟨_, .environment g (n g).folders (n g).canonical now [], rfl, rfl, rfl⟩
  obtain ⟨wb, hb, hbdb, hbfaults, hbnow⟩ := hcalm n b now
  obtain ⟨wa, ha, hadb, hafaults, hanow⟩ := hcalm ((Net.at_ b).set wb n) a now'
  refine ⟨_, (h.moved hb).moved ha, fun g => ?_, ?_, ?_⟩
  · by_cases hga : g = a
    · subst hga
      rw [Net.at_set_self, hadb, Net.at_set_of_ne hne]
    · rw [Net.at_set_of_ne hga]
      by_cases hgb : g = b
      · subst hgb
        rw [Net.at_set_self, hbdb]
      · rw [Net.at_set_of_ne hgb]
  · rw [Net.at_set_of_ne hne.symm, Net.at_set_self]
    exact ⟨hbfaults, hbnow⟩
  · rw [Net.at_set_self]
    exact ⟨hafaults, hanow⟩

omit [Sha256] in
/-- An append that nothing fails, as a step of the system. -/
theorem outside_append {n : Net} {g : Gateway} (hg : g ∈ G) (hcalm : (n g.name).faults = []) {id : Uuid}
    (fresh : ∀ h ∈ G, ∀ r ∈ (n h.name).db.taskLog.rows, r.id ≠ id.text) {projectId agentName content : String}
    {entryType : EntryType} {todoId : Option Int} {db : Db}
    (hins : TaskLog.insertRow (TaskLog.appendRow g.secret id projectId g.name agentName entryType content todoId
      (n g.name).now (n g.name).db) (n g.name).db = some db) :
    Outside G n ((Net.at_ g.name).set { n g.name with db } n) := by
  have hrun := Outside.append hg id fresh projectId agentName entryType content todoId
  rwa [TaskLog.exec_append_calm hcalm hins] at hrun

end

/-! ## A delta taken over -/

/-- The database after one entry of a delta: rejected, inserted, or refused by the database. -/
def takeEntry [HmacSha256] (secret : Bytes) (peer : PeerConfig) (remoteId localId : String) (db : Db)
    (e : ProtoLogEntry) : Db :=
  if accepts secret peer remoteId e then
    (TaskLog.insertRowIgnore ((reconstruct remoteId e).toRow localId) db).getD db
  else db

/-- The database after the whole delta. -/
def takeDelta [HmacSha256] (secret : Bytes) (peer : PeerConfig) (remoteId localId : String)
    (entries : List ProtoLogEntry) (db : Db) : Db :=
  entries.foldl (takeEntry secret peer remoteId localId) db

section
variable [HmacSha256] {secret : Bytes} {peer : PeerConfig} {remoteId localId : String} {db : Db}

/-- One entry adds its row, or nothing. -/
theorem takeEntry_cases (secret : Bytes) (peer : PeerConfig) (remoteId localId : String) (db : Db) (e : ProtoLogEntry) :
    takeEntry secret peer remoteId localId db e = db ∨
      accepts secret peer remoteId e = true ∧
        TaskLog.insertRow ((reconstruct remoteId e).toRow localId) db =
          some (takeEntry secret peer remoteId localId db e) := by
  unfold takeEntry
  by_cases hacc : accepts secret peer remoteId e = true
  · rw [if_pos hacc]
    cases hins : TaskLog.insertRowIgnore ((reconstruct remoteId e).toRow localId) db with
    | none => exact Or.inl rfl
    | some db' =>
      rcases TaskLog.insertRowIgnore_eq_some hins with ⟨-, rfl⟩ | hrow
      · exact Or.inl rfl
      · exact Or.inr ⟨hacc, hrow⟩
  · rw [if_neg hacc]
    exact Or.inl rfl

theorem takeEntry_frame (e : ProtoLogEntry) :
    takeEntry secret peer remoteId localId db e =
      { db with taskLog := (takeEntry secret peer remoteId localId db e).taskLog } := by
  rcases takeEntry_cases secret peer remoteId localId db e with h | ⟨-, h⟩
  · rw [h]
  · exact (TaskLog.insertRow_eq_some.1 h).2.2.2.2.1

theorem takeDelta_frame {entries : List ProtoLogEntry} :
    takeDelta secret peer remoteId localId entries db =
      { db with taskLog := (takeDelta secret peer remoteId localId entries db).taskLog } := by
  induction entries generalizing db with
  | nil => rfl
  | cons e entries ih =>
    have hhead : takeEntry secret peer remoteId localId db e =
        { db with taskLog := (takeEntry secret peer remoteId localId db e).taskLog } := takeEntry_frame e
    rw [takeDelta, List.foldl_cons, ← takeDelta, ih, hhead]

theorem mem_takeEntry_of_mem {e : ProtoLogEntry} {r : LogRow} (hr : r ∈ db.taskLog.rows) :
    r ∈ (takeEntry secret peer remoteId localId db e).taskLog.rows := by
  rcases takeEntry_cases secret peer remoteId localId db e with h | ⟨-, h⟩
  · rwa [h]
  · rw [(TaskLog.insertRow_eq_some.1 h).2.2.2.2.2]
    exact List.mem_append_left _ hr

/-- An accepted entry that its columns can hold is there afterwards, or another row has its id. -/
theorem takeEntry_has {e : ProtoLogEntry} (hacc : accepts secret peer remoteId e = true)
    (hfits : fitsInteger e.cursor = true) (hproject : db.hasProject localId = true) :
    ∃ r ∈ (takeEntry secret peer remoteId localId db e).taskLog.rows, r.id = e.id := by
  let row := (reconstruct remoteId e).toRow localId
  by_cases hid : ∀ x ∈ db.taskLog.rows, x.id ≠ row.id
  · obtain ⟨db', hins⟩ : ∃ db', TaskLog.insertRow row db = some db' :=
      TaskLog.insertRow_of_fresh hfits hproject rfl hid
    have hignore : TaskLog.insertRowIgnore row db = TaskLog.insertRow row db :=
      TaskLog.insertRowIgnore_of_fresh hfits hid
    have htake : takeEntry secret peer remoteId localId db e = db' := by
      unfold takeEntry
      rw [if_pos hacc, hignore, hins]
      rfl
    refine ⟨row, ?_, rfl⟩
    rw [htake, (TaskLog.insertRow_eq_some.1 hins).2.2.2.2.2]
    exact List.mem_append_right _ (List.mem_singleton_self row)
  · push Not at hid
    obtain ⟨x, hx, hid⟩ := hid
    exact ⟨x, mem_takeEntry_of_mem hx, hid⟩

/-- A delta adds rows of accepted entries. -/
theorem rows_takeDelta (secret : Bytes) (peer : PeerConfig) (remoteId localId : String) (entries : List ProtoLogEntry) (db : Db) :
    ∃ new, (takeDelta secret peer remoteId localId entries db).taskLog.rows = db.taskLog.rows ++ new ∧
      ∀ r ∈ new, ∃ e ∈ entries, accepts secret peer remoteId e = true ∧ r = (reconstruct remoteId e).toRow localId := by
  induction entries generalizing db with
  | nil => exact ⟨[], by simp [takeDelta], by simp⟩
  | cons e entries ih =>
    obtain ⟨new, hrows, hnew⟩ := ih (takeEntry secret peer remoteId localId db e)
    have hlater : ∀ r ∈ new, ∃ x ∈ e :: entries, accepts secret peer remoteId x = true ∧
        r = (reconstruct remoteId x).toRow localId := by
      intro r hr
      obtain ⟨x, hx, h⟩ := hnew r hr
      exact ⟨x, List.mem_cons_of_mem e hx, h⟩
    rw [takeDelta, List.foldl_cons, ← takeDelta, hrows]
    rcases takeEntry_cases secret peer remoteId localId db e with hsame | ⟨hacc, hins⟩
    · rw [hsame]
      exact ⟨new, rfl, hlater⟩
    · rw [(TaskLog.insertRow_eq_some.1 hins).2.2.2.2.2, List.append_assoc]
      refine ⟨_, rfl, fun r hr => ?_⟩
      rcases List.mem_append.1 hr with hr | hr
      · exact ⟨e, List.mem_cons_self, hacc, List.mem_singleton.1 hr⟩
      · exact hlater r hr

/-- What a delta leaves in the log was there, or is the row of an entry that was accepted. -/
theorem mem_takeDelta {entries : List ProtoLogEntry} {r : LogRow}
    (hr : r ∈ (takeDelta secret peer remoteId localId entries db).taskLog.rows) :
    r ∈ db.taskLog.rows ∨
      ∃ e ∈ entries, accepts secret peer remoteId e = true ∧ r = (reconstruct remoteId e).toRow localId := by
  obtain ⟨new, hrows, hnew⟩ := rows_takeDelta secret peer remoteId localId entries db
  rw [hrows] at hr
  exact (List.mem_append.1 hr).imp_right (hnew r)

theorem mem_takeDelta_of_mem {entries : List ProtoLogEntry} {r : LogRow} (hr : r ∈ db.taskLog.rows) :
    r ∈ (takeDelta secret peer remoteId localId entries db).taskLog.rows := by
  obtain ⟨new, hrows, -⟩ := rows_takeDelta secret peer remoteId localId entries db
  rw [hrows]
  exact List.mem_append_left new hr

/-- **After a delta every accepted entry that its columns can hold is there**, or another row has its
id. -/
theorem takeDelta_has {entries : List ProtoLogEntry} {e : ProtoLogEntry} (he : e ∈ entries)
    (hacc : accepts secret peer remoteId e = true) (hfits : fitsInteger e.cursor = true)
    (hproject : db.hasProject localId = true) :
    ∃ r ∈ (takeDelta secret peer remoteId localId entries db).taskLog.rows, r.id = e.id := by
  induction entries generalizing db with
  | nil => cases he
  | cons e' entries ih =>
    rcases List.mem_cons.1 he with rfl | he
    · obtain ⟨r, hr, hid⟩ := takeEntry_has hacc hfits hproject
      have hrest : r ∈ (takeDelta secret peer remoteId localId entries
        (takeEntry secret peer remoteId localId db e)).taskLog.rows := mem_takeDelta_of_mem hr
      exact ⟨r, hrest, hid⟩
    · refine ih he ?_
      rw [takeEntry_frame e']
      exact hproject

end

/-! ## A round with nothing failing from outside -/

section
variable [HmacSha256] {b a : Gateway} {peer : PeerConfig} {remote : RemoteProject} {n : Net}

omit [HmacSha256] in
/-- The peer answers exactly the tokens it takes. -/
theorem exec_client_syncTaskLog_serving (ha : (n a.name).Legible) (after : Int) :
    ((b.client a peer).syncTaskLog (Net.at_ b.name) remote.projectId after).exec n =
      ((match a.auth.validateFor (roundToken b.auth peer (n b.name).now) a.name (n a.name).now with
        | .ok _ => .ok ⟨PeerHandler.logAnswer (n a.name).db remote.projectId after,
            TaskLog.maxCursor (n a.name).db remote.projectId, ""⟩
        | .error _ => .error (.msg "sync task log")), n) := by
  let request : TaskLogSyncRequest := ⟨remote.projectId, after, roundToken b.auth peer (n b.name).now⟩
  have hcall : ((b.client a peer).syncTaskLog (Net.at_ b.name) remote.projectId after).exec n =
      (((a.handler.syncTaskLog request).exec (n a.name)).1.mapError fun _ => .msg "sync task log",
        (Net.at_ a.name).set ((a.handler.syncTaskLog request).exec (n a.name)).2 n) := by
    simp only [PeerClient.syncTaskLog, Prog.bind_eq]
    rw [Prog.exec_bind_of_ok (exec_jwt _ _ _ n), Prog.exec_mapErr]
    simp only [Gateway.client, Peer.serving, Prog.exec_within, Net.at_get]
    rfl
  rw [hcall]
  cases hv : a.auth.validateFor (roundToken b.auth peer (n b.name).now) a.name (n a.name).now with
  | ok c =>
    have hanswer := PeerHandler.exec_syncTaskLog_calm (h := a.handler) (r := request) ha.1 ha.2 hv
    rw [hanswer]
    exact Prod.ext rfl ((Net.at_ a.name).set_get n)
  | error e =>
    have hanswer := PeerHandler.exec_syncTaskLog_refused (h := a.handler) (r := request) hv
    rw [hanswer]
    exact Prod.ext rfl ((Net.at_ a.name).set_get n)

section
variable {σ : Type} (L : Prog.Focus σ World) {s : σ}

theorem exec_acceptEntry_calm (hs : (L.get s).faults = []) (secret : Bytes) (localId : String) (e : ProtoLogEntry) :
    (acceptEntry L peer remote secret localId e).exec s =
      (.ok (), L.set { L.get s with db := takeEntry secret peer remote.projectId localId (L.get s).db e } s) := by
  unfold acceptEntry takeEntry
  by_cases hacc : accepts secret peer remote.projectId e = true
  · rw [if_pos hacc, if_pos hacc]
    simp only [Prog.bind_eq]
    rw [Prog.exec_bind_of_ok (Prog.exec_attempt _ s), Prog.exec_within, TaskLog.insertPeerEntry, exec_execute_calm hs]
    cases TaskLog.insertRowIgnore ((reconstruct remote.projectId e).toRow localId) (L.get s).db <;> rfl
  · rw [if_neg hacc, if_neg hacc]
    exact Prod.ext rfl (L.set_get s).symm

theorem exec_forEach_acceptEntry_calm (secret : Bytes) (localId : String) (entries : List ProtoLogEntry)
    (hs : (L.get s).faults = []) :
    (Prog.forEach entries (acceptEntry L peer remote secret localId)).exec s =
      (.ok (), L.set { L.get s with db := takeDelta secret peer remote.projectId localId entries (L.get s).db } s) := by
  induction entries generalizing s with
  | nil => exact Prod.ext rfl (L.set_get s).symm
  | cons e entries ih =>
    simp only [Prog.forEach]
    rw [Prog.exec_bind_of_ok (exec_acceptEntry_calm L hs secret localId e), ih]
    · simp only [L.get_set, L.set_set]
      rfl
    · simp only [L.get_set]
      exact hs

end

/-- The net after the log half: the delta since the highest cursor of the copy has been taken over. -/
def synced (b a : Gateway) (peer : PeerConfig) (remote : RemoteProject) (p : Project) (n : Net) : Net :=
  (Net.at_ b.name).set
    { n b.name with
      db := takeDelta b.secret peer remote.projectId p.id
        (PeerHandler.logAnswer (n a.name).db remote.projectId (TaskLog.maxCursor (n b.name).db p.id)) (n b.name).db } n

/-- **The log half of a round takes the peer's delta over**, or the peer does not take the token. -/
theorem exec_syncLog_serving (peer : PeerConfig) (remote : RemoteProject) (hb : (n b.name).Legible) (ha : (n a.name).Legible) (p : Project) :
    (∃ n', (syncLog (Net.at_ b.name) (b.client a peer) peer remote b.secret (some p)).exec n = (.ok (), n') ∧
        Net.Each LogSame (synced b a peer remote p n) n' ∧
        ∃ c, a.auth.validateFor (roundToken b.auth peer (n b.name).now) a.name (n a.name).now = .ok c) ∨
      (syncLog (Net.at_ b.name) (b.client a peer) peer remote b.secret (some p)).exec n =
        (.error (.msg "sync task log"), n) ∧
        ¬ ∃ c, a.auth.validateFor (roundToken b.auth peer (n b.name).now) a.name (n a.name).now = .ok c := by
  have hcursor : (localCursor (Net.at_ b.name) (some p)).exec n = (.ok (TaskLog.maxCursor (n b.name).db p.id), n) :=
    exec_localCursor_calm (Net.at_ b.name) hb.1 hb.2 p
  simp only [syncLog, Prog.bind_eq]
  rw [Prog.exec_bind_of_ok hcursor, Prog.exec_bind, exec_client_syncTaskLog_serving ha]
  cases hv : a.auth.validateFor (roundToken b.auth peer (n b.name).now) a.name (n a.name).now with
  | error e =>
    refine Or.inr ⟨rfl, ?_⟩
    rintro ⟨c, hc⟩
    cases hc
  | ok c =>
    refine Or.inl ?_
    simp only
    rw [Prog.exec_bind_of_ok (exec_forEach_acceptEntry_calm (Net.at_ b.name) b.secret p.id _ hb.1)]
    split
    · refine ⟨_, Prog.exec_bind_of_ok (Prog.exec_attempt _ _), ?_, c, rfl⟩
      exact Prog.Moves.exec (Net.Each.refl .refl) (Net.Each.trans fun _ _ _ => .trans)
        ((moves_updatePeerCursor_logSame peer.name p.id _).within_of (Net.each_of_at .refl)) _
    · exact ⟨_, rfl, Net.Each.refl .refl _, c, rfl⟩

/-- **So does the round**, as far as logs and projects go. -/
theorem exec_round_serving [Sha256] {p : Project} (hb : (n b.name).Legible) (ha : (n a.name).Legible)
    (hp : Projects.byName (n b.name).db remote.projectName = some p)
    (hv : ∃ c, a.auth.validateFor (roundToken b.auth peer (n b.name).now) a.name (n a.name).now = .ok c) :
    Net.Each LogSame (synced b a peer remote p n) ((b.round a peer remote).exec n).2 := by
  simp only [Gateway.round, syncProject, Prog.bind_eq]
  rw [Prog.exec_bind_of_ok (exec_localCopy_calm (Net.at_ b.name) hb.1 hb.2 hp)]
  rcases exec_syncLog_serving peer remote hb ha p with ⟨n', hrun, hsame, -⟩ | ⟨-, hno⟩
  · rw [Prog.exec_bind_of_ok hrun]
    have hpull := Prog.Moves.exec (Net.Each.refl .refl) (Net.Each.trans fun _ _ _ => .trans)
      (moves_pullSnapshot_logSame b a peer remote (some p)) n'
    exact Net.Each.trans (fun _ _ _ => .trans) _ _ _ hsame hpull
  · exact absurd hv hno

/-- A round that ends well has had its token taken. -/
theorem token_of_round_ok [Sha256] {p : Project} {n' : Net} (hb : (n b.name).Legible) (ha : (n a.name).Legible)
    (hp : Projects.byName (n b.name).db remote.projectName = some p)
    (hrun : (b.round a peer remote).exec n = (.ok (), n')) :
    ∃ c, a.auth.validateFor (roundToken b.auth peer (n b.name).now) a.name (n a.name).now = .ok c := by
  by_contra hno
  simp only [Gateway.round, syncProject, Prog.bind_eq] at hrun
  rw [Prog.exec_bind_of_ok (exec_localCopy_calm (Net.at_ b.name) hb.1 hb.2 hp)] at hrun
  obtain ⟨_, n₁, e₁, -⟩ := Prog.exec_bind_ok.1 hrun
  have herror : (syncLog (Net.at_ b.name) (b.client a peer) peer remote b.secret (some p)).exec n =
      (.error (.msg "sync task log"), n) := by
    rcases exec_syncLog_serving peer remote hb ha p with ⟨n₂, -, -, hv⟩ | ⟨herror, -⟩
    · exact absurd hv hno
    · exact herror
  rw [herror] at e₁
  cases e₁

/-! ### The copy's log afterwards -/

section
variable [Sha256] {p : Project} (hb : (n b.name).Legible) (ha : (n a.name).Legible)
  (hp : Projects.byName (n b.name).db remote.projectName = some p)
  (hv : ∃ c, a.auth.validateFor (roundToken b.auth peer (n b.name).now) a.name (n a.name).now = .ok c)
include hb ha hp hv

theorem rows_round_serving : (((b.round a peer remote).exec n).2 b.name).db.taskLog.rows =
    (takeDelta b.secret peer remote.projectId p.id
      (PeerHandler.logAnswer (n a.name).db remote.projectId (TaskLog.maxCursor (n b.name).db p.id))
      (n b.name).db).taskLog.rows := by
  rw [((exec_round_serving hb ha hp hv) b.name).1, synced, Net.at_set_self]

theorem mem_round_of_mem {r : LogRow} (hr : r ∈ (n b.name).db.taskLog.rows) :
    r ∈ (((b.round a peer remote).exec n).2 b.name).db.taskLog.rows := by
  rw [rows_round_serving hb ha hp hv]
  exact mem_takeDelta_of_mem hr

/-- What is new is an accepted entry of the delta. -/
theorem mem_round {r : LogRow} (hr : r ∈ (((b.round a peer remote).exec n).2 b.name).db.taskLog.rows) :
    r ∈ (n b.name).db.taskLog.rows ∨
      ∃ row ∈ (n a.name).db.taskLog.rows, row.projectId = remote.projectId ∧
        TaskLog.maxCursor (n b.name).db p.id < row.cursor ∧
        accepts b.secret peer remote.projectId row.toEntry.toProto = true ∧
        r = (reconstruct remote.projectId row.toEntry.toProto).toRow p.id := by
  rw [rows_round_serving hb ha hp hv] at hr
  rcases mem_takeDelta hr with hr | ⟨e, he, hacc, hre⟩
  · exact Or.inl hr
  · obtain ⟨row, hrow, rfl⟩ := List.mem_map.1 he
    obtain ⟨hmem, hproject, hcursor⟩ := TaskLog.mem_rowsSince.1 hrow
    exact Or.inr ⟨row, hmem, hproject, hcursor, hacc, hre⟩

/-- **What the peer wrote and signed above the copy's highest cursor is there**, or another row has its id. -/
theorem round_delivers {row : LogRow} (hrow : row ∈ (n a.name).db.taskLog.rows)
    (hproject : row.projectId = remote.projectId) (hcursor : TaskLog.maxCursor (n b.name).db p.id < row.cursor)
    (hfits : fitsInteger row.cursor = true) (hname : row.gatewayName = peer.name)
    (hsigned : TaskLog.Signed b.secret row) :
    ∃ r ∈ (((b.round a peer remote).exec n).2 b.name).db.taskLog.rows, r.id = row.id := by
  have hentry : row.toEntry.toProto ∈
      PeerHandler.logAnswer (n a.name).db remote.projectId (TaskLog.maxCursor (n b.name).db p.id) :=
    List.mem_map_of_mem (f := fun r : LogRow => r.toEntry.toProto) (TaskLog.mem_rowsSince.2 ⟨hrow, hproject, hcursor⟩)
  have hacc : accepts b.secret peer remote.projectId row.toEntry.toProto = true := by
    rw [← hproject]
    exact accepts_of_signed hsigned hname
  rw [rows_round_serving hb ha hp hv]
  exact takeDelta_has hentry hacc hfits (Projects.hasProject_of_mem (Projects.byName_eq_some.1 hp).1)

end

end

/-! ## A round under a discipline -/

/-- What a discipline must put up with for the rounds of `b` for a project of `a` to obey it. `Known`
is what is known of an entry once `a` has handed it over, `Local` what is known of the local copy. -/
structure Admits [HmacSha256] (D : Discipline Net) (b a : Gateway) (peer : PeerConfig) (remote : RemoteProject)
    (Known : Net → ProtoLogEntry → Prop) (Local : Project → Prop) : Prop where
  aside : ∀ n n', Net.Each LogSame n n' → D.inv n → D.step n n' ∧ D.inv n'
  found : ∀ n p, D.inv n → Projects.byName (n b.name).db remote.projectName = some p → Local p
  handed : ∀ n after, D.inv n → TokenAccepted b a peer →
    ∀ e ∈ PeerHandler.logAnswer (n a.name).db remote.projectId after, Known n e
  stable : ∀ n n' e, D.step n n' → Known n e → Known n' e
  stored : ∀ n p e db, D.inv n → Local p → Known n e → accepts b.secret peer remote.projectId e = true →
    TaskLog.insertRow ((reconstruct remote.projectId e).toRow p.id) (n b.name).db = some db →
      D.step n ((Net.at_ b.name).set { (n b.name).tick with db } n) ∧
        D.inv ((Net.at_ b.name).set { (n b.name).tick with db } n)

namespace Admits

variable [HmacSha256] {D : Discipline Net} {b a : Gateway} {peer : PeerConfig} {remote : RemoteProject}
  {Known : Net → ProtoLogEntry → Prop} {Local : Project → Prop} (h : Admits D b a peer remote Known Local)
include h

/-- A program that leaves the logs alone obeys, and what is stable outlives it. -/
theorem obeys_aside {ε α : Type} {p : Prog Net ε α} (hp : p.Moves (Net.Each LogSame)) (n : Net) :
    p.Obeys D (fun _ n' => D.step n n') n :=
  (hp.mono fun s s' hs hi => h.aside s s' hs hi).obeys (D.refl n)

theorem tick_at (g : String) (n : Net) (hi : D.inv n) :
    D.step n ((Net.at_ g).set (n g).tick n) ∧ D.inv ((Net.at_ g).set (n g).tick n) :=
  h.aside _ _ (Net.each_of_at LogSame.refl n _ (LogSame.tick _)) hi

/-- One `SELECT`: what it finds is what is there at that moment. -/
theorem yields_fetch {α : Type} {g : String} {e : Err} {f : Db → Option α} {n : Net} {P : α → Net → Prop}
    (hok : ∀ n' n'' a, D.inv n' → D.step n' n'' → f (n' g).db = some a → P a n'') :
    ((fetch e f).within (Net.at_ g)).Yields D P n := by
  obtain ⟨F, hp, hF⟩ := fetch_prim e f
  rw [hp, Prog.within_prim]
  refine Prog.Obeys.prim fun n' _ hi => ?_
  have htick := h.tick_at g n' hi
  simp only [Net.at_get]
  rcases hF (n' g) with hrun | ⟨a, ha, hrun⟩ <;> rw [hrun]
  · exact ⟨htick, fun a ha => (by cases ha)⟩
  · refine ⟨htick, fun b hb => ?_⟩
    cases hb
    exact hok n' _ _ hi htick.1 ha

omit [HmacSha256] h in
/-- Authentication passes only with a token that is accepted. -/
theorem yields_authJwt (now : F64) (n : Net) :
    ((a.handler.authJwt (roundToken b.auth peer now)).within (Net.at_ a.name)).Yields D
      (fun _ _ => TokenAccepted b a peer) n := by
  simp only [PeerHandler.authJwt, Prog.bind_eq, Prog.within_bind, Prog.within_look]
  refine (Prog.Yields.look (P := fun _ _ => True) fun _ _ _ => trivial).bind fun now' n' _ => ?_
  cases hv : a.handler.auth.validateFor (roundToken b.auth peer now) a.handler.gatewayName now' with
  | ok c => exact Prog.Yields.ret ⟨now, now', c, hv⟩
  | error e => exact Prog.Yields.fail _

/-- **The entries of an answer are known.** -/
theorem yields_syncTaskLog (after : Int) (n : Net) :
    ((b.client a peer).syncTaskLog (Net.at_ b.name) remote.projectId after).Yields D
      (fun resp n' => ∀ e ∈ resp.entries, Known n' e) n := by
  simp only [PeerClient.syncTaskLog, PeerClient.jwt, Prog.bind_eq, Prog.within_look]
  refine (Prog.Yields.look (P := fun token _ => ∃ now, token = roundToken b.auth peer now)
    fun _ _ _ => ⟨_, rfl⟩).bind fun token n' htoken => ?_
  obtain ⟨now, rfl⟩ := htoken
  simp only [Gateway.client, Peer.serving, PeerHandler.syncTaskLog, Prog.bind_eq, Prog.within_bind,
    Prog.within_mapErr, Prog.within_attempt]
  refine ((yields_authJwt now n').bind fun _ n₁ haccepted => ?_).mapErr
  -- The delta is what the log has at the moment of the `SELECT`, and stays known afterwards.
  have hsince : (((TaskLog.since remote.projectId after).within (Net.at_ a.name)).mapErr
      PeerHandler.internal).Yields D (fun entries n' => ∀ e ∈ entries.map LogEntry.toProto, Known n' e) n₁ := by
    refine (h.yields_fetch fun n' n'' entries hi hstep hentries e he => ?_).mapErr
    obtain ⟨rfl, -⟩ := Engine.decodeRows_eq_some.1 hentries
    refine h.stable n' n'' e hstep (h.handed n' after hi haccepted e ?_)
    simpa [PeerHandler.logAnswer] using he
  have hhead : ((((TaskLog.headCursor remote.projectId).within (Net.at_ a.name)).mapErr
      PeerHandler.internal).attempt).Moves (Net.Each LogSame) :=
    (((moves_fetch LogSame.tick).within_of (Net.each_of_at LogSame.refl)).mapErr).attempt
  refine hsince.bind fun entries n₂ hknown => (h.obeys_aside hhead n₂).yields.bind fun head n₃ hstep => ?_
  exact Prog.Yields.ret fun e he => h.stable n₂ n₃ e hstep (hknown e he)

/-- **A known entry is stored, rejected or passed over, and the others stay known.** -/
theorem obeys_acceptEntry {p : Project} (hp : Local p) {entries : List ProtoLogEntry} {e : ProtoLogEntry}
    (he : e ∈ entries) {n : Net} (hknown : ∀ e ∈ entries, Known n e) :
    (acceptEntry (Net.at_ b.name) peer remote b.secret p.id e).Obeys D (fun _ n' => ∀ e ∈ entries, Known n' e) n := by
  unfold acceptEntry
  by_cases hacc : accepts b.secret peer remote.projectId e = true
  · rw [if_pos hacc, TaskLog.insertPeerEntry, execute, statement, op, Prog.within_prim]
    refine Prog.Obeys.bind (Q := fun _ n' => ∀ e ∈ entries, Known n' e) (Prog.Obeys.attempt
      (Q := fun _ n' => ∀ e ∈ entries, Known n' e) (Prog.Obeys.prim fun n' hs hi => ?_) fun _ _ => id)
      (fun _ _ hk => hk) fun _ _ hk => hk
    have hknown' : ∀ e ∈ entries, Known n' e := fun e he => h.stable n n' e hs (hknown e he)
    have htick := h.tick_at b.name n' hi
    have hkeep : ∀ n'', D.step n' n'' → ∀ e ∈ entries, Known n'' e := fun n'' hs e he =>
      h.stable n' n'' e hs (hknown' e he)
    simp only [Net.at_get, World.tick_now, World.tick_db]
    split
    · exact ⟨htick, hkeep _ htick.1⟩
    · cases hins : TaskLog.insertRowIgnore ((reconstruct remote.projectId e).toRow p.id) (n' b.name).db with
      | none => exact ⟨htick, hkeep _ htick.1⟩
      | some db =>
        rcases TaskLog.insertRowIgnore_eq_some hins with ⟨-, rfl⟩ | hrow
        · exact ⟨htick, hkeep _ htick.1⟩
        · have hstored := h.stored n' p e db hi hp (hknown' e he) hacc hrow
          exact ⟨hstored, hkeep _ hstored.1⟩
  · rw [if_neg hacc]
    exact hknown

theorem obeys_syncLog {localCopy : Option Project} (hlocal : ∀ p ∈ localCopy, Local p) (n : Net) :
    (syncLog (Net.at_ b.name) (b.client a peer) peer remote b.secret localCopy).Yields D (fun _ _ => True) n := by
  have hcursor : (localCursor (Net.at_ b.name) localCopy).Moves (Net.Each LogSame) :=
    moves_localCursor (Net.each_of_at LogSame.refl) LogSame.tick localCopy
  simp only [syncLog, Prog.bind_eq]
  refine (h.obeys_aside hcursor n).yields.bind fun after n₁ _ => ?_
  refine (h.yields_syncTaskLog after n₁).bind fun resp n₂ hknown => ?_
  cases localCopy with
  | none => exact Prog.Yields.ret trivial
  | some p =>
    have hp := hlocal p rfl
    refine (Prog.Obeys.forEach hknown fun e he n' hk => h.obeys_acceptEntry hp he hk).yields.bind fun _ n₃ _ => ?_
    split
    · have hupdate : (((updatePeerCursor peer.name p.id resp.headCursor).within (Net.at_ b.name)).attempt).Moves
          (Net.Each LogSame) :=
        ((moves_updatePeerCursor_logSame _ _ _).within_of (Net.each_of_at LogSame.refl)).attempt
      exact (h.obeys_aside hupdate n₃).yields.bind fun _ _ _ => Prog.Yields.ret trivial
    · exact Prog.Yields.ret trivial

/-- **Every round obeys.** -/
theorem obeys_round [Sha256] (n : Net) : (b.round a peer remote).Obeys D (fun _ _ => True) n := by
  have hround : (b.round a peer remote).Yields D (fun _ _ => True) n := by
    simp only [Gateway.round, syncProject, Prog.bind_eq]
    have hfound : ((Projects.getByName remote.projectName).within (Net.at_ b.name)).Yields D
        (fun localCopy _ => ∀ p ∈ localCopy, Local p) n := by
      refine h.yields_fetch fun n' _ localCopy hi _ hread p hp => ?_
      obtain ⟨rfl, -⟩ := Engine.decodeRow_eq_some.1 hread
      exact h.found n' p hi hp
    refine hfound.bind fun localCopy n₁ hlocal => (h.obeys_syncLog hlocal n₁).bind fun _ n₂ _ => ?_
    exact (h.obeys_aside (moves_pullSnapshot_logSame b a peer remote localCopy) n₂).yields.mono fun _ _ _ => trivial
  exact hround.post fun _ _ _ => trivial

end Admits

/-- HMAC-SHA256 under `secret` of an entry of `gw-a`, under either project id, and of one of `gw-b`. -/
@[reducible] def demoLogHmac : HmacSha256 := .recorded
  [("00000000-0000-4000-8000-0000000000aa|00000000-0000-4000-8000-000000000001|gw-a|hello|1000",
    "db280cbf293188c0ac79543cb9057dd1ef2acbf738738460e859db213f96cc60"),
   ("00000000-0000-4000-8000-0000000000aa|00000000-0000-4000-8000-000000000002|gw-a|hello|1000",
    "39696249d4ff2834d910b5206d1233edf2ea6ff8d783f3adfd105da29b81ef8c"),
   ("00000000-0000-4000-8000-0000000000bb|00000000-0000-4000-8000-000000000002|gw-b|hello|1000",
    "02b8175fc477ad50b18b71984123cc09843c4a60e0b9223dd62d190c5629a8dc")]

end A2AGateway
