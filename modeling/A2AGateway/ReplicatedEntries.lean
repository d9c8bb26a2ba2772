import A2AGateway.LogDelivery
import A2AGateway.ShippedCalls

/-!
# What the copy of an entry keeps

The wire has no field for the status of an entry and for its validity window
(`peer_server.rs:297-306`). The receiver puts `NULL` for the status and for the end of the window, and the time
of writing for its start (`peer_sync.rs:156-169`). The start is right, since `append_with_status` writes that
itself; status and end are kept exactly if there were none. As shipped no entry gets that far, so there is no
copy that could differ (`replication_preserves`). `TaskLog.byStatus` is `task_log.rs:223-238`.
-/

namespace A2AGateway

open PeerSync TaskLog Gw

namespace TaskLog

/-- `SELECT * .. WHERE project_id = $1 AND task_status = $2 AND (valid_to IS NULL OR valid_to > $3) ORDER BY cursor
ASC`. -/
def rowsByStatus (db : Db) (projectId : String) (status : TaskStatus) (now : F64) : List LogRow :=
  (db.taskLog.rows.filter fun r => r.projectId == projectId && r.taskStatus == some status.asStr &&
    r.validTo.all now.lt).insertionSort (·.cursor ≤ ·.cursor)

/-- "Query entries by task status for a project (for reconciler)." -/
def byStatus (projectId : String) (status : TaskStatus) : Gw (List LogEntry) := do
  let now ← nowSecs
  fetch (.msg "fetch by status") fun db =>
    db.engine.decodeRows ((rowsByStatus db projectId status now).map (·.toEntry))

theorem mem_rowsByStatus {db : Db} {projectId : String} {r : LogRow} {status : TaskStatus} {now : F64} :
    r ∈ rowsByStatus db projectId status now ↔ r ∈ db.taskLog.rows ∧ r.projectId = projectId ∧
      r.taskStatus = some status.asStr ∧ r.validTo.all now.lt = true := by
  simp [rowsByStatus, and_assoc]

/-- What is answered are the rows with that status that have not ended. -/
theorem exec_byStatus_ok {projectId : String} {status : TaskStatus} {w w' : World} {entries : List LogEntry}
    (he : (byStatus projectId status).exec w = (.ok entries, w')) :
    entries = (rowsByStatus w.db projectId status w.now).map (·.toEntry) := by
  simp only [byStatus, nowSecs, Prog.bind_eq] at he
  rw [Prog.exec_bind_of_ok (Prog.exec_look _ w), exec_fetch_iff, Engine.decodeRows_eq_some] at he
  exact he.2.1.1

/-- A stored row is in the answer exactly if it has the status and has not ended. -/
theorem mem_byStatus {status : TaskStatus} {w w' : World} {entries : List LogEntry} {r : LogRow}
    (hr : r ∈ w.db.taskLog.rows) (he : (byStatus r.projectId status).exec w = (.ok entries, w')) :
    r.toEntry ∈ entries ↔ r.taskStatus = some status.asStr ∧ r.validTo.all w.now.lt = true := by
  rw [exec_byStatus_ok he, List.mem_map]
  constructor
  · rintro ⟨r', hr', hsame⟩
    obtain ⟨hmem, -, hfound⟩ := mem_rowsByStatus.1 hr'
    have hid : r'.id = r.id := congrArg LogEntry.id hsame
    have : r' = r := Table.eq_of_clash _ hmem hr (beq_iff_eq.2 hid)
    subst this
    exact hfound
  · intro hfound
    exact ⟨r, mem_rowsByStatus.2 ⟨hr, rfl, hfound⟩, rfl⟩

end TaskLog

/-! ## Entries and their copies -/

/-- Equal but for the project they are kept under and the todo they belong to. -/
structure Agrees (row r : LogRow) : Prop where
  id : r.id = row.id
  gatewayName : r.gatewayName = row.gatewayName
  agentName : r.agentName = row.agentName
  entryType : r.entryType = row.entryType
  content : r.content = row.content
  cursor : r.cursor = row.cursor
  createdAt : r.createdAt = row.createdAt
  signature : r.signature = row.signature
  taskStatus : r.taskStatus = row.taskStatus
  validFrom : r.validFrom = row.validFrom
  validTo : r.validTo = row.validTo

/-- Asked at the same time for the same status, `by_status` has the one in its answer here exactly if it has the
other in its answer there. -/
def AnswersAlike (dbA dbB : Db) (row r : LogRow) : Prop :=
  ∀ status (wA wB wA' wB' : World) entriesA entriesB, wA.db = dbA → wB.db = dbB → wA.now = wB.now →
    (byStatus row.projectId status).exec wA = (.ok entriesA, wA') →
    (byStatus r.projectId status).exec wB = (.ok entriesB, wB') →
      (row.toEntry ∈ entriesA ↔ r.toEntry ∈ entriesB)

theorem Agrees.answersAlike {dbA dbB : Db} {row r : LogRow} (h : Agrees row r) (hrow : row ∈ dbA.taskLog.rows)
    (hr : r ∈ dbB.taskLog.rows) : AnswersAlike dbA dbB row r := by
  rintro status wA wB wA' wB' entriesA entriesB rfl rfl hnow hA hB
  rw [mem_byStatus hrow hA, mem_byStatus hr hB, h.taskStatus, h.validTo, hnow]

/-- The row that is stored for a row of a peer. -/
def LogRow.asCopied (row : LogRow) (projectId : String) : LogRow :=
  { row with projectId, todoId := none, taskStatus := none, validTo := none }

/-- **The copy agrees exactly if the entry had neither a status nor an end.** -/
theorem agrees_asCopied_iff {row : LogRow} {projectId : String} :
    Agrees row (row.asCopied projectId) ↔ row.taskStatus = none ∧ row.validTo = none := by
  constructor
  · intro h
    exact ⟨h.taskStatus.symm, h.validTo.symm⟩
  · rintro ⟨hstatus, hend⟩
    exact ⟨rfl, rfl, rfl, rfl, rfl, rfl, rfl, rfl, hstatus.symm, rfl, hend.symm⟩

/-- What `append_with_status` gives every row. -/
structure Authored (row : LogRow) : Prop where
  signature : ∃ sig, row.signature = some sig ∧ sig ≠ ""
  entryType : ∃ t : EntryType, row.entryType = t.asStr
  validFrom : row.validFrom = some row.createdAt

section
variable [HmacSha256] {secret : Bytes} {id : Uuid} {projectId gatewayName agentName content : String}
  {entryType : EntryType} {todoId : Option Int} {taskStatus : Option TaskStatus} {validTo : Option F64} {now : F64}
  {db : Db}

theorem authored_statusRow : Authored (statusRow secret id projectId gatewayName agentName entryType content todoId
    taskStatus validTo now db) :=
  ⟨⟨_, rfl, HmacSha256.ne_empty _ _⟩, ⟨entryType, rfl⟩, rfl⟩

/-- Status and end are not part of what is signed. -/
theorem signed_statusRow : Signed secret (statusRow secret id projectId gatewayName agentName entryType content todoId
    taskStatus validTo now db) := rfl

end

/-- **Over the wire and back, an authored row becomes its copy.** -/
theorem Authored.reconstruct_toProto {row : LogRow} (h : Authored row) (remoteProjectId localId : String) :
    (reconstruct remoteProjectId row.toEntry.toProto).toRow localId = row.asCopied localId := by
  obtain ⟨⟨sig, hsig, hne⟩, ⟨t, ht⟩, hfrom⟩ := h
  obtain ⟨⟩ := row
  simp only at hsig ht hfrom
  subst hsig ht hfrom
  simp [LogRow.asCopied, LogEntry.toRow, reconstruct, LogRow.toEntry, LogEntry.toProto, EntryType.fromStr_asStr, hne]

/-- Whatever one gateway has of another agrees with what that one has under the id, and is answered alike. -/
def Replicated (G : List Gateway) (n : Net) : Prop :=
  ∀ a ∈ G, ∀ b ∈ G, a.name ≠ b.name → ∀ row ∈ (n a.name).db.taskLog.rows, ∀ r ∈ (n b.name).db.taskLog.rows,
    r.gatewayName = a.name → r.id = row.id → Agrees row r ∧ AnswersAlike (n a.name).db (n b.name).db row r

/-! ## Copies under any interleaving -/

/-- What a gateway has written itself is authored; what it has under the name of another is a copy of what that
one has. -/
def replicas (G : List Gateway) : Discipline Net where
  inv n := (∀ g ∈ G, ∀ row ∈ (n g.name).db.taskLog.rows, row.gatewayName = g.name → Authored row) ∧
    ∀ b ∈ G, ∀ a ∈ G, a.name ≠ b.name → ∀ r ∈ (n b.name).db.taskLog.rows, r.gatewayName = a.name →
      ∃ row ∈ (n a.name).db.taskLog.rows, r = row.asCopied r.projectId
  step n n' := ∀ g, ∀ row ∈ (n g).db.taskLog.rows, row ∈ (n' g).db.taskLog.rows
  refl _ _ _ h := h
  trans _ _ _ h h' g row hr := h' g row (h g row hr)

section
variable {G : List Gateway}

theorem replicas_of_logSame {n n' : Net} (h : Net.Each LogSame n n') (hi : (replicas G).inv n) :
    (replicas G).step n n' ∧ (replicas G).inv n' := by
  obtain ⟨hown, hcopied⟩ := hi
  have hrows : ∀ g, (n' g).db.taskLog = (n g).db.taskLog := fun g => (h g).taskLog
  refine ⟨fun g row hr => by rwa [hrows], ?_, ?_⟩
  · intro g hg row hr
    rw [hrows] at hr
    exact hown g hg row hr
  · intro b hb a ha hne r hr
    rw [hrows] at hr ⊢
    exact hcopied b hb a ha hne r hr

/-- A row that is its gateway's own and authored, or the copy of a peer's row. -/
theorem replicas_inserted {n : Net} {name : String} {row : LogRow} {db : Db}
    (hrow : row.gatewayName = name ∧ Authored row ∨ row.gatewayName ≠ name ∧
      ∃ origin ∈ (n row.gatewayName).db.taskLog.rows, row = origin.asCopied row.projectId)
    (hins : insertRow row (n name).db = some db) (hi : (replicas G).inv n) :
    (replicas G).step n ((Net.at_ name).set { (n name).tick with db } n) ∧
      (replicas G).inv ((Net.at_ name).set { (n name).tick with db } n) := by
  obtain ⟨hown, hcopied⟩ := hi
  have hstep : ∀ g, ∀ r ∈ (n g).db.taskLog.rows, r ∈ ((Net.at_ name).set { (n name).tick with db } n g).db.taskLog.rows :=
    fun g r hr => (mem_rows_inserted hins).2 (Or.inl hr)
  refine ⟨hstep, fun g hg r hr hwriter => ?_, fun b hb a ha hne r hr hwriter => ?_⟩
  · rcases (mem_rows_inserted hins).1 hr with hold | ⟨hname, rfl⟩
    · exact hown g hg r hold hwriter
    · rcases hrow with ⟨-, hauthored⟩ | ⟨hother, -⟩
      · exact hauthored
      · exact absurd (hwriter.trans hname) hother
  · rcases (mem_rows_inserted hins).1 hr with hold | ⟨hname, rfl⟩
    · obtain ⟨origin, horigin, hcopy⟩ := hcopied b hb a ha hne r hold hwriter
      exact ⟨origin, hstep a.name origin horigin, hcopy⟩
    · rcases hrow with ⟨hself, -⟩ | ⟨-, origin, horigin, hcopy⟩
      · exact absurd (hwriter.symm.trans (hself.trans hname.symm)) hne
      · rw [hwriter] at horigin
        exact ⟨origin, hstep a.name origin horigin, hcopy⟩

end

section
variable [HmacSha256]

/-- What happens besides the rounds: somebody appends with any status and any end, or a gateway's environment
changes. -/
inductive OutsideWithStatus (G : List Gateway) : Net → Net → Prop
  | append {n : Net} {g : Gateway} (hg : g ∈ G) (id : Uuid)
      (fresh : ∀ h ∈ G, ∀ r ∈ (n h.name).db.taskLog.rows, r.id ≠ id.text) (projectId agentName : String)
      (entryType : EntryType) (content : String) (todoId : Option Int) (taskStatus : Option TaskStatus)
      (validTo : Option F64) :
      OutsideWithStatus G n ((Net.at_ g.name).set
        ((appendWithStatus g.secret id projectId g.name agentName entryType content todoId taskStatus validTo).exec
          (n g.name)).2 n)
  | environment {n : Net} (name : String) (folders : String → Option Listing) (canonical : String → Option String)
      (now : F64) (faults : List (Option Nat)) :
      OutsideWithStatus G n ((Net.at_ name).set { n name with folders, canonical, now, faults } n)

theorem OutsideWithStatus.cases {G : List Gateway} {n n' : Net} (h : OutsideWithStatus G n n') :
    Net.Each LogSame n n' ∨ ∃ g ∈ G, ∃ row db, Authored row ∧ row.gatewayName = g.name ∧
      insertRow row (n g.name).db = some db ∧ n' = (Net.at_ g.name).set { (n g.name).tick with db } n := by
  cases h with
  | @append g hg id fresh projectId agentName entryType content todoId taskStatus validTo =>
    rcases exec_appendWithStatus_cases with hrun | ⟨db, hins, hrun⟩
    · rw [hrun]
      exact Or.inl (Net.each_of_at .refl n _ (.tick _))
    · rw [hrun]
      exact Or.inr ⟨g, hg, _, db, authored_statusRow, rfl, hins, rfl⟩
  | environment name folders canonical now faults =>
    exact Or.inl (Net.each_of_at .refl n _ ⟨rfl, rfl, rfl⟩)

theorem OutsideWithStatus.ownEntries {G : List Gateway} {n n' : Net} (hn : OwnEntries G n) (h : OutsideWithStatus G n n') :
    OwnEntries G n' := by
  cases h with
  | @append g hg id fresh projectId agentName entryType content todoId taskStatus validTo =>
    rcases exec_appendWithStatus_cases with hrun | ⟨db, hins, hrun⟩
    · rw [hrun]
      exact hn.set rfl rfl
    · rw [hrun]
      exact hn.inserted hg signed_statusRow rfl hins
  | environment name folders canonical now faults => exact hn.set rfl rfl

/-- The rounds of the gateways among one another, each peer under its own name. -/
def RoundsAmong (G : List Gateway) (b a : Gateway) (peer : PeerConfig) : Prop :=
  b ∈ G ∧ a ∈ G ∧ a.name ≠ b.name ∧ peer = ⟨a.name⟩

variable {G : List Gateway} {b a : Gateway}

/-- **Rounds store copies.** -/
theorem admits_replicas {peer : PeerConfig} {remote : RemoteProject} (hrounds : RoundsAmong G b a peer) :
    Admits (replicas G) b a peer remote (fun n e => ∃ row ∈ (n a.name).db.taskLog.rows, row.toEntry.toProto = e)
      fun _ => True where
  aside n n' h hi := replicas_of_logSame h hi
  found _ _ _ _ := trivial
  handed n after hi htoken e he := by
    obtain ⟨row, hrow, hre⟩ := List.mem_map.1 he
    exact ⟨row, (mem_rowsSince.1 hrow).1, hre⟩
  stable n n' e hs h := by
    obtain ⟨row, hrow, h⟩ := h
    exact ⟨row, hs a.name row hrow, h⟩
  stored n p e db hi _ hknown hacc hins := by
    obtain ⟨-, ha, hne, rfl⟩ := hrounds
    obtain ⟨row, hrow, rfl⟩ := hknown
    have hwriter : row.gatewayName = a.name := (accepts_iff.1 hacc).1
    have hcopy := (hi.1 a ha row hrow hwriter).reconstruct_toProto remote.projectId p.id
    rw [hcopy] at hins
    refine replicas_inserted (Or.inr ⟨?_, row, ?_, rfl⟩) hins hi
    · exact fun h => hne (hwriter.symm.trans h)
    · show row ∈ (n row.gatewayName).db.taskLog.rows
      rw [hwriter]
      exact hrow

section
variable [Sha256] {n₀ : Net}

theorem good_replicas (hempty : ∀ g ∈ G, (n₀ g.name).db.taskLog.rows = []) {pool : Pool Net Err}
    (hpool : Pool.Reachable (· = n₀) (Starts (RoundsAmong G)) (OutsideWithStatus G) pool) :
    (replicas G).inv pool.state := by
  refine (hpool.good ?_ ?_ ?_).1
  · rintro n rfl
    refine ⟨fun g hg row hr => ?_, fun b hb a ha hne r hr => ?_⟩
    · rw [hempty g hg] at hr
      cases hr
    · rw [hempty b hb] at hr
      cases hr
  · rintro n p hi ⟨b, a, peer, remote, hrounds, -, rfl⟩
    exact (admits_replicas hrounds).obeys_round n
  · intro n n' hi hout
    rcases hout.cases with hsame | ⟨g, hg, row, db, hauthored, hname, hins, rfl⟩
    · exact replicas_of_logSame hsame hi
    · exact replicas_inserted (Or.inl ⟨hname, hauthored⟩) hins hi

/-- As shipped nobody has an entry of another gateway. -/
theorem ownEntries_withStatus (hship : ∀ g ∈ G, (n₀ g.name).AsShipped)
    (hempty : ∀ g ∈ G, (n₀ g.name).db.taskLog.rows = []) {pool : Pool Net Err}
    (hpool : Pool.Reachable (· = n₀) (Starts (RoundsAmong G)) (OutsideWithStatus G) pool) : OwnEntries G pool.state := by
  refine ownEntries hpool ?_ (fun b a peer h => h.1) fun n n' => OutsideWithStatus.ownEntries
  rintro n rfl g hg
  refine ⟨hship g hg, fun r hr => ?_⟩
  rw [hempty g hg] at hr
  cases hr

/-- **As shipped a gateway has no entry of another, so that nothing differs. With any decoding a copy agrees with the
entry, and `by_status` answers for it as at home, if and only if the entry was written without a status and without an
end.** -/
theorem replication_preserves (hempty : ∀ g ∈ G, (n₀ g.name).db.taskLog.rows = []) {pool : Pool Net Err}
    (hpool : Pool.Reachable (· = n₀) (Starts (RoundsAmong G)) (OutsideWithStatus G) pool) :
    ((∀ g ∈ G, (n₀ g.name).AsShipped) → Replicated G pool.state ∧
      ∀ b ∈ G, ∀ r ∈ (pool.state b.name).db.taskLog.rows, r.gatewayName = b.name) ∧
    ∀ a ∈ G, ∀ b ∈ G, a.name ≠ b.name → ∀ row ∈ (pool.state a.name).db.taskLog.rows,
      ∀ r ∈ (pool.state b.name).db.taskLog.rows, r.gatewayName = a.name → r.id = row.id →
        ((Agrees row r ∧ AnswersAlike (pool.state a.name).db (pool.state b.name).db row r) ↔
          row.taskStatus = none ∧ row.validTo = none) := by
  refine ⟨fun hship => ?_, fun a ha b hb hne row hrow r hr hwriter hid => ?_⟩
  · have hown : ∀ b ∈ G, ∀ r ∈ (pool.state b.name).db.taskLog.rows, r.gatewayName = b.name :=
      fun b hb r hr => ((ownEntries_withStatus hship hempty hpool b hb).2 r hr).1
    exact ⟨fun a _ b hb hne _ _ r hr hwriter _ => absurd (hwriter.symm.trans (hown b hb r hr)) hne, hown⟩
  · obtain ⟨origin, horigin, hcopy⟩ := (good_replicas hempty hpool).2 b hb a ha hne r hr hwriter
    -- Ids are unique on `a`.
    have hsame : origin = row := by
      refine Table.eq_of_clash _ horigin hrow (beq_iff_eq.2 ?_)
      rw [← hid, hcopy]
      rfl
    subst hsame
    rw [← @agrees_asCopied_iff origin r.projectId, ← hcopy]
    exact and_iff_left_of_imp fun h => h.answersAlike hrow hr

end

end

/-! ## An entry that expires -/

section demo

section
variable [HmacSha256]

/-- The gateway appends the note `hello` to its project. -/
def demoNote (g : Gateway) (id projectId : Uuid) (taskStatus : Option TaskStatus) (validTo : Option F64) (n : Net) : Net :=
  (Net.at_ g.name).set
    ((appendWithStatus g.secret id projectId.text g.name "agent" .note "hello" none taskStatus validTo).exec (n g.name)).2 n

/-- `b` runs a round after `a` has appended. -/
def demoCopied [Sha256] (b a : Gateway) (remote : RemoteProject) (id projectId : Uuid) (taskStatus : Option TaskStatus)
    (validTo : Option F64) (n : Net) : Net :=
  ((b.round a ⟨a.name⟩ remote).exec (demoNote a id projectId taskStatus validTo n)).2

theorem reachable_demoCopied [Sha256] {n₀ : Net} {b a : Gateway} {remote : RemoteProject} {id projectId : Uuid}
    {taskStatus : Option TaskStatus} {validTo : Option F64}
    (hempty : ∀ g ∈ [a, b], (n₀ g.name).db.taskLog.rows = []) (hne : a.name ≠ b.name)
    (hlisted : Listed (demoNote a id projectId taskStatus validTo n₀ a.name) remote) :
    ∃ threads, Pool.Reachable (· = n₀) (Starts (RoundsAmong [a, b])) (OutsideWithStatus [a, b])
      ⟨demoCopied b a remote id projectId taskStatus validTo n₀, threads⟩ := by
  have hr : Pool.Reachable (· = n₀) (Starts (RoundsAmong [a, b])) (OutsideWithStatus [a, b]) ⟨n₀, []⟩ := ⟨_, rfl, .refl⟩
  have hnoted := hr.moved (.append (g := a) (by simp) id (fun h hh r hr => by
    rw [hempty h hh] at hr
    cases hr) projectId.text "agent" .note "hello" none taskStatus validTo)
  exact hnoted.run ⟨b, a, ⟨a.name⟩, remote, ⟨by simp, by simp, hne, rfl⟩, hlisted, rfl⟩

end

instance (w : World) (remote : RemoteProject) : Decidable (Listed w remote) :=
  inferInstanceAs (Decidable (∃ p ∈ w.db.projects.rows, remote.projectId = p.id ∧ remote.projectName = p.name))

/-- The two gateways of the sample net, after the note and a round. -/
def demoReplicated (engine : Engine) (taskStatus : Option TaskStatus) (validTo : Option F64) : Net :=
  letI := demoSha256
  letI := demoLogHmac
  demoCopied demoB demoA (demoListed "") demoEntryA demoId taskStatus validTo (demoNet demoSetup demoSetupB engine)

/-- The note is on both gateways, and this is what its row is like. -/
def DemoNoteOnBoth (taskStatus : Option TaskStatus) (validTo : Option F64) : Prop :=
  ∃ row ∈ (demoReplicated .widening taskStatus validTo demoA.name).db.taskLog.rows,
    ∃ r ∈ (demoReplicated .widening taskStatus validTo demoB.name).db.taskLog.rows,
      r.gatewayName = demoA.name ∧ r.id = row.id ∧ row.taskStatus = taskStatus.map (·.asStr) ∧ row.validTo = validTo

instance (taskStatus : Option TaskStatus) (validTo : Option F64) : Decidable (DemoNoteOnBoth taskStatus validTo) :=
  inferInstanceAs (Decidable (∃ _ ∈ _, ∃ _ ∈ _, _))

theorem reachable_demoReplicated {engine : Engine} (hengine : engine ∈ [Engine.shipped, .widening])
    {taskStatus : Option TaskStatus} {validTo : Option F64}
    (hlisted : Listed (@demoNote demoLogHmac demoA demoEntryA demoId taskStatus validTo
      (@demoNet demoSha256 demoLogHmac demoSetup demoSetupB engine) demoA.name) (demoListed "")) :
    letI := demoSha256; letI := demoLogHmac
    ∃ threads, Pool.Reachable (· = demoNet demoSetup demoSetupB engine) (Starts (RoundsAmong [demoA, demoB]))
      (OutsideWithStatus [demoA, demoB]) ⟨demoReplicated engine taskStatus validTo, threads⟩ :=
  @reachable_demoCopied demoLogHmac demoSha256 _ demoB demoA _ _ _ _ _ (demo_empty engine hengine) (by decide) hlisted

theorem demo_as_shipped : letI := demoSha256; letI := demoLogHmac
    ∀ g ∈ [demoA, demoB], (demoNet demoSetup demoSetupB .shipped g.name).AsShipped := by
  intro g hg
  simp only [List.mem_cons, List.not_mem_nil, or_false] at hg
  rcases hg with rfl | rfl <;> decide +kernel

/-- As shipped a task in progress, to be done with by 2000, stays where it was written. With the columns decoded a plain
note is replicated as it is. -/
theorem replication_preserves_demo :
    Replicated [demoA, demoB] (demoReplicated .shipped (some .inProgress) (some (.fin 2000))) ∧
    ∃ row ∈ (demoReplicated .widening none none demoA.name).db.taskLog.rows,
      ∃ r ∈ (demoReplicated .widening none none demoB.name).db.taskLog.rows, Agrees row r ∧
        AnswersAlike (demoReplicated .widening none none demoA.name).db
          (demoReplicated .widening none none demoB.name).db row r := by
  constructor
  · obtain ⟨threads, hpool⟩ := @reachable_demoReplicated .shipped (by simp) (some .inProgress) (some (.fin 2000))
      (by decide +kernel)
    exact ((@replication_preserves demoLogHmac _ demoSha256 _ (demo_empty .shipped (by simp)) _ hpool).1 demo_as_shipped).1
  · obtain ⟨threads, hpool⟩ := @reachable_demoReplicated .widening (by simp) none none (by decide +kernel)
    have hboth : DemoNoteOnBoth none none := by decide +kernel
    obtain ⟨row, hrow, r, hr, hwriter, hid, hplain⟩ := hboth
    exact ⟨row, hrow, r, hr, ((@replication_preserves demoLogHmac _ demoSha256 _ (demo_empty .widening (by simp)) _ hpool).2
      demoA (by simp) demoB (by simp) (by decide) row hrow r hr hwriter hid).2 hplain⟩

-- With the columns decoded, a task in progress, to be done with by 2000, is on the peer an entry without a status that
-- never expires.
example : DemoNoteOnBoth (some .inProgress) (some (.fin 2000)) ∧
    ∀ r ∈ (demoReplicated .widening (some .inProgress) (some (.fin 2000)) demoB.name).db.taskLog.rows,
      r.taskStatus = none ∧ r.validTo = none := by
  decide +kernel

end demo

end A2AGateway
