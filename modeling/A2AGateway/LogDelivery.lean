import A2AGateway.Federation

/-!
# What a round brings over

As shipped a round of a project that has a local copy ends with an error at its first statement, so none ends
well and leaves an entry behind. With the columns of a project decoded a round asks for the peer's entries above
the highest cursor of the *local copy* (`peer_sync.rs:132-137`). That cursor counts what the local gateway wrote
itself, too: both gateways number their entries from `MAX(cursor) + 1` on. The cursor that was seen from the peer
is written to `peer_cursor_state` and never read (`peer_sync.rs:188-196`).
-/

namespace A2AGateway

open PeerSync TaskLog Gw

/-- The entry of another gateway is in the log, under the copy of its project. -/
def Delivered (w : World) (copyId : String) (row : LogRow) : Prop :=
  ∃ r ∈ w.db.taskLog.rows, r.projectId = copyId ∧ r.toEntry.toProto = row.toEntry.toProto

/-- The row is a copy, under the project of the same name. -/
def CopyOf (n₀ : Net) (b a : Gateway) (r row : LogRow) : Prop :=
  r.toEntry.toProto = row.toEntry.toProto ∧ ∃ pB ∈ (n₀ b.name).db.projects.rows,
    ∃ pA ∈ (n₀ a.name).db.projects.rows, pA.id = row.projectId ∧ pA.name = pB.name ∧ r.projectId = pB.id

variable [HmacSha256]

/-! ## Copies under any interleaving -/

/-- What `a` wrote is its own and stays, and what has the id of such an entry on `b` is a copy of it. -/
def copies (b a : Gateway) (n₀ : Net) : Discipline Net where
  inv n := (∀ g, (n g).db.projects = (n₀ g).db.projects) ∧
    (∀ row ∈ (n a.name).db.taskLog.rows,
      fitsInteger row.cursor = true ∧ Signed a.secret row ∧ row.gatewayName = a.name) ∧
    ∀ r ∈ (n b.name).db.taskLog.rows, ∀ row ∈ (n a.name).db.taskLog.rows, r.id = row.id → CopyOf n₀ b a r row
  step n n' := ∀ row ∈ (n a.name).db.taskLog.rows, row ∈ (n' a.name).db.taskLog.rows
  refl _ _ h := h
  trans _ _ _ h h' row hr := h' row (h row hr)

section
variable {b a : Gateway} {n₀ : Net}

theorem copies_of_logSame {n n' : Net} (h : Net.Each LogSame n n') (hi : (copies b a n₀).inv n) :
    (copies b a n₀).step n n' ∧ (copies b a n₀).inv n' := by
  obtain ⟨hprojects, hown, hcopy⟩ := hi
  refine ⟨fun row hr => ?_, fun g => (h g).2.trans (hprojects g), ?_, ?_⟩
  · rwa [(h a.name).1]
  · rw [(h a.name).1]
    exact hown
  · rw [(h a.name).1, (h b.name).1]
    exact hcopy

/-- A gateway's own entry, under an id that is new. -/
theorem copies_appended (hne : a.name ≠ b.name) {n : Net} {g : Gateway} (hg : g ∈ [a, b]) {row : LogRow} {db : Db}
    (hsigned : Signed g.secret row) (hname : row.gatewayName = g.name)
    (hfresh : ∀ h ∈ [a, b], ∀ r ∈ (n h.name).db.taskLog.rows, r.id ≠ row.id)
    (hins : insertRow row (n g.name).db = some db) (hi : (copies b a n₀).inv n) :
    (copies b a n₀).step n ((Net.at_ g.name).set { (n g.name).tick with db } n) ∧
      (copies b a n₀).inv ((Net.at_ g.name).set { (n g.name).tick with db } n) := by
  obtain ⟨hprojects, hown, hcopy⟩ := hi
  refine ⟨fun r hr => (mem_rows_inserted hins).2 (Or.inl hr),
    fun h => (projects_inserted hins h).trans (hprojects h), fun r hr => ?_, fun r hr row' hr' hid => ?_⟩
  · rcases (mem_rows_inserted hins).1 hr with hr | ⟨hag, rfl⟩
    · exact hown r hr
    · have hga : g = a := by
        simp only [List.mem_cons, List.not_mem_nil, or_false] at hg
        rcases hg with rfl | rfl
        · rfl
        · exact absurd hag hne
      subst hga
      exact ⟨(insertRow_eq_some.1 hins).1, hsigned, hname⟩
  · rcases (mem_rows_inserted hins).1 hr with hold | ⟨hbg, rfl⟩ <;>
      rcases (mem_rows_inserted hins).1 hr' with hold' | ⟨hag, rfl⟩
    · exact hcopy r hold row' hold' hid
    · exact absurd hid (hfresh b (by simp) r hold)
    · exact absurd hid.symm (hfresh a (by simp) row' hold')
    · exact absurd (hag.trans hbg.symm) hne

/-- **Rounds of `b` against `a` store copies.** -/
theorem admits_copies (hne : a.name ≠ b.name) {peer : PeerConfig} {remote : RemoteProject}
    (hlisted : Listed (n₀ a.name) remote) :
    Admits (copies b a n₀) b a peer remote
      (fun n e => ∃ row ∈ (n a.name).db.taskLog.rows, row.projectId = remote.projectId ∧ row.toEntry.toProto = e)
      fun p => p ∈ (n₀ b.name).db.projects.rows ∧ p.name = remote.projectName where
  aside n n' h hi := copies_of_logSame h hi
  found n p hi hp := by
    rw [← hi.1 b.name]
    exact Projects.byName_eq_some.1 hp
  handed n after hi htoken e he := by
    obtain ⟨row, hrow, hre⟩ := List.mem_map.1 he
    obtain ⟨hmem, hproject, -⟩ := mem_rowsSince.1 hrow
    exact ⟨row, hmem, hproject, hre⟩
  stable n n' e hs h := by
    obtain ⟨row, hrow, h⟩ := h
    exact ⟨row, hs row hrow, h⟩
  stored n p e db hi hp hknown hacc hins := by
    obtain ⟨hprojects, hown, hcopy⟩ := hi
    obtain ⟨row, hrow, hproject, rfl⟩ := hknown
    have hothers : ∀ r, r ∈ ((Net.at_ b.name).set { (n b.name).tick with db } n a.name).db.taskLog.rows →
        r ∈ (n a.name).db.taskLog.rows := fun r hr => by rwa [Net.at_set_of_ne hne] at hr
    refine ⟨fun r hr => (mem_rows_inserted hins).2 (Or.inl hr),
      fun g => (projects_inserted hins g).trans (hprojects g), fun r hr => hown r (hothers r hr),
      fun r hr row' hr' hid => ?_⟩
    have hr' := hothers row' hr'
    rcases (mem_rows_inserted hins).1 hr with hold | ⟨-, rfl⟩
    · exact hcopy r hold row' hr' hid
    · -- Ids are unique on `a`, so the new row is a copy of this very entry.
      have hsame : row = row' := Table.eq_of_clash _ hrow hr' (beq_iff_eq.2 hid)
      subst hsame
      obtain ⟨pA, hpA, hid, hname⟩ := hlisted
      exact ⟨toProto_reconstruct _ _ _, p, hp.1, pA, hpA, hid.symm.trans hproject.symm, hname.symm.trans hp.2.symm, rfl⟩

end

/-! ## After a round -/

section
variable [Sha256] {b a : Gateway} {n₀ : Net}

/-- The rounds of `b` against its one peer `a`. -/
def RoundsOf (b a : Gateway) (b' a' : Gateway) (peer : PeerConfig) : Prop := b' = b ∧ a' = a ∧ peer = ⟨a.name⟩

theorem good_copies (hne : a.name ≠ b.name) (hempty : ∀ g ∈ [a, b], (n₀ g.name).db.taskLog.rows = [])
    {pool : Pool Net Err}
    (hpool : Pool.Reachable (· = n₀) (Starts (RoundsOf b a)) (Outside [a, b]) pool) :
    (copies b a n₀).inv pool.state := by
  refine (hpool.good ?_ ?_ ?_).1
  · rintro n rfl
    refine ⟨fun _ => rfl, fun row hr => ?_, fun r hr => ?_⟩
    · rw [hempty a (by simp)] at hr
      cases hr
    · rw [hempty b (by simp)] at hr
      cases hr
  · rintro n p hi ⟨_, _, peer, remote, ⟨rfl, rfl, -⟩, hlisted, rfl⟩
    obtain ⟨pA, hpA, hremote⟩ := hlisted
    rw [hi.1] at hpA
    exact (admits_copies hne ⟨pA, hpA, hremote⟩).obeys_round n
  · intro n n' hi hout
    rcases hout.cases with hsame | ⟨g, hg, row, db, hsigned, hname, hfresh, hins, rfl⟩
    · exact copies_of_logSame hsame hi
    · exact copies_appended hne hg hsigned hname hfresh hins hi

omit [HmacSha256] [Sha256] in
/-- What has the id of an entry of `a` delivers it. -/
theorem CopyOf.delivered {w : World} {pA pB : Project} {r row : LogRow} (h : CopyOf n₀ b a r row)
    (hr : r ∈ w.db.taskLog.rows) (hpA : pA ∈ (n₀ a.name).db.projects.rows) (hpB : pB ∈ (n₀ b.name).db.projects.rows)
    (hname : pB.name = pA.name) (hrow : row.projectId = pA.id) : Delivered w pB.id row := by
  obtain ⟨hproto, qB, hqB, qA, hqA, hid, hnames, hcopy⟩ := h
  have hA : qA = pA := Table.eq_of_clash _ hqA hpA (by simp [Constraints.clash, hid, hrow])
  subst hA
  have hB : qB = pB := Table.eq_of_clash _ hqB hpB (by simp [Constraints.clash, hname, hnames])
  subst hB
  exact ⟨r, hr, hcopy, hproto⟩

/-- All that the peer itself wrote to the project is there. -/
def DeliversAll (b a : Gateway) (n : Net) (pA pB : Project) : Prop :=
  ∀ row ∈ (n a.name).db.taskLog.rows, row.projectId = pA.id → row.gatewayName = a.name → Delivered (n b.name) pB.id row

section
variable (hne : a.name ≠ b.name) (hsecret : b.secret = a.secret)
  (hempty : ∀ g ∈ [a, b], (n₀ g.name).db.taskLog.rows = []) {pool : Pool Net Err}
  (hpool : Pool.Reachable (· = n₀) (Starts (RoundsOf b a)) (Outside [a, b]) pool)
  {pA pB : Project} (hpA : pA ∈ (pool.state a.name).db.projects.rows)
  (hpB : pB ∈ (pool.state b.name).db.projects.rows) (hname : pB.name = pA.name) {remote : RemoteProject}
  (hremote : remote.projectId = pA.id ∧ remote.projectName = pA.name)
include hne hsecret hempty hpool hpA hpB hname hremote

/-- After a round that ends well, with nothing failing and nobody appending, all is there exactly if what the peer
wrote up to the copy's highest cursor was there before. -/
theorem deliversAll_iff (ha : (pool.state a.name).Legible) (hb : (pool.state b.name).Legible) {n' : Net}
    (hrun : (b.round a ⟨a.name⟩ remote).exec pool.state = (.ok (), n')) :
    DeliversAll b a n' pA pB ↔
      ∀ row ∈ (pool.state a.name).db.taskLog.rows, row.projectId = pA.id → row.gatewayName = a.name →
        row.cursor ≤ maxCursor (pool.state b.name).db pB.id → Delivered (pool.state b.name) pB.id row := by
  have hcopy : Projects.byName (pool.state b.name).db remote.projectName = some pB :=
    Projects.byName_eq_some.2 ⟨hpB, hname.trans hremote.2.symm⟩
  have hv := token_of_round_ok hb ha hcopy hrun
  have hstart : Starts (RoundsOf b a) pool.state (b.round a ⟨a.name⟩ remote) :=
    ⟨b, a, ⟨a.name⟩, remote, ⟨rfl, rfl, rfl⟩, ⟨pA, hpA, hremote⟩, rfl⟩
  obtain ⟨hprojects, hown, hcopies⟩ := good_copies hne hempty hpool
  obtain ⟨threads, hpool'⟩ := hpool.run hstart
  have hstate : ((b.round a ⟨a.name⟩ remote).exec pool.state).2 = n' := congrArg Prod.snd hrun
  rw [hstate] at hpool'
  obtain ⟨-, -, hcopies'⟩ := good_copies hne hempty hpool'
  have hsame : (n' a.name).db.taskLog = (pool.state a.name).db.taskLog := by
    have hround := (exec_round_serving hb ha hcopy hv a.name).1
    rw [hstate, synced, Net.at_set_of_ne hne] at hround
    exact hround
  rw [hprojects] at hpA hpB
  rw [DeliversAll, hsame]
  constructor
  · intro hall row hrow hproject hwriter hcursor
    obtain ⟨r, hr, hrproject, hproto⟩ := hall row hrow hproject hwriter
    rw [← hstate] at hr
    rcases mem_round hb ha hcopy hv hr with hold | ⟨row', hrow', -, hcursor', -, rfl⟩
    · exact ⟨r, hold, hrproject, hproto⟩
    · -- Only entries above the cursor are new.
      have hid : row'.id = row.id := congrArg ProtoLogEntry.id hproto
      have hrows : row' = row := Table.eq_of_clash _ hrow' hrow (beq_iff_eq.2 hid)
      subst hrows
      omega
  · intro hall row hrow hproject hwriter
    obtain ⟨hfits, hsigned, -⟩ := hown row hrow
    by_cases hcursor : row.cursor ≤ maxCursor (pool.state b.name).db pB.id
    · obtain ⟨r, hr, hdelivered⟩ := hall row hrow hproject hwriter hcursor
      refine ⟨r, ?_, hdelivered⟩
      rw [← hstate]
      exact mem_round_of_mem hb ha hcopy hv hr
    · obtain ⟨r, hr, hid⟩ := round_delivers hb ha hcopy hv hrow (hproject.trans hremote.1.symm) (by omega) hfits
        hwriter (hsecret ▸ hsigned)
      rw [hstate] at hr
      have hrow' : row ∈ (n' a.name).db.taskLog.rows := by rwa [hsame]
      exact (hcopies' r hr row hrow' hid).delivered hr hpA hpB hname hproject

/-- **As shipped no round ends well: each ends at its first statement and moves nothing. With the columns decoded, after
a round that ends well, with nothing failing and nobody appending, all that the peer itself wrote is there exactly if
what it wrote up to the copy's highest cursor was there before.** -/
theorem round_delivers_all :
    ((pool.state b.name).AsShipped → ∃ n', (b.round a ⟨a.name⟩ remote).exec pool.state =
      (.error (.msg "get project by name"), n') ∧ Net.Each SameStored pool.state n') ∧
    ((pool.state a.name).Legible → (pool.state b.name).Legible →
      ∀ n', (b.round a ⟨a.name⟩ remote).exec pool.state = (.ok (), n') → (DeliversAll b a n' pA pB ↔
        ∀ row ∈ (pool.state a.name).db.taskLog.rows, row.projectId = pA.id → row.gatewayName = a.name →
          row.cursor ≤ maxCursor (pool.state b.name).db pB.id → Delivered (pool.state b.name) pB.id row)) := by
  refine ⟨fun hship => ?_, fun ha hb n' hrun => deliversAll_iff hne hsecret hempty hpool hpA hpB hname hremote ha hb hrun⟩
  have hcopy : Projects.byName (pool.state b.name).db remote.projectName = some pB :=
    Projects.byName_eq_some.2 ⟨hpB, hname.trans hremote.2.symm⟩
  exact Gateway.exec_round_shipped hship hcopy

end

end

/-! ## Two writers -/

section demo

instance (w : World) (copyId : String) (row : LogRow) : Decidable (Delivered w copyId row) :=
  inferInstanceAs (Decidable (∃ r ∈ w.db.taskLog.rows, r.projectId = copyId ∧ r.toEntry.toProto = row.toEntry.toProto))

/-- The gateway appends the note `hello` to its project. -/
def demoWrite (g : Gateway) (id projectId : Uuid) (n : Net) : Net :=
  (Net.at_ g.name).set
    ((append g.secret id projectId.text g.name "agent" .note "hello" none).exec (n g.name)).2 n

def demoEntryA : Uuid := ⟨"00000000-0000-4000-8000-0000000000aa", Uuid.hex_aa⟩

def demoEntryB : Uuid := ⟨"00000000-0000-4000-8000-0000000000bb", Uuid.hex_bb⟩

section
variable [Sha256] (engine : Engine)

/-- `gw-a` has written. -/
def demoWrittenA : Net := demoWrite demoA demoEntryA demoId (demoNet demoSetup demoSetupB engine)

/-- `gw-a` and then `gw-b` have written. -/
def demoWrittenBoth : Net := demoWrite demoB demoEntryB demoIdB (demoWrittenA engine)

theorem reachable_demoWrite {init : Net → Prop} {n : Net} {g : Gateway} (hg : g ∈ [demoA, demoB]) (id projectId : Uuid)
    (fresh : ∀ h ∈ [demoA, demoB], ∀ r ∈ (n h.name).db.taskLog.rows, r.id ≠ id.text)
    (h : Pool.Reachable init (Starts (RoundsOf demoB demoA)) (Outside [demoA, demoB]) ⟨n, []⟩) :
    Pool.Reachable init (Starts (RoundsOf demoB demoA)) (Outside [demoA, demoB]) ⟨demoWrite g id projectId n, []⟩ :=
  h.moved (.append hg id fresh projectId.text "agent" .note "hello" none)

variable (n : Net)

/-- The round of `gw-b` for the project of `gw-a`. -/
def demoLogRound : Except Err Unit × Net := (demoB.round demoA ⟨"gw-a"⟩ (demoListed "")).exec n

/-- The two projects are `demo`. -/
def DemoProjects : Prop :=
  (∃ p ∈ (n "gw-a").db.projects.rows, p.id = demoId.text ∧ p.name = "demo") ∧
    ∃ p ∈ (n "gw-b").db.projects.rows, p.id = demoIdB.text ∧ p.name = "demo"

instance : Decidable (DemoProjects n) := inferInstanceAs (Decidable (_ ∧ _))

/-- The round ends well, with nothing failing and all columns read. -/
def DemoRoundEnds : Prop :=
  (demoLogRound n).1 = .ok () ∧ (n "gw-a").Legible ∧ (n "gw-b").Legible ∧ DemoProjects n

instance : Decidable (DemoRoundEnds n) := inferInstanceAs (Decidable (_ ∧ _ ∧ _ ∧ _))

end

omit [HmacSha256] in
theorem demo_writes : letI := demoSha256; letI := demoLogHmac
    (∀ engine ∈ [Engine.shipped, .widening], ∀ g ∈ ["gw-a", "gw-b"],
      (demoNet demoSetup demoSetupB engine g).db.taskLog.rows = []) ∧
      (demoWrittenA .shipped "gw-b").AsShipped ∧ DemoProjects (demoWrittenA .shipped) := by
  decide +kernel

omit [HmacSha256] in
theorem demo_round_writtenA : letI := demoSha256; letI := demoLogHmac
    DemoRoundEnds (demoWrittenA .widening) ∧ ∀ row ∈ (demoWrittenA .widening "gw-a").db.taskLog.rows,
      ¬ row.cursor ≤ maxCursor (demoWrittenA .widening "gw-b").db demoIdB.text := by
  decide +kernel

-- With the columns decoded, to a gateway that has written an entry itself the first entry of its peer never comes.
omit [HmacSha256] in
example : letI := demoSha256; letI := demoLogHmac
    DemoRoundEnds (demoWrittenBoth .widening) ∧ ∃ row ∈ ((demoLogRound (demoWrittenBoth .widening)).2 "gw-a").db.taskLog.rows,
      row.projectId = demoId.text ∧ row.gatewayName = "gw-a" ∧
        ¬ Delivered ((demoLogRound (demoWrittenBoth .widening)).2 "gw-b") demoIdB.text row := by
  decide +kernel

omit [HmacSha256] in
theorem demo_empty (engine : Engine) (hengine : engine ∈ [Engine.shipped, .widening]) : letI := demoSha256; letI := demoLogHmac
    ∀ g ∈ [demoA, demoB], (demoNet demoSetup demoSetupB engine g.name).db.taskLog.rows = [] := by
  intro g hg
  simp only [List.mem_cons, List.not_mem_nil, or_false] at hg
  rcases hg with rfl | rfl
  · exact demo_writes.1 engine hengine "gw-a" (by decide)
  · exact demo_writes.1 engine hengine "gw-b" (by decide)

omit [HmacSha256] in
theorem reachable_demoWrittenA (engine : Engine) (hengine : engine ∈ [Engine.shipped, .widening]) :
    letI := demoSha256; letI := demoLogHmac
    Pool.Reachable (· = demoNet demoSetup demoSetupB engine) (Starts (RoundsOf demoB demoA)) (Outside [demoA, demoB])
      ⟨demoWrittenA engine, []⟩ := by
  refine @reachable_demoWrite demoLogHmac demoSha256 _ _ demoA (by simp) demoEntryA demoId ?_ ⟨_, rfl, .refl⟩
  intro h hh r hr
  rw [demo_empty engine hengine h hh] at hr
  cases hr

omit [HmacSha256] in
theorem demo_note_written : letI := demoSha256; letI := demoLogHmac
    ∃ row ∈ ((demoLogRound (demoWrittenA .widening)).2 "gw-a").db.taskLog.rows,
      row.projectId = demoId.text ∧ row.gatewayName = "gw-a" := by
  decide +kernel

omit [HmacSha256] in
/-- As shipped the round fails. With the columns decoded, to a gateway that has written nothing itself the note is
delivered. -/
theorem round_delivers_all_demo : letI := demoSha256; letI := demoLogHmac
    (∃ n', (demoB.round demoA ⟨demoA.name⟩ (demoListed "")).exec (demoWrittenA .shipped) =
      (.error (.msg "get project by name"), n')) ∧
    ∃ row ∈ ((demoLogRound (demoWrittenA .widening)).2 "gw-a").db.taskLog.rows, row.projectId = demoId.text ∧
      row.gatewayName = "gw-a" ∧ Delivered ((demoLogRound (demoWrittenA .widening)).2 "gw-b") demoIdB.text row := by
  constructor
  · obtain ⟨-, hship, ⟨pA, hpA, hidA, hnameA⟩, pB, hpB, hidB, hnameB⟩ := demo_writes
    obtain ⟨n', hrun, -⟩ := (@round_delivers_all demoLogHmac demoSha256 demoB demoA _ (by decide) rfl
      (demo_empty .shipped (by simp)) _ (reachable_demoWrittenA .shipped (by simp)) pA pB hpA hpB (hnameB.trans hnameA.symm)
      (demoListed "") ⟨hidA.symm, hnameA.symm⟩).1 hship
    exact ⟨n', hrun⟩
  · obtain ⟨⟨hok, ha, hb, ⟨pA, hpA, hidA, hnameA⟩, pB, hpB, hidB, hnameB⟩, hnone⟩ := demo_round_writtenA
    have hall := ((@round_delivers_all demoLogHmac demoSha256 demoB demoA _ (by decide) rfl (demo_empty .widening (by simp)) _
      (reachable_demoWrittenA .widening (by simp)) pA pB hpA hpB (hnameB.trans hnameA.symm) (demoListed "")
      ⟨hidA.symm, hnameA.symm⟩).2 ha hb _ (Prog.exec_eq_of_fst hok)).2
      fun row hrow _ _ hcursor => absurd (hidB ▸ hcursor) (hnone row hrow)
    rw [DeliversAll, hidA, hidB] at hall
    obtain ⟨row, hrow, hproject, hgateway⟩ := demo_note_written
    exact ⟨row, hrow, hproject, hgateway, hall row hrow hproject hgateway⟩

end demo

end A2AGateway
