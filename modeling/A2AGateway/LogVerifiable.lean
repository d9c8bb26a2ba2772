import A2AGateway.ShippedCalls

/-!
# Entries that verify where they are stored

The project id is part of what an entry's signature covers (`task_log.rs:277`). As shipped every row is one that its
gateway has signed under the project it is stored under. With the columns decoded a round verifies an entry under the
id of the *remote* project and stores it under the id of the *local* one (`peer_sync.rs:155`, `179-183`), with the
signature it came with; `verify_entry` reads the id back from the row.
-/

namespace A2AGateway

open PeerSync TaskLog Gw

/-! ## What is verified -/

/-- `since` or `list` hands the entry out. -/
def Returned (w : World) (entry : LogEntry) : Prop :=
  (∃ projectId after entries w', (since projectId after).exec w = (.ok entries, w') ∧ entry ∈ entries) ∨
    ∃ projectId entries w', (list projectId).exec w = (.ok entries, w') ∧ entry ∈ entries

/-- Every entry that a gateway hands out verifies there. -/
def Verifiable [HmacSha256] (G : List Gateway) (n : Net) : Prop :=
  ∀ g ∈ G, ∀ entry, Returned (n g.name) entry → verifyEntry g.secret entry = true

/-- Projects that have one name on both gateways have one id. -/
def SameIds (n : Net) (b a : Gateway) : Prop :=
  ∀ pB ∈ (n b.name).db.projects.rows, ∀ pA ∈ (n a.name).db.projects.rows, pB.name = pA.name → pB.id = pA.id

theorem Returned.of_row {w : World} {entry : LogEntry} (h : Returned w entry) :
    ∃ r ∈ w.db.taskLog.rows, entry = r.toEntry := by
  have hsince : ∀ {projectId after entries w'}, (since projectId after).exec w = (.ok entries, w') →
      entry ∈ entries → ∃ r ∈ w.db.taskLog.rows, entry = r.toEntry := by
    intro projectId after entries w' hrun he
    obtain ⟨-, ⟨rfl, -⟩, -⟩ := since_iff.1 hrun
    obtain ⟨r, hr, hre⟩ := List.mem_map.1 he
    exact ⟨r, (mem_rowsSince.1 hr).1, hre.symm⟩
  rcases h with ⟨projectId, after, entries, w', hrun, he⟩ | ⟨projectId, entries, w', hrun, he⟩
  · exact hsince hrun he
  · exact hsince hrun he

/-- With nothing failing and all columns read every row is handed out. -/
theorem returned_of_mem {w : World} (hw : w.Legible) {r : LogRow} (hr : r ∈ w.db.taskLog.rows) : Returned w r.toEntry := by
  have hread : w.db.engine.integers = .refused → rowsSince w.db r.projectId (r.cursor - 1) = [] := fun hrefused => by
    rw [hw.2] at hrefused
    cases hrefused
  refine Or.inl ⟨r.projectId, r.cursor - 1, _, w, since_calm hw.1 hread, ?_⟩
  exact List.mem_map_of_mem (mem_rowsSince.2 ⟨hr, rfl, by omega⟩)

variable [HmacSha256]

/-! ## The signatures under any interleaving -/

/-- The projects stay, and every row is signed under the project it is stored under. -/
def signedRows (secret : Bytes) (G : List Gateway) (n₀ : Net) : Discipline Net where
  inv n := (∀ g, (n g).db.projects = (n₀ g).db.projects) ∧
    ∀ g ∈ G, ∀ r ∈ (n g.name).db.taskLog.rows, Signed secret r
  step _ _ := True
  refl _ := trivial
  trans _ _ _ _ _ := trivial

section
variable {secret : Bytes} {G : List Gateway} {n₀ : Net}

theorem signedRows_of_logSame {n n' : Net} (h : Net.Each LogSame n n') (hi : (signedRows secret G n₀).inv n) :
    (signedRows secret G n₀).inv n' := by
  obtain ⟨hprojects, hsigned⟩ := hi
  refine ⟨fun g => (h g).2.trans (hprojects g), fun g hg r hr => hsigned g hg r ?_⟩
  rwa [(h g.name).1] at hr

theorem signedRows_inserted {n : Net} {name : String} {row : LogRow} {db : Db}
    (hrow : Signed secret row) (hins : insertRow row (n name).db = some db) (hi : (signedRows secret G n₀).inv n) :
    (signedRows secret G n₀).inv ((Net.at_ name).set { (n name).tick with db } n) := by
  obtain ⟨hprojects, hsigned⟩ := hi
  refine ⟨fun g => (projects_inserted hins g).trans (hprojects g), fun g hg r hr => ?_⟩
  rcases (mem_rows_inserted hins).1 hr with hr | ⟨-, rfl⟩
  · exact hsigned g hg r hr
  · exact hrow

/-- **Rounds between projects of one id store what verifies.** -/
theorem admits_signedRows {b a : Gateway} {peer : PeerConfig} {remote : RemoteProject} (hb : b.secret = secret)
    (hids : TokenAccepted b a peer → SameIds n₀ b a) (hlisted : Listed (n₀ a.name) remote) :
    Admits (signedRows secret G n₀) b a peer remote (fun _ _ => TokenAccepted b a peer)
      fun p => p ∈ (n₀ b.name).db.projects.rows ∧ p.name = remote.projectName where
  aside n n' h hi := ⟨trivial, signedRows_of_logSame h hi⟩
  found n p hi hp := by
    rw [← hi.1 b.name]
    exact Projects.byName_eq_some.1 hp
  handed n after hi haccepted e he := haccepted
  stable n n' e hs h := h
  stored n p e db hi hp haccepted hacc hins := by
    refine ⟨trivial, signedRows_inserted ?_ hins hi⟩
    obtain ⟨pA, hpA, hid, hname⟩ := hlisted
    have hsame : p.id = remote.projectId := by
      rw [hid]
      exact hids haccepted p hp.1 pA hpA (hp.2.trans hname)
    have hsig := signature_reconstruct hacc
    rw [hb] at hsig
    show (reconstruct remote.projectId e).signature = _
    rw [hsig, ← hsame]
    rfl

end

/-! ## An entry that does not verify -/

section
variable [Sha256] {secret : Bytes} {G : List Gateway} {rounds : Gateway → Gateway → PeerConfig → Prop} {n₀ : Net}

/-- `a` has appended the first entry of its log, to a project; nothing else has happened, and nothing fails on either. -/
structure FirstEntry (n₀ n : Net) (b a : Gateway) (now now' : F64) (projectId : String) (row : LogRow) : Prop where
  elsewhere : (n b.name).db = (n₀ b.name).db
  projects : (n a.name).db.projects = (n₀ a.name).db.projects
  rows : (n a.name).db.taskLog.rows = [row]
  project : row.projectId = projectId
  cursor : row.cursor = 1
  gateway : row.gatewayName = a.name
  signed : Signed a.secret row
  calm : (n b.name).Legible ∧ (n a.name).Legible
  clocks : (n b.name).now = now ∧ (n a.name).now = now'

theorem exists_firstEntry {b a : Gateway} (now now' : F64) {pA : Project}
    (hempty : ∀ g ∈ G, (n₀ g.name).db.taskLog.rows = []) (hread : ∀ g ∈ G, (n₀ g.name).db.engine.integers = .widened)
    (hb : b ∈ G) (ha : a ∈ G) (hne : a.name ≠ b.name) (hpA : pA ∈ (n₀ a.name).db.projects.rows) (id : Uuid) (agent content : String) :
    ∃ n row, Pool.Reachable (· = n₀) (Starts rounds) (Outside G) ⟨n, []⟩ ∧ FirstEntry n₀ n b a now now' pA.id row := by
  have hr₀ : Pool.Reachable (· = n₀) (Starts rounds) (Outside G) ⟨n₀, []⟩ := ⟨n₀, rfl, .refl⟩
  obtain ⟨n, hr, hdb, ⟨hbfaults, hbnow⟩, hafaults, hanow⟩ := exists_calm hr₀ hne now now'
  have hnone : ∀ g ∈ G, (n g.name).db.taskLog.rows = [] := fun g hg => by rw [hdb, hempty g hg]
  let row := appendRow a.secret id pA.id a.name agent .note content none (n a.name).now (n a.name).db
  have hcursor : row.cursor = 1 := by simp [row, appendRow, maxCursor, hnone a ha]
  obtain ⟨db, hins⟩ : ∃ db, insertRow row (n a.name).db = some db := by
    refine insertRow_of_fresh (by rw [hcursor]; decide) ?_ rfl (by simp [hnone a ha])
    rw [hdb]
    exact Projects.hasProject_of_mem hpA
  have hself : (Net.at_ a.name).set { n a.name with db } n a.name = { n a.name with db } := Net.at_set_self _ _ _
  have hother : (Net.at_ a.name).set { n a.name with db } n b.name = n b.name := Net.at_set_of_ne hne.symm _ _
  refine ⟨_, row, hr.moved (outside_append ha hafaults (by simp +contextual [hnone]) hins), ?_⟩
  constructor
  case elsewhere => rw [hother, hdb]
  case projects =>
    rw [hself]
    show db.projects = _
    rw [(insertRow_eq_some.1 hins).2.2.2.2.1, hdb]
  case rows =>
    rw [hself]
    show db.taskLog.rows = _
    rw [(insertRow_eq_some.1 hins).2.2.2.2.2, hnone a ha]
    rfl
  case project => rfl
  case cursor => exact hcursor
  case gateway => rfl
  case signed => exact signed_appendRow
  case calm =>
    rw [hother, hself]
    refine ⟨⟨hbfaults, ?_⟩, hafaults, ?_⟩
    · rw [hdb]
      exact hread b hb
    · show db.engine.integers = .widened
      rw [(insertRow_eq_some.1 hins).2.2.2.2.1, hdb]
      exact hread a ha
  case clocks =>
    rw [hother, hself]
    exact ⟨hbnow, hanow⟩

/-- An entry goes from `a` to a project of `b` with another id: `a` appends it, and `b` pulls it. -/
theorem exists_delivered {b a : Gateway} {now now' : F64} {c : PeerClaims} {pA pB : Project}
    (hsecret : ∀ g ∈ G, g.secret = secret)
    (hempty : ∀ g ∈ G, (n₀ g.name).db.taskLog.rows = []) (hread : ∀ g ∈ G, (n₀ g.name).db.engine.integers = .widened)
    (hb : b ∈ G) (ha : a ∈ G) (hround : rounds b a ⟨a.name⟩)
    (hv : a.auth.validateFor (roundToken b.auth ⟨a.name⟩ now) a.name now' = .ok c)
    (hpB : pB ∈ (n₀ b.name).db.projects.rows) (hpA : pA ∈ (n₀ a.name).db.projects.rows)
    (hname : pB.name = pA.name) (hids : pB.id ≠ pA.id) (id : Uuid) (agent content : String) :
    ∃ (pool : Pool Net Err) (r : LogRow) (e : ProtoLogEntry), Pool.Reachable (· = n₀) (Starts rounds) (Outside G) pool ∧
      a.name ≠ b.name ∧ (pool.state b.name).db.engine.integers = .widened ∧ r ∈ (pool.state b.name).db.taskLog.rows ∧
      accepts secret ⟨a.name⟩ pA.id e = true ∧
      r = (reconstruct pA.id e).toRow pB.id := by
  -- Two projects of one gateway never share a name.
  have hne : a.name ≠ b.name := by
    intro h
    rw [h] at hpA
    have hclash : Constraints.clash pB pA = true := by simp [Constraints.clash, hname]
    exact hids (congrArg Project.id (Table.eq_of_clash _ hpB hpA hclash))
  obtain ⟨n, row, hreach, hfirst⟩ := @exists_firstEntry _ _ G rounds n₀ b a now now' pA hempty hread hb ha hne hpA
    id agent content
  -- `b` runs a round, in which the entry is accepted and stored.
  let remote : RemoteProject := { projectId := pA.id, projectName := pA.name, snapshotId := "", gatewayName := a.name }
  have hlisted : Listed (n a.name) remote := ⟨pA, by rw [hfirst.projects]; exact hpA, rfl, rfl⟩
  obtain ⟨threads, hrun⟩ := hreach.run (p := b.round a ⟨a.name⟩ remote) ⟨b, a, ⟨a.name⟩, remote, hround, hlisted, rfl⟩
  have hcopy : Projects.byName (n b.name).db remote.projectName = some pB := by
    rw [hfirst.elsewhere]
    exact Projects.byName_eq_some.2 ⟨hpB, hname⟩
  have htoken : ∃ c, a.auth.validateFor (roundToken b.auth ⟨a.name⟩ (n b.name).now) a.name (n a.name).now = .ok c := by
    rw [hfirst.clocks.1, hfirst.clocks.2]
    exact ⟨c, hv⟩
  have hnone : (n b.name).db.taskLog.rows = [] := by rw [hfirst.elsewhere, hempty b hb]
  have hafter : maxCursor (n b.name).db pB.id = 0 := by simp [maxCursor, hnone]
  have hsigned : Signed b.secret row := by
    rw [hsecret b hb, ← hsecret a ha]
    exact hfirst.signed
  have hrow : row ∈ (n a.name).db.taskLog.rows := by
    rw [hfirst.rows]
    exact List.mem_singleton_self row
  have hread' : (((b.round a ⟨a.name⟩ remote).exec n).2 b.name).db.engine.integers = .widened := by
    rw [(exec_round_serving hfirst.calm.1 hfirst.calm.2 hcopy htoken b.name).3, synced, Net.at_set_self]
    show (takeDelta _ _ _ _ _ (n b.name).db).engine.integers = .widened
    rw [takeDelta_frame]
    exact hfirst.calm.1.2
  obtain ⟨r, hr, -⟩ := round_delivers hfirst.calm.1 hfirst.calm.2 hcopy htoken hrow hfirst.project
    (by rw [hafter, hfirst.cursor]; decide) (by rw [hfirst.cursor]; decide) hfirst.gateway hsigned
  rcases mem_round hfirst.calm.1 hfirst.calm.2 hcopy htoken hr with hold | ⟨row', -, -, -, hacc, hstored⟩
  · rw [hnone] at hold
    cases hold
  · rw [hsecret b hb] at hacc
    exact ⟨_, r, _, hrun, hne, hread', hr, hacc, hstored⟩

/-- **Where one name has two ids, an entry that is delivered does not verify.** `a` appends an entry, and
`b` pulls it. -/
theorem exists_unverifiable {b a : Gateway} {now now' : F64} {c : PeerClaims} {pA pB : Project}
    (hinj : Function.Injective (HmacSha256.hmacHex secret)) (hsecret : ∀ g ∈ G, g.secret = secret)
    (hempty : ∀ g ∈ G, (n₀ g.name).db.taskLog.rows = []) (hread : ∀ g ∈ G, (n₀ g.name).db.engine.integers = .widened)
    (hb : b ∈ G) (ha : a ∈ G) (hround : rounds b a ⟨a.name⟩)
    (hv : a.auth.validateFor (roundToken b.auth ⟨a.name⟩ now) a.name now' = .ok c)
    (hpB : pB ∈ (n₀ b.name).db.projects.rows) (hpA : pA ∈ (n₀ a.name).db.projects.rows)
    (hname : pB.name = pA.name) (hids : pB.id ≠ pA.id) (id : Uuid) (agent content : String) :
    ∃ pool, Pool.Reachable (· = n₀) (Starts rounds) (Outside G) pool ∧ ¬ Verifiable G pool.state := by
  obtain ⟨pool, r, e, hpool, hne, hwidened, hr, hacc, hstored⟩ :=
    exists_delivered hsecret hempty hread hb ha hround hv hpB hpA hname hids id agent content
  obtain ⟨n, hn, hdb, ⟨hfaults, -⟩, -⟩ := exists_calm hpool hne now now'
  refine ⟨_, hn, fun hall => hids ?_⟩
  have hlegible : (n b.name).Legible := ⟨hfaults, by rw [hdb]; exact hwidened⟩
  have hreturned : Returned (n b.name) r.toEntry := returned_of_mem hlegible (by rw [hdb]; exact hr)
  have hverified : Signed secret r := by
    rw [← hsecret b hb]
    exact (verifyEntry_toEntry r).1 (hall b hb _ hreturned)
  -- Its signature is that of the other id.
  rw [hstored] at hverified
  have hsame := Option.some.inj (hverified.symm.trans (signature_reconstruct hacc))
  exact canonicalString_projectId_inj (hinj hsame)

/-- As shipped every stored row verifies, since there is none but those that its gateway has appended. -/
theorem rows_verify_shipped (hsecret : ∀ g ∈ G, g.secret = secret) (hrounds : ∀ b a peer, rounds b a peer → b ∈ G ∧ a ∈ G)
    (hempty : ∀ g ∈ G, (n₀ g.name).db.taskLog.rows = []) (hship : ∀ g ∈ G, (n₀ g.name).AsShipped) {pool : Pool Net Err}
    (hpool : Pool.Reachable (· = n₀) (Starts rounds) (Outside G) pool) {g : Gateway} (hg : g ∈ G) :
    ∀ r ∈ (pool.state g.name).db.taskLog.rows, verifyEntry g.secret r.toEntry = true := by
  have hown : OwnEntries G pool.state := by
    refine ownEntries hpool ?_ (fun b a peer h => (hrounds b a peer h).1) fun n n' hn hout => hout.ownEntries hn
    rintro n rfl g hg
    refine ⟨hship g hg, fun r hr => ?_⟩
    rw [hempty g hg] at hr
    cases hr
  intro r hr
  obtain ⟨-, h, hh, hsigned⟩ := (hown g hg).2 r hr
  rw [hsecret h hh, ← hsecret g hg] at hsigned
  exact (verifyEntry_toEntry r).2 hsigned

/-- Rounds between projects of one id keep every row signed. -/
theorem good_signedRows (hsecret : ∀ g ∈ G, g.secret = secret) (hrounds : ∀ b a peer, rounds b a peer → b ∈ G ∧ a ∈ G)
    (hempty : ∀ g ∈ G, (n₀ g.name).db.taskLog.rows = [])
    (hids : ∀ b a peer, rounds b a peer → TokenAccepted b a peer → SameIds n₀ b a) {pool : Pool Net Err}
    (hpool : Pool.Reachable (· = n₀) (Starts rounds) (Outside G) pool) : Pool.Good (signedRows secret G n₀) pool := by
  refine hpool.good ?_ ?_ ?_
  · rintro n rfl
    refine ⟨fun _ => rfl, fun g hg r hr => ?_⟩
    rw [hempty g hg] at hr
    cases hr
  · rintro n p hi ⟨b, a, peer, remote, hround, hlisted, rfl⟩
    have hlisted₀ : Listed (n₀ a.name) remote := by
      obtain ⟨pA, hpA, hremote⟩ := hlisted
      rw [hi.1 a.name] at hpA
      exact ⟨pA, hpA, hremote⟩
    exact (admits_signedRows (hsecret b (hrounds b a peer hround).1) (hids b a peer hround) hlisted₀).obeys_round n
  · intro n n' hi hout
    refine ⟨trivial, ?_⟩
    rcases hout.cases with hsame | ⟨g, hg, row, db, hrow, -, -, hins, rfl⟩
    · exact signedRows_of_logSame hsame hi
    · rw [hsecret g hg] at hrow
      exact signedRows_inserted hrow hins hi

/-- **Every entry that is handed out verifies: as shipped always, and so do the stored ones; with any decoding, as long
as rounds are between projects of one id**, that is, for every configured peer that takes the tokens, projects of one
name have one id. With the columns decoded nothing less will do for peers that go by their own name. -/
theorem log_verifiable (hsecret : ∀ g ∈ G, g.secret = secret)
    (hrounds : ∀ b a peer, rounds b a peer → b ∈ G ∧ a ∈ G)
    (hempty : ∀ g ∈ G, (n₀ g.name).db.taskLog.rows = []) :
    ((∀ g ∈ G, (n₀ g.name).AsShipped) → ∀ pool, Pool.Reachable (· = n₀) (Starts rounds) (Outside G) pool →
      Verifiable G pool.state ∧
        ∀ g ∈ G, ∀ r ∈ (pool.state g.name).db.taskLog.rows, verifyEntry g.secret r.toEntry = true) ∧
    ((∀ b a peer, rounds b a peer → TokenAccepted b a peer → SameIds n₀ b a) →
      ∀ pool, Pool.Reachable (· = n₀) (Starts rounds) (Outside G) pool → Verifiable G pool.state) ∧
    (Function.Injective (HmacSha256.hmacHex secret) → (∀ g ∈ G, (n₀ g.name).db.engine.integers = .widened) →
      (∀ pool, Pool.Reachable (· = n₀) (Starts rounds) (Outside G) pool → Verifiable G pool.state) →
      ∀ b a, rounds b a ⟨a.name⟩ → TokenAccepted b a ⟨a.name⟩ → SameIds n₀ b a) := by
  refine ⟨fun hship pool hpool => ?_, ?_, ?_⟩
  · refine ⟨fun g hg entry hentry => ?_, fun g hg => rows_verify_shipped hsecret hrounds hempty hship hpool hg⟩
    obtain ⟨r, hr, rfl⟩ := hentry.of_row
    exact rows_verify_shipped hsecret hrounds hempty hship hpool hg r hr
  · intro hids pool hpool g hg entry hentry
    have hgood := good_signedRows hsecret hrounds hempty hids hpool
    obtain ⟨r, hr, rfl⟩ := hentry.of_row
    rw [hsecret g hg]
    exact (verifyEntry_toEntry r).2 (hgood.1.2 g hg r hr)
  · intro hinj hread hall b a hround htoken pB hpB pA hpA hname
    by_contra hids
    obtain ⟨now, now', c, hv⟩ := htoken
    obtain ⟨hb, ha⟩ := hrounds b a _ hround
    obtain ⟨pool, hpool, hnot⟩ := exists_unverifiable hinj hsecret hempty hread hb ha hround hv hpB hpA hname hids demoId "" ""
    exact hnot (hall pool hpool)

end

/-! ## `gw-a` and `gw-b` -/

section demo

omit [HmacSha256] in
theorem demoLogHmac_injective : Function.Injective (@HmacSha256.hmacHex demoLogHmac (asBytes "secret")) :=
  HmacSha256.recorded_injective (by decide +kernel) (by decide +kernel) _

/-- The two are peers of one another, each under its own name. -/
def demoRounds (b a : Gateway) (peer : PeerConfig) : Prop :=
  (b = demoB ∧ a = demoA ∨ b = demoA ∧ a = demoB) ∧ peer = ⟨a.name⟩

omit [HmacSha256] in
theorem demo_secret : ∀ g ∈ [demoA, demoB], g.secret = asBytes "secret" := by
  intro g hg
  simp only [List.mem_cons, List.not_mem_nil, or_false] at hg
  rcases hg with rfl | rfl <;> rfl

omit [HmacSha256] in
theorem demoRounds_mem (b a : Gateway) (peer : PeerConfig) (h : demoRounds b a peer) :
    b ∈ [demoA, demoB] ∧ a ∈ [demoA, demoB] := by
  rcases h.1 with ⟨rfl, rfl⟩ | ⟨rfl, rfl⟩ <;> simp

omit [HmacSha256] in
/-- Before any entry: the projects of both, under one id or under two. -/
theorem demo_projects : letI := demoSha256; letI := demoLogHmac
    (∀ g ∈ [demoA, demoB], (demoNet demoSetup demoSetup .widening g.name).db.taskLog.rows = [] ∧
        (demoNet demoSetup demoSetupB .widening g.name).db.taskLog.rows = [] ∧
        (demoNet demoSetup demoSetupB .shipped g.name).db.taskLog.rows = [] ∧
        (demoNet demoSetup demoSetupB .widening g.name).db.engine.integers = .widened ∧
        (demoNet demoSetup demoSetupB .shipped g.name).AsShipped) ∧
      (∀ p ∈ (demoNet demoSetup demoSetup .widening "gw-a").db.projects.rows,
        ∀ q ∈ (demoNet demoSetup demoSetup .widening "gw-b").db.projects.rows, p.id = q.id) ∧
      ∃ q ∈ (demoNet demoSetup demoSetupB .widening "gw-b").db.projects.rows,
        ∃ p ∈ (demoNet demoSetup demoSetupB .widening "gw-a").db.projects.rows, q.name = p.name ∧ q.id ≠ p.id := by
  refine ⟨fun g hg => ?_, ?_⟩
  · simp only [List.mem_cons, List.not_mem_nil, or_false] at hg
    rcases hg with rfl | rfl <;> decide +kernel
  · decide +kernel

omit [HmacSha256] in
/-- As shipped everything verifies, also where `demo` has two ids; with the columns decoded, where it has one. -/
theorem log_verifiable_demo : letI := demoSha256; letI := demoLogHmac
    (∀ pool, Pool.Reachable (· = demoNet demoSetup demoSetupB .shipped) (Starts demoRounds) (Outside [demoA, demoB]) pool →
        Verifiable [demoA, demoB] pool.state) ∧
      ∀ pool, Pool.Reachable (· = demoNet demoSetup demoSetup .widening) (Starts demoRounds) (Outside [demoA, demoB]) pool →
        Verifiable [demoA, demoB] pool.state := by
  obtain ⟨hempty, hids, -⟩ := demo_projects
  constructor
  · intro pool hpool
    exact ((@log_verifiable demoLogHmac demoSha256 _ _ _ _ demo_secret demoRounds_mem
      fun g hg => (hempty g hg).2.2.1).1 (fun g hg => (hempty g hg).2.2.2.2) pool hpool).1
  · refine (@log_verifiable demoLogHmac demoSha256 _ _ _ _ demo_secret demoRounds_mem fun g hg => (hempty g hg).1).2.1 ?_
    rintro b a peer ⟨⟨rfl, rfl⟩ | ⟨rfl, rfl⟩, -⟩ - q hq p hp -
    · exact (hids p hp q hq).symm
    · exact hids q hq p hp

-- With the columns decoded, where it has two, an entry of `gw-a` reaches `gw-b` and does not verify there.
omit [HmacSha256] in
example : letI := demoSha256; letI := demoLogHmac
    ∃ pool, Pool.Reachable (· = demoNet demoSetup demoSetupB .widening) (Starts demoRounds) (Outside [demoA, demoB]) pool ∧
      ¬ Verifiable [demoA, demoB] pool.state := by
  obtain ⟨hempty, -, q, hq, p, hp, hname, hids⟩ := demo_projects
  exact @exists_unverifiable demoLogHmac demoSha256 _ [demoA, demoB] demoRounds _ demoB demoA (.fin 1000) (.fin 1000)
    ⟨"gw-a", "*", 4600, 1000, "sync"⟩ p q demoLogHmac_injective demo_secret (fun g hg => (hempty g hg).2.1)
    (fun g hg => (hempty g hg).2.2.2.1) (by simp) (by simp) ⟨Or.inl ⟨rfl, rfl⟩, rfl⟩ (by decide +kernel) hq hp hname hids
    ⟨"00000000-0000-4000-8000-0000000000aa", Uuid.hex_aa⟩ "agent" "hello"

end demo

end A2AGateway
