import A2AGateway.LogVerifiable

/-!
# One entry on several gateways

| here | there |
| --- | --- |
| `LogRow.wire`     | what `sync_task_log` sends of a row (`peer_server.rs:298-307`) |
| `HasOriginal`     | "which gateway wrote this" (`004_task_log.sql:13`) |
| `Acquired`        | the two checks of `sync_project` (`peer_sync.rs:137-176`) |

A copy keeps of an entry what goes over the wire; the id of the project, which is signed, is not part of that. In a
federation of any shape every copy is that of a row which its writer has appended and signed, so any two copies agree
in what goes over the wire (`entries_agree`). An entry is taken over from a peer of its writer's name only: logs are
not passed on by third gateways (`entries_not_relayed`).
-/

namespace A2AGateway

open PeerSync TaskLog Gw

/-- A row without the project it is kept under, its todo, its status and its validity. -/
def LogRow.wire (r : LogRow) : ProtoLogEntry := r.toEntry.toProto

/-- Every row of every log is still there. -/
def LogsGrow (n n' : Net) : Prop := ∀ name, ∀ r ∈ (n name).db.taskLog.rows, r ∈ (n' name).db.taskLog.rows

theorem LogsGrow.of_logSame {n n' : Net} (h : Net.Each LogSame n n') : LogsGrow n n' := by
  intro name r hr
  rw [(h name).1]
  exact hr

theorem LogsGrow.inserted {n : Net} {name : String} {row : LogRow} {db : Db} (hins : insertRow row (n name).db = some db) :
    LogsGrow n ((Net.at_ name).set { (n name).tick with db } n) :=
  fun _ _ hr => (mem_rows_inserted hins).2 (Or.inl hr)

section
variable [HmacSha256] {G : List Gateway} {n n' : Net}

/-! ## Originals -/

/-- The gateway that the row names as its writer has the entry too, signed under its own project. -/
def HasOriginal (G : List Gateway) (n : Net) (r : LogRow) : Prop :=
  ∃ g ∈ G, g.name = r.gatewayName ∧ ∃ r₀ ∈ (n g.name).db.taskLog.rows, Signed g.secret r₀ ∧ r₀.wire = r.wire

/-- What the logs of the gateways say of one another. -/
structure Agreed (G : List Gateway) (n : Net) : Prop where
  /-- Every row is a copy of what its writer has signed. -/
  original : ∀ g ∈ G, ∀ r ∈ (n g.name).db.taskLog.rows, HasOriginal G n r
  /-- Rows of one id are one entry, wherever they are. -/
  agree : ∀ g ∈ G, ∀ h ∈ G, ∀ r ∈ (n g.name).db.taskLog.rows, ∀ r' ∈ (n h.name).db.taskLog.rows, r.id = r'.id → r.wire = r'.wire

theorem HasOriginal.stays {r : LogRow} (h : HasOriginal G n r) (hgrow : LogsGrow n n') : HasOriginal G n' r := by
  obtain ⟨g, hg, hname, r₀, hr₀, hsigned, hwire⟩ := h
  exact ⟨g, hg, hname, r₀, hgrow g.name r₀ hr₀, hsigned, hwire⟩

/-- The same entry has the same original. -/
theorem HasOriginal.congr {r r' : LogRow} (h : HasOriginal G n r) (hwire : r.wire = r'.wire) : HasOriginal G n r' := by
  have hname : r.gatewayName = r'.gatewayName := congrArg ProtoLogEntry.gatewayName hwire
  rw [HasOriginal, ← hwire, ← hname]
  exact h

/-- The federation under which every round and every append keeps `Agreed`. -/
def agreement (G : List Gateway) : Discipline Net where
  inv := Agreed G
  step := LogsGrow
  refl _ _ _ hr := hr
  trans _ _ _ hab hbc name r hr := hbc name r (hab name r hr)

theorem Agreed.of_logSame (h : Agreed G n) (hsame : Net.Each LogSame n n') : Agreed G n' := by
  have hrows : ∀ name, (n' name).db.taskLog.rows = (n name).db.taskLog.rows := fun name => by rw [(hsame name).1]
  constructor
  · intro g hg r hr
    rw [hrows] at hr
    exact (h.original g hg r hr).stays (LogsGrow.of_logSame hsame)
  · intro g hg k hk r hr r' hr' hid
    rw [hrows] at hr hr'
    exact h.agree g hg k hk r hr r' hr' hid

/-- One row more, which has its original and contradicts no other. -/
theorem Agreed.inserted (h : Agreed G n) {name : String} {row : LogRow} {db : Db}
    (hins : insertRow row (n name).db = some db)
    (horiginal : HasOriginal G ((Net.at_ name).set { (n name).tick with db } n) row)
    (hagree : ∀ g ∈ G, ∀ r ∈ (n g.name).db.taskLog.rows, r.id = row.id → r.wire = row.wire) :
    Agreed G ((Net.at_ name).set { (n name).tick with db } n) := by
  constructor
  · intro g hg r hr
    rcases (mem_rows_inserted hins).1 hr with hr | ⟨-, rfl⟩
    · exact (h.original g hg r hr).stays (LogsGrow.inserted hins)
    · exact horiginal
  · intro g hg k hk r hr r' hr' hid
    rcases (mem_rows_inserted hins).1 hr with hr | ⟨-, rfl⟩
    · rcases (mem_rows_inserted hins).1 hr' with hr' | ⟨-, rfl⟩
      · exact h.agree g hg k hk r hr r' hr' hid
      · exact hagree g hg r hr hid
    · rcases (mem_rows_inserted hins).1 hr' with hr' | ⟨-, rfl⟩
      · exact (hagree k hk r' hr' hid.symm).symm
      · rfl

/-- An entry that has been handed over is one that some gateway has. -/
def Held (G : List Gateway) (n : Net) (e : ProtoLogEntry) : Prop := ∃ g ∈ G, ∃ r ∈ (n g.name).db.taskLog.rows, r.wire = e

/-- **A round stores copies of what its peer has.** -/
theorem admits_agreement {b a : Gateway} {peer : PeerConfig} {remote : RemoteProject} (ha : a ∈ G) :
    Admits (agreement G) b a peer remote (Held G) fun _ => True where
  aside _ _ h hi := ⟨LogsGrow.of_logSame h, hi.of_logSame h⟩
  found _ _ _ _ := trivial
  handed n after _ _ e he := by
    obtain ⟨r, hr, rfl⟩ := List.mem_map.1 he
    exact ⟨a, ha, r, (mem_rowsSince.1 hr).1, rfl⟩
  stable n n' e hgrow h := by
    obtain ⟨g, hg, r, hr, hwire⟩ := h
    exact ⟨g, hg, r, hgrow g.name r hr, hwire⟩
  stored n p e db hi _ hheld _ hins := by
    have hgrow := LogsGrow.inserted (n := n) hins
    obtain ⟨g, hg, r, hr, rfl⟩ := hheld
    have hwire : ((reconstruct remote.projectId r.wire).toRow p.id).wire = r.wire := toProto_reconstruct _ _ _
    refine ⟨hgrow, hi.inserted hins ?_ ?_⟩
    · exact ((hi.original g hg r hr).stays hgrow).congr hwire.symm
    · intro k hk r' hr' hid
      rw [hwire]
      exact hi.agree k hk g hg r' hr' r hr hid

end

/-! ## The federation -/

section
variable [Sha256] [HmacSha256] {G : List Gateway} {rounds : Gateway → Gateway → PeerConfig → Prop} {n₀ : Net}
  {pool : Pool Net Err}

/-- **In a federation of any shape, after any appends and rounds in any order, every entry of every log is a copy of
one that its writer has appended and signed, and no two copies of an entry differ in what goes over the wire.** -/
theorem entries_agree (hrounds : ∀ b a peer, rounds b a peer → a ∈ G)
    (hempty : ∀ g ∈ G, (n₀ g.name).db.taskLog.rows = [])
    (hpool : Pool.Reachable (· = n₀) (Starts rounds) (Outside G) pool) : Agreed G pool.state := by
  have hgood : Pool.Good (agreement G) pool := by
    refine hpool.good ?_ ?_ ?_
    · rintro n rfl
      constructor
      · intro g hg r hr
        rw [hempty g hg] at hr
        cases hr
      · intro g hg k hk r hr
        rw [hempty g hg] at hr
        cases hr
    · rintro n p hi ⟨b, a, peer, remote, hround, -, rfl⟩
      exact (admits_agreement (hrounds b a peer hround)).obeys_round n
    · intro n n' hi hout
      rcases hout.cases with hsame | ⟨g, hg, row, db, hsigned, hname, hfresh, hins, rfl⟩
      · exact ⟨LogsGrow.of_logSame hsame, Agreed.of_logSame hi hsame⟩
      · -- The new row is its own original, and no row anywhere has its id.
        have hnew : row ∈ ((Net.at_ g.name).set { (n g.name).tick with db } n g.name).db.taskLog.rows :=
          (mem_rows_inserted hins).2 (Or.inr ⟨rfl, rfl⟩)
        refine ⟨LogsGrow.inserted hins, Agreed.inserted hi hins ⟨g, hg, hname.symm, row, hnew, hsigned, rfl⟩ ?_⟩
        intro k hk r hr hid
        exact absurd hid (hfresh k hk r hr)
  exact hgood.1

/-! ## Who an entry is taken over from -/

/-- The gateway of that name has written the row itself, or has a peer that is configured under the writer's name and
takes its tokens. -/
def Acquired (rounds : Gateway → Gateway → PeerConfig → Prop) (name : String) (r : LogRow) : Prop :=
  r.gatewayName = name ∨
    ∃ b a peer, b.name = name ∧ rounds b a peer ∧ TokenAccepted b a peer ∧ r.gatewayName = peer.name

/-- All rows have been acquired. -/
def acquisition (rounds : Gateway → Gateway → PeerConfig → Prop) : Discipline Net where
  inv n := ∀ name, ∀ r ∈ (n name).db.taskLog.rows, Acquired rounds name r
  step _ _ := True
  refl _ := trivial
  trans _ _ _ _ _ := trivial

omit [Sha256] [HmacSha256] in
theorem acquired_inserted {n : Net} {name : String} {row : LogRow} {db : Db} (hi : (acquisition rounds).inv n)
    (hins : insertRow row (n name).db = some db) (hrow : Acquired rounds name row) :
    (acquisition rounds).inv ((Net.at_ name).set { (n name).tick with db } n) := by
  intro name' r hr
  rcases (mem_rows_inserted hins).1 hr with hr | ⟨rfl, rfl⟩
  · exact hi name' r hr
  · exact hrow

omit [Sha256] [HmacSha256] in
theorem acquired_of_logSame {n n' : Net} (hi : (acquisition rounds).inv n) (h : Net.Each LogSame n n') :
    (acquisition rounds).inv n' := by
  intro name r hr
  rw [(h name).1] at hr
  exact hi name r hr

omit [Sha256] in
/-- **A round stores what names its peer as the writer.** -/
theorem admits_acquisition {b a : Gateway} {peer : PeerConfig} {remote : RemoteProject} (hround : rounds b a peer) :
    Admits (acquisition rounds) b a peer remote (fun _ _ => TokenAccepted b a peer) fun _ => True where
  aside _ _ h hi := ⟨trivial, acquired_of_logSame hi h⟩
  found _ _ _ _ := trivial
  handed _ _ _ haccepted _ _ := haccepted
  stable _ _ _ _ h := h
  stored _ _ _ _ hi _ haccepted hacc hins :=
    ⟨trivial, acquired_inserted hi hins (Or.inr ⟨b, a, peer, rfl, hround, haccepted, (accepts_iff.1 hacc).1⟩)⟩

/-- **Logs are not passed on: whatever runs side by side, a gateway has an entry of another one only if a peer of its
own is configured under the writer's name and takes its tokens.** -/
theorem entries_not_relayed (hempty : ∀ name, (n₀ name).db.taskLog.rows = [])
    (hpool : Pool.Reachable (· = n₀) (Starts rounds) (Outside G) pool) (name : String) :
    ∀ r ∈ (pool.state name).db.taskLog.rows, Acquired rounds name r := by
  have hgood : Pool.Good (acquisition rounds) pool := by
    refine hpool.good ?_ ?_ ?_
    · rintro n rfl name r hr
      rw [hempty name] at hr
      cases hr
    · rintro n p hi ⟨b, a, peer, remote, hround, -, rfl⟩
      exact (admits_acquisition hround).obeys_round n
    · intro n n' hi hout
      rcases hout.cases with hsame | ⟨g, -, row, db, -, hname, -, hins, rfl⟩
      · exact ⟨trivial, acquired_of_logSame hi hsame⟩
      · exact ⟨trivial, acquired_inserted hi hins (Or.inl hname)⟩
  exact hgood.1 name

end

/-! ## An entry of `gw-a` on `gw-b` -/

/-- Before any entry, with the columns decoded. -/
theorem demo_nothing : letI := demoSha256; letI := demoLogHmac
    ∀ g ∈ [demoA, demoB], (demoNet demoSetup demoSetupB .widening g.name).db.taskLog.rows = [] := fun g hg =>
  (demo_projects.1 g hg).2.1

/-- `gw-b` has taken over an entry of `gw-a`. -/
theorem demo_delivered : letI := demoSha256; letI := demoLogHmac
    ∃ pool, Pool.Reachable (· = demoNet demoSetup demoSetupB .widening) (Starts demoRounds) (Outside [demoA, demoB]) pool ∧
      ∃ r ∈ (pool.state "gw-b").db.taskLog.rows, r.gatewayName = "gw-a" := by
  obtain ⟨hempty, -, q, hq, p, hp, hname, hids⟩ := demo_projects
  obtain ⟨pool, r, e, hpool, -, -, hr, hacc, rfl⟩ := @exists_delivered demoLogHmac demoSha256 _ [demoA, demoB] demoRounds _
    demoB demoA (.fin 1000) (.fin 1000) ⟨"gw-a", "*", 4600, 1000, "sync"⟩ p q demo_secret demo_nothing
    (fun g hg => (hempty g hg).2.2.2.1) (by simp) (by simp) ⟨Or.inl ⟨rfl, rfl⟩, rfl⟩ (by decide +kernel) hq hp hname hids
    ⟨"00000000-0000-4000-8000-0000000000aa", Uuid.hex_aa⟩ "agent" "hello"
  exact ⟨pool, hpool, _, hr, (@accepts_iff demoLogHmac _ _ _ _).1 hacc |>.1⟩

/-- The copy on `gw-b` agrees with the original on `gw-a`. -/
theorem entries_agree_demo : letI := demoSha256; letI := demoLogHmac
    ∃ pool, Pool.Reachable (· = demoNet demoSetup demoSetupB .widening) (Starts demoRounds) (Outside [demoA, demoB]) pool ∧
      (∃ r ∈ (pool.state "gw-b").db.taskLog.rows, r.gatewayName = "gw-a") ∧ Agreed [demoA, demoB] pool.state := by
  obtain ⟨pool, hpool, hcopy⟩ := demo_delivered
  exact ⟨pool, hpool, hcopy, @entries_agree demoSha256 demoLogHmac _ _ _ _ (fun b a peer h => (demoRounds_mem b a peer h).2)
    demo_nothing hpool⟩

/-- `gw-b` has it from its peer `gw-a`. -/
theorem entries_not_relayed_demo : letI := demoSha256; letI := demoLogHmac
    ∃ pool, Pool.Reachable (· = demoNet demoSetup demoSetupB .widening) (Starts demoRounds) (Outside [demoA, demoB]) pool ∧
      (∃ r ∈ (pool.state "gw-b").db.taskLog.rows, r.gatewayName = "gw-a") ∧
      ∀ r ∈ (pool.state "gw-b").db.taskLog.rows, Acquired demoRounds "gw-b" r := by
  obtain ⟨pool, hpool, hcopy⟩ := demo_delivered
  refine ⟨pool, hpool, hcopy, ?_⟩
  refine @entries_not_relayed demoSha256 demoLogHmac _ _ _ _ (fun name => ?_) hpool "gw-b"
  by_cases ha : name = "gw-a"
  · subst ha
    exact demo_nothing demoA (by simp)
  · by_cases hb : name = "gw-b"
    · subst hb
      exact demo_nothing demoB (by simp)
    · simp only [demoNet]
      rw [if_neg ha, if_neg hb]
      rfl

end A2AGateway
