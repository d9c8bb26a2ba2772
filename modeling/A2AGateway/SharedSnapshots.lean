import A2AGateway.ContentAddressed
import A2AGateway.Federation
import A2AGateway.StoredRows

/-!
# One snapshot on several gateways

`sync_project` stores a peer's transcript under the id that the peer has listed, and never hashes it. But a peer that
runs this code takes both from one row of its own. So in a federation of any shape, whatever has been listed, however
stale it is and whatever comes in between, every snapshot is addressed by its content and is one that a gateway has in
its own name (`snapshots_traced`). A row names the peer that has handed it over, not the gateway that has scanned it:
unlike log entries, snapshots are passed on (`passed_on`).
-/

namespace A2AGateway

open PeerSync FileSync Gw

/-! ## More snapshots -/

theorem SameSnapshots.refl (w : World) : SameSnapshots w w := rfl

theorem SameSnapshots.tick (w : World) : SameSnapshots w w.tick := rfl

/-- The snapshots are kept, and each new one is as said. -/
structure SnapshotsGrow (New : Snapshot → Prop) (w w' : World) : Prop where
  kept : ∀ s ∈ w.db.snapshots.rows, s ∈ w'.db.snapshots.rows
  added : ∀ s ∈ w'.db.snapshots.rows, s ∈ w.db.snapshots.rows ∨ New s

namespace SnapshotsGrow

variable {New New' : Snapshot → Prop} {w w' : World}

theorem of_same (h : SameSnapshots w w') : SnapshotsGrow New w w' := by
  constructor
  · intro s hs
    rw [h]
    exact hs
  · intro s hs
    rw [h] at hs
    exact Or.inl hs

theorem refl (w : World) : SnapshotsGrow New w w := of_same rfl

theorem tick (w : World) : SnapshotsGrow New w w.tick := of_same rfl

/-- What a program may bring in, as far as snapshots go. -/
def Fresh (New : Snapshot → Prop) (r : Row) : Prop := ∀ s, r = .snapshot s → New s

theorem of_frame {may : TableName → Prop} (h : Frame may (Fresh New) w w') : SnapshotsGrow New w w' := by
  have hrows := h.rows .snapshots
  constructor
  · intro s hs
    obtain ⟨s', hs', hsame⟩ := List.mem_map.1 (hrows.subset _ (List.mem_map_of_mem hs))
    cases hsame
    exact hs'
  · intro s hs
    rcases hrows.mem (List.mem_map_of_mem hs) with hold | ⟨hnew, -⟩
    · obtain ⟨s', hs', hsame⟩ := List.mem_map.1 hold
      cases hsame
      exact Or.inl hs'
    · exact Or.inr (hnew s rfl)

end SnapshotsGrow

/-! ## Where a snapshot comes from -/

/-- The one row says of the content what the other says. -/
def Snapshot.SameContent (s s' : Snapshot) : Prop := s'.id = s.id ∧ s'.transcript = s.transcript

/-- The gateway has a snapshot of that content. -/
def HasContent (w : World) (s : Snapshot) : Prop := ∃ s' ∈ w.db.snapshots.rows, s.SameContent s'

/-- Some gateway has it in its own name. -/
def Scanned (G : List Gateway) (n : Net) (s : Snapshot) : Prop :=
  ∃ g ∈ G, ∃ s' ∈ (n g.name).db.snapshots.rows, s'.gateway = g.name ∧ s.SameContent s'

/-- The row names this gateway, or a peer that has the content. -/
def HandedOver (rounds : Gateway → Gateway → PeerConfig → Prop) (n : Net) (name : String) (s : Snapshot) : Prop :=
  s.gateway = name ∨
    ∃ b a peer, b.name = name ∧ rounds b a peer ∧ s.gateway = peer.name ∧ HasContent (n a.name) s

section
variable [Sha256] {G : List Gateway} {rounds : Gateway → Gateway → PeerConfig → Prop} {n n' : Net}

/-- A snapshot as it should be. -/
structure SnapshotTraced (G : List Gateway) (rounds : Gateway → Gateway → PeerConfig → Prop) (n : Net) (name : String)
    (s : Snapshot) : Prop where
  addressed : s.id = transcriptId s.transcript
  scanned : Scanned G n s
  handedOver : HandedOver rounds n name s

/-- All are. -/
def AllTraced (G : List Gateway) (rounds : Gateway → Gateway → PeerConfig → Prop) (n : Net) : Prop :=
  ∀ g ∈ G, ∀ s ∈ (n g.name).db.snapshots.rows, SnapshotTraced G rounds n g.name s

/-- Every snapshot of every gateway is still there. -/
def SnapshotsKept (n n' : Net) : Prop := ∀ name, ∀ s ∈ (n name).db.snapshots.rows, s ∈ (n' name).db.snapshots.rows

/-- What scans and rounds keep. -/
def tracing (G : List Gateway) (rounds : Gateway → Gateway → PeerConfig → Prop) : Discipline Net where
  inv := AllTraced G rounds
  step := SnapshotsKept
  refl _ _ _ hs := hs
  trans _ _ _ h h' name s hs := h' name s (h name s hs)

omit [Sha256] in
theorem HasContent.kept {name : String} {s : Snapshot} (h : HasContent (n name) s) (hk : SnapshotsKept n n') :
    HasContent (n' name) s := by
  obtain ⟨s', hs', hsame⟩ := h
  exact ⟨s', hk name s' hs', hsame⟩

omit [Sha256] in
theorem Scanned.kept {s : Snapshot} (h : Scanned G n s) (hk : SnapshotsKept n n') : Scanned G n' s := by
  obtain ⟨g, hg, s', hs', hown⟩ := h
  exact ⟨g, hg, s', hk g.name s' hs', hown⟩

omit [Sha256] in
theorem HandedOver.kept {name : String} {s : Snapshot} (h : HandedOver rounds n name s) (hk : SnapshotsKept n n') :
    HandedOver rounds n' name s := by
  refine h.imp_right ?_
  rintro ⟨b, a, peer, hb, hround, hname, hhas⟩
  exact ⟨b, a, peer, hb, hround, hname, hhas.kept hk⟩

theorem SnapshotTraced.kept {name : String} {s : Snapshot} (h : SnapshotTraced G rounds n name s) (hk : SnapshotsKept n n') :
    SnapshotTraced G rounds n' name s :=
  ⟨h.addressed, h.scanned.kept hk, h.handedOver.kept hk⟩

omit [Sha256] in
theorem kept_of_each {New : Snapshot → Prop} (h : Net.Each (SnapshotsGrow New) n n') : SnapshotsKept n n' :=
  fun name => (h name).kept

/-- Where only this gateway gets more snapshots, and those are as they should be. -/
theorem traced_at {New : Snapshot → Prop} {name : String} {w : World} (hi : AllTraced G rounds n)
    (hgrow : SnapshotsGrow New (n name) w)
    (hnew : ∀ s, New s → SnapshotsKept n ((Net.at_ name).set w n) → s ∈ w.db.snapshots.rows →
      SnapshotTraced G rounds ((Net.at_ name).set w n) name s) :
    SnapshotsKept n ((Net.at_ name).set w n) ∧ AllTraced G rounds ((Net.at_ name).set w n) := by
  have hkept : SnapshotsKept n ((Net.at_ name).set w n) :=
    kept_of_each (Net.each_of_at .refl n w hgrow)
  refine ⟨hkept, fun g hg s hs => ?_⟩
  by_cases hname : g.name = name
  · subst hname
    rw [Net.at_set_self] at hs
    rcases hgrow.added s hs with hold | hs'
    · exact (hi g hg s hold).kept hkept
    · exact hnew s hs' hkept hs
  · rw [Net.at_set_of_ne hname] at hs
    exact (hi g hg s hs).kept hkept

/-- What no gateway takes for a snapshot. -/
theorem traced_aside (h : Net.Each SameSnapshots n n') (hi : AllTraced G rounds n) :
    SnapshotsKept n n' ∧ AllTraced G rounds n' := by
  have hgrow : Net.Each (SnapshotsGrow fun _ => False) n n' := fun g => .of_same (h g)
  have hkept := kept_of_each hgrow
  refine ⟨hkept, fun g hg s hs => ?_⟩
  rw [h g.name] at hs
  exact (hi g hg s hs).kept hkept

end

/-! ## Scans and rounds -/

section
variable [Sha256] {G : List Gateway} {rounds : Gateway → Gateway → PeerConfig → Prop} {n : Net}

/-- A scan brings in a snapshot in the gateway's own name, addressed by its content. -/
theorem obeys_scan {g : Gateway} (hg : g ∈ G) (projectId : String) (n : Net) :
    (((scanAndSnapshot g.name projectId).bind fun _ => Prog.ret ()).within (Net.at_ g.name)).Obeys (tracing G rounds)
      (fun _ _ => True) n := by
  have hframe : (scanAndSnapshot g.name projectId).Moves (Frame (fun _ => True) (SnapshotsGrow.Fresh fun s =>
      s.gateway = g.name ∧ s.id = transcriptId s.transcript)) := by
    refine frames_scanAndSnapshot trivial trivial ?_ trivial ?_ ?_
    · intro s hs
      cases hs
    · intro content s hs
      cases hs
    · intro transcript now s hs
      cases hs
      exact ⟨rfl, rfl⟩
  have hscan : ((scanAndSnapshot g.name projectId).bind fun _ => Prog.ret ()).Moves
      (SnapshotsGrow fun s => s.gateway = g.name ∧ s.id = transcriptId s.transcript) :=
    (hframe.mono fun _ _ => SnapshotsGrow.of_frame).bind fun _ => trivial
  have hmoves : (((scanAndSnapshot g.name projectId).bind fun _ => Prog.ret ()).within (Net.at_ g.name)).Moves
      fun n n' => AllTraced G rounds n → SnapshotsKept n n' ∧ AllTraced G rounds n' := by
    refine hscan.within_of fun n w hgrow hi => ?_
    refine traced_at hi hgrow fun s hnew hkept hs => ?_
    obtain ⟨hname, haddressed⟩ := hnew
    refine ⟨haddressed, ⟨g, hg, s, ?_, hname, rfl, rfl⟩, Or.inl hname⟩
    rw [Net.at_set_self]
    exact hs
  exact (hmoves.obeys ((tracing G rounds).refl n)).post fun _ _ _ => trivial

theorem yields_aside {ε α : Type} {p : Prog Net ε α} (hp : p.Moves (Net.Each SameSnapshots)) (n : Net) :
    p.Yields (tracing G rounds) (fun _ _ => True) n :=
  ((hp.mono fun _ _ hsame hi => traced_aside hsame hi).obeys ((tracing G rounds).refl n)).post fun _ _ _ _ _ => trivial

section
variable {b a : Gateway} {peer : PeerConfig} {remote : RemoteProject} {snapId transcript : String}

/-- The gateway has that transcript under that id. -/
def Offers (a : Gateway) (snapId transcript : String) (n : Net) : Prop :=
  ∃ s ∈ (n a.name).db.snapshots.rows, s.id = snapId ∧ s.transcript = transcript

omit [Sha256] in
theorem Offers.kept {n n' : Net} (hk : SnapshotsKept n n') (h : Offers a snapId transcript n) : Offers a snapId transcript n' := by
  obtain ⟨s, hs, hsame⟩ := h
  exact ⟨s, hk a.name s hs, hsame⟩

/-- What is offered stays so while something else goes on. -/
theorem yields_knowing {ε α : Type} {p : Prog Net ε α} (hp : p.Moves (Net.Each SameSnapshots))
    (hoffers : Offers a snapId transcript n) :
    p.Yields (tracing G rounds) (fun _ n' => Offers a snapId transcript n') n := by
  have hmoves : p.Moves fun n n' => AllTraced G rounds n → Offers a snapId transcript n →
      SnapshotsKept n n' ∧ AllTraced G rounds n' := hp.mono fun _ _ hsame hi _ => traced_aside hsame hi
  exact (hmoves.obeys_knowing (fun _ _ hk h => h.kept hk) hoffers).yields

theorem yields_getSnapshot (n : Net) :
    (((getSnapshot snapId).mapErr PeerHandler.internal).within (Net.at_ a.name)).Yields (tracing G rounds)
      (fun row n' => ∀ s ∈ row, s.id = snapId ∧ Offers a snapId s.transcript n') n := by
  rw [Prog.within_mapErr]
  refine Prog.Yields.mapErr ?_
  obtain ⟨F, hp, hF⟩ := query_prim .sqlx fun db => snapshotRow db snapId
  rw [getSnapshot, hp, Prog.within_prim]
  refine Prog.Obeys.prim fun n' _ hi => ?_
  have hsame : Net.Each SameSnapshots n' ((Net.at_ a.name).set (n' a.name).tick n') :=
    Net.each_of_at .refl n' _ (.tick _)
  have htick := traced_aside hsame hi
  rcases hF (n' a.name) with hfail | hok
  · simp only [Net.at_get, hfail]
    refine ⟨htick, fun row hrow => ?_⟩
    cases hrow
  · simp only [Net.at_get, hok]
    refine ⟨htick, fun row hrow s hs => ?_⟩
    cases hrow
    obtain ⟨hmem, hid⟩ := snapshotRow_eq_some.1 hs
    exact ⟨hid, s, htick.1 a.name s hmem, hid, rfl⟩

/-- **An answer that is no error has the transcript from a row of that id**, which is there to stay. -/
theorem yields_served (projectId token : String) (n : Net) :
    ((a.handler.fetchSnapshot ⟨projectId, snapId, token⟩).within (Net.at_ a.name)).Yields (tracing G rounds)
      (fun resp n' => resp.error = "" → Offers a snapId resp.transcript n') n := by
  have hauth : ((a.handler.authJwt token).within (Net.at_ a.name)).Moves (Net.Each SameSnapshots) :=
    (a.handler.moves_authJwt .refl token).within_of (Net.each_of_at .refl)
  simp only [PeerHandler.fetchSnapshot, Prog.bind_eq, Prog.within_bind]
  refine (yields_aside hauth n).bind fun _ n₁ _ => (yields_getSnapshot n₁).bind fun row n₂ hrow => ?_
  cases row with
  | none =>
    refine Prog.Yields.ret fun herror => absurd herror ?_
    simp
  | some snap =>
    have hoffers := (hrow snap rfl).2
    have hmissing : ∀ hashes, (((ObjectStore.missing hashes).mapErr PeerHandler.internal).within (Net.at_ a.name)).Moves
        (Net.Each SameSnapshots) := fun hashes => (ObjectStore.moves_missing .tick hashes).mapErr.within_of (Net.each_of_at .refl)
    simp only [Prog.within_bind]
    exact (yields_knowing (hmissing _) hoffers).bind fun missing n₃ hoffers => Prog.Yields.ret fun _ => hoffers

theorem yields_fetchSnapshot (projectId : String) (n : Net) :
    ((b.client a peer).fetchSnapshot (Net.at_ b.name) projectId snapId).Yields (tracing G rounds)
      (fun resp n' => resp.error = "" → Offers a snapId resp.transcript n') n := by
  simp only [PeerClient.fetchSnapshot, PeerClient.jwt, Prog.bind_eq, Prog.within_look]
  refine (Prog.Yields.look (P := fun _ _ => True) fun _ _ _ => trivial).bind fun token n₁ _ => ?_
  exact (yields_served projectId token n₁).mapErr

omit [Sha256] in
theorem Scanned.congr {s s' : Snapshot} (h : Scanned G n s') (hsame : s.SameContent s') : Scanned G n s := by
  obtain ⟨g, hg, s₀, hs₀, hname, hid, htranscript⟩ := h
  exact ⟨g, hg, s₀, hs₀, hname, hid.trans hsame.1, htranscript.trans hsame.2⟩

/-- What the peer has may be stored. -/
theorem obeys_apply (ha : a ∈ G) (hround : rounds b a peer) (projectId : String) (hoffers : Offers a snapId transcript n) :
    ((applyPeerSnapshot projectId snapId transcript peer.name).within (Net.at_ b.name)).Obeys (tracing G rounds)
      (fun _ => Offers a snapId transcript) n := by
  have hframe : (applyPeerSnapshot projectId snapId transcript peer.name).Moves (Frame (fun _ => True) (SnapshotsGrow.Fresh
      fun s => s.gateway = peer.name ∧ s.id = snapId ∧ s.transcript = transcript)) := by
    refine frames_applyPeerSnapshot trivial trivial ?_ ?_
    · intro s hs
      cases hs
    · intro now s hs
      cases hs
      exact ⟨rfl, rfl, rfl⟩
  have hmoves : ((applyPeerSnapshot projectId snapId transcript peer.name).within (Net.at_ b.name)).Moves
      fun n n' => AllTraced G rounds n → Offers a snapId transcript n → SnapshotsKept n n' ∧ AllTraced G rounds n' := by
    refine (hframe.mono fun _ _ => SnapshotsGrow.of_frame).within_of fun n w hgrow hi hoffers => ?_
    refine traced_at hi hgrow fun s hnew hkept _ => ?_
    obtain ⟨hname, hid, htranscript⟩ := hnew
    obtain ⟨s₀, hs₀, hid₀, htranscript₀⟩ := hoffers
    have hsame : s.SameContent s₀ := ⟨hid₀.trans hid.symm, htranscript₀.trans htranscript.symm⟩
    have htraced := hi a ha s₀ hs₀
    refine ⟨?_, (htraced.scanned.congr hsame).kept hkept, Or.inr ⟨b, a, peer, rfl, hround, hname, s₀, hkept a.name s₀ hs₀, hsame⟩⟩
    rw [← hsame.1, ← hsame.2]
    exact htraced.addressed
  exact hmoves.obeys_knowing (fun _ _ hk h => h.kept hk) hoffers

/-- The snapshot half of a round stores what one row of the peer's says, or nothing. -/
theorem yields_pullSnapshot (ha : a ∈ G) (hround : rounds b a peer) (localCopy : Option Project) (n : Net) :
    (pullSnapshot (Net.at_ b.name) (b.client a peer) peer remote localCopy).Yields (tracing G rounds) (fun _ _ => True) n := by
  have hcurrent : (currentHead (Net.at_ b.name) localCopy).Moves (Net.Each SameSnapshots) :=
    moves_currentHead (Net.each_of_at .refl) .tick localCopy
  simp only [pullSnapshot, Prog.bind_eq]
  refine (yields_aside hcurrent n).bind fun current n₁ _ => ?_
  split
  · exact Prog.Yields.ret trivial
  · refine (yields_fetchSnapshot remote.projectId n₁).bind fun resp n₂ hresp => ?_
    split
    · exact Prog.Yields.fail _
    · rename_i herror
      have hoffers := hresp (not_not.1 herror)
      have hobjects : (fetchObjects (Net.at_ b.name) (b.client a peer) 0 resp.missingObjects).Moves (Net.Each SameSnapshots) := by
        refine moves_fetchObjects (Net.Each.refl .refl) (moves_client_serving b a peer .refl fun w w' h => ?_)
          (Net.each_of_at .refl) (fun data => (ObjectStore.moves_put data).mono fun w w' h => ?_) _ 0
        · have hdb : w'.db = w.db := congrArg Prod.fst h
          rw [SameSnapshots, hdb]
        · rw [SameSnapshots, h.1]
      refine (yields_knowing hobjects hoffers).bind fun _ n₃ hoffers => ?_
      cases localCopy with
      | none => exact Prog.Yields.ret trivial
      | some p => exact (obeys_apply ha hround p.id hoffers).yields.bind fun _ _ _ => Prog.Yields.ret trivial

variable [HmacSha256]

omit [Sha256] in
/-- The log half stores no snapshot. -/
theorem moves_syncLog_aside (localCopy : Option Project) :
    (syncLog (Net.at_ b.name) (b.client a peer) peer remote b.secret localCopy).Moves (Net.Each SameSnapshots) := by
  have hlog : ∀ {w w' : World}, LogOnly w w' → SameSnapshots w w' := fun h => by rw [SameSnapshots, h.1]
  have hpeer : AnswersMove (b.client a peer).inner (Net.Each SameSnapshots) := by
    refine moves_client_serving b a peer .refl fun w w' h => ?_
    have hdb : w'.db = w.db := congrArg Prod.fst h
    rw [SameSnapshots, hdb]
  cases localCopy with
  | none => exact moves_syncLog_none (Net.Each.refl .refl) hpeer _ _ _
  | some p =>
    refine moves_syncLog (Net.Each.refl .refl) hpeer (Net.each_of_at .refl) .tick (fun e _ => ?_) fun c => ?_
    · exact (moves_insertPeerEntry peer p.id _).mono fun _ _ => hlog
    · exact (moves_updatePeerCursor peer p.id c).mono fun _ _ => hlog

theorem obeys_round (ha : a ∈ G) (hround : rounds b a peer) (n : Net) :
    (b.round a peer remote).Obeys (tracing G rounds) (fun _ _ => True) n := by
  have hfound : ((Projects.getByName remote.projectName).within (Net.at_ b.name)).Moves (Net.Each SameSnapshots) :=
    (moves_fetch .tick).within_of (Net.each_of_at .refl)
  have hpull : (b.round a peer remote).Yields (tracing G rounds) (fun _ _ => True) n := by
    simp only [Gateway.round, syncProject, Prog.bind_eq]
    refine (yields_aside hfound n).bind fun localCopy n₁ _ => ?_
    refine (yields_aside (moves_syncLog_aside localCopy) n₁).bind fun _ n₂ _ => ?_
    exact yields_pullSnapshot ha hround localCopy n₂
  exact hpull.post fun _ _ _ => trivial

end

/-! ## The federation -/

/-- Somebody scans a project, or starts a round, for whatever has been listed. -/
inductive Exchanges [HmacSha256] (G : List Gateway) (rounds : Gateway → Gateway → PeerConfig → Prop) (n : Net) :
    Prog Net Err Unit → Prop
  | scan {g : Gateway} (hg : g ∈ G) (projectId : String) :
      Exchanges G rounds n (((scanAndSnapshot g.name projectId).bind fun _ => Prog.ret ()).within (Net.at_ g.name))
  | round {b a : Gateway} {peer : PeerConfig} (h : rounds b a peer) (remote : RemoteProject) :
      Exchanges G rounds n (b.round a peer remote)

/-- **In a federation of any shape every snapshot of every gateway is addressed by its content, is one that a gateway
has in its own name, and names this gateway or a peer that has the content**, whatever else happens. -/
theorem snapshots_traced [HmacSha256] {n₀ : Net} {pool : Pool Net Err} (hrounds : ∀ b a peer, rounds b a peer → a ∈ G)
    (hempty : ∀ g ∈ G, (n₀ g.name).db.snapshots.rows = [])
    (hpool : Pool.Reachable (· = n₀) (Exchanges G rounds) (Net.Each SameSnapshots) pool) : AllTraced G rounds pool.state := by
  have hgood : Pool.Good (tracing G rounds) pool := by
    refine hpool.good ?_ ?_ fun n n' hi hsame => traced_aside hsame hi
    · rintro n rfl g hg s hs
      rw [hempty g hg] at hs
      cases hs
    · intro n p _ hp
      cases hp with
      | scan hg projectId => exact obeys_scan hg projectId n
      | round h remote => exact obeys_round (hrounds _ _ _ h) h n
  exact hgood.1

end

/-! ## A snapshot that is passed on -/

namespace DemoRelay

def demoC : Gateway := ⟨"gw-c", asBytes "secret", demoAuth "gw-c"⟩

/-- `gw-b` syncs with `gw-a`, and `gw-c` with `gw-b`. -/
def rounds (b a : Gateway) (peer : PeerConfig) : Prop :=
  b = demoB ∧ a = demoA ∧ peer = ⟨"gw-a"⟩ ∨ b = demoC ∧ a = demoB ∧ peer = ⟨"gw-b"⟩

section
variable [Sha256] [HmacSha256]

def start : Net := (Net.at_ "gw-c").set (replay demoC demoSetupB .widening) (demoNet demoSetup demoSetupB .widening)

def scan (g : Gateway) (projectId : Uuid) : Prog Net Err Unit :=
  ((scanAndSnapshot g.name projectId.text).bind fun _ => Prog.ret ()).within (Net.at_ g.name)

def roundB : Prog Net Err Unit := demoB.round demoA ⟨"gw-a"⟩ (demoListed demoSnapshot₁)

def roundC : Prog Net Err Unit := demoC.round demoB ⟨"gw-b"⟩
  { projectId := demoIdB.text, projectName := "demo", snapshotId := demoSnapshot₁, gatewayName := "gw-b" }

/-- With the columns decoded; `gw-b` has the one object from a file of its own. -/
def relayed : Net := (roundC.exec (roundB.exec ((scan demoB demoIdB).exec ((scan demoA demoId).exec start).2).2).2).2

theorem reachable_relayed : ∃ ts, Pool.Reachable (· = start) (Exchanges [demoA, demoB, demoC] rounds) (Net.Each SameSnapshots)
    ⟨relayed, ts⟩ := by
  have hA : ∀ n, Exchanges [demoA, demoB, demoC] rounds n (scan demoA demoId) := fun _ => .scan (by simp) _
  have hown : ∀ n, Exchanges [demoA, demoB, demoC] rounds n (scan demoB demoIdB) := fun _ => .scan (by simp) _
  have hB : ∀ n, Exchanges [demoA, demoB, demoC] rounds n roundB := fun _ => .round (Or.inl ⟨rfl, rfl, rfl⟩) _
  have hC : ∀ n, Exchanges [demoA, demoB, demoC] rounds n roundC := fun _ => .round (Or.inr ⟨rfl, rfl, rfl⟩) _
  exact ⟨_, start, rfl, (((Pool.start_alone (hA _) []).trans (Pool.start_alone (hown _) _)).trans
    (Pool.start_alone (hB _) _)).trans (Pool.start_alone (hC _) _)⟩

end

end DemoRelay

open DemoRelay

/-- `gw-c` has the snapshot of `gw-a` in the name of `gw-b`, which has it in the name of `gw-a`. -/
theorem passed_on : letI := demoSha256; letI := HmacSha256.recorded []
    (relayed demoC.name).db.snapshots.rows.map (fun s => (s.id, s.gateway)) = [(demoSnapshot₁, "gw-b")] ∧
      (demoSnapshot₁, "gw-a") ∈ (relayed demoB.name).db.snapshots.rows.map fun s => (s.id, s.gateway) := by
  decide +kernel

/-- With the columns decoded it is addressed by its content all the same, and `gw-a` has it in its own name. -/
theorem snapshots_traced_demo : letI := demoSha256; letI := HmacSha256.recorded []
    ∃ s ∈ (relayed demoC.name).db.snapshots.rows, s.gateway = "gw-b" ∧ SnapshotTraced [demoA, demoB, demoC] rounds relayed demoC.name s := by
  obtain ⟨ts, hpool⟩ := @reachable_relayed demoSha256 (HmacSha256.recorded [])
  have hempty : ∀ g ∈ [demoA, demoB, demoC], (@start demoSha256 (HmacSha256.recorded []) g.name).db.snapshots.rows.length = 0 := by
    decide +kernel
  have hrounds : ∀ b a peer, rounds b a peer → a ∈ [demoA, demoB, demoC] := by
    rintro b a peer (⟨-, rfl, -⟩ | ⟨-, rfl, -⟩) <;> simp
  have h := @snapshots_traced demoSha256 _ rounds (HmacSha256.recorded []) _ _ hrounds
    (fun g hg => List.eq_nil_of_length_eq_zero (hempty g hg)) hpool
  obtain ⟨hrelayed, -⟩ := passed_on
  obtain ⟨s, hs, hsame⟩ := List.mem_map.1 (hrelayed ▸ List.mem_singleton_self _)
  exact ⟨s, hs, congrArg Prod.snd hsame, h demoC (by simp) s hs⟩

end A2AGateway
