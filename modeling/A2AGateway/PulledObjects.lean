import A2AGateway.Net

/-!
# What a pull leaves in the object store

As shipped a round moves no head: it ends with an error at its first statement. With the columns of a project decoded
it does: `fetch_snapshot` lists "sha256 hashes the caller needs to fetch" (`proto/peer.proto:105`), which it computes
with `ObjectStore::missing` on the peer's own store (`peer_server.rs:198`): what the *peer* has not recorded. The
caller fetches these, and nothing else, and advances its head.
-/

namespace A2AGateway

open FileSync PeerSync ObjectStore
open Sha256 (sha256Hex)

/-- Nothing but the task log and the peer cursors differs. -/
def BesideLog (w w' : World) : Prop :=
  w'.db = { w.db with taskLog := w'.db.taskLog, peerCursorState := w'.db.peerCursorState } ∧ w'.disk = w.disk

theorem BesideLog.refl (w : World) : BesideLog w w := ⟨rfl, rfl⟩

theorem BesideLog.trans {a b c : World} (h : BesideLog a b) (h' : BesideLog b c) : BesideLog a c := by
  refine ⟨?_, h'.2.trans h.2⟩
  rw [h'.1, h.1]

theorem BesideLog.of_same {w w' : World} (h : SameStored w w') : BesideLog w w' := by
  have hdb : w'.db = w.db := congrArg Prod.fst h
  have hdisk : w'.disk = w.disk := congrArg Prod.snd h
  refine ⟨?_, hdisk⟩
  rw [hdb]

theorem BesideLog.of_logOnly {w w' : World} (h : LogOnly w w') : BesideLog w w' := ⟨h.1, h.2.1⟩

section
variable [Sha256] {b a : Gateway} {peer : PeerConfig} {remote : RemoteProject}

theorem holds_congr {w w' : World} (h : w'.disk = w.disk) (x : String) : holds w' x ↔ holds w x := by
  simp only [holds, h]

/-! ## The objects of a round -/

/-- **A round adds to the store the objects that were listed, as far as they were not recorded
there.** -/
theorem exec_fetchObjects_serving (hne : a.name ≠ b.name) :
    ∀ {hashes : List String} {i : Nat} {n n' : Net}, (∀ h ∈ hashes, holds (n a.name) h) →
      (fetchObjects (Net.at_ b.name) (b.client a peer) i hashes).exec n = (.ok (), n') →
        ∀ x, holds (n' b.name) x ↔ holds (n b.name) x ∨ x ∈ hashes ∧ recorded (n b.name).db x = false
  | [], _, n, n', _, h, x => by
    cases h
    simp
  | hash :: rest, i, n, n', hheld, h, x => by
    simp only [fetchObjects, Prog.bind_eq] at h
    obtain ⟨data, n₁, e₁, h₁⟩ := Prog.exec_bind_ok.1 h
    obtain ⟨stored, n₂, e₂, h₂⟩ := Prog.exec_bind_ok.1 h₁
    -- The peer hands over its file, which has the content the hash names.
    obtain ⟨hdata, hsame⟩ := exec_fetchObject_serving e₁
    obtain ⟨bytes, hbytes, hhash⟩ := hheld hash List.mem_cons_self
    have hd : bytes = data := Option.some.inj (hbytes.symm.trans hdata)
    subst hd
    obtain ⟨hput, hothers⟩ := Net.exec_at e₂
    have hstored : stored = hash := (exec_put_ok hput).1.trans hhash
    subst hstored
    have hheld' : ∀ h ∈ rest, holds (n₂ a.name) h := by
      intro h hh
      rw [hothers a.name hne, holds_congr (congrArg Prod.snd (hsame a.name))]
      exact hheld h (List.mem_cons_of_mem _ hh)
    have hdb : (n₁ b.name).db = (n b.name).db := congrArg Prod.fst (hsame b.name)
    have hdisk : (n₁ b.name).disk = (n b.name).disk := congrArg Prod.snd (hsame b.name)
    rw [exec_fetchObjects_serving hne hheld' h₂ x, holds_put hput x, recorded_put hput x, holds_congr hdisk, hdb]
    by_cases hx : x = stored
    · subst hx
      simp
    · simp [hx]

/-! ## The pull -/

/-- A pull that moves the head has fetched what the peer had not recorded of its snapshot. -/
theorem exec_pullSnapshot_serving (hne : a.name ≠ b.name) {p : Project} {s : Snapshot} {n n' : Net}
    (hserved : ∀ t ∈ (n a.name).db.snapshots.rows, ∀ e ∈ parseTranscript t.transcript, holds (n a.name) e.sha256)
    (h : (pullSnapshot (Net.at_ b.name) (b.client a peer) peer remote (some p)).exec n = (.ok (), n'))
    (hs : headOf (n' b.name).db p.id = some s) (hnew : headOf (n b.name).db p.id ≠ some s) :
    ∃ t, snapshotRow (n a.name).db remote.snapshotId = some t ∧ s.transcript = t.transcript ∧
      ∀ x ∈ (parseTranscript t.transcript).map (·.sha256), holds (n' b.name) x ↔
        holds (n b.name) x ∨ recorded (n a.name).db x = false ∧ recorded (n b.name).db x = false := by
  simp only [pullSnapshot, Prog.bind_eq] at h
  obtain ⟨current, n₁, e₁, h₁⟩ := Prog.exec_bind_ok.1 h
  -- Looking up the local head changes nothing.
  have hcur : (currentHead (Net.at_ b.name) (some p)).Moves (Net.Each SameStored) :=
    moves_currentHead (Net.each_of_at SameStored.refl) SameStored.tick (some p)
  have hsame₁ := each_of_exec SameStored.refl (fun _ _ _ => SameStored.trans) hcur e₁
  split at h₁
  · cases h₁
    have hdb : (n' b.name).db = (n b.name).db := congrArg Prod.fst (hsame₁ b.name)
    rw [hdb] at hs
    exact absurd hs hnew
  · obtain ⟨resp, n₂, e₂, h₂⟩ := Prog.exec_bind_ok.1 h₁
    split at h₂
    · cases h₂
    · rename_i herror
      obtain ⟨⟨t, ht, rfl⟩, hsame₂⟩ := exec_fetchSnapshot_serving e₂ (not_not.1 herror)
      obtain ⟨_, n₃, e₃, h₃⟩ := Prog.exec_bind_ok.1 h₂
      obtain ⟨snap, n₄, e₄, h₄⟩ := Prog.exec_bind_ok.1 h₃
      cases h₄
      have hsame : Net.Each SameStored n n₂ := fun g => (hsame₁ g).trans (hsame₂ g)
      have hdb : ∀ g, (n₂ g).db = (n g).db := fun g => congrArg Prod.fst (hsame g)
      have hdisk : ∀ g, (n₂ g).disk = (n g).disk := fun g => congrArg Prod.snd (hsame g)
      have hdb₁ : (n₁ a.name).db = (n a.name).db := congrArg Prod.fst (hsame₁ a.name)
      rw [hdb₁] at ht
      have hmem : t ∈ (n a.name).db.snapshots.rows := (snapshotRow_eq_some.1 ht).1
      have hheld : ∀ h ∈ (PeerHandler.snapshotAnswer (n₁ a.name).db t).missingObjects, holds (n₂ a.name) h := by
        intro h hh
        obtain ⟨e, he, rfl⟩ := List.mem_map.1 (List.mem_filter.1 hh).1
        rw [holds_congr (hdisk a.name)]
        exact hserved t hmem e he
      have hobjects := exec_fetchObjects_serving hne hheld e₃
      obtain ⟨happ, -⟩ := Net.exec_at e₄
      obtain ⟨rfl, -, hhead, hdisk₄⟩ := exec_applyPeerSnapshot_ok happ
      rw [hhead] at hs
      cases hs
      refine ⟨t, ht, rfl, fun x hx => ?_⟩
      rw [holds_congr hdisk₄, hobjects x, holds_congr (hdisk b.name), hdb b.name]
      simp only [PeerHandler.snapshotAnswer, hdb₁, List.mem_filter, Bool.not_eq_true', hx, true_and]

/-- The object store of the gateway gives out the object, and it is what its hash says. -/
def Present (w : World) (hash : String) : Prop :=
  ∃ bytes, ((get hash).exec w.calm).1 = .ok (some bytes) ∧ sha256Hex bytes = hash

theorem present_iff {w : World} {hash : String} : Present w hash ↔ holds w hash := by
  simp only [Present, holds, get_serves_iff]

/-- A round that goes well comes to its pull. The log half has left snapshots, heads and objects alone, here and at
the peer. -/
theorem exec_round_pull [HmacSha256] {b a : Gateway} {peer : PeerConfig} {remote : RemoteProject} {n n' : Net} {p : Project}
    (hrun : (b.round a peer remote).exec n = (.ok (), n')) (hp : Projects.byName (n b.name).db remote.projectName = some p) :
    ∃ n₂, Net.Each BesideLog n n₂ ∧
      (pullSnapshot (Net.at_ b.name) (b.client a peer) peer remote (some p)).exec n₂ = (.ok (), n') := by
  simp only [Gateway.round, syncProject, Prog.bind_eq] at hrun
  obtain ⟨localCopy, n₁, e₁, hrun⟩ := Prog.exec_bind_ok.1 hrun
  obtain ⟨hquery, hothers⟩ := Net.exec_at e₁
  obtain ⟨hdecoded, hw₁⟩ := Gw.exec_fetch_ok hquery
  obtain ⟨hcopy, -⟩ := Engine.decodeRow_eq_some.1 hdecoded
  rw [hp] at hcopy
  subst hcopy
  have hbeside₁ : Net.Each BesideLog n n₁ := by
    intro g
    by_cases hg : g = b.name
    · subst hg
      rw [hw₁]
      exact ⟨rfl, rfl⟩
    · rw [hothers g hg]
      exact .refl _
  obtain ⟨_, n₂, e₂, hrun⟩ := Prog.exec_bind_ok.1 hrun
  have hlog : (syncLog (Net.at_ b.name) (b.client a peer) peer remote b.secret (some p)).Moves
      (Net.Each BesideLog) :=
    moves_syncLog (Net.Each.refl .refl) (moves_client_serving b a peer .refl fun _ _ => .of_same)
      (Net.each_of_at .refl) (fun _ => ⟨rfl, rfl⟩)
      (fun _ _ => (moves_insertPeerEntry peer p.id _).mono fun _ _ => .of_logOnly)
      fun c => (moves_updatePeerCursor peer p.id c).mono fun _ _ => .of_logOnly
  exact ⟨n₂, fun g => (hbeside₁ g).trans (each_of_exec .refl (fun _ _ _ => .trans) hlog e₂ g), hrun⟩

/-- After a pull every entry of the new head is present exactly if each was held here before, or is recorded neither
here nor at the peer. -/
theorem present_after_pull_iff [HmacSha256] {b a : Gateway} {peer : PeerConfig} {remote : RemoteProject}
    (hne : a.name ≠ b.name) {n n' : Net} {p : Project} {s : Snapshot}
    (hserved : ∀ t ∈ (n a.name).db.snapshots.rows, ∀ e ∈ parseTranscript t.transcript, Present (n a.name) e.sha256)
    (hp : Projects.byName (n b.name).db remote.projectName = some p)
    (hrun : (b.round a peer remote).exec n = (.ok (), n'))
    (hs : headOf (n' b.name).db p.id = some s) (hnew : headOf (n b.name).db p.id ≠ some s) :
    (∀ e ∈ parseTranscript s.transcript, Present (n' b.name) e.sha256) ↔
      ∀ t, snapshotRow (n a.name).db remote.snapshotId = some t → ∀ e ∈ parseTranscript t.transcript,
        Present (n b.name) e.sha256 ∨
          recorded (n a.name).db e.sha256 = false ∧ recorded (n b.name).db e.sha256 = false := by
  simp only [present_iff] at hserved ⊢
  obtain ⟨n₂, hbeside, hpull⟩ := exec_round_pull hrun hp
  have hdisk : ∀ g, (n₂ g).disk = (n g).disk := fun g => (hbeside g).2
  have hrow : ∀ g id, snapshotRow (n₂ g).db id = snapshotRow (n g).db id := by
    intro g id
    rw [(hbeside g).1]
    rfl
  have hhead : headOf (n₂ b.name).db p.id = headOf (n b.name).db p.id := by
    rw [(hbeside b.name).1]
    rfl
  have hrec : ∀ g x, recorded (n₂ g).db x = recorded (n g).db x := by
    intro g x
    rw [(hbeside g).1]
    rfl
  have hserved₂ : ∀ t ∈ (n₂ a.name).db.snapshots.rows, ∀ e ∈ parseTranscript t.transcript,
      holds (n₂ a.name) e.sha256 := by
    intro t ht e he
    rw [(hbeside a.name).1] at ht
    rw [holds_congr (hdisk a.name)]
    exact hserved t ht e he
  obtain ⟨t, ht, htranscript, hobjects⟩ := exec_pullSnapshot_serving hne hserved₂ hpull hs (hhead ▸ hnew)
  rw [hrow] at ht
  have hentry : ∀ e ∈ parseTranscript t.transcript, holds (n' b.name) e.sha256 ↔
      holds (n b.name) e.sha256 ∨ recorded (n a.name).db e.sha256 = false ∧ recorded (n b.name).db e.sha256 = false := by
    intro e he
    rw [hobjects e.sha256 (List.mem_map_of_mem he), holds_congr (hdisk b.name), hrec, hrec]
  rw [htranscript, ht]
  constructor
  · rintro hall t' ht' e he
    cases ht'
    exact (hentry e he).1 (hall e he)
  · intro hall e he
    exact (hentry e he).2 (hall t rfl e he)

/-- **As shipped the round of a project that has a local copy ends at its first statement and moves nothing. With any
decoding, after a round that ends well every entry of the new head is present exactly if each was held here before, or
is recorded neither here nor at the peer.** -/
theorem pulled_head_present [HmacSha256] (b a : Gateway) (peer : PeerConfig) (remote : RemoteProject)
    (hne : a.name ≠ b.name) {n : Net} {p : Project}
    (hserved : ∀ t ∈ (n a.name).db.snapshots.rows, ∀ e ∈ parseTranscript t.transcript, Present (n a.name) e.sha256)
    (hp : Projects.byName (n b.name).db remote.projectName = some p) :
    ((n b.name).AsShipped →
      ∃ n', (b.round a peer remote).exec n = (.error (.msg "get project by name"), n') ∧ Net.Each SameStored n n') ∧
    ∀ n' s, (b.round a peer remote).exec n = (.ok (), n') → headOf (n' b.name).db p.id = some s →
      headOf (n b.name).db p.id ≠ some s →
        ((∀ e ∈ parseTranscript s.transcript, Present (n' b.name) e.sha256) ↔
          ∀ t, snapshotRow (n a.name).db remote.snapshotId = some t → ∀ e ∈ parseTranscript t.transcript,
            Present (n b.name) e.sha256 ∨
              recorded (n a.name).db e.sha256 = false ∧ recorded (n b.name).db e.sha256 = false) := by
  exact ⟨fun hship => Gateway.exec_round_shipped hship hp, fun n' s => present_after_pull_iff hne hserved hp⟩

end

/-! ## A peer that has recorded what it serves -/

section demo

instance [Sha256] (w : World) (hash : String) : Decidable (holds w hash) :=
  decidable_of_iff ((objectBytes w.disk hash).any (sha256Hex · == hash) = true) (by
    simp [holds, Option.any_eq_true])

/-- `gw-a` has scanned its folder. -/
def demoScanned : List Event := demoSetup ++ [.call (.scan demoId.text)]

/-- `gw-b` has scanned its own folder, in which the file is the same but for its time. -/
def demoScannedB : List Event := demoSetupB ++ [.call (.scan demoIdB.text)]

section
variable [Sha256] [HmacSha256] (eventsB : List Event)

/-- `gw-b`, after the given events, pulls what `gw-a` has scanned. -/
def demoRound : Except Err Unit × Net :=
  (demoB.round demoA ⟨"gw-a"⟩ (demoListed demoSnapshot₁)).exec (demoNet demoScanned eventsB .widening)

/-- `gw-a` holds what it serves, and the pull moves the head of `gw-b`. -/
def DemoPulls : Prop :=
  (∀ t ∈ (demoNet demoScanned eventsB .widening "gw-a").db.snapshots.rows, ∀ e ∈ parseTranscript t.transcript,
      holds (demoNet demoScanned eventsB .widening "gw-a") e.sha256) ∧
    (demoRound eventsB).1 = .ok () ∧
    (Projects.byName (demoNet demoScanned eventsB .widening "gw-b").db "demo").map (·.id) = some demoIdB.text ∧
    (headOf ((demoRound eventsB).2 "gw-b").db demoIdB.text).map (·.id) = some demoSnapshot₁ ∧
    (headOf (demoNet demoScanned eventsB .widening "gw-b").db demoIdB.text).map (·.id) ≠ some demoSnapshot₁

instance : Decidable (DemoPulls eventsB) := inferInstanceAs (Decidable (_ ∧ _ ∧ _ ∧ _ ∧ _))

variable {eventsB}

theorem DemoPulls.served (h : DemoPulls eventsB) : ∀ t ∈ (demoNet demoScanned eventsB .widening "gw-a").db.snapshots.rows,
    ∀ e ∈ parseTranscript t.transcript, Present (demoNet demoScanned eventsB .widening "gw-a") e.sha256 :=
  fun t ht e he => present_iff.2 (h.1 t ht e he)

theorem DemoPulls.run (h : DemoPulls eventsB) :
    (demoB.round demoA ⟨"gw-a"⟩ (demoListed demoSnapshot₁)).exec (demoNet demoScanned eventsB .widening) =
      (.ok (), (demoRound eventsB).2) :=
  Prog.exec_eq_of_fst h.2.1

theorem DemoPulls.moved (h : DemoPulls eventsB) : ∃ p s,
    Projects.byName (demoNet demoScanned eventsB .widening "gw-b").db "demo" = some p ∧ p.id = demoIdB.text ∧
      headOf ((demoRound eventsB).2 "gw-b").db p.id = some s ∧
      headOf (demoNet demoScanned eventsB .widening "gw-b").db p.id ≠ some s := by
  obtain ⟨-, -, hcopy, hhead, hnew⟩ := h
  obtain ⟨p, hp, hid⟩ := Option.map_eq_some_iff.1 hcopy
  obtain ⟨s, hs, hsid⟩ := Option.map_eq_some_iff.1 hhead
  rw [← hid] at hs hnew
  refine ⟨p, s, hp, hid, hs, fun h => ?_⟩
  rw [h, Option.map_some, hsid] at hnew
  exact hnew rfl

end

theorem demoPulls_scanned : letI := demoSha256; letI := HmacSha256.recorded []
    DemoPulls demoScannedB ∧ ∀ t ∈ snapshotRow (demoNet demoScanned demoScannedB .widening "gw-a").db demoSnapshot₁,
      ∀ e ∈ parseTranscript t.transcript, holds (demoNet demoScanned demoScannedB .widening "gw-b") e.sha256 := by
  decide +kernel

/-- As shipped the scans have failed, too. -/
theorem demoShipped : letI := demoSha256; letI := HmacSha256.recorded []
    (demoNet demoScanned demoScannedB .shipped "gw-b").AsShipped ∧
      (demoNet demoScanned demoScannedB .shipped "gw-a").db.snapshots.rows.length = 0 ∧
      (Projects.byName (demoNet demoScanned demoScannedB .shipped "gw-b").db "demo").isSome := by
  decide +kernel

/-- As shipped the round fails. With the columns decoded a gateway that has the file itself has it after the pull. -/
theorem pulled_head_present_demo :
    letI := demoSha256
    letI := HmacSha256.recorded []
    (∃ n', (demoB.round demoA ⟨"gw-a"⟩ (demoListed demoSnapshot₁)).exec (demoNet demoScanned demoScannedB .shipped) =
        (.error (.msg "get project by name"), n')) ∧
    ∃ s, headOf ((demoRound demoScannedB).2 "gw-b").db demoIdB.text = some s ∧
      ∀ e ∈ parseTranscript s.transcript, Present ((demoRound demoScannedB).2 "gw-b") e.sha256 := by
  constructor
  · obtain ⟨hship, hnone, hcopy⟩ := demoShipped
    obtain ⟨p, hp⟩ := Option.isSome_iff_exists.1 hcopy
    obtain ⟨n', hrun, -⟩ := (@pulled_head_present demoSha256 (.recorded []) demoB demoA ⟨"gw-a"⟩ (demoListed demoSnapshot₁)
      (by decide) _ p (fun t ht => absurd ht (List.length_eq_zero_iff.1 hnone ▸ List.not_mem_nil)) hp).1 hship
    exact ⟨n', hrun⟩
  · obtain ⟨hpulls, hheld⟩ := demoPulls_scanned
    obtain ⟨p, s, hp, hid, hs, hnew⟩ := @DemoPulls.moved demoSha256 (.recorded []) _ hpulls
    refine ⟨s, hid ▸ hs, ?_⟩
    refine ((@pulled_head_present demoSha256 (.recorded []) demoB demoA ⟨"gw-a"⟩ (demoListed demoSnapshot₁) (by decide)
      _ _ (@DemoPulls.served demoSha256 (.recorded []) _ hpulls) hp).2 _ _
      (@DemoPulls.run demoSha256 (.recorded []) _ hpulls) hs hnew).2 ?_
    intro t ht e he
    exact Or.inl ((@present_iff demoSha256 _ _).2 (hheld t ht e he))

-- With the columns decoded a gateway without the file pulls the head and not the file.
example : letI := demoSha256; letI := HmacSha256.recorded []
    DemoPulls demoSetupB ∧ ∀ s ∈ headOf ((demoRound demoSetupB).2 "gw-b").db demoIdB.text,
      ¬ ∀ e ∈ parseTranscript s.transcript, holds ((demoRound demoSetupB).2 "gw-b") e.sha256 := by
  decide +kernel

end demo

end A2AGateway
