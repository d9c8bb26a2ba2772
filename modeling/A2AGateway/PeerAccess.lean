import A2AGateway.ShippedCalls

/-!
# What a peer is served

Visibility and group membership decide which projects `list_projects` shows. The data RPCs check the
token and nothing else: `auth_jwt`'s claims are dropped, and log entries, transcripts and objects are
looked up by the ids in the request (`peer_server.rs:182`, `217`, `290`), although a group's
"membership [is] verified on every sync request" (`docs/a2a-architecture.md:533`). As shipped a log that
has something to send is an error, so what can leak is what `snapshots` refers to; and the calls of a gateway
as shipped leave that table empty (`innocuous_shipped`).
-/

namespace A2AGateway

/-! ## Requests and answers -/

inductive PeerRequest
  | syncTaskLog (r : TaskLogSyncRequest)
  | fetchSnapshot (r : FetchSnapshotRequest)
  | fetchObject (r : FetchObjectRequest)

inductive PeerResponse
  | syncTaskLog (r : TaskLogSyncResponse)
  | fetchSnapshot (r : FetchSnapshotResponse)
  | fetchObject (r : FetchObjectResponse)
deriving DecidableEq

def PeerRequest.jwt : PeerRequest → String
  | .syncTaskLog r => r.jwt
  | .fetchSnapshot r => r.jwt
  | .fetchObject r => r.jwt

namespace PeerHandler

def handle (h : PeerHandler) : PeerRequest → Prog World Status PeerResponse
  | .syncTaskLog r => do return .syncTaskLog (← h.syncTaskLog r)
  | .fetchSnapshot r => do return .fetchSnapshot (← h.fetchSnapshot r)
  | .fetchObject r => do return .fetchObject (← h.fetchObject r)

/-- One request after the other, each at its time and with what fails then. -/
def serve (h : PeerHandler) : World → List (F64 × List (Option Nat) × PeerRequest) →
    List (Except Status PeerResponse)
  | _, [] => []
  | w, (now, faults, r) :: rest =>
    let run := (h.handle r).exec { w with now, faults }
    run.1 :: h.serve run.2 rest

end PeerHandler

/-! ## Entitlement -/

/-- The gateway may see the project: it is public, or group-visible and the gateway is a member of
some group that contains it. -/
def Entitled (db : Db) (g : String) (p : Project) : Prop :=
  match p.visibility with
  | .public => True
  | .group => ∃ gp ∈ db.groupProjects.rows, gp.projectId = p.id ∧
      ∃ m ∈ db.groupMembers.rows, m.groupId = gp.groupId ∧ m.gatewayName = g
  | .lanOnly => False

instance (db : Db) (g : String) (p : Project) : Decidable (Entitled db g p) := by
  unfold Entitled
  split <;> infer_instance

/-- The project with the given id is closed to the gateway. -/
def Closed (db : Db) (g projectId : String) : Prop :=
  ∃ p ∈ db.projects.rows, p.id = projectId ∧ ¬ Entitled db g p

instance (db : Db) (g projectId : String) : Decidable (Closed db g projectId) :=
  inferInstanceAs (Decidable (∃ p ∈ db.projects.rows, _))

/-- The snapshot has an entry with the given hash. -/
def References (s : Snapshot) (hash : String) : Prop := hash ∈ (parseTranscript s.transcript).map (·.sha256)

instance (s : Snapshot) (hash : String) : Decidable (References s hash) :=
  inferInstanceAs (Decidable (hash ∈ _))

/-- Some snapshot has the object, and every one that has it is of a project closed to the gateway. -/
def OnlyClosed (db : Db) (g hash : String) : Prop :=
  (∃ s ∈ db.snapshots.rows, References s hash) ∧
    ∀ s ∈ db.snapshots.rows, References s hash → Closed db g s.projectId

instance (db : Db) (g hash : String) : Decidable (OnlyClosed db g hash) :=
  inferInstanceAs (Decidable ((∃ s ∈ db.snapshots.rows, _) ∧ ∀ s ∈ db.snapshots.rows, _))

/-- The answer contains a log entry or a transcript of a closed project, or an object that only closed
projects have. Entries and snapshots are identified by their ids. -/
def Leaks (db : Db) (g : String) : PeerResponse → Prop
  | .syncTaskLog r => ∃ row ∈ db.taskLog.rows, Closed db g row.projectId ∧ row.toEntry.toProto ∈ r.entries
  | .fetchSnapshot r => r.error = "" ∧
      ∃ s ∈ db.snapshots.rows, Closed db g s.projectId ∧ s.id = r.snapshotId ∧ s.transcript = r.transcript
  | .fetchObject r => r.error = "" ∧ OnlyClosed db g r.sha256

instance (db : Db) (g : String) : DecidablePred (Leaks db g)
  | .syncTaskLog r => inferInstanceAs (Decidable (∃ row ∈ db.taskLog.rows, _ ∧ row.toEntry.toProto ∈ r.entries))
  | .fetchSnapshot r => inferInstanceAs (Decidable (r.error = "" ∧ ∃ s ∈ db.snapshots.rows, _))
  | .fetchObject r => inferInstanceAs (Decidable (r.error = "" ∧ OnlyClosed db g r.sha256))

/-- The request asks for nothing of the kind: no entry of a closed project behind the cursor where cursors can be
read, no snapshot of a closed project, no object in the store that only closed projects have. -/
def Innocuous (w : World) (g : String) : PeerRequest → Prop
  | .syncTaskLog r => w.db.engine.integers = .widened → Closed w.db g r.projectId →
      ∀ row ∈ w.db.taskLog.rows, row.projectId = r.projectId → row.cursor ≤ r.afterCursor
  | .fetchSnapshot r => ∀ s ∈ w.db.snapshots.rows, s.id = r.snapshotId → ¬ Closed w.db g s.projectId
  | .fetchObject r => (ObjectStore.objectBytes w.disk r.sha256).isSome = true → ¬ OnlyClosed w.db g r.sha256

/-! ## One request -/

section
variable {h : PeerHandler} {g : String} {w w' : World} {r : PeerRequest} {resp : PeerResponse}

theorem moves_handle (h : PeerHandler) (r : PeerRequest) : (h.handle r).Moves SameStored := by
  cases r with
  | syncTaskLog r => exact (h.moves_syncTaskLog .refl .tick r).bind fun _ => Prog.moves_ret _
  | fetchSnapshot r => exact (h.moves_fetchSnapshot .refl .tick r).bind fun _ => Prog.moves_ret _
  | fetchObject r => exact (h.moves_fetchObject .refl .tick r).bind fun _ => Prog.moves_ret _

/-- The row that a wire entry of a delta comes from. -/
theorem mem_logAnswer {db : Db} {projectId : String} {after : Int} {row : LogRow}
    (hrow : row ∈ db.taskLog.rows) (hm : row.toEntry.toProto ∈ PeerHandler.logAnswer db projectId after) :
    row.projectId = projectId ∧ after < row.cursor := by
  obtain ⟨row', hrow', he⟩ := List.mem_map.1 hm
  obtain ⟨hmem, hp, hc⟩ := TaskLog.mem_rowsSince.1 hrow'
  have hid : row'.id = row.id := congrArg ProtoLogEntry.id he
  have : row' = row := db.taskLog.eq_of_clash hmem hrow (by simp [Constraints.clash, hid])
  subst this
  exact ⟨hp, hc⟩

/-- An answer to an innocuous request leaks nothing. -/
theorem not_leaks_of_innocuous (hr : Innocuous w g r) (he : (h.handle r).exec w = (.ok resp, w')) :
    ¬ Leaks w.db g resp := by
  cases r with
  | syncTaskLog r =>
    obtain ⟨a, w₁, e₁, he⟩ := Prog.exec_bind_ok.1 he
    have hentries := PeerHandler.exec_syncTaskLog_ok e₁
    cases he
    rintro ⟨row, hrow, hclosed, hm⟩
    cases hread : w.db.engine.integers with
    | refused =>
      rw [PeerHandler.exec_syncTaskLog_shipped hread e₁] at hm
      cases hm
    | widened =>
      rw [hentries] at hm
      obtain ⟨hpid, hc⟩ := mem_logAnswer hrow hm
      have := hr hread (hpid ▸ hclosed) row hrow hpid
      omega
  | fetchSnapshot r =>
    obtain ⟨a, w₁, e₁, he⟩ := Prog.exec_bind_ok.1 he
    cases he
    rintro ⟨herr, s, hs, hclosed, hid, -⟩
    rcases PeerHandler.exec_fetchSnapshot_ok e₁ with ⟨snap, hsnap, rfl⟩ | ⟨-, rfl⟩
    · exact hr s hs (hid.trans (FileSync.snapshotRow_id hsnap)) hclosed
    · exact absurd herr (by simp)
  | fetchObject r =>
    obtain ⟨a, w₁, e₁, he⟩ := Prog.exec_bind_ok.1 he
    cases he
    rintro ⟨herr, honly⟩
    rcases PeerHandler.exec_fetchObject_ok e₁ with ⟨b, hb, rfl⟩ | rfl
    · exact hr (by rw [hb]; rfl) honly
    · exact absurd herr (by simp)

/-- With a valid token and nothing failing, a request that is not innocuous is answered with a
leak. -/
theorem leaks_of_not_innocuous {c : PeerClaims} (hw : w.faults = [])
    (hv : h.auth.validateFor r.jwt h.gatewayName w.now = .ok c) (hr : ¬ Innocuous w g r) :
    ∃ resp, ((h.handle r).exec w).1 = .ok resp ∧ Leaks w.db g resp := by
  cases r with
  | syncTaskLog r =>
    simp only [Innocuous] at hr
    push Not at hr
    obtain ⟨hread, hclosed, row, hrow, hp, hc⟩ := hr
    have hrun : ((h.handle (.syncTaskLog r)).exec w).1 = .ok (.syncTaskLog
        ⟨PeerHandler.logAnswer w.db r.projectId r.afterCursor, TaskLog.maxCursor w.db r.projectId, ""⟩) := by
      simp only [PeerHandler.handle, Prog.bind_eq]
      rw [Prog.exec_bind_of_ok (PeerHandler.exec_syncTaskLog_calm hw hread hv)]
      rfl
    refine ⟨_, hrun, row, hrow, hp ▸ hclosed, ?_⟩
    exact List.mem_map_of_mem (TaskLog.mem_rowsSince.2 ⟨hrow, hp, hc⟩)
  | fetchSnapshot r =>
    simp only [Innocuous] at hr
    push Not at hr
    obtain ⟨s, hs, hid, hclosed⟩ := hr
    have hrow := FileSync.snapshotRow_eq_some.2 ⟨hs, hid⟩
    have hrun : ((h.handle (.fetchSnapshot r)).exec w).1 =
        .ok (.fetchSnapshot (PeerHandler.snapshotAnswer w.db s)) := by
      simp only [PeerHandler.handle, Prog.bind_eq]
      rw [Prog.exec_bind_of_ok (PeerHandler.exec_fetchSnapshot_calm hw hv hrow)]
      rfl
    exact ⟨_, hrun, rfl, s, hs, hclosed, rfl, rfl⟩
  | fetchObject r =>
    simp only [Innocuous] at hr
    push Not at hr
    obtain ⟨hsome, honly⟩ := hr
    obtain ⟨b, hb⟩ := Option.isSome_iff_exists.1 hsome
    have hrun : ((h.handle (.fetchObject r)).exec w).1 = .ok (.fetchObject ⟨r.sha256, b, ""⟩) := by
      simp only [PeerHandler.handle, Prog.bind_eq]
      rw [Prog.exec_bind_of_ok (PeerHandler.exec_fetchObject_calm hw hv hb)]
      rfl
    exact ⟨_, hrun, rfl, honly⟩

/-! ## A session -/

/-- Answers come from handlers that ran on the gateway as it was stored. -/
theorem mem_serve : ∀ {session : List (F64 × List (Option Nat) × PeerRequest)} {w : World}
    {a : Except Status PeerResponse}, a ∈ h.serve w session →
      ∃ now faults r, (now, faults, r) ∈ session ∧
        ∃ w₁ : World, w₁.stored = w.stored ∧ w₁.now = now ∧ w₁.faults = faults ∧ ((h.handle r).exec w₁).1 = a
  | [], _, _, ha => by cases ha
  | (now, faults, r) :: rest, w, a, ha => by
    rcases List.mem_cons.1 ha with rfl | ha
    · exact ⟨now, faults, r, by simp, { w with now, faults }, rfl, rfl, rfl, rfl⟩
    · have hs := (moves_handle h r).exec .refl (fun _ _ _ => .trans) { w with now, faults }
      obtain ⟨now', faults', r', hm, w₁, h₁, hrest⟩ := mem_serve ha
      exact ⟨now', faults', r', by simp [hm], w₁, h₁.trans hs, hrest⟩

/-- Every request of a session is answered by its handler. -/
theorem serve_mem {now : F64} {faults : List (Option Nat)} {r : PeerRequest} :
    ∀ {session : List (F64 × List (Option Nat) × PeerRequest)} {w : World}, (now, faults, r) ∈ session →
      ∃ w₁ : World, w₁.stored = w.stored ∧ w₁.now = now ∧ w₁.faults = faults ∧
        ((h.handle r).exec w₁).1 ∈ h.serve w session
  | (now', faults', r') :: rest, w, hm => by
    rcases List.mem_cons.1 hm with he | hm
    · cases he
      exact ⟨{ w with now, faults }, rfl, rfl, rfl, List.mem_cons_self⟩
    · have hs := (moves_handle h r').exec .refl (fun _ _ _ => .trans)
        { w with now := now', faults := faults' }
      obtain ⟨w₁, h₁, h₂, h₃, ha⟩ := @serve_mem now faults r rest _ hm
      exact ⟨w₁, h₁.trans hs, h₂, h₃, List.mem_cons_of_mem _ ha⟩

theorem innocuous_congr {w₁ : World} (hs : w₁.stored = w.stored) : Innocuous w₁ g r ↔ Innocuous w g r := by
  have hdb : w₁.db = w.db := congrArg Prod.fst hs
  have hdisk : w₁.disk = w.disk := congrArg Prod.snd hs
  cases r <;> simp only [Innocuous, hdb, hdisk]

end

/-- **Requests that carry a token of `g` never leak what is closed to `g`, in whatever session they
are made, exactly if each of them is innocuous.** -/
theorem session_leaks_iff {h : PeerHandler} {w : World} {g : String} {requests : List PeerRequest}
    (htoken : ∀ r ∈ requests, ∃ now c, h.auth.validateFor r.jwt h.gatewayName now = .ok c ∧ c.iss = g) :
    (∀ session : List (F64 × List (Option Nat) × PeerRequest), session.map (·.2.2) = requests →
      ∀ resp, .ok resp ∈ h.serve w session → ¬ Leaks w.db g resp) ↔
      ∀ r ∈ requests, Innocuous w g r := by
  constructor
  · intro h₀ r hr
    by_contra hnot
    -- A session in which each request comes while its token is valid, and nothing fails.
    have hnow : ∀ r, ∃ now, r ∈ requests → ∃ c, h.auth.validateFor r.jwt h.gatewayName now = .ok c := by
      intro r
      by_cases hr : r ∈ requests
      · obtain ⟨now, c, hv, -⟩ := htoken r hr
        exact ⟨now, fun _ => ⟨c, hv⟩⟩
      · exact ⟨.nan, fun h => absurd h hr⟩
    choose now hvalid using hnow
    let session := requests.map fun r => (now r, ([] : List (Option Nat)), r)
    have hsession : session.map (·.2.2) = requests := by simp [session, Function.comp_def]
    have hmem : (now r, [], r) ∈ session := List.mem_map_of_mem hr
    obtain ⟨w₁, hs, hw₁, hfaults, ha⟩ := @serve_mem h _ _ _ session w hmem
    obtain ⟨c, hv⟩ := hvalid r hr
    rw [← hw₁] at hv
    obtain ⟨resp, hresp, hleak⟩ := leaks_of_not_innocuous hfaults hv fun hi => hnot ((innocuous_congr hs).1 hi)
    rw [hresp] at ha
    have hdb : w₁.db = w.db := congrArg Prod.fst hs
    exact h₀ session hsession resp ha (hdb ▸ hleak)
  · intro hall session hsession resp hresp
    obtain ⟨now, faults, r, hm, w₁, hs, -, -, hrun⟩ := mem_serve hresp
    have hr : r ∈ requests := by
      rw [← hsession]
      exact List.mem_map_of_mem hm
    have hdb : w₁.db = w.db := congrArg Prod.fst hs
    have hnot := not_leaks_of_innocuous ((innocuous_congr hs).2 (hall r hr)) (Prog.exec_eq_of_fst hrun)
    rwa [hdb] at hnot

/-! ## A gateway as shipped -/

/-- As shipped the calls of a gateway store no snapshot. -/
theorem replay_shipped_snapshots [Sha256] [HmacSha256] {k : Gateway} {e : Engine} (he : e.integers = .refused)
    (events : List Event) : (replay k events e).AsShipped ∧ (replay k events e).db.snapshots.rows = [] := by
  have hkept : ∀ w : World, (w.AsShipped ∧ w.db.snapshots.rows = []) →
      (events.foldl (Event.apply k) w).AsShipped ∧ (events.foldl (Event.apply k) w).db.snapshots.rows = [] := by
    induction events with
    | nil => exact fun w hw => hw
    | cons event events ih =>
      intro w hw
      cases event with
      | outside folders canonical now faults => exact ih _ hw
      | call c =>
        have hcall := c.upholds_shipped (g := k) (I := fun w => w.AsShipped ∧ w.db.snapshots.rows = [])
          (fun w hw => hw.1) fun w w' hw hwrites => ⟨hwrites.asShipped hw.1, by rw [hwrites]; exact hw.2⟩
        exact ih _ (hcall.exec hw).1
  exact hkept _ ⟨he, rfl⟩

/-- **What a gateway as shipped has stored by its own calls is closed to nobody's requests**: there is no snapshot to
serve, no object that one refers to, and no entry that can be read. -/
theorem innocuous_shipped [Sha256] [HmacSha256] {k : Gateway} {e : Engine} (he : e.integers = .refused)
    (events : List Event) (g : String) (r : PeerRequest) : Innocuous (replay k events e) g r := by
  obtain ⟨hship, hnone⟩ := replay_shipped_snapshots (k := k) he events
  cases r with
  | syncTaskLog r =>
    intro hread
    rw [World.AsShipped, hread] at hship
    cases hship
  | fetchSnapshot r =>
    intro s hs
    rw [hnone] at hs
    cases hs
  | fetchObject r =>
    rintro - ⟨⟨s, hs, -⟩, -⟩
    rw [hnone] at hs
    cases hs

/-! ## A lan-only project -/

section demo

/-- `gw-a`, for which `token` is a token that `gw-b` issued at second 1000. -/
def demoHandler : PeerHandler where
  gatewayName := "gw-a"
  auth := ⟨"gw-a", fun _ => none, fun _ token =>
    if token = "token" then some ⟨"gw-b", "gw-a", 4600, 1000, "sync"⟩ else none⟩

/-- The store of `gw-a` with the project `demo`, its first snapshot and the visibility it was moved to, filled while
columns could be read, under the gateway as shipped. -/
def demoFilled [Sha256] [HmacSha256] (moves : List Visibility) : World :=
  let w := moves.foldl (fun w visibility => ((Projects.setVisibility demoId.text visibility).exec w).2)
    (replay demoGateway (demoSetup ++ [.call (.scan demoId.text)]) .widening)
  { w with db := { w.db with engine := .shipped } }

/-- What `gw-b` asks for: the snapshot and its one file. -/
def demoRequests : List PeerRequest :=
  [.fetchSnapshot ⟨demoId.text, demoSnapshot₁, "token"⟩, .fetchObject ⟨demoObject₁, "token"⟩]

def demoSession : List (F64 × List (Option Nat) × PeerRequest) := demoRequests.map fun r => (.fin 1000, [], r)

/-- What it is handed. -/
def demoServed : List PeerResponse :=
  [.fetchSnapshot ⟨demoSnapshot₁,
    "F|a.txt|6b86b273ff34fce19d6b804eff5a3f5747ada4eaa22f1d49c01e52ddb7875b4b|1|644|100", [], ""⟩,
   .fetchObject ⟨demoObject₁, asBytes "1", ""⟩]

/-- While the project is public the snapshot and the file are handed to `gw-b`, and nothing leaks. -/
theorem session_leaks_public :
    letI := demoSha256
    letI := HmacSha256.recorded []
    demoHandler.serve (demoFilled [.group, .public]) demoSession = demoServed.map .ok ∧
      ∀ resp ∈ demoServed, ¬ Leaks (demoFilled [.group, .public]).db "gw-b" resp := by
  let := demoSha256
  let := HmacSha256.recorded []
  have hserved : demoHandler.serve (demoFilled [.group, .public]) demoSession = demoServed.map .ok := by decide +kernel
  refine ⟨hserved, fun resp hresp => ?_⟩
  have hnone : ∀ session : List (F64 × List (Option Nat) × PeerRequest), session.map (·.2.2) = demoRequests →
      ∀ resp, .ok resp ∈ demoHandler.serve (demoFilled [.group, .public]) session →
        ¬ Leaks (demoFilled [.group, .public]).db "gw-b" resp := by
    refine session_leaks_iff ?_ |>.2 ?_
    · intro r hr
      refine ⟨.fin 1000, ⟨"gw-b", "gw-a", 4600, 1000, "sync"⟩, ?_, rfl⟩
      revert r
      decide +kernel
    · intro r hr
      rcases List.mem_cons.1 hr with rfl | hr
      · show ∀ s ∈ (demoFilled [.group, .public]).db.snapshots.rows, s.id = demoSnapshot₁ →
          ¬ Closed (demoFilled [.group, .public]).db "gw-b" s.projectId
        decide +kernel
      · rw [List.mem_singleton.1 hr]
        show _ → ¬ OnlyClosed (demoFilled [.group, .public]).db "gw-b" demoObject₁
        exact fun _ => by decide +kernel
  refine hnone demoSession rfl resp ?_
  rw [hserved]
  exact List.mem_map_of_mem hresp

/-- **Of a lan-only project they are handed to `gw-b` as well.** -/
theorem lanOnly_project_served :
    letI := demoSha256
    letI := HmacSha256.recorded []
    (demoFilled []).AsShipped ∧ Closed (demoFilled []).db "gw-b" demoId.text ∧
      (∃ c, demoHandler.auth.validateFor "token" "gw-a" (.fin 1000) = .ok c ∧ c.iss = "gw-b") ∧
      demoHandler.serve (demoFilled []) demoSession = demoServed.map .ok ∧
        ∀ resp ∈ demoServed, Leaks (demoFilled []).db "gw-b" resp := by
  let := demoSha256
  let := HmacSha256.recorded []
  have hserved : (demoFilled []).AsShipped ∧ Closed (demoFilled []).db "gw-b" demoId.text ∧
      demoHandler.serve (demoFilled []) demoSession = demoServed.map .ok ∧
        ∀ resp ∈ demoServed, Leaks (demoFilled []).db "gw-b" resp := by decide +kernel
  exact ⟨hserved.1, hserved.2.1, ⟨⟨"gw-b", "gw-a", 4600, 1000, "sync"⟩, by decide +kernel, rfl⟩, hserved.2.2⟩

end demo

end A2AGateway
