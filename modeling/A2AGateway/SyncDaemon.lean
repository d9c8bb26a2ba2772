import A2AGateway.LinkFrame
import A2AGateway.ListedProjects
import A2AGateway.LogAgreement
import A2AGateway.LogDelivery
import A2AGateway.ShippedCalls

/-!
# The sync daemon (`peer_sync.rs`, `peer_client.rs`)

| here | there |
| --- | --- |
| `PeerPing`, `PeerStatus`            | `proto/peer.proto:68-77` |
| `PeerHandler.ping`                  | `peer_server.rs:135-147` |
| `FarEnd`                            | what a peer does on `peer_client.rs:35-85, 158-164` |
| `PeerClient.ping`, `.listProjects`  | `peer_client.rs:69-74, 158-164` |
| `syncPeer`, `syncRound`             | `peer_sync.rs:86-121` |
| `daemon`                            | `peer_sync.rs:74-84`, so many times round its loop |

A round goes through all configured peers, and through all projects that a peer lists; what fails is written to the log
and the loop goes on. So where columns are read, what one peer answers cannot keep the round from bringing over what
another one has (`syncRound_delivers`). As shipped nothing is brought over at all (`nothing_replicated`). The client sets
no timeout: a peer that stays silent is an action that is never taken, and with it a daemon that stands still. What holds
of every state of every interleaving holds of such a run too; what is said of a round that has come to its end is not
about it.
-/

namespace A2AGateway

open PeerSync TaskLog Gw

/-! ## Messages -/

structure PeerPing where
  gatewayName : String
deriving DecidableEq

structure PeerStatus where
  ok : Bool
  gatewayName : String
  agentCount : Int
  version : String
deriving DecidableEq

/-- `env!("CARGO_PKG_VERSION")`. -/
def packageVersion : String := "0.1.0"

/-- The handler only reads the registry; `agents` is how many agents that lists. -/
def PeerHandler.ping (h : PeerHandler) (agents : Nat) (_ : PeerPing) : PeerStatus :=
  { ok := true, gatewayName := h.gatewayName, agentCount := (BitVec.ofNat 32 agents).toInt, version := packageVersion }

/-! ## The far end of a connection -/

/-- What the daemon meets at a peer's endpoint; whether and when it answers is up to the schedule. -/
structure FarEnd (σ : Type) extends Peer σ where
  connect : Prog σ Err Unit
  ping : PeerPing → Prog σ Status PeerStatus
  listProjects : ListProjectsRequest → Prog σ Status ListProjectsResponse

/-- A gateway that serves its part of the state. -/
def FarEnd.serving {σ : Type} (h : PeerHandler) (L : Prog.Focus σ World) (agents : Nat) : FarEnd σ where
  toPeer := .serving h L
  connect := return ()
  ping r := return h.ping agents r
  listProjects r := (h.listProjects r).within L

/-- Every step of the far end goes along `R`. -/
structure FarEnd.Moves {σ : Type} (far : FarEnd σ) (R : σ → σ → Prop) : Prop extends AnswersMove far.toPeer R where
  connect : far.connect.Moves R
  ping : ∀ r, (far.ping r).Moves R
  listProjects : ∀ r, (far.listProjects r).Moves R

/-! ## The daemon -/

namespace PeerSync

section
variable {σ : Type} (L : Prog.Focus σ World)

def ping (far : FarEnd σ) (ourName : String) : Prog σ Err PeerStatus :=
  (far.ping { gatewayName := ourName }).mapErr fun _ => .msg "peer ping"

/-- The one call made with the scope `peer`. -/
def listProjects (far : FarEnd σ) (client : PeerClient σ) (groupId : Option String) : Prog σ Err ListProjectsResponse := do
  let jwt ← client.jwt L "peer"
  (far.listProjects { jwt, groupId := groupId.getD "" }).mapErr fun _ => .msg "list peer projects"

variable [Sha256] [HmacSha256] (g : Gateway)

/-- `warn!` on an error, and on with the next project. -/
def syncListed (client : PeerClient σ) (peer : PeerConfig) (remote : RemoteProject) : Prog σ Err Unit := do
  let _ ← (syncProject L client peer remote g.secret).attempt
  return ()

def syncPeer (peer : PeerConfig) (far : FarEnd σ) : Prog σ Err Unit := do
  far.connect
  let client : PeerClient σ := ⟨far.toPeer, g.auth, peer.name⟩
  -- "Ping first"
  let status ← ping far g.name
  if status.ok then
    let remoteList ← listProjects L far client none
    Prog.forEach remoteList.projects (syncListed L g client peer)
  else
    return ()

/-- `warn!` on an error, and on with the next peer. -/
def syncRound : List (PeerConfig × FarEnd σ) → Prog σ Err Unit
  | [] => return ()
  | (peer, far) :: peers => do
    let _ ← (syncPeer L g peer far).attempt
    syncRound peers

/-- The loop of the daemon. -/
def daemon (peers : List (PeerConfig × FarEnd σ)) : Nat → Prog σ Err Unit
  | 0 => return ()
  | rounds + 1 => do
    syncRound L g peers
    daemon peers rounds

end

/-! ## Nothing stops a round -/

section
variable {σ : Type} {L : Prog.Focus σ World} [Sha256] [HmacSha256] {g : Gateway}

theorem exec_syncListed (client : PeerClient σ) (peer : PeerConfig) (remote : RemoteProject) (s : σ) :
    (syncListed L g client peer remote).exec s = (.ok (), ((syncProject L client peer remote g.secret).exec s).2) := by
  simp only [syncListed, Prog.bind_eq]
  rw [Prog.exec_bind_of_ok (Prog.exec_attempt _ s)]
  rfl

theorem exec_syncRound_cons (peer : PeerConfig) (far : FarEnd σ) (peers : List (PeerConfig × FarEnd σ)) (s : σ) :
    (syncRound L g ((peer, far) :: peers)).exec s = (syncRound L g peers).exec ((syncPeer L g peer far).exec s).2 := by
  simp only [syncRound, Prog.bind_eq]
  rw [Prog.exec_bind_of_ok (Prog.exec_attempt _ s)]

/-- A round goes on after any of its peers, whatever has happened with that one. -/
theorem exec_syncRound_append (before after : List (PeerConfig × FarEnd σ)) (s : σ) :
    (syncRound L g (before ++ after)).exec s = (syncRound L g after).exec ((syncRound L g before).exec s).2 := by
  induction before generalizing s with
  | nil => rfl
  | cons x before ih =>
    obtain ⟨peer, far⟩ := x
    rw [List.cons_append, exec_syncRound_cons, exec_syncRound_cons, ih]

end

/-! ## Where a round may take the state -/

/-- Whatever a round does to its own gateway goes along `T`. -/
structure StepsAlong [Sha256] [HmacSha256] (secret : Bytes) (peer : PeerConfig) (T : World → World → Prop) : Prop where
  tick : ∀ w, T w w.tick
  put : ∀ data, (ObjectStore.put data).Moves T
  entry : ∀ remoteId localId e, accepts secret peer remoteId e = true →
    (insertPeerEntry localId (reconstruct remoteId e) peer.name).Moves T
  cursor : ∀ localId c, (updatePeerCursor peer.name localId c).Moves T
  snapshot : ∀ localId snapId transcript, (FileSync.applyPeerSnapshot localId snapId transcript peer.name).Moves T

section
variable {σ : Type} {L : Prog.Focus σ World} {T : World → World → Prop} {R : σ → σ → Prop} [Sha256] [HmacSha256]
  (h₀ : ∀ s, R s s) (hT : ∀ s t, T (L.get s) t → R s (L.set t s)) {peer : PeerConfig}
include h₀ hT

theorem moves_syncProject {secret : Bytes} (hsteps : StepsAlong secret peer T) {client : PeerClient σ}
    (hpeer : AnswersMove client.inner R) (remote : RemoteProject) : (syncProject L client peer remote secret).Moves R := by
  simp only [syncProject, Prog.bind_eq]
  refine ((moves_fetch hsteps.tick).within_of hT).bind fun localCopy => Prog.Moves.bind ?_ fun _ => ?_
  · cases localCopy with
    | none => exact moves_syncLog_none h₀ hpeer peer remote secret
    | some p => exact moves_syncLog h₀ hpeer hT hsteps.tick (fun e hacc => hsteps.entry _ _ e hacc) (hsteps.cursor _)
  · exact moves_pullSnapshot h₀ hpeer hT hsteps.tick hsteps.put fun p _ t => hsteps.snapshot _ _ t

variable {g : Gateway} (hsteps : StepsAlong g.secret peer T)
include hsteps

theorem moves_syncListed {client : PeerClient σ} (hpeer : AnswersMove client.inner R) (remote : RemoteProject) :
    (syncListed L g client peer remote).Moves R := by
  simp only [syncListed, Prog.bind_eq]
  exact (moves_syncProject h₀ hT hsteps hpeer remote).attempt.bind fun _ => trivial

theorem moves_syncPeer {far : FarEnd σ} (hfar : far.Moves R) : (syncPeer L g peer far).Moves R := by
  simp only [syncPeer, ping, listProjects, Prog.bind_eq]
  refine hfar.connect.bind fun _ => (hfar.ping _).mapErr.bind fun status => ?_
  split
  · refine Prog.Moves.bind ?_ fun remotes => .forEach fun remote _ => ?_
    · exact (moves_jwt h₀ _ _).bind fun _ => (hfar.listProjects _).mapErr
    · exact moves_syncListed h₀ hT hsteps hfar.toAnswersMove remote
  · trivial

end

section
variable {σ : Type} {L : Prog.Focus σ World} {T : World → World → Prop} {R : σ → σ → Prop} [Sha256] [HmacSha256]
  (h₀ : ∀ s, R s s) (hT : ∀ s t, T (L.get s) t → R s (L.set t s)) {g : Gateway}
include h₀ hT

theorem moves_syncRound : ∀ (peers : List (PeerConfig × FarEnd σ)),
    (∀ x ∈ peers, StepsAlong g.secret x.1 T ∧ x.2.Moves R) → (syncRound L g peers).Moves R
  | [], _ => trivial
  | (peer, far) :: peers, h => by
    simp only [syncRound, Prog.bind_eq]
    obtain ⟨hsteps, hfar⟩ := h (peer, far) (by simp)
    exact (moves_syncPeer h₀ hT hsteps hfar).attempt.bind fun _ => moves_syncRound peers fun x hx => h x (by simp [hx])

theorem moves_daemon {peers : List (PeerConfig × FarEnd σ)} (h : ∀ x ∈ peers, StepsAlong g.secret x.1 T ∧ x.2.Moves R) :
    ∀ rounds, (daemon L g peers rounds).Moves R
  | 0 => trivial
  | rounds + 1 => (moves_syncRound h₀ hT peers h).bind fun _ => moves_daemon h rounds

end

/-! ### What a round never changes -/

/-- The clock, the projects and the entries that are there stay, and nothing begins to fail. -/
structure Steady (w w' : World) : Prop where
  now : w'.now = w.now
  calm : w.faults = [] → w'.faults = []
  engine : w'.db.engine = w.db.engine
  projects : w'.db.projects = w.db.projects
  entries : ∀ r ∈ w.db.taskLog.rows, r ∈ w'.db.taskLog.rows

theorem Steady.refl (w : World) : Steady w w := ⟨rfl, id, rfl, rfl, fun _ h => h⟩

theorem Steady.tick (w : World) : Steady w w.tick := ⟨rfl, World.tick_faults, rfl, rfl, fun _ h => h⟩

theorem Steady.trans {a b c : World} (h : Steady a b) (h' : Steady b c) : Steady a c :=
  ⟨h'.now.trans h.now, fun ha => h'.calm (h.calm ha), h'.engine.trans h.engine, h'.projects.trans h.projects,
    fun r hr => h'.entries r (h.entries r hr)⟩

theorem Steady.of_objectsOnly {w w' : World} (h : ObjectStore.ObjectsOnly w w') : Steady w w' := by
  obtain ⟨hdb, -, hnow, hcalm⟩ := h
  refine ⟨hnow, hcalm, ?_, ?_, fun r hr => ?_⟩
  · rw [hdb]
  · rw [hdb]
  · rw [hdb]
    exact hr

theorem stepsAlong_steady [Sha256] [HmacSha256] (secret : Bytes) (peer : PeerConfig) : StepsAlong secret peer Steady where
  tick := .tick
  put data := (ObjectStore.moves_put data).mono fun _ _ => .of_objectsOnly
  entry remoteId localId e _ := by
    refine moves_execute .tick fun w db hdb => ?_
    rcases insertRowIgnore_eq_some hdb with ⟨-, rfl⟩ | hins
    · exact Steady.tick w
    · obtain ⟨-, -, -, -, hd, hr⟩ := insertRow_eq_some.1 hins
      refine ⟨rfl, World.tick_faults, ?_, ?_, fun r hmem => ?_⟩
      · rw [hd]
      · rw [hd]
      · show r ∈ db.taskLog.rows
        rw [hr]
        exact List.mem_append_left _ hmem
  cursor localId c := by
    refine moves_execute .tick fun w db hdb => ?_
    cases hdb
    exact ⟨rfl, World.tick_faults, rfl, rfl, fun _ h => h⟩
  snapshot localId snapId transcript := by
    refine FileSync.moves_applyPeerSnapshot .refl .tick (fun w now db hdb => ?_) fun w db hdb => ?_
    · rw [(FileSync.insertSnapshot_eq_some.1 hdb).2.2.1]
      exact ⟨rfl, World.tick_faults, rfl, rfl, fun _ h => h⟩
    · rw [FileSync.upsertHead_frame hdb]
      exact ⟨rfl, World.tick_faults, rfl, rfl, fun _ h => h⟩

end PeerSync

/-! ## An honest far end -/

namespace PeerHandler

section
variable {R : World → World → Prop} (h : PeerHandler) (h₀ : ∀ w, R w w) (ht : ∀ w, R w w.tick)
include ht

theorem moves_visibleTo (iss : String) : ∀ v, (visibleTo iss v).Moves R
  | .public => trivial
  | .group => by
    simp only [visibleTo, Prog.bind_eq]
    exact (moves_query ht).mapErr.attempt.bind fun _ => trivial
  | .lanOnly => trivial

theorem moves_listVisible (iss : String) : ∀ ps : List Project, (h.listVisible iss ps).Moves R
  | [] => trivial
  | p :: ps => by
    simp only [listVisible, Prog.bind_eq]
    refine (moves_visibleTo ht iss p.visibility).bind fun b => ?_
    split
    · refine (FileSync.moves_head ht p.id).mapErr.attempt.bind fun _ => ?_
      exact (moves_listVisible iss ps).bind fun _ => trivial
    · exact moves_listVisible iss ps

include h₀

theorem moves_listProjects (r : ListProjectsRequest) : (h.listProjects r).Moves R := by
  simp only [listProjects, Prog.bind_eq]
  refine (h.moves_authJwt h₀ r.jwt).bind fun claims => (moves_fetch ht).mapErr.bind fun ps => ?_
  exact (h.moves_listVisible ht claims.iss ps).bind fun _ => trivial

end

/-- What is listed are projects of the gateway. -/
theorem listed_from {h : PeerHandler} {g : String} {ps : List Project} {w w' : World} {shown : List RemoteProject}
    (hrun : (h.listVisible g ps).exec w = (.ok shown, w')) :
    ∀ remote ∈ shown, ∃ p ∈ ps, remote.projectId = p.id ∧ remote.projectName = p.name := by
  induction ps generalizing w shown with
  | nil =>
    cases hrun
    simp
  | cons p ps ih =>
    obtain ⟨one, w₁, -, hone, hshown⟩ := exec_listVisible_one h g w p
    obtain ⟨rest, w₂, -, hrest⟩ := exec_listVisible_ok h g ps w₁
    rw [exec_listVisible_cons hone hrest] at hrun
    cases hrun
    intro remote hmem
    rcases List.mem_append.1 hmem with hmem | hmem
    · rcases hshown with ⟨-, snapshotId, rfl⟩ | ⟨-, rfl⟩
      · rw [List.mem_singleton.1 hmem]
        exact ⟨p, by simp, rfl, rfl⟩
      · cases hmem
    · obtain ⟨q, hq, hremote⟩ := ih hrest remote hmem
      exact ⟨q, by simp [hq], hremote⟩

/-- Whom the project is listed to, as far as the handler looks. -/
def ListsTo (db : Db) (g : String) (p : Project) : Prop :=
  p.visibility = .public ∨ p.visibility = .group ∧ InSomeGroup db g

instance (db : Db) (g : String) (p : Project) : Decidable (ListsTo db g p) := inferInstanceAs (Decidable (_ ∨ _ ∧ _))

/-- **With nothing failing a project is listed once, to whomever it lists to, and no other project goes by its name.** -/
theorem exec_listProjects_calm {h : PeerHandler} {r : ListProjectsRequest} {claims : PeerClaims} {w : World}
    (hw : w.Legible) (hv : h.auth.validateFor r.jwt h.gatewayName w.now = .ok claims) {p : Project}
    (hp : p ∈ w.db.projects.rows) (hlists : ListsTo w.db claims.iss p) :
    ∃ l₁ remote l₂ w', (h.listProjects r).exec w = (.ok ⟨l₁ ++ remote :: l₂, ""⟩, w') ∧ remote.projectId = p.id ∧
      remote.projectName = p.name ∧ ∀ x ∈ l₁, x.projectName ≠ p.name := by
  obtain ⟨shown, w', hrun, hsub, hmem⟩ := exec_listVisible h claims.iss (inOrder w.db) w.tick
  have hpass : Passes w := by
    intro n hn
    rw [hw.1] at hn
    cases hn
  have hread : ProjectsRead w := fun hship => absurd (hw.2.symm.trans hship) IntegerDecoding.noConfusion
  have hcalm : ∀ i, (h.turn claims.iss (inOrder w.db) w.tick i).faults = [] := by
    intro i
    exact (h.moves_listVisible (R := fun w w' => w.faults = [] → w'.faults = []) (fun _ => World.tick_faults) claims.iss
      ((inOrder w.db).take i)).exec (fun _ => id) (fun _ _ _ hab hbc ha => hbc (hab ha)) w.tick (World.tick_faults hw.1)
  obtain ⟨i, hi⟩ := List.mem_iff_getElem?.1 (mem_inOrder.2 hp)
  have hshows : Shows claims.iss (h.turn claims.iss (inOrder w.db) w.tick i) p := by
    unfold Shows
    rcases hlists with hv | ⟨hv, hgroup⟩
    · rw [hv]
      trivial
    · rw [hv]
      refine ⟨fun n hn => ?_, ?_⟩
      · rw [hcalm i] at hn
        cases hn
      · rw [turn_db]
        exact hgroup
  obtain ⟨remote, hremote, hid⟩ := List.mem_map.1 ((hmem p.id).2 ⟨i, p, hi, rfl, hshows⟩)
  obtain ⟨l₁, l₂, rfl⟩ := List.append_of_mem hremote
  have hfrom := listed_from hrun
  have hname : remote.projectName = p.name := by
    obtain ⟨q, hq, hid', hname⟩ := hfrom remote (by simp)
    rw [hname, Table.eq_of_clash _ (mem_inOrder.1 hq) hp (by simp [Constraints.clash, ← hid', hid])]
  refine ⟨l₁, remote, l₂, w', (listProjects_run hv).2 ⟨hpass, hread, rfl, hrun⟩, hid, hname, fun x hx hxname => ?_⟩
  -- A second project of the name would be the same one, and each is listed once.
  obtain ⟨q, hq, hid', hname'⟩ := hfrom x (by simp [hx])
  have hsame : q = p := Table.eq_of_clash _ (mem_inOrder.1 hq) hp (by simp [Constraints.clash, ← hname', hxname])
  have hnodup := (nodup_inOrder w.db).sublist hsub
  rw [List.map_append, List.map_cons, List.nodup_append] at hnodup
  exact hnodup.2.2 x.projectId (List.mem_map_of_mem hx) remote.projectId (by simp) (by rw [hid', hsame, hid])

end PeerHandler

/-- Only what the environment does next may differ. -/
structure Idle (w w' : World) : Prop where
  db : w'.db = w.db
  now : w'.now = w.now
  calm : w.faults = [] → w'.faults = []

theorem Idle.refl (w : World) : Idle w w := ⟨rfl, rfl, id⟩

theorem Idle.tick (w : World) : Idle w w.tick := ⟨rfl, rfl, World.tick_faults⟩

/-- A gateway that serves only takes time. -/
theorem FarEnd.moves_serving {σ : Type} {L : Prog.Focus σ World} {R : σ → σ → Prop} (h : PeerHandler) (agents : Nat)
    (hR : ∀ s t, Idle (L.get s) t → R s (L.set t s)) : (FarEnd.serving h L agents).Moves R where
  syncTaskLog r := (h.moves_syncTaskLog Idle.refl Idle.tick r).within_of hR
  fetchSnapshot r := (h.moves_fetchSnapshot Idle.refl Idle.tick r).within_of hR
  fetchObject _ r := (h.moves_fetchObject Idle.refl Idle.tick r).within_of hR
  connect := trivial
  ping _ := trivial
  listProjects r := (h.moves_listProjects Idle.refl Idle.tick r).within_of hR

/-- A gateway as the far end of a connection. -/
def Gateway.farEnd (a : Gateway) (agents : Nat) : FarEnd Net := .serving a.handler (Net.at_ a.name) agents

/-! ## What a pass brings over -/

/-- A pass of `b` over `a` up to here. -/
structure Visited (b a : Gateway) (n n' : Net) : Prop where
  own : Steady (n b.name) (n' b.name)
  idle : Idle (n a.name) (n' a.name)

section
variable {b a : Gateway} (hne : a.name ≠ b.name)

theorem Visited.refl (n : Net) : Visited b a n n := ⟨.refl _, .refl _⟩

theorem Visited.trans {n n' n'' : Net} (h : Visited b a n n') (h' : Visited b a n' n'') : Visited b a n n'' :=
  ⟨h.own.trans h'.own, h'.idle.db.trans h.idle.db, h'.idle.now.trans h.idle.now, fun hc => h'.idle.calm (h.idle.calm hc)⟩

include hne

theorem Visited.of_own {n : Net} {w : World} (h : Steady (n b.name) w) : Visited b a n ((Net.at_ b.name).set w n) := by
  refine ⟨?_, ?_⟩
  · rw [Net.at_set_self]
    exact h
  · rw [Net.at_set_of_ne hne]
    exact Idle.refl _

theorem Visited.of_idle {n : Net} {w : World} (h : Idle (n a.name) w) : Visited b a n ((Net.at_ a.name).set w n) := by
  refine ⟨?_, ?_⟩
  · rw [Net.at_set_of_ne hne.symm]
    exact Steady.refl _
  · rw [Net.at_set_self]
    exact h

end

section
variable [Sha256] [HmacSha256] {b a : Gateway} (hne : a.name ≠ b.name) (peer : PeerConfig) {n : Net}
include hne

omit n in
theorem moves_syncListed_serving (remote : RemoteProject) :
    (syncListed (Net.at_ b.name) b (b.client a peer) peer remote).Moves (Visited b a) :=
  moves_syncListed Visited.refl (fun _ _ => .of_own hne) (stepsAlong_steady b.secret peer)
    (FarEnd.moves_serving a.handler 0 fun _ _ => .of_idle hne).toAnswersMove remote

/-- **A round for a project of another name leaves alone what is kept about this one.** -/
theorem sameAbout_round (hb : (n b.name).Legible) {remote : RemoteProject} {p : Project}
    (hp : p ∈ (n b.name).db.projects.rows) (hname : remote.projectName ≠ p.name) :
    SameAbout p.id (n b.name).db (((b.round a peer remote).exec n).2 b.name).db := by
  let R (n n' : Net) : Prop := SameAbout p.id (n b.name).db (n' b.name).db
  have h₀ : ∀ n, R n n := fun n => SameAbout.refl _ _
  have hown : ∀ {T : World → World → Prop}, (∀ w w', T w w' → SameAbout p.id w.db w'.db) →
      ∀ n w, T ((Net.at_ b.name).get n) w → R n ((Net.at_ b.name).set w n) := by
    intro T hT n w h
    show SameAbout p.id _ ((Net.at_ b.name).set w n b.name).db
    rw [Net.at_set_self]
    exact hT _ _ h
  have hpeer : AnswersMove (b.client a peer).inner R := by
    refine (FarEnd.moves_serving a.handler 0 fun n w _ => ?_).toAnswersMove
    show SameAbout p.id _ ((Net.at_ a.name).set w n b.name).db
    rw [Net.at_set_of_ne hne.symm]
    exact SameAbout.refl _ _
  have hobjects : ∀ w w', ObjectStore.ObjectsOnly w w' → SameAbout p.id w.db w'.db := by
    intro w w' h
    rw [h.1]
    exact ⟨rfl, rfl, rfl, rfl⟩
  simp only [Gateway.round, syncProject, Prog.bind_eq]
  rw [Prog.exec_bind_of_ok (exec_localCopy_calm (Net.at_ b.name) hb.1 hb.2 rfl)]
  refine Prog.Moves.exec (R := R) h₀ (fun _ _ _ => .trans) ?_ n
  cases hq : Projects.byName ((Net.at_ b.name).get n).db remote.projectName with
  | none =>
    refine (moves_syncLog_none h₀ hpeer peer remote b.secret).bind fun _ => ?_
    exact moves_pullSnapshot h₀ hpeer (hown hobjects) ObjectStore.ObjectsOnly.tick ObjectStore.moves_put
      fun q hq => by cases hq
  | some q =>
    obtain ⟨hq, hqname⟩ := Projects.byName_eq_some.1 hq
    have hids : p.id ≠ q.id := by
      intro hid
      have hsame : q = p := Table.eq_of_clash _ hq hp (by simp [Constraints.clash, hid])
      exact hname (by rw [← hqname, hsame])
    have habout : ∀ w w', OnlyAbout q.id w w' → SameAbout p.id w.db w'.db := fun _ _ h => h.2 p.id hids
    refine (moves_syncLog h₀ hpeer (hown habout) OnlyAbout.tick (fun _ _ => moves_insertPeerEntry_about _ _)
      fun c => moves_updatePeerCursor_about _ c).bind fun _ => ?_
    refine moves_pullSnapshot h₀ hpeer (hown habout) OnlyAbout.tick
      (fun d => (ObjectStore.moves_put d).mono fun _ _ => OnlyAbout.of_objectsOnly) fun q' hq' t => ?_
    cases hq'
    exact moves_applyPeerSnapshot_about _ _ _

end

/-- The entry `row` of `a` is one that a round of `b` would bring over to the project `p`. -/
structure Awaits [HmacSha256] (b a : Gateway) (peer : PeerConfig) (p : Project) (row : LogRow) (n : Net) : Prop where
  calm : (n b.name).Legible
  served : (n a.name).Legible
  token : ∃ c, a.auth.validateFor (roundToken b.auth peer (n b.name).now) a.name (n a.name).now = .ok c
  copy : p ∈ (n b.name).db.projects.rows
  written : row ∈ (n a.name).db.taskLog.rows
  writer : row.gatewayName = peer.name
  signed : Signed b.secret row
  fits : fitsInteger row.cursor = true
  above : maxCursor (n b.name).db p.id < row.cursor

theorem Awaits.stays [HmacSha256] {b a : Gateway} {peer : PeerConfig} {p : Project} {row : LogRow} {n n' : Net}
    (h : Awaits b a peer p row n) (hserved : Visited b a n n') (hsame : SameAbout p.id (n b.name).db (n' b.name).db) :
    Awaits b a peer p row n' where
  calm := ⟨hserved.own.calm h.calm.1, by rw [hserved.own.engine]; exact h.calm.2⟩
  served := ⟨hserved.idle.calm h.served.1, by rw [hserved.idle.db]; exact h.served.2⟩
  token := by
    rw [hserved.own.now, hserved.idle.now]
    exact h.token
  copy := by
    rw [hserved.own.projects]
    exact h.copy
  written := by
    rw [hserved.idle.db]
    exact h.written
  writer := h.writer
  signed := h.signed
  fits := h.fits
  above := by
    rw [maxCursor, hsame.taskLog]
    exact h.above

section
variable [Sha256] [HmacSha256] {b a : Gateway} (hne : a.name ≠ b.name) {peer : PeerConfig} {p : Project} {row : LogRow}
include hne

/-- The projects before it may fail, and leave what the entry waits for alone; those after it keep it. -/
theorem forEach_delivers {remote : RemoteProject} (hname : remote.projectName = p.name) (hproject : row.projectId = remote.projectId)
    (l₂ : List RemoteProject) : ∀ (l₁ : List RemoteProject) {n : Net}, Awaits b a peer p row n →
      (∀ x ∈ l₁, x.projectName ≠ p.name) →
      ∃ r ∈ (((Prog.forEach (l₁ ++ remote :: l₂)
        (syncListed (Net.at_ b.name) b (b.client a peer) peer)).exec n).2 b.name).db.taskLog.rows, r.id = row.id
  | [], n, h, _ => by
    have hcopy : Projects.byName (n b.name).db remote.projectName = some p := Projects.byName_eq_some.2 ⟨h.copy, hname.symm⟩
    obtain ⟨r, hr, hid⟩ := round_delivers h.calm h.served hcopy h.token h.written hproject h.above h.fits h.writer h.signed
    refine ⟨r, ?_, hid⟩
    rw [List.nil_append, Prog.forEach, Prog.exec_bind_of_ok (exec_syncListed _ _ _ n)]
    have hrest := (Prog.Moves.forEach fun remote (_ : remote ∈ l₂) => moves_syncListed_serving hne peer remote).exec
      Visited.refl (fun _ _ _ => .trans) ((b.round a peer remote).exec n).2
    exact hrest.own.entries r hr
  | x :: l₁, n, h, hnames => by
    have hsame := sameAbout_round hne peer h.calm h.copy (hnames x (by simp))
    have hserved := (moves_syncListed_serving hne peer x).exec Visited.refl (fun _ _ _ => .trans) n
    rw [exec_syncListed] at hserved
    have hrest := forEach_delivers hname hproject l₂ l₁ (h.stays hserved hsame) fun y hy => hnames y (by simp [hy])
    rw [List.cons_append, Prog.forEach, Prog.exec_bind_of_ok (exec_syncListed _ _ _ n)]
    exact hrest

/-- A pass over a gateway that lists the project delivers the entry. -/
theorem syncPeer_delivers {n : Net} (agents : Nat) (h : Awaits b a peer p row n) {q : Project}
    (hq : q ∈ (n a.name).db.projects.rows) (hname : q.name = p.name) (hproject : row.projectId = q.id) {claims : PeerClaims}
    (hv : a.auth.validateFor ((b.auth.issue peer.name "peer" (n b.name).now).toOption.getD "") a.name (n a.name).now = .ok claims)
    (hlists : PeerHandler.ListsTo (n a.name).db claims.iss q) :
    ∃ r ∈ (((syncPeer (Net.at_ b.name) b peer (a.farEnd agents)).exec n).2 b.name).db.taskLog.rows, r.id = row.id := by
  let client : PeerClient Net := b.client a peer
  obtain ⟨l₁, remote, l₂, w', hrun, hid, hremote, hbefore⟩ := PeerHandler.exec_listProjects_calm
    (h := a.handler) (r := ⟨(b.auth.issue peer.name "peer" (n b.name).now).toOption.getD "", ""⟩) h.served hv hq hlists
  have hlist : (PeerSync.listProjects (Net.at_ b.name) (a.farEnd agents) client none).exec n =
      (.ok ⟨l₁ ++ remote :: l₂, ""⟩, (Net.at_ a.name).set w' n) := by
    simp only [PeerSync.listProjects, Prog.bind_eq]
    rw [Prog.exec_bind_of_ok (exec_jwt client b.name "peer" n)]
    refine Prog.exec_mapErr_of_ok (Prog.exec_within_ok.2 ⟨w', hrun, rfl⟩)
  have hidle : Idle (n a.name) w' := by
    have hmove := (a.handler.moves_listProjects Idle.refl Idle.tick
      ⟨(b.auth.issue peer.name "peer" (n b.name).now).toOption.getD "", ""⟩).exec Idle.refl
        (fun _ _ _ h h' => ⟨h'.db.trans h.db, h'.now.trans h.now, fun hc => h'.calm (h.calm hc)⟩) (n a.name)
    rwa [hrun] at hmove
  have hsame : SameAbout p.id (n b.name).db ((Net.at_ a.name).set w' n b.name).db := by
    rw [Net.at_set_of_ne hne.symm]
    exact SameAbout.refl _ _
  have hall := forEach_delivers hne (hremote.trans hname) (hproject.trans hid.symm) l₂ l₁
    (h.stays (.of_idle hne hidle) hsame) (fun x hx => hname ▸ hbefore x hx)
  have hpass : (syncPeer (Net.at_ b.name) b peer (a.farEnd agents)).exec n =
      (Prog.forEach (l₁ ++ remote :: l₂) (syncListed (Net.at_ b.name) b client peer)).exec ((Net.at_ a.name).set w' n) := by
    show ((PeerSync.listProjects (Net.at_ b.name) (a.farEnd agents) client none).bind fun remoteList =>
      Prog.forEach remoteList.projects (syncListed (Net.at_ b.name) b client peer)).exec n = _
    rw [Prog.exec_bind_of_ok hlist]
  rw [hpass]
  exact hall

end

/-! ## A round over all peers -/

/-- The peer is no part of either gateway: whatever it does and answers, it changes neither. -/
def Apart (b a : Gateway) (n n' : Net) : Prop := n' b.name = n b.name ∧ n' a.name = n a.name

/-- Somebody else's turn. -/
structure Passed (b a : Gateway) (n n' : Net) : Prop where
  own : Steady (n b.name) (n' b.name)
  other : n' a.name = n a.name

section
variable [Sha256] [HmacSha256] {b a : Gateway} (hne : a.name ≠ b.name)
include hne

theorem passed_syncRound {peers : List (PeerConfig × FarEnd Net)} (h : ∀ x ∈ peers, x.2.Moves (Apart b a)) (n : Net) :
    Passed b a n ((syncRound (Net.at_ b.name) b peers).exec n).2 := by
  have h₀ : ∀ n, Passed b a n n := fun n => ⟨.refl _, rfl⟩
  have hT : ∀ n w, Steady ((Net.at_ b.name).get n) w → Passed b a n ((Net.at_ b.name).set w n) := by
    intro n w hw
    refine ⟨?_, Net.at_set_of_ne hne w n⟩
    rw [Net.at_set_self]
    exact hw
  have hmono : ∀ n n', Apart b a n n' → Passed b a n n' := by
    rintro n n' ⟨hb, ha⟩
    refine ⟨?_, ha⟩
    rw [hb]
    exact Steady.refl _
  refine (moves_syncRound h₀ hT peers fun x hx => ⟨stepsAlong_steady b.secret x.1, ?_⟩).exec h₀
    (fun _ _ _ h h' => ⟨h.own.trans h'.own, h'.other.trans h.other⟩) n
  obtain ⟨⟨hlog, hsnap, hobject⟩, hconnect, hping, hlist⟩ := h x hx
  exact ⟨⟨fun r => (hlog r).mono hmono, fun r => (hsnap r).mono hmono, fun i r => (hobject i r).mono hmono⟩,
    hconnect.mono hmono, fun r => (hping r).mono hmono, fun r => (hlist r).mono hmono⟩

/-- **Where columns are read, a round of the daemon brings over every entry that is above the copy's highest cursor when
its peer's turn comes, from every project that the peer lists and this gateway knows by name: whatever the other peers do
and answer, before and after, and whatever else fails on the way.** -/
theorem syncRound_delivers {before after : List (PeerConfig × FarEnd Net)} {peer : PeerConfig} {agents : Nat} {n : Net}
    (hothers : ∀ x ∈ before ++ after, x.2.Moves (Apart b a)) {p q : Project} {row : LogRow}
    (h : Awaits b a peer p row ((syncRound (Net.at_ b.name) b before).exec n).2)
    (hq : q ∈ (n a.name).db.projects.rows) (hname : q.name = p.name) (hproject : row.projectId = q.id) {claims : PeerClaims}
    (hv : a.auth.validateFor ((b.auth.issue peer.name "peer" (n b.name).now).toOption.getD "") a.name (n a.name).now = .ok claims)
    (hlists : PeerHandler.ListsTo (n a.name).db claims.iss q) :
    ∃ r ∈ (((syncRound (Net.at_ b.name) b (before ++ (peer, a.farEnd agents) :: after)).exec n).2 b.name).db.taskLog.rows,
      r.id = row.id := by
  have hbefore := passed_syncRound hne (fun x hx => hothers x (List.mem_append_left _ hx)) n
  rw [← hbefore.other] at hq hv hlists
  rw [← hbefore.own.now] at hv
  obtain ⟨r, hr, hid⟩ := syncPeer_delivers hne agents h hq hname hproject hv hlists
  refine ⟨r, ?_, hid⟩
  rw [exec_syncRound_append, exec_syncRound_cons]
  exact (passed_syncRound hne (fun x hx => hothers x (List.mem_append_right _ hx)) _).own.entries r hr

end

/-- A peer that cannot be reached. -/
def FarEnd.down {σ : Type} : FarEnd σ where
  syncTaskLog _ := Prog.fail ⟨.unavailable, ""⟩
  fetchSnapshot _ := Prog.fail ⟨.unavailable, ""⟩
  fetchObject _ _ := Prog.fail ⟨.unavailable, ""⟩
  connect := Prog.fail (.msg "connecting to peer")
  ping _ := Prog.fail ⟨.unavailable, ""⟩
  listProjects _ := Prog.fail ⟨.unavailable, ""⟩

theorem FarEnd.moves_down {σ : Type} {R : σ → σ → Prop} : (FarEnd.down : FarEnd σ).Moves R :=
  ⟨⟨fun _ => trivial, fun _ => trivial, fun _ _ => trivial⟩, trivial, fun _ => trivial, fun _ => trivial⟩

/-! ## The daemons of gateways as shipped -/

namespace PeerSync

section
variable {σ : Type} {L : Prog.Focus σ World} [Sha256] [HmacSha256] {g : Gateway} {I : σ → Prop}
  (hship : ∀ s, I s → (L.get s).AsShipped) (hobjects : ∀ s w, I s → ObjectStore.ObjectsOnly (L.get s) w → I (L.set w s))
include hship hobjects

theorem upholds_syncPeer_shipped {peer : PeerConfig} {far : FarEnd σ} (hfar : far.Moves fun s s' => I s → I s') :
    (syncPeer L g peer far).Upholds I fun _ => True := by
  simp only [syncPeer, ping, listProjects, Prog.bind_eq]
  refine (Prog.Moves.upholds hfar.connect).seq fun _ => (Prog.Moves.upholds (hfar.ping _)).mapErr.seq fun status => ?_
  split
  · refine Prog.Upholds.seq ?_ fun remotes => .forEach fun remote _ => ?_
    · exact (Prog.Moves.upholds (moves_jwt (fun _ => id) _ _)).seq fun _ =>
        (Prog.Moves.upholds (hfar.listProjects _)).mapErr
    · unfold syncListed
      exact (upholds_syncProject_shipped hship hobjects hfar.toAnswersMove).attempt.bind fun _ _ => trivial
  · trivial

theorem upholds_daemon_shipped {peers : List (PeerConfig × FarEnd σ)}
    (hfar : ∀ x ∈ peers, x.2.Moves fun s s' => I s → I s') : ∀ rounds, (daemon L g peers rounds).Upholds I fun _ => True
  | 0 => trivial
  | rounds + 1 => by
    have hround : (syncRound L g peers).Upholds I fun _ => True := by
      clear rounds
      induction peers with
      | nil => trivial
      | cons x peers ih =>
        rw [List.forall_mem_cons] at hfar
        exact (upholds_syncPeer_shipped hship hobjects hfar.1).attempt.bind fun _ _ => ih hfar.2
    exact hround.seq fun _ => upholds_daemon_shipped hfar rounds

end

end PeerSync

section
variable [HmacSha256] {G : List Gateway} {n n' : Net}

/-- Every gateway is as shipped and has nothing of another: entries of its own only, no snapshot, and no cursor at which
a peer was left. -/
structure Unreplicated (G : List Gateway) (n : Net) : Prop where
  own : OwnEntries G n
  tables : ∀ g ∈ G, (n g.name).db.snapshots.rows = [] ∧ (n g.name).db.peerCursorState.rows = []

/-- Elsewhere, or in other tables. -/
theorem Unreplicated.set {name : String} {w : World} (h : Unreplicated G n) (hown : OwnEntries G ((Net.at_ name).set w n))
    (hsnapshots : w.db.snapshots = (n name).db.snapshots) (hcursors : w.db.peerCursorState = (n name).db.peerCursorState) :
    Unreplicated G ((Net.at_ name).set w n) := by
  refine ⟨hown, fun g hg => ?_⟩
  by_cases hname : g.name = name
  · subst hname
    rw [Net.at_set_self, hsnapshots, hcursors]
    exact h.tables g hg
  · rw [Net.at_set_of_ne hname]
    exact h.tables g hg

theorem Outside.unreplicated (h : Outside G n n') (hn : Unreplicated G n) : Unreplicated G n' := by
  have hown := h.ownEntries hn.own
  cases h with
  | @append g hg id fresh projectId agentName entryType content todoId =>
    rcases TaskLog.exec_append_cases with hrun | ⟨db, hins, hrun⟩
    · refine hn.set hown ?_ ?_ <;> rw [hrun] <;> rfl
    · have hframe := (insertRow_eq_some.1 hins).2.2.2.2.1
      refine hn.set hown ?_ ?_
      · rw [hrun]
        show db.snapshots = _
        rw [hframe]
      · rw [hrun]
        show db.peerCursorState = _
        rw [hframe]
  | environment name folders canonical now faults => exact hn.set hown rfl rfl

/-- A far end of the net's own, or one that has no hand in its gateways. -/
def Peering (G : List Gateway) (far : FarEnd Net) : Prop :=
  (∃ a ∈ G, ∃ agents, far = a.farEnd agents) ∨ far.Moves fun n n' => ∀ g ∈ G, n' g.name = n g.name

/-- Somebody's daemon starts. -/
def StartsDaemon [Sha256] (G : List Gateway) (_ : Net) (p : Prog Net Err Unit) : Prop :=
  ∃ b ∈ G, ∃ peers rounds, (∀ x ∈ peers, Peering G x.2) ∧ p = daemon (Net.at_ b.name) b peers rounds

theorem Peering.unreplicated {far : FarEnd Net} (h : Peering G far) :
    far.Moves fun n n' => Unreplicated G n → Unreplicated G n' := by
  rcases h with ⟨a, -, agents, rfl⟩ | ⟨⟨hlog, hsnap, hobject⟩, hconnect, hping, hlist⟩
  · refine FarEnd.moves_serving a.handler agents fun n w hidle hn => ?_
    refine hn.set (hn.own.set ?_ ?_) ?_ ?_ <;> rw [hidle.db] <;> rfl
  · have hmono : ∀ n n' : Net, (∀ g ∈ G, n' g.name = n g.name) → Unreplicated G n → Unreplicated G n' := by
      intro n n' hsame hn
      refine ⟨fun g hg => ?_, fun g hg => ?_⟩
      · rw [hsame g hg]
        exact hn.own g hg
      · rw [hsame g hg]
        exact hn.tables g hg
    exact ⟨⟨fun r => (hlog r).mono hmono, fun r => (hsnap r).mono hmono, fun i r => (hobject i r).mono hmono⟩,
      hconnect.mono hmono, fun r => (hping r).mono hmono, fun r => (hlist r).mono hmono⟩

/-- **As shipped nothing is ever replicated**: whatever is appended, and however the daemons run against one another and
against others, step by step in any order, no gateway has an entry of another, a snapshot or a peer's cursor. -/
theorem nothing_replicated [Sha256] {n₀ : Net} (hship : ∀ g ∈ G, (n₀ g.name).AsShipped)
    (hempty : ∀ g ∈ G, (n₀ g.name).db.taskLog.rows = [] ∧ (n₀ g.name).db.snapshots.rows = [] ∧
      (n₀ g.name).db.peerCursorState.rows = [])
    {pool : Pool Net Err} (hpool : Pool.Reachable (· = n₀) (StartsDaemon G) (Outside G) pool) {g : Gateway} (hg : g ∈ G) :
    (∀ r ∈ (pool.state g.name).db.taskLog.rows, r.gatewayName = g.name) ∧
      (pool.state g.name).db.snapshots.rows = [] ∧ (pool.state g.name).db.peerCursorState.rows = [] := by
  have hnone : Unreplicated G pool.state := by
    refine hpool.upheld ?_ (fun n p _ hp => ?_) fun n n' hn hout => hout.unreplicated hn
    · rintro n rfl
      refine ⟨fun g hg => ⟨hship g hg, fun r hr => ?_⟩, fun g hg => (hempty g hg).2⟩
      rw [(hempty g hg).1] at hr
      cases hr
    · obtain ⟨b, hb, peers, rounds, hserves, rfl⟩ := hp
      refine upholds_daemon_shipped (fun n hn => (hn.own b hb).1) (fun n w hn hobjects => ?_)
        (fun x hx => (hserves x hx).unreplicated) rounds
      refine hn.set (hn.own.set ?_ ?_) ?_ ?_ <;> rw [hobjects.1] <;> rfl
  exact ⟨fun r hr => ((hnone.own g hg).2 r hr).1, hnone.tables g hg⟩

end

/-! ## Two gateways and a peer that is down -/

section demo

theorem demo_bare : letI := demoSha256; letI := demoLogHmac
    ∀ g ∈ [demoA, demoB], (demoNet demoSetup demoSetupB .shipped g.name).AsShipped ∧
      (demoNet demoSetup demoSetupB .shipped g.name).db.taskLog.rows = [] ∧
      (demoNet demoSetup demoSetupB .shipped g.name).db.snapshots.rows.length = 0 ∧
      (demoNet demoSetup demoSetupB .shipped g.name).db.peerCursorState.rows.length = 0 := by
  intro g hg
  simp only [List.mem_cons, List.not_mem_nil, or_false] at hg
  rcases hg with rfl | rfl <;> decide +kernel

/-- A gateway appends, and then another one's daemon runs for some rounds. -/
theorem reachable_daemon [Sha256] [HmacSha256] {n₀ : Net} {G : List Gateway} {a b : Gateway} (ha : a ∈ G) (hb : b ∈ G)
    {id projectId : Uuid} (hempty : ∀ g ∈ G, (n₀ g.name).db.taskLog.rows = []) {peers : List (PeerConfig × FarEnd Net)}
    (hserves : ∀ x ∈ peers, Peering G x.2) (rounds : Nat) :
    ∃ threads, Pool.Reachable (· = n₀) (StartsDaemon G) (Outside G)
      ⟨((daemon (Net.at_ b.name) b peers rounds).exec (demoWrite a id projectId n₀)).2, threads⟩ := by
  have h₀ : Pool.Reachable (· = n₀) (StartsDaemon G) (Outside G) ⟨n₀, []⟩ := ⟨_, rfl, .refl⟩
  have hwritten := h₀.moved (.append ha id (fun h hh r hr => by
    rw [hempty h hh] at hr
    cases hr) projectId.text "agent" .note "hello" none)
  exact hwritten.run ⟨b, hb, peers, rounds, hserves, rfl⟩

theorem demo_peers [HmacSha256] : ∀ x ∈ [(⟨"gw-x"⟩, FarEnd.down), ((⟨demoA.name⟩ : PeerConfig), demoA.farEnd 0)],
    Peering [demoA, demoB] x.2 := by
  intro x hx
  simp only [List.mem_cons, List.not_mem_nil, or_false] at hx
  rcases hx with rfl | rfl
  · exact Or.inr FarEnd.moves_down
  · exact Or.inl ⟨demoA, by simp, 0, rfl⟩

/-- `gw-a` has written a note, `gw-b` has gone round twice, and has not got it. -/
theorem nothing_replicated_demo : letI := demoSha256; letI := demoLogHmac
    (demoWrittenA .shipped demoA.name).db.taskLog.rows.map (·.gatewayName) = [demoA.name] ∧
      ∀ r ∈ (((daemon (Net.at_ demoB.name) demoB [(⟨"gw-x"⟩, .down), (⟨demoA.name⟩, demoA.farEnd 0)] 2).exec
        (demoWrittenA .shipped)).2 demoB.name).db.taskLog.rows, r.gatewayName = demoB.name := by
  obtain ⟨threads, hrun⟩ := @reachable_daemon demoSha256 demoLogHmac _ [demoA, demoB] demoA demoB (by simp) (by simp)
    demoEntryA demoId (fun g hg => (demo_bare g hg).2.1) _ (@demo_peers demoLogHmac) 2
  refine ⟨by decide +kernel, ?_⟩
  exact (@nothing_replicated demoLogHmac _ demoSha256 _ (fun g hg => (demo_bare g hg).1)
    (fun g hg => ⟨(demo_bare g hg).2.1, List.length_eq_zero_iff.1 (demo_bare g hg).2.2.1,
      List.length_eq_zero_iff.1 (demo_bare g hg).2.2.2⟩) _ hrun demoB (by simp)).1

end demo

end A2AGateway
