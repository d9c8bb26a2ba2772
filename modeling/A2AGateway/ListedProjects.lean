import A2AGateway.Groups
import A2AGateway.PeerAccess

/-!
# What `list_projects` shows

"Return projects that are public, or group-visible and the requester is a member of that group"
(`peer_server.rs:245-246`). For a group-visible project the handler asks for all groups of the
requester, and takes any of them for the project's (`peer_server.rs:254-259`); a query that fails
counts as no group. As shipped there is no listing at all once the gateway has a project, since its row cannot be read.
The main result is `listProjects_exact_iff`.
-/

namespace A2AGateway

open Gw

/-- The gateway is a member of some group. -/
def InSomeGroup (db : Db) (g : String) : Prop := ∃ m ∈ db.groupMembers.rows, m.gatewayName = g ∧ db.hasGroup m.groupId = true

instance (db : Db) (g : String) : Decidable (InSomeGroup db g) := inferInstanceAs (Decidable (∃ m ∈ db.groupMembers.rows, _))

/-- The listed projects are, each once, those that the gateway is entitled to see. -/
structure ExactListing (db : Db) (g : String) (listed : List RemoteProject) : Prop where
  once : (listed.map (·.projectId)).Nodup
  entitled : ∀ id, id ∈ listed.map (·.projectId) ↔ ∃ p ∈ db.projects.rows, p.id = id ∧ Entitled db g p

namespace PeerHandler

/-- Whether the handler shows the project, in the state in which it looks at it. -/
def Shows (g : String) (w : World) (p : Project) : Prop :=
  match p.visibility with
  | .public => True
  | .group => Passes w ∧ InSomeGroup w.db g
  | .lanOnly => False

/-- A project as it is listed. -/
def remote (h : PeerHandler) (p : Project) (snapshotId : String) : RemoteProject :=
  { projectId := p.id, projectName := p.name, repoUrl := p.repoUrl, description := p.description,
    visibility := p.visibility.asStr, snapshotId, gatewayName := h.gatewayName }

section
variable {h : PeerHandler} {g : String} {w : World} {p : Project} {ps : List Project}

/-! ## One project -/

theorem groups_nonempty {db : Db} :
    (((db.groupMembers.rows.filter (·.gatewayName == g)).insertionSort
      fun a b => a.joinedAt.le b.joinedAt).flatMap fun m => db.groups.rows.filter (·.id == m.groupId)).isEmpty = false ↔
      InSomeGroup db g := by
  rw [← Bool.not_eq_true, List.isEmpty_iff, List.eq_nil_iff_forall_not_mem, not_forall]
  simp only [not_not, List.mem_flatMap, List.mem_insertionSort, List.mem_filter, beq_iff_eq, InSomeGroup, Db.hasGroup,
    List.any_eq_true]
  constructor
  · rintro ⟨group, m, ⟨hm, hg⟩, hgroup, hid⟩
    exact ⟨m, hm, hg, group, hgroup, hid⟩
  · rintro ⟨m, hm, hg, group, hgroup, hid⟩
    exact ⟨group, m, ⟨hm, hg⟩, hgroup, hid⟩

/-- A query whose failure counts as no answer. -/
theorem exec_attempt_query {α : Type} (e : Err) (f : Db → α) (w : World) :
    (((query e f).mapErr internal).attempt).exec w = (.ok (if Passes w then some (f w.db) else none), w.tick) := by
  rw [Prog.exec_attempt, Prog.exec_mapErr]
  by_cases hp : Passes w
  · rw [exec_query_iff.2 ⟨hp, rfl, rfl⟩, if_pos hp]
    rfl
  · rw [exec_query_of_not_passes hp, if_neg hp]
    rfl

theorem exec_visibleTo (g : String) (w : World) (p : Project) : ∃ b w', w'.db = w.db ∧
    (visibleTo g p.visibility).exec w = (.ok b, w') ∧ (b = true ↔ Shows g w p) := by
  unfold Shows
  cases p.visibility with
  | «public» => exact ⟨true, w, rfl, rfl, by simp⟩
  | lanOnly => exact ⟨false, w, rfl, rfl, by simp⟩
  | group =>
    simp only [visibleTo, Groups.groupsForGateway, Prog.bind_eq, Prog.pure_eq]
    rw [Prog.exec_bind_of_ok (exec_attempt_query _ _ _)]
    refine ⟨_, w.tick, rfl, rfl, ?_⟩
    by_cases hp : Passes w
    · rw [if_pos hp, ← groups_nonempty]
      simp [hp]
    · simp [hp]

theorem head_db (projectId : String) (w : World) : ((FileSync.head projectId).exec w).2.db = w.db := by
  have hstored : SameStored w ((FileSync.head projectId).exec w).2 :=
    (FileSync.moves_head SameStored.tick projectId).exec SameStored.refl (fun _ _ _ => SameStored.trans) w
  exact congrArg Prod.fst hstored

/-- What is shown of one project. -/
theorem exec_listVisible_one (h : PeerHandler) (g : String) (w : World) (p : Project) : ∃ shown w', w'.db = w.db ∧
    (h.listVisible g [p]).exec w = (.ok shown, w') ∧
      (Shows g w p ∧ (∃ snapshotId, shown = [h.remote p snapshotId]) ∨ ¬ Shows g w p ∧ shown = []) := by
  obtain ⟨b, w₁, hdb₁, hb, hshows⟩ := exec_visibleTo g w p
  simp only [listVisible, Prog.bind_eq, Prog.pure_eq]
  rw [Prog.exec_bind_of_ok hb]
  cases b with
  | false =>
    refine ⟨[], w₁, hdb₁, rfl, .inr ⟨fun hs => ?_, rfl⟩⟩
    have hfalse := hshows.2 hs
    cases hfalse
  | true =>
    rw [if_pos rfl, Prog.exec_bind_of_ok (Prog.exec_attempt _ _), Prog.exec_mapErr]
    exact ⟨_, _, (head_db p.id w₁).trans hdb₁, rfl, .inl ⟨hshows.1 rfl, _, rfl⟩⟩

/-! ## The loop -/

theorem exec_listVisible_cons {a b : List RemoteProject} {w₁ w₂ : World} (hp : (h.listVisible g [p]).exec w = (.ok a, w₁))
    (hps : (h.listVisible g ps).exec w₁ = (.ok b, w₂)) : (h.listVisible g (p :: ps)).exec w = (.ok (a ++ b), w₂) := by
  simp only [listVisible, Prog.bind_eq, Prog.pure_eq] at hp ⊢
  obtain ⟨shows, w', hshows, hp⟩ := Prog.exec_bind_ok.1 hp
  rw [Prog.exec_bind_of_ok hshows]
  cases shows with
  | false =>
    cases hp
    exact hps
  | true =>
    obtain ⟨head, w'', hhead, hp⟩ := Prog.exec_bind_ok.1 hp
    cases hp
    rw [if_pos rfl, Prog.exec_bind_of_ok hhead, Prog.exec_bind_of_ok hps]
    rfl

theorem exec_listVisible_ok (h : PeerHandler) (g : String) (ps : List Project) (w : World) :
    ∃ shown w', w'.db = w.db ∧ (h.listVisible g ps).exec w = (.ok shown, w') := by
  induction ps generalizing w with
  | nil => exact ⟨[], w, rfl, rfl⟩
  | cons p ps ih =>
    obtain ⟨one, w₁, hdb₁, hone, -⟩ := exec_listVisible_one h g w p
    obtain ⟨rest, w₂, hdb₂, hrest⟩ := ih w₁
    exact ⟨one ++ rest, w₂, hdb₂.trans hdb₁, exec_listVisible_cons hone hrest⟩

/-- The state in which the project with the given index is looked at. -/
def turn (h : PeerHandler) (g : String) (ps : List Project) (w : World) (i : Nat) : World :=
  ((h.listVisible g (ps.take i)).exec w).2

theorem turn_db (h : PeerHandler) (g : String) (ps : List Project) (w : World) (i : Nat) : (h.turn g ps w i).db = w.db := by
  obtain ⟨shown, w', hdb, hrun⟩ := exec_listVisible_ok h g (ps.take i) w
  rw [turn, hrun]
  exact hdb

theorem turn_succ {one : List RemoteProject} {w₁ : World} (hone : (h.listVisible g [p]).exec w = (.ok one, w₁)) (i : Nat) :
    h.turn g (p :: ps) w (i + 1) = h.turn g ps w₁ i := by
  obtain ⟨shown, w', -, hrun⟩ := exec_listVisible_ok h g (ps.take i) w₁
  rw [turn, turn, List.take_succ_cons, exec_listVisible_cons hone hrun, hrun]

/-- The loop shows what each project's turn shows. -/
theorem exec_listVisible (h : PeerHandler) (g : String) (ps : List Project) (w : World) : ∃ shown w',
    (h.listVisible g ps).exec w = (.ok shown, w') ∧ (shown.map (·.projectId)).Sublist (ps.map (·.id)) ∧
      ∀ id, id ∈ shown.map (·.projectId) ↔
        ∃ (i : Nat) (p : Project), ps[i]? = some p ∧ p.id = id ∧ Shows g (h.turn g ps w i) p := by
  induction ps generalizing w with
  | nil => exact ⟨[], w, rfl, .slnil, by simp⟩
  | cons p ps ih =>
    obtain ⟨one, w₁, -, hone, hshown⟩ := exec_listVisible_one h g w p
    obtain ⟨rest, w₂, hrest, hsub, hmem⟩ := ih w₁
    have hfirst : ∀ id, id ∈ one.map (·.projectId) ↔ p.id = id ∧ Shows g w p := by
      intro id
      rcases hshown with ⟨hs, snapshotId, rfl⟩ | ⟨hs, rfl⟩
      · simp [remote, hs, eq_comm]
      · simp [hs]
    refine ⟨one ++ rest, w₂, exec_listVisible_cons hone hrest, ?_, fun id => ?_⟩
    · rcases hshown with ⟨-, snapshotId, rfl⟩ | ⟨-, rfl⟩
      · exact hsub.cons_cons p.id
      · exact hsub.cons p.id
    · rw [List.map_append, List.mem_append, hfirst, hmem]
      constructor
      · rintro (⟨hid, hs⟩ | ⟨i, q, hq, hid, hs⟩)
        · exact ⟨0, p, rfl, hid, hs⟩
        · exact ⟨i + 1, q, hq, hid, by rwa [turn_succ hone]⟩
      · rintro ⟨i, q, hq, hid, hs⟩
        cases i with
        | zero =>
          cases hq
          exact .inl ⟨hid, hs⟩
        | succ i =>
          rw [turn_succ hone] at hs
          exact .inr ⟨i, q, hq, hid, hs⟩

/-! ## The listing -/

/-- The projects in the order in which the handler goes through them. -/
def inOrder (db : Db) : List Project := db.projects.rows.insertionSort fun a b => b.createdAt.le a.createdAt

theorem mem_inOrder {db : Db} : p ∈ inOrder db ↔ p ∈ db.projects.rows := List.mem_insertionSort _

theorem nodup_inOrder (db : Db) : ((inOrder db).map (·.id)).Nodup := by
  have hrows : (db.projects.rows.map (·.id)).Nodup := by
    refine List.pairwise_map.2 (db.projects.unique.imp fun {a b} hab hid => ?_)
    simp [Constraints.clash, hid] at hab
  exact ((List.perm_insertionSort _ db.projects.rows).map _).nodup_iff.2 hrows

/-- A project has one turn. -/
theorem turn_unique {db : Db} {q : Project} {i j : Nat} (hp : (inOrder db)[i]? = some p) (hq : (inOrder db)[j]? = some q)
    (hid : p.id = q.id) : i = j := by
  have hi : i < ((inOrder db).map (·.id)).length := by
    rw [List.length_map]
    exact (List.getElem?_eq_some_iff.1 hp).1
  refine (List.getElem?_inj hi (nodup_inOrder db)).1 ?_
  rw [List.getElem?_map, List.getElem?_map, hp, hq, Option.map_some, Option.map_some, hid]

/-- The rows of the projects can be read, if there are any. -/
def ProjectsRead (w : World) : Prop := w.AsShipped → w.db.projects.rows = []

theorem exec_list_iff {all : List Project} {w' : World} :
    Projects.list.exec w = (.ok all, w') ↔ Passes w ∧ (all = inOrder w.db ∧ ProjectsRead w) ∧ w' = w.tick := by
  have hnone : inOrder w.db = [] ↔ w.db.projects.rows = [] := by
    rw [← List.length_eq_zero_iff, inOrder, List.length_insertionSort, List.length_eq_zero_iff]
  rw [Projects.list, exec_fetch_iff, Engine.decodeRows_eq_some]
  show Passes w ∧ (all = inOrder w.db ∧ (w.AsShipped → inOrder w.db = [])) ∧ _ ↔ _
  rw [hnone]
  rfl

theorem listProjects_run {r : ListProjectsRequest} {resp : ListProjectsResponse} {w' : World} {claims : PeerClaims}
    (hv : h.auth.validateFor r.jwt h.gatewayName w.now = .ok claims) :
    (h.listProjects r).exec w = (.ok resp, w') ↔ Passes w ∧ ProjectsRead w ∧ resp.error = "" ∧
      (h.listVisible claims.iss (inOrder w.db)).exec w.tick = (.ok resp.projects, w') := by
  simp only [listProjects, Prog.bind_eq, Prog.pure_eq]
  rw [Prog.exec_bind_of_ok (exec_authJwt_valid hv), Prog.exec_bind_ok]
  constructor
  · rintro ⟨all, w₁, hall, hrun⟩
    obtain ⟨hp, ⟨rfl, hread⟩, rfl⟩ := exec_list_iff.1 (Prog.exec_mapErr_ok.1 hall)
    obtain ⟨shown, w₂, hshown, hresp⟩ := Prog.exec_bind_ok.1 hrun
    cases hresp
    exact ⟨hp, hread, rfl, hshown⟩
  · rintro ⟨hp, hread, herror, hshown⟩
    refine ⟨_, _, Prog.exec_mapErr_of_ok (exec_list_iff.2 ⟨hp, ⟨rfl, hread⟩, rfl⟩), ?_⟩
    obtain ⟨projects, error⟩ := resp
    cases herror
    exact Prog.exec_bind_of_ok hshown

/-- A valid request is answered unless the projects cannot be read. -/
theorem listProjects_answers {r : ListProjectsRequest} {claims : PeerClaims}
    (hv : h.auth.validateFor r.jwt h.gatewayName w.now = .ok claims) :
    (∃ resp w', (h.listProjects r).exec w = (.ok resp, w')) ↔ Passes w ∧ ProjectsRead w := by
  constructor
  · rintro ⟨resp, w', hrun⟩
    obtain ⟨hp, hread, -⟩ := (listProjects_run hv).1 hrun
    exact ⟨hp, hread⟩
  · rintro ⟨hp, hread⟩
    obtain ⟨shown, w', -, hrun⟩ := exec_listVisible_ok h claims.iss (inOrder w.db) w.tick
    exact ⟨⟨shown, ""⟩, w', (listProjects_run hv).2 ⟨hp, hread, rfl, hrun⟩⟩

/-- The listing is exact if each project is shown at its turn just when the requester is entitled to it. -/
theorem exactListing_iff {listed : List RemoteProject} {db : Db} {turns : Nat → World}
    (hsub : (listed.map (·.projectId)).Sublist ((inOrder db).map (·.id)))
    (hmem : ∀ id, id ∈ listed.map (·.projectId) ↔
      ∃ (i : Nat) (p : Project), (inOrder db)[i]? = some p ∧ p.id = id ∧ Shows g (turns i) p) :
    ExactListing db g listed ↔
      ∀ (i : Nat) (p : Project), (inOrder db)[i]? = some p → (Entitled db g p ↔ Shows g (turns i) p) := by
  constructor
  · intro hexact i p hp
    have hrow : p ∈ db.projects.rows := mem_inOrder.1 (List.mem_of_getElem? hp)
    constructor
    · intro he
      obtain ⟨j, q, hq, hid, hs⟩ := (hmem p.id).1 ((hexact.entitled p.id).2 ⟨p, hrow, rfl, he⟩)
      cases turn_unique hp hq hid.symm
      cases hp.symm.trans hq
      exact hs
    · intro hs
      obtain ⟨q, hq, hid, he⟩ := (hexact.entitled p.id).1 ((hmem p.id).2 ⟨i, p, hp, rfl, hs⟩)
      cases Table.eq_of_clash _ hq hrow (by simp [Constraints.clash, hid])
      exact he
  · intro h
    refine ⟨(nodup_inOrder db).sublist hsub, fun id => ?_⟩
    rw [hmem]
    constructor
    · rintro ⟨i, p, hp, hid, hs⟩
      exact ⟨p, mem_inOrder.1 (List.mem_of_getElem? hp), hid, (h i p hp).2 hs⟩
    · rintro ⟨p, hrow, hid, he⟩
      obtain ⟨i, hp⟩ := List.mem_iff_getElem?.1 (mem_inOrder.2 hrow)
      exact ⟨i, p, hp, hid, (h i p hp).1 he⟩

/-- For each group-visible project, being in some group comes to being in a group of the project, and the query for it
does not fail where the project is to be shown. -/
def GroupsTold (h : PeerHandler) (g : String) (w : World) : Prop :=
  ∀ (i : Nat) (p : Project), (inOrder w.db)[i]? = some p → p.visibility = .group →
    (Entitled w.db g p ↔ Passes (h.turn g (inOrder w.db) w.tick i) ∧ InSomeGroup w.db g)

theorem exactListing_iff_groupsTold {r : ListProjectsRequest} {resp : ListProjectsResponse} {w' : World}
    {claims : PeerClaims} (hv : h.auth.validateFor r.jwt h.gatewayName w.now = .ok claims)
    (hrun : (h.listProjects r).exec w = (.ok resp, w')) :
    ExactListing w.db claims.iss resp.projects ↔ h.GroupsTold claims.iss w := by
  obtain ⟨shown, w'', hshown, hsub, hmem⟩ := exec_listVisible h claims.iss (inOrder w.db) w.tick
  rw [((listProjects_run hv).1 hrun).2.2.2] at hshown
  cases hshown
  rw [exactListing_iff hsub hmem]
  refine forall_congr' fun i => forall_congr' fun p => forall_congr' fun _ => ?_
  unfold Shows
  rw [turn_db, World.tick_db]
  cases hvis : p.visibility with
  | «public» => simp [Entitled, hvis]
  | lanOnly => simp [Entitled, hvis]
  | group => simp

/-- **A valid request is answered with the exact listing if and only if the projects can be read, which as shipped they
can be where there are none, and being in some group comes to being in a group of the project.** A listing that is
given is exact on the last condition alone. -/
theorem listProjects_exact_iff {r : ListProjectsRequest} {claims : PeerClaims}
    (hv : h.auth.validateFor r.jwt h.gatewayName w.now = .ok claims) :
    ((∃ resp w', (h.listProjects r).exec w = (.ok resp, w') ∧ ExactListing w.db claims.iss resp.projects) ↔
      Passes w ∧ (w.AsShipped → w.db.projects.rows = []) ∧ h.GroupsTold claims.iss w) ∧
    ∀ resp w', (h.listProjects r).exec w = (.ok resp, w') →
      (ExactListing w.db claims.iss resp.projects ↔ h.GroupsTold claims.iss w) := by
  refine ⟨⟨?_, ?_⟩, fun resp w' hrun => exactListing_iff_groupsTold hv hrun⟩
  · rintro ⟨resp, w', hrun, hexact⟩
    obtain ⟨hp, hread, -⟩ := (listProjects_run hv).1 hrun
    exact ⟨hp, hread, (exactListing_iff_groupsTold hv hrun).1 hexact⟩
  · rintro ⟨hp, hread, htold⟩
    obtain ⟨resp, w', hrun⟩ := (listProjects_answers hv).2 ⟨hp, hread⟩
    exact ⟨resp, w', hrun, (exactListing_iff_groupsTold hv hrun).2 htold⟩

end

/-! ## Gateways with a project -/

namespace DemoListing

def owners : Uuid := ⟨"00000000-0000-4000-8000-0000000000aa", Uuid.hex_aa⟩

def others : Uuid := ⟨"00000000-0000-4000-8000-0000000000bb", Uuid.hex_bb⟩

/-- The project is in the group `owners`, `gw-b` is in the given group. -/
def setup (joined : Uuid) : Gw Unit := do
  let _ ← Groups.createGroup owners "owners" "" "gw-a"
  let _ ← Groups.createGroup others "others" "" "gw-a"
  Groups.addMember joined.text "gw-b" "gw-a"
  let _ ← Projects.create demoId "demo" "https://x.com" "" "gw-a" "" ""
  Projects.setVisibility demoId.text .group
  Groups.addProject owners.text demoId.text

def world (joined : Uuid) : World := ((setup joined).exec { World.fresh .widening with now := .fin 1000 }).2

/-- A gateway as shipped that has created the project, and one whose project was made public while columns could be
read. -/
def created [Sha256] [HmacSha256] : World := replay demoGateway demoSetup

def opened [Sha256] [HmacSha256] : World := demoFilled [.group, .public]

def listed : List RemoteProject := [⟨demoId.text, "demo", "https://x.com", "", "group", "", "gw-a"⟩]

def claims : PeerClaims := ⟨"gw-b", "gw-a", 4600, 1000, "sync"⟩

theorem valid {w : World} (h : w.now = .fin 1000) : demoHandler.auth.validateFor "token" "gw-a" w.now = .ok claims := by
  rw [h]
  decide +kernel

end DemoListing

open DemoListing in
/-- With the columns decoded, a member of the owning group sees what it is entitled to see. -/
theorem listProjects_exact_owners : ∃ resp w', (demoHandler.listProjects ⟨"token", ""⟩).exec (world owners) = (.ok resp, w') ∧
    ExactListing (world owners).db "gw-b" resp.projects := by
  have hvalid : demoHandler.auth.validateFor "token" demoHandler.gatewayName (world owners).now = .ok claims :=
    valid (by decide +kernel)
  refine (listProjects_exact_iff (h := demoHandler) (r := ⟨"token", ""⟩) hvalid).1.2 ⟨by decide +kernel, ?_, fun i p hp _ => ?_⟩
  · intro hship
    exact absurd hship (by decide +kernel)
  · have hall : ∀ q ∈ (world owners).db.projects.rows, Entitled (world owners).db "gw-b" q := by decide +kernel
    have hlen : (inOrder (world owners).db).length = 1 := by decide +kernel
    have hi : i < (inOrder (world owners).db).length := (List.getElem?_eq_some_iff.1 hp).1
    obtain rfl : i = 0 := by omega
    have hgroup : InSomeGroup (world owners).db "gw-b" := by decide +kernel
    have hpasses : Passes (world owners).tick := by decide +kernel
    exact iff_of_true (hall p (mem_inOrder.1 (List.mem_of_getElem? hp))) ⟨hpasses, hgroup⟩

open DemoListing in
/-- **As shipped a gateway with a project lists nothing**, not even that there is nothing to show, and not the public
project either. -/
theorem listing_fails : letI := demoSha256; letI := HmacSha256.recorded []
    (∃ w', (demoHandler.listProjects ⟨"token", ""⟩).exec created = (.error ⟨.internal, "list projects"⟩, w')) ∧
      created.db.projects.rows.map (·.visibility) = [.lanOnly] ∧
      (∃ w', (demoHandler.listProjects ⟨"token", ""⟩).exec opened = (.error ⟨.internal, "list projects"⟩, w')) ∧
      ∃ p ∈ opened.db.projects.rows, p.id = demoId.text ∧ Entitled opened.db "gw-b" p := by
  let := demoSha256
  let := HmacSha256.recorded []
  have hfails : ((demoHandler.listProjects ⟨"token", ""⟩).exec created).1 = .error ⟨.internal, "list projects"⟩ ∧
      ((demoHandler.listProjects ⟨"token", ""⟩).exec opened).1 = .error ⟨.internal, "list projects"⟩ := by decide +kernel
  exact ⟨⟨_, Prog.exec_eq_of_fst hfails.1⟩, by decide +kernel, ⟨_, Prog.exec_eq_of_fst hfails.2⟩, by decide +kernel⟩

-- With the columns decoded, `gw-b`, a member of another group, is shown a project of a group that it is not in.
open DemoListing in
example : ((demoHandler.listProjects ⟨"token", ""⟩).exec (world others)).1 = .ok ⟨listed, ""⟩ ∧
    Closed (world others).db "gw-b" demoId.text := by
  decide +kernel

end PeerHandler

end A2AGateway
