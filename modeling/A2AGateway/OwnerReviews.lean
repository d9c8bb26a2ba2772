import A2AGateway.Projects
import A2AGateway.Voting

/-!
# Who accepts a proposal

With at most two gateways a proposal "[r]equires PR review by origin owner" (`contributions.rs:7`),
and "origin owner approves" it (`contributions.rs:15`). `accept_pr` and `reject_pr` take the name of
any reviewer and write it down; `review_pr` passes the name of its own gateway
(`web/projects.rs:279-291`). As shipped neither can read the proposal, so that it stays `pr_pending`. Where the columns
are read, what is accepted is accepted by the origin of its project if and only if nobody else calls `accept_pr`
(`accepted_by_origin_iff`).
-/

namespace A2AGateway

open Gw Contributions

namespace Contributions

/-! ## The two updates -/

/-- What `set_status` makes of a proposal. -/
def withStatus (status : ProposalStatus) (p : Proposal) : Proposal := { p with status }

/-- What `resolve` makes of a proposal. -/
def withResolution (status : ProposalStatus) (now : F64) (resolvedBy : String) (p : Proposal) : Proposal :=
  { p with status, resolvedAt := some now, resolvedBy := some resolvedBy }

@[simp] theorem withStatus_id (status : ProposalStatus) (p : Proposal) : (withStatus status p).id = p.id := rfl

@[simp] theorem withResolution_id (status : ProposalStatus) (now : F64) (resolvedBy : String) (p : Proposal) :
    (withResolution status now resolvedBy p).id = p.id := rfl

/-- The database after `set_status`. -/
def afterSetStatus (id : String) (status : ProposalStatus) (db : Db) : Db :=
  updateProposal id (withStatus status) (withStatus_id status) db

/-- The database after `resolve`. -/
def afterResolve (id : String) (status : ProposalStatus) (now : F64) (resolvedBy : String) (db : Db) : Db :=
  updateProposal id (withResolution status now resolvedBy) (withResolution_id status now resolvedBy) db

/-- The database after both updates of `accept_pr`. -/
def acceptedBy (id reviewer : String) (now : F64) (db : Db) : Db :=
  afterResolve id .accepted now reviewer (afterSetStatus id .prAccepted db)

section
variable {id reviewer : String} {p : Proposal} {w : World}

theorem setStatus_eq (id : String) (status : ProposalStatus) : setStatus id status =
    execute (.msg "set proposal status") fun _ db => some (afterSetStatus id status db) := rfl

theorem resolve_eq (id : String) (status : ProposalStatus) (resolvedBy : String) : resolve id status resolvedBy =
    (Prog.look (·.now)).bind fun now => execute (.msg "resolve proposal") fun _ db =>
      some (afterResolve id status now resolvedBy db) := rfl

theorem proposalRow_afterSetStatus {status : ProposalStatus} {db : Db} :
    proposalRow (afterSetStatus id status db) id = (proposalRow db id).map (withStatus status) :=
  proposalRow_updateProposal _ _

theorem proposalRow_afterResolve {status : ProposalStatus} {now : F64} {db : Db} :
    proposalRow (afterResolve id status now reviewer db) id =
      (proposalRow db id).map (withResolution status now reviewer) :=
  proposalRow_updateProposal _ _

theorem proposalRow_acceptedBy {now : F64} {db : Db} (hp : proposalRow db id = some p) :
    proposalRow (acceptedBy id reviewer now db) id = some (withResolution .accepted now reviewer p) := by
  unfold acceptedBy
  rw [proposalRow_afterResolve, proposalRow_afterSetStatus, hp]
  rfl

/-- A proposal that is there can be read. -/
theorem exec_get_legible (h : w.Legible) (hp : proposalRow w.db id = some p) :
    (Contributions.get id).exec w = (.ok (some p), w) := by
  rw [← hp]
  exact exec_fetch_of_some h.1 (Engine.decodeRow_widened h.2 _)

/-- A review of a proposal that is pending. -/
theorem exec_acceptPr_pending (h : w.Legible) (hp : proposalRow w.db id = some p) (hpending : p.status = .prPending) :
    (acceptPr id reviewer).exec w = (.ok (), { w with db := acceptedBy id reviewer w.now w.db }) := by
  unfold acceptPr
  simp only [Prog.bind_eq]
  rw [Prog.exec_bind_of_ok (exec_get_legible h hp), orThrow, Prog.ret_bind, if_neg (not_not.2 hpending), setStatus_eq,
    Prog.exec_bind_of_ok (exec_execute_calm h.1), resolve_eq, Prog.exec_bind_of_ok (Prog.exec_look _ _)]
  exact exec_execute_calm h.1

/-! ## What every statement keeps -/

/-- What holds of the database still does. -/
abbrev Keeps (I : Db → Prop) (w w' : World) : Prop := I w.db → I w'.db

variable {I : Db → Prop}

theorem keeps_setStatus {status : ProposalStatus}
    (h : ∀ db, I db → I (afterSetStatus id status db)) :
    (setStatus id status).Moves (Keeps I) := by
  rw [setStatus_eq]
  refine moves_execute (fun _ hi => hi) fun w db hdb hi => ?_
  cases hdb
  exact h _ hi

theorem keeps_resolve {status : ProposalStatus} {resolvedBy : String}
    (h : ∀ now db, I db → I (afterResolve id status now resolvedBy db)) :
    (resolve id status resolvedBy).Moves (Keeps I) := by
  rw [resolve_eq]
  refine (Prog.moves_look (fun _ hi => hi) _).bind fun now => moves_execute (fun _ hi => hi) fun w db hdb hi => ?_
  cases hdb
  exact h now _ hi

/-- A call that goes on only while its proposal has the status keeps what its other steps keep. -/
theorem keeps_in_status {α : Type} {status : ProposalStatus} {e : Proposal → Err} {rest : Proposal → Gw α}
    (h : ∀ p, (rest p).Moves (Keeps I)) :
    ((Contributions.get id).bind fun row => (orThrow (.msg "proposal not found") row).bind fun p =>
      if p.status ≠ status then Prog.fail (e p) else rest p).Moves (Keeps I) := by
  unfold Contributions.get
  refine (moves_fetch fun _ hi => hi).bind fun row => moves_orThrow.bind fun p => ?_
  split
  · trivial
  · exact h p

theorem keeps_acceptPr (hset : ∀ db, I db → I (afterSetStatus id .prAccepted db))
    (hresolve : ∀ now db, I db → I (afterResolve id .accepted now reviewer db)) :
    (acceptPr id reviewer).Moves (Keeps I) := by
  refine keeps_in_status fun p => ?_
  exact (keeps_setStatus hset).bind fun _ => keeps_resolve hresolve

theorem keeps_rejectPr (hresolve : ∀ now db, I db → I (afterResolve id .rejected now reviewer db)) :
    (rejectPr id reviewer).Moves (Keeps I) := by
  refine keeps_in_status fun p => ?_
  exact keeps_resolve hresolve

end

end Contributions

/-! ## Who may accept -/

/-- The gateway that the project comes from. -/
def originOf (db : Db) (projectId : String) : Option String := (Projects.byId db projectId).map (·.originGateway)

/-- If the proposal is accepted, then by the gateway that its project comes from. -/
def AcceptedByOrigin (id : String) (db : Db) : Prop :=
  ∀ p, proposalRow db id = some p → p.status = .accepted →
    ∃ reviewer, p.resolvedBy = some reviewer ∧ originOf db p.projectId = some reviewer

/-- The reviews of the proposal; `may` says who calls `accept_pr`. -/
def Reviews (id : String) (may : String → Prop) (_ : World) (p : Gw Unit) : Prop :=
  (∃ reviewer, may reviewer ∧ p = acceptPr id reviewer) ∨ ∃ reviewer, p = rejectPr id reviewer

/-- The rest of the gateway leaves the proposal and the origin of its project alone. -/
def LeavesOrigin (id projectId : String) (w w' : World) : Prop :=
  proposalRow w'.db id = proposalRow w.db id ∧ originOf w'.db projectId = originOf w.db projectId ∧
    w'.db.engine = w.db.engine

/-- The proposal is for the project, and if it is accepted then by the project's origin. -/
def ofOrigin (id projectId : String) (origin : Option String) : Discipline Db where
  inv db := originOf db projectId = origin ∧ ∀ p, proposalRow db id = some p →
    p.projectId = projectId ∧ (p.status = .accepted → ∃ reviewer, p.resolvedBy = some reviewer ∧ origin = some reviewer)
  step _ _ := True
  refl _ := trivial
  trans _ _ _ _ _ := trivial

section
variable {id projectId : String} {origin : Option String} {w : World} {db : Db}

/-- An update of the proposal that accepts it only in the origin's name. -/
theorem ofOrigin_update {f : Proposal → Proposal} (hf : ∀ p, (f p).id = p.id) (hproject : ∀ p, (f p).projectId = p.projectId)
    (haccepts : ∀ p, (f p).status = .accepted → ∃ reviewer, (f p).resolvedBy = some reviewer ∧ origin = some reviewer)
    (hi : (ofOrigin id projectId origin).inv db) : (ofOrigin id projectId origin).inv (updateProposal id f hf db) := by
  refine ⟨hi.1, fun p hp => ?_⟩
  rw [proposalRow_updateProposal] at hp
  obtain ⟨q, hq, rfl⟩ := Option.map_eq_some_iff.1 hp
  exact ⟨(hproject q).trans (hi.2 q hq).1, haccepts q⟩

theorem moves_acceptPr {reviewer : String} (h : origin = some reviewer) :
    (acceptPr id reviewer).Moves (Keeps (ofOrigin id projectId origin).inv) :=
  keeps_acceptPr
    (fun _ => ofOrigin_update (withStatus_id .prAccepted) (fun _ => rfl) fun _ haccepted => by cases haccepted)
    fun now _ => ofOrigin_update (withResolution_id .accepted now reviewer) (fun _ => rfl) fun _ _ => ⟨reviewer, rfl, h⟩

theorem moves_rejectPr {reviewer : String} : (rejectPr id reviewer).Moves (Keeps (ofOrigin id projectId origin).inv) :=
  keeps_rejectPr fun now _ =>
    ofOrigin_update (withResolution_id .rejected now reviewer) (fun _ => rfl) fun _ haccepted => by cases haccepted

theorem obeys_review {may : String → Prop} {p : Gw Unit} (hmay : ∀ reviewer, may reviewer → origin = some reviewer)
    (h : Reviews id may w p) : p.Obeys ((ofOrigin id projectId origin).comap World.db) (fun _ _ => True) w := by
  have hmoves : p.Moves (Keeps (ofOrigin id projectId origin).inv) := by
    rcases h with ⟨reviewer, hreviewer, rfl⟩ | ⟨reviewer, rfl⟩
    · exact moves_acceptPr (hmay reviewer hreviewer)
    · exact moves_rejectPr
  have hboth : p.Moves fun w w' : World => ((ofOrigin id projectId origin).comap World.db).inv w →
      ((ofOrigin id projectId origin).comap World.db).step w w' ∧ ((ofOrigin id projectId origin).comap World.db).inv w' :=
    hmoves.mono fun w w' h hi => ⟨trivial, h hi⟩
  exact Prog.Obeys.post (Prog.Moves.obeys hboth (((ofOrigin id projectId origin).comap World.db).refl w)) fun _ _ _ => trivial

theorem open_exec_project {uuid : Uuid} {projectId proposerGateway proposerAgent snapshotId description : String}
    {gatewayCount : Int} {w₀ w : World} {p : Proposal}
    (h : (Contributions.open uuid projectId proposerGateway proposerAgent snapshotId description gatewayCount).exec w₀ =
      (.ok p, w)) : p.projectId = projectId := by
  obtain ⟨_, _, -, h⟩ := Prog.exec_bind_ok.1 h
  obtain ⟨_, _, -, hret⟩ := Prog.exec_bind_ok.1 h
  cases hret
  rfl

/-- As shipped, with this row. -/
def Pending (id : String) (p : Proposal) (w : World) : Prop := w.AsShipped ∧ proposalRow w.db id = some p

theorem upholds_review {may : String → Prop} {p : Proposal} {prog : Gw Unit} (h : Reviews id may w prog) :
    prog.Upholds (Pending id p) fun _ => True := by
  rcases h with ⟨reviewer, -, rfl⟩ | ⟨reviewer, rfl⟩
  · exact (upholds_acceptPr_shipped (fun _ hw => hw.1) (fun _ hw => hw) id reviewer).post fun _ _ => trivial
  · exact (upholds_rejectPr_shipped (fun _ hw => hw.1) (fun _ hw => hw) id reviewer).post fun _ _ => trivial

/-- As shipped the reviews leave a proposal as it is. -/
theorem stays_pending {may : String → Prop} {p : Proposal} {c : Pool World Err}
    (h : Pool.Reachable (Pending id p) (Reviews id may) (LeavesOrigin id projectId) c) : Pending id p c.state := by
  refine h.upheld (fun _ hw => hw) (fun _ _ _ => upholds_review) fun w w' hw hleaves => ?_
  obtain ⟨hrow, -, hengine⟩ := hleaves
  refine ⟨?_, hrow.trans hw.2⟩
  rw [World.AsShipped, hengine]
  exact hw.1

theorem acceptedByOrigin_of_reviews {p : Proposal} (hrow : proposalRow w.db p.id = some p) (hpending : p.status = .prPending)
    {may : String → Prop} (hmay : ∀ reviewer, may reviewer → originOf w.db p.projectId = some reviewer)
    {c : Pool World Err} (hrun : Pool.Reachable (· = w) (Reviews p.id may) (LeavesOrigin p.id p.projectId) c) :
    AcceptedByOrigin p.id c.state.db := by
  intro q hq haccepted
  have hgood : Pool.Good ((ofOrigin p.id p.projectId (originOf w.db p.projectId)).comap World.db) c := by
    refine hrun.good ?_ (fun s prog _ hprog => obeys_review hmay hprog) ?_
    · rintro s rfl
      refine ⟨rfl, fun q hq => ?_⟩
      cases hrow.symm.trans hq
      exact ⟨rfl, fun haccepted => by cases hpending.symm.trans haccepted⟩
    · rintro s s' ⟨horigin, hproposal⟩ ⟨hsame, hsameOrigin, -⟩
      refine ⟨trivial, hsameOrigin.trans horigin, fun q hq => ?_⟩
      rw [hsame] at hq
      exact hproposal q hq
  obtain ⟨horigin, hproposal⟩ := hgood.1
  obtain ⟨hsame, haccepts⟩ := hproposal q hq
  rw [hsame, horigin]
  exact haccepts haccepted

/-- **What is accepted has been accepted by the origin of its project**: as shipped in every run, and where the columns
are read in every run if and only if only the origin calls `accept_pr`. -/
theorem accepted_by_origin_iff {uuid : Uuid} {projectId proposerGateway proposerAgent snapshotId description : String}
    {gatewayCount : Int} {w₀ w : World} {p : Proposal}
    (hopen : (Contributions.open uuid projectId proposerGateway proposerAgent snapshotId description gatewayCount).exec w₀ =
      (.ok p, w)) (hcount : gatewayCount ≤ 2) :
    (w.AsShipped → ∀ (may : String → Prop) c,
      Pool.Reachable (· = w) (Reviews p.id may) (LeavesOrigin p.id projectId) c → AcceptedByOrigin p.id c.state.db) ∧
    (w.db.engine.integers = .widened → ∀ may : String → Prop,
      (∀ c, Pool.Reachable (· = w) (Reviews p.id may) (LeavesOrigin p.id projectId) c → AcceptedByOrigin p.id c.state.db) ↔
        ∀ reviewer, may reviewer → originOf w.db projectId = some reviewer) := by
  obtain ⟨hid, -, hstatus, -, hrow, -⟩ := open_exec_ok hopen
  rw [if_neg (Int.not_lt.2 hcount)] at hstatus
  rw [← hid] at hrow
  obtain rfl : p.projectId = projectId := open_exec_project hopen
  refine ⟨fun hship may c ⟨s, hs, hrun⟩ q hq haccepted => ?_, fun hwide may => ⟨fun h reviewer hmay => ?_, fun hmay c =>
    acceptedByOrigin_of_reviews hrow hstatus hmay⟩⟩
  · subst hs
    obtain ⟨-, hstays⟩ := stays_pending (p := p) ⟨s, ⟨hship, hrow⟩, hrun⟩
    cases hstays.symm.trans hq
    cases hstatus.symm.trans haccepted
  · -- the reviewer accepts the proposal as it was opened, with nothing in the way
    have hquiet : LeavesOrigin p.id p.projectId w w.calm := ⟨rfl, rfl, rfl⟩
    have hinit : Pool.Reachable (· = w) (Reviews p.id may) (LeavesOrigin p.id p.projectId) ⟨w, []⟩ :=
      Pool.Reachable.initial rfl
    obtain ⟨ts, hreach⟩ := (hinit.moved hquiet).run (p := acceptPr p.id reviewer) (.inl ⟨reviewer, hmay, rfl⟩)
    have hexec : (acceptPr p.id reviewer).exec w.calm =
        (.ok (), { w.calm with db := acceptedBy p.id reviewer w.calm.now w.db }) :=
      exec_acceptPr_pending ⟨rfl, hwide⟩ hrow hstatus
    simp only [hexec] at hreach
    obtain ⟨reviewer', hby, horigin⟩ := h _ hreach _ (proposalRow_acceptedBy hrow) rfl
    cases hby
    exact horigin

end

namespace DemoOwner

/-- A snapshot of a project of gw-a. -/
def state (engine : Engine) : World :=
  { World.fresh with db := { Db.empty engine with
    projects := ⟨[{ id := "p", name := "p", originGateway := "gw-a" }], List.pairwise_singleton _ _⟩
    snapshots := ⟨[⟨"s", "p", "gw-b", "", .fin 0⟩], List.pairwise_singleton _ _⟩ } }

def proposalId : Uuid := ⟨"00000000-0000-4000-8000-0000000000aa", Uuid.hex_aa⟩

/-- The proposal that gw-b opens for its own contribution. -/
def proposal : Proposal where
  id := proposalId.text
  projectId := "p"
  proposerGateway := "gw-b"
  proposerAgent := "writer"
  snapshotId := "s"
  description := ""
  status := .prPending
  gatewayCount := 2
  createdAt := .fin 0

def opened (engine : Engine) : World :=
  ((Contributions.open proposalId "p" "gw-b" "writer" "s" "" 2).exec (state engine)).2

theorem exec_open_shipped : (Contributions.open proposalId "p" "gw-b" "writer" "s" "" 2).exec (state .shipped) =
    (.ok proposal, opened .shipped) :=
  Prod.ext (by decide +kernel) rfl

theorem exec_open : (Contributions.open proposalId "p" "gw-b" "writer" "s" "" 2).exec (state .widening) =
    (.ok proposal, opened .widening) :=
  Prod.ext (by decide +kernel) rfl

end DemoOwner

open DemoOwner in
/-- As shipped gw-b calls `accept_pr` on its own contribution, which stays as it is. Where the columns are read, gw-a, the
one reviewer there is, accepts it. -/
theorem accepted_by_origin_iff_demo :
    (∃ c : Pool World Err, c.threads.length = 1 ∧
      (proposalRow c.state.db proposal.id).map (·.status) = some .prPending ∧ AcceptedByOrigin proposal.id c.state.db) ∧
    ∃ c : Pool World Err, (proposalRow c.state.db proposal.id).map (·.status) = some .accepted ∧
      AcceptedByOrigin proposal.id c.state.db := by
  constructor
  · have hreach : Pool.Reachable (· = opened .shipped) (Reviews proposal.id fun _ => True) (LeavesOrigin proposal.id "p")
        (Pool.schedule [0] ⟨opened .shipped, [acceptPr proposal.id "gw-b"]⟩) :=
      ⟨_, rfl, (Relation.ReflTransGen.single (.start (.inl ⟨"gw-b", trivial, rfl⟩))).trans (Pool.schedule_run _ _)⟩
    exact ⟨_, rfl, by decide +kernel, (accepted_by_origin_iff exec_open_shipped (by decide)).1 rfl _ _ hreach⟩
  · have hinit : Pool.Reachable (· = opened .widening) (Reviews proposal.id (· = "gw-a")) (LeavesOrigin proposal.id "p")
        ⟨opened .widening, []⟩ := Pool.Reachable.initial rfl
    obtain ⟨ts, hreach⟩ := hinit.run (p := acceptPr proposal.id "gw-a") (.inl ⟨"gw-a", rfl, rfl⟩)
    have hstatus : (proposalRow ((acceptPr proposal.id "gw-a").exec (opened .widening)).2.db proposal.id).map (·.status) =
        some .accepted := by decide +kernel
    refine ⟨_, hstatus, ((accepted_by_origin_iff exec_open (by decide)).2 rfl (· = "gw-a")).2 ?_ _ hreach⟩
    rintro _ rfl
    decide +kernel

open DemoOwner in
-- Where the columns are read, the proposer accepts its own contribution.
example :
    let w := ((acceptPr proposal.id "gw-b").exec (opened .widening)).2
    originOf w.db "p" = some "gw-a" ∧ (proposalRow w.db proposal.id).map (fun p => (p.status, p.resolvedBy, p.proposerGateway)) =
      some (.accepted, some "gw-b", "gw-b") := by
  decide +kernel

end A2AGateway
