import A2AGateway.World

/-!
# Contribution proposals and votes (`contributions.rs`)

| here | there |
| --- | --- |
| `open`                      | `contributions.rs:107-150` |
| `get`                       | `contributions.rs:152-158` |
| `castVote`                  | `contributions.rs:172-200` |
| `checkVoteOutcome`          | `contributions.rs:202-228` |
| `acceptPr`, `rejectPr`      | `contributions.rs:232-250` |
| `setStatus`, `resolve`      | `contributions.rs:254-269` |
| `VoteOutcome`               | `contributions.rs:272-277` |

The UUIDs that `open` and `cast_vote` draw are their parameters. A proposal has the `INTEGER` column
`gateway_count`, so that `get` depends on the database's `Engine`: as shipped it never returns one (`get_refused`).
-/

namespace A2AGateway

open Gw

inductive VoteOutcome
  | accepted
  | rejected
  | pending (approvals rejections needed : Int)
deriving DecidableEq, Repr

namespace Contributions

/-- `SELECT * FROM contribution_proposals WHERE id = $1`. -/
def proposalRow (db : Db) (id : String) : Option Proposal := db.contributionProposals.find? (·.id == id)

/-- The votes on a proposal. -/
def votesOn (db : Db) (proposalId : String) : List Vote :=
  db.contributionVotes.rows.filter (·.proposalId == proposalId)

/-- The recorded votes of one kind. -/
def tallyOf (db : Db) (proposalId : String) (kind : VoteKind) : Int :=
  ((votesOn db proposalId).countP (·.vote == kind) : Nat)

/-- `(total / 2) + 1`, on `i64`. -/
def majority (total : Int) : Int := total.tdiv 2 + 1

/-! ## Statements -/

/-- `INSERT INTO contribution_proposals`. -/
def insertProposal (p : Proposal) (db : Db) : Option Db :=
  if fitsInteger p.gatewayCount && db.hasProject p.projectId && db.hasSnapshot p.snapshotId then
    (db.contributionProposals.insert p).map fun contributionProposals => { db with contributionProposals }
  else none

/-- `INSERT INTO contribution_votes .. ON CONFLICT (proposal_id, gateway_name, agent_name) DO NOTHING`:
only that constraint is passed over, a taken id or a missing proposal is an error. -/
def insertVote (v : Vote) (db : Db) : Option Db :=
  if db.contributionVotes.rows.any (·.sameVoter v) then
    some db
  else if db.hasProposal v.proposalId then
    (db.contributionVotes.insert v).map fun contributionVotes => { db with contributionVotes }
  else none

/-- `SELECT SUM(..), SUM(..)`: NULL over no rows at all, which does not decode. -/
def tally (db : Db) (proposalId : String) : Option (Int × Int) :=
  if votesOn db proposalId = [] then none
  else some (tallyOf db proposalId .approve, tallyOf db proposalId .reject)

/-- `UPDATE contribution_proposals SET .. WHERE id = $n`. -/
def updateProposal (id : String) (f : Proposal → Proposal) (hf : ∀ p, (f p).id = p.id) (db : Db) : Db :=
  { db with contributionProposals :=
      db.contributionProposals.update (·.id == id) f fun a b => by simp only [Constraints.clash, hf] }

/-! ## The store -/

def «open» (id : Uuid) (projectId proposerGateway proposerAgent snapshotId description : String)
    (gatewayCount : Int) : Gw Proposal := do
  let now ← nowSecs
  -- "Auto-assign initial status based on gateway count"
  let status := if 2 < gatewayCount then .voting else .prPending
  let proposal : Proposal :=
    { id := id.text, projectId, proposerGateway, proposerAgent, snapshotId, description, status, gatewayCount,
      createdAt := now }
  execute (.msg "open proposal") fun _ db => insertProposal proposal db
  return proposal

def get (id : String) : Gw (Option Proposal) :=
  fetch (.msg "get proposal") fun db => db.engine.decodeRow (proposalRow db id)

def setStatus (id : String) (status : ProposalStatus) : Gw Unit :=
  execute (.msg "set proposal status") fun _ db =>
    some (updateProposal id (fun p => { p with status }) (fun _ => rfl) db)

def resolve (id : String) (status : ProposalStatus) (resolvedBy : String) : Gw Unit := do
  let now ← nowSecs
  execute (.msg "resolve proposal") fun _ db =>
    some (updateProposal id
      (fun p => { p with status, resolvedAt := some now, resolvedBy := some resolvedBy }) (fun _ => rfl) db)

def checkVoteOutcome (proposalId : String) (proposal : Proposal) : Gw VoteOutcome := do
  let (approvals, rejections) ←
    orThrow (.msg "tally votes") (← query (.msg "tally votes") fun db => tally db proposalId)
  let needed := majority proposal.gatewayCount
  if needed ≤ approvals then
    resolve proposalId .accepted "vote-majority"
    return .accepted
  else if needed ≤ rejections then
    resolve proposalId .rejected "vote-majority"
    return .rejected
  else
    return .pending approvals rejections needed

def castVote (voteId : Uuid) (proposalId gatewayName agentName : String) (vote : VoteKind) (reason : String) :
    Gw VoteOutcome := do
  let proposal ← orThrow (.msg "proposal not found") (← get proposalId)
  if proposal.status ≠ .voting then
    throw (.msg s!"proposal is not in voting state (status={proposal.status.asStr})")
  else
    let now ← nowSecs
    execute (.msg "insert vote") fun _ db =>
      insertVote ⟨voteId.text, proposalId, gatewayName, agentName, vote, reason, now⟩ db
    -- "Check if majority reached"
    checkVoteOutcome proposalId proposal

def acceptPr (proposalId reviewerGateway : String) : Gw Unit := do
  let proposal ← orThrow (.msg "proposal not found") (← get proposalId)
  if proposal.status ≠ .prPending then
    throw (.msg "proposal is not in pr_pending state")
  else
    setStatus proposalId .prAccepted
    resolve proposalId .accepted reviewerGateway

def rejectPr (proposalId reviewerGateway : String) : Gw Unit := do
  let proposal ← orThrow (.msg "proposal not found") (← get proposalId)
  if proposal.status ≠ .prPending then
    throw (.msg "proposal is not in pr_pending state")
  else
    resolve proposalId .rejected reviewerGateway

/-! ## One statement at a time -/

section
variable {db db' : Db} {v : Vote} {id : String}

/-- The row went in, or its voter has voted and nothing changed. -/
theorem insertVote_eq_some (h : insertVote v db = some db') :
    (∃ x ∈ db.contributionVotes.rows, x.sameVoter v = true) ∧ db' = db ∨
      (∀ x ∈ db.contributionVotes.rows, x.sameVoter v = false) ∧
        db' = { db with contributionVotes := db'.contributionVotes } ∧
        db'.contributionVotes.rows = db.contributionVotes.rows ++ [v] := by
  unfold insertVote at h
  split at h
  · rename_i hvoted
    cases h
    exact Or.inl ⟨by simpa using hvoted, rfl⟩
  · rename_i hnew
    split at h
    · obtain ⟨t, ht, rfl⟩ := Option.map_eq_some_iff.1 h
      exact Or.inr ⟨by simpa using hnew, rfl, (Table.insert_eq_some.1 ht).2⟩
    · cases h

/-- An update of the proposal shows in its row. -/
theorem proposalRow_updateProposal (f : Proposal → Proposal) (hf : ∀ p, (f p).id = p.id) :
    proposalRow (updateProposal id f hf db) id = (proposalRow db id).map f := by
  unfold proposalRow updateProposal
  rw [Table.find?_update fun p => by rw [hf]]

theorem tally_eq_some {a r : Int} (h : tally db id = some (a, r)) :
    a = tallyOf db id .approve ∧ r = tallyOf db id .reject := by
  unfold tally at h
  split at h
  · cases h
  · cases h
    exact ⟨rfl, rfl⟩

theorem mem_votesOn {x : Vote} : x ∈ votesOn db id ↔ x ∈ db.contributionVotes.rows ∧ x.proposalId = id := by
  simp [votesOn]

/-- What an inserted vote does to the votes on its proposal. -/
theorem votesOn_insertVote (h : insertVote v db = some db') (hv : v.proposalId = id) :
    proposalRow db' id = proposalRow db id ∧
      ((∃ x ∈ votesOn db id, x.sameVoter v = true) ∧ votesOn db' id = votesOn db id ∨
        (∀ x ∈ votesOn db id, x.sameVoter v = false) ∧ votesOn db' id = votesOn db id ++ [v]) := by
  rcases insertVote_eq_some h with ⟨⟨x, hx, hsame⟩, rfl⟩ | ⟨hnew, hdb, hrows⟩
  · exact ⟨rfl, Or.inl ⟨⟨x, mem_votesOn.2 ⟨hx, (Vote.sameVoter_iff.1 hsame).1.trans hv⟩, hsame⟩, rfl⟩⟩
  · refine ⟨by rw [hdb]; rfl, Or.inr ⟨fun x hx => hnew x (mem_votesOn.1 hx).1, ?_⟩⟩
    simp [votesOn, hrows, hv]

/-- More votes, and no fewer of any kind. -/
theorem tallyOf_mono {l : List Vote} (h : votesOn db' id = votesOn db id ++ l) (kind : VoteKind) :
    tallyOf db id kind ≤ tallyOf db' id kind := by
  simp only [tallyOf, h, List.countP_append]
  omega

theorem insertProposal_eq_some {p : Proposal} (h : insertProposal p db = some db') :
    db.hasProposal p.id = false ∧ proposalRow db' p.id = some p ∧ db'.contributionVotes = db.contributionVotes := by
  unfold insertProposal at h
  split at h
  · obtain ⟨t, ht, rfl⟩ := Option.map_eq_some_iff.1 h
    obtain ⟨hfresh, hrows⟩ := Table.insert_eq_some.1 ht
    have hno : ∀ x ∈ db.contributionProposals.rows, ¬ (x.id == p.id) = true := by
      intro x hx
      have hclash : (x.id == p.id) = false := hfresh x hx
      simp [hclash]
    have hnone : db.contributionProposals.find? (·.id == p.id) = none := List.find?_eq_none.2 hno
    refine ⟨by simpa [Db.hasProposal] using hno, ?_, rfl⟩
    rw [proposalRow, Table.find?_of_rows_append hrows, hnone]
    simp
  · cases h

theorem get_iff {o : Option Proposal} {w w' : World} : (get id).exec w = (.ok o, w') ↔
    Passes w ∧ (o = proposalRow w.db id ∧ (w.db.engine.integers = .refused → proposalRow w.db id = none)) ∧ w' = w.tick := by
  rw [get, exec_fetch_iff, Engine.decodeRow_eq_some]

/-- **As shipped a proposal that is there cannot be read.** -/
theorem get_refused {w : World} (h : w.db.engine.integers = .refused) {p : Proposal} (hp : proposalRow w.db id = some p) :
    (get id).exec w = (.error (.msg "get proposal"), w.tick) :=
  exec_fetch_of_none (by rw [hp, Engine.decodeRow_refused h])

/-- What `open` leaves of a proposal it opened, where no vote precedes its proposal. -/
theorem open_exec_ok {uuid : Uuid} {projectId proposerGateway proposerAgent snapshotId description : String}
    {gatewayCount : Int} {w w' : World} {p : Proposal}
    (h : («open» uuid projectId proposerGateway proposerAgent snapshotId description gatewayCount).exec w = (.ok p, w')) :
    p.id = uuid.text ∧ p.gatewayCount = gatewayCount ∧
      p.status = (if 2 < gatewayCount then ProposalStatus.voting else .prPending) ∧
      w.db.hasProposal uuid.text = false ∧ proposalRow w'.db uuid.text = some p ∧
      w'.db.contributionVotes = w.db.contributionVotes := by
  obtain ⟨_, _, hnow, h⟩ := Prog.exec_bind_ok.1 h
  cases hnow
  obtain ⟨_, w₁, hinsert, hret⟩ := Prog.exec_bind_ok.1 h
  cases hret
  obtain ⟨db, hins, rfl⟩ := exec_execute_ok hinsert
  obtain ⟨hfresh, hrow, hvotes⟩ := insertProposal_eq_some hins
  exact ⟨rfl, rfl, rfl, hfresh, hrow, hvotes⟩

end

end Contributions

end A2AGateway
