import A2AGateway.OwnerReviews

/-!
# Proposals that nobody can resolve

As shipped no call gets past its first read of a proposal that is there, so that none is ever resolved
(`stranded_proposal`). Where the columns are read, `accept_pr` writes `pr_accepted`, then `accepted`, in two statements.
Where the second fails the proposal stays `pr_accepted`, a status that `cast_vote`, `accept_pr` and `reject_pr` all refuse
(`not_resolvable_of_prAccepted`). No other failure does harm: as long as no `accept_pr` stops between its updates, a
failed review leaves the proposal to the next, and every unresolved proposal can be resolved (`unstranded_iff`).
-/

namespace A2AGateway

open Gw Contributions

/-! ## The calls -/

inductive ContributionCall
  | «open» (id : Uuid) (projectId proposerGateway proposerAgent snapshotId description : String) (gatewayCount : Int)
  | castVote (proposalId : String) (ballot : Ballot)
  | acceptPr (proposalId reviewerGateway : String)
  | rejectPr (proposalId reviewerGateway : String)

namespace ContributionCall

def prog : ContributionCall → Gw Unit
  | «open» id projectId proposerGateway proposerAgent snapshotId description gatewayCount =>
    (Contributions.open id projectId proposerGateway proposerAgent snapshotId description gatewayCount).bind fun _ => .ret ()
  | castVote proposalId ballot => ballot.prog proposalId
  | acceptPr proposalId reviewerGateway => Contributions.acceptPr proposalId reviewerGateway
  | rejectPr proposalId reviewerGateway => Contributions.rejectPr proposalId reviewerGateway

/-- The proposal that a vote or a review is about. -/
def proposal : ContributionCall → Option String
  | «open» .. => none
  | castVote proposalId _ | acceptPr proposalId _ | rejectPr proposalId _ => some proposalId

end ContributionCall

/-- The states between calls, each of which may fail at any of its statements; `may` says which calls are made. -/
inductive Reached (may : World → ContributionCall → Prop) : World → Prop
  | start {w : World} : w.db.contributionProposals.rows = [] → Reached may w
  | call {w : World} {c : ContributionCall} : Reached may w → may w c → Reached may (c.prog.exec w).2
  /-- The rest of the gateway leaves the proposals alone. -/
  | outside {w w' : World} : Reached may w → w'.db.contributionProposals = w.db.contributionProposals →
      w'.db.engine = w.db.engine → Reached may w'

/-- Votes and reviews that are answered with Ok resolve the proposal. -/
inductive Resolvable (id : String) : World → Prop
  | resolved {w : World} : Resolved w.db id → Resolvable id w
  | call {w w' : World} {c : ContributionCall} : c.proposal ≠ none → c.prog.exec w.calm = (.ok (), w') →
      Resolvable id w' → Resolvable id w

/-- The resolution fields are unset. -/
def Unset (p : Proposal) : Prop := p.resolvedAt = none ∧ p.resolvedBy = none

def FullyResolved (p : Proposal) : Prop :=
  p.status.resolved = true ∧ p.resolvedAt.isSome = true ∧ p.resolvedBy.isSome = true

/-- As a review may leave it. -/
def Unstranded (p : Proposal) : Prop := p.status = .prPending ∧ Unset p ∨ FullyResolved p

/-- If the review fails, the proposal is unstranded; one that is put to the vote is not for it to touch. -/
def FailsSafe (w : World) : ContributionCall → Prop
  | .acceptPr id reviewer => ∀ p e w', proposalRow w.db id = some p → p.status ≠ .voting →
      (acceptPr id reviewer).exec w = (.error e, w') → ∃ p', proposalRow w'.db id = some p' ∧ Unstranded p'
  | .rejectPr id reviewer => ∀ p e w', proposalRow w.db id = some p → p.status ≠ .voting →
      (rejectPr id reviewer).exec w = (.error e, w') → ∃ p', proposalRow w'.db id = some p' ∧ Unstranded p'
  | _ => True

/-- The first two statements of `accept_pr` go well: the proposal is `pr_accepted`. -/
def Halfway (id : String) (w : World) : Prop :=
  (∃ p, proposalRow w.db id = some p ∧ p.status = .prPending) ∧ w.db.engine.integers = .widened ∧ Passes w ∧ Passes w.tick

/-- `accept_pr` does not stop between its two updates. -/
def Finishes (w : World) : ContributionCall → Prop
  | .acceptPr id _ => Halfway id w → Passes w.tick.tick
  | _ => True

/-! ## How a review ends -/

section
variable {id reviewer : String} {w w' : World} {p : Proposal} {db : Db}

theorem exec_get_of_not_passes (h : ¬ Passes w) :
    (Contributions.get id).exec w = (.error (.msg "get proposal"), w.tick) := exec_fetch_of_not_passes h

/-- The proposal is there and read, or the call ends here. -/
theorem exec_get_cases (id : String) (w : World) :
    (∃ p, proposalRow w.db id = some p ∧ w.db.engine.integers = .widened ∧ Passes w ∧
        (Contributions.get id).exec w = (.ok (some p), w.tick)) ∨
      ((∃ e, (Contributions.get id).exec w = (.error e, w.tick)) ∨ (Contributions.get id).exec w = (.ok none, w.tick)) ∧
        ∀ p, proposalRow w.db id = some p → ¬ (w.db.engine.integers = .widened ∧ Passes w) := by
  by_cases hget : Passes w
  · cases hp : proposalRow w.db id with
    | none => exact .inr ⟨.inr (get_iff.2 ⟨hget, ⟨hp.symm, fun _ => hp⟩, rfl⟩), fun _ h => nomatch h⟩
    | some p =>
      cases hint : w.db.engine.integers with
      | refused => exact .inr ⟨.inl ⟨_, get_refused hint hp⟩, fun _ _ h => nomatch h.1⟩
      | widened =>
        refine .inl ⟨p, rfl, rfl, hget, get_iff.2 ⟨hget, ⟨hp.symm, fun hno => ?_⟩, rfl⟩⟩
        cases hint.symm.trans hno
  · exact .inr ⟨.inl ⟨_, exec_get_of_not_passes hget⟩, fun _ _ h => hget h.2⟩

theorem exec_setStatus_of_passes {status : ProposalStatus} (h : Passes w) : (setStatus id status).exec w =
    (.ok (), { w.tick with db := afterSetStatus id status w.db }) :=
  exec_execute_iff.2 ⟨h, _, rfl, rfl⟩

theorem exec_setStatus_of_not_passes {status : ProposalStatus} (h : ¬ Passes w) :
    (setStatus id status).exec w = (.error (.msg "set proposal status"), w.tick) := by
  rw [setStatus_eq]
  exact exec_statement_of_not_passes h

theorem exec_resolve_of_passes {status : ProposalStatus} (h : Passes w) : (resolve id status reviewer).exec w =
    (.ok (), { w.tick with db := afterResolve id status w.now reviewer w.db }) := by
  rw [resolve_eq, Prog.exec_bind_of_ok (Prog.exec_look _ _)]
  exact exec_execute_iff.2 ⟨h, _, rfl, rfl⟩

theorem exec_resolve_of_not_passes {status : ProposalStatus} (h : ¬ Passes w) :
    (resolve id status reviewer).exec w = (.error (.msg "resolve proposal"), w.tick) := by
  rw [resolve_eq, Prog.exec_bind_of_ok (Prog.exec_look _ _)]
  exact exec_statement_of_not_passes h

/-- How far `accept_pr` comes. -/
theorem exec_acceptPr_cases (id reviewer : String) (w : World) :
    ¬ Halfway id w ∧ (∃ e w', (acceptPr id reviewer).exec w = (.error e, w') ∧ w'.db = w.db) ∨
      Halfway id w ∧ (Passes w.tick.tick ∧ (acceptPr id reviewer).exec w =
            (.ok (), { w.tick.tick.tick with db := acceptedBy id reviewer w.now w.db }) ∨
          ¬ Passes w.tick.tick ∧ (acceptPr id reviewer).exec w = (.error (.msg "resolve proposal"),
            { w.tick.tick.tick with db := afterSetStatus id .prAccepted w.db })) := by
  unfold acceptPr
  simp only [Prog.bind_eq]
  rcases exec_get_cases id w with ⟨p, hp, hwide, hget, hread⟩ | ⟨hread, hnot⟩
  · rw [Prog.exec_bind_of_ok hread]
    simp only [orThrow, Prog.ret_bind]
    by_cases hpending : p.status = .prPending
    · rw [if_neg (not_not.2 hpending)]
      by_cases hset : Passes w.tick
      · rw [Prog.exec_bind_of_ok (exec_setStatus_of_passes hset)]
        refine .inr ⟨⟨⟨p, hp, hpending⟩, hwide, hget, hset⟩, ?_⟩
        by_cases hresolve : Passes w.tick.tick
        · exact .inl ⟨hresolve, exec_resolve_of_passes hresolve⟩
        · exact .inr ⟨hresolve, exec_resolve_of_not_passes hresolve⟩
      · rw [Prog.exec_bind_of_error (exec_setStatus_of_not_passes hset)]
        exact .inl ⟨fun h => hset h.2.2.2, _, _, rfl, rfl⟩
    · rw [if_pos hpending]
      refine .inl ⟨?_, _, _, rfl, rfl⟩
      rintro ⟨⟨q, hrow, hstatus⟩, -⟩
      cases hp.symm.trans hrow
      exact hpending hstatus
  · have hhalf : ¬ Halfway id w := by
      rintro ⟨⟨p, hp, -⟩, hwide, hget, -⟩
      exact hnot p hp ⟨hwide, hget⟩
    rcases hread with ⟨e, hread⟩ | hread
    · rw [Prog.exec_bind_of_error hread]
      exact .inl ⟨hhalf, _, _, rfl, rfl⟩
    · rw [Prog.exec_bind_of_ok hread]
      exact .inl ⟨hhalf, _, _, rfl, rfl⟩

/-- `reject_pr` either fails and changes nothing, or rejects. -/
theorem exec_rejectPr_cases (id reviewer : String) (w : World) :
    (∃ e w', (rejectPr id reviewer).exec w = (.error e, w') ∧ w'.db = w.db) ∨
      (∃ p, proposalRow w.db id = some p ∧ p.status = .prPending) ∧
        (rejectPr id reviewer).exec w = (.ok (), { w.tick.tick with db := afterResolve id .rejected w.now reviewer w.db }) := by
  unfold rejectPr
  simp only [Prog.bind_eq]
  rcases exec_get_cases id w with ⟨p, hp, -, -, hread⟩ | ⟨⟨e, hread⟩ | hread, -⟩
  · rw [Prog.exec_bind_of_ok hread]
    simp only [orThrow, Prog.ret_bind]
    by_cases hpending : p.status = .prPending
    · rw [if_neg (not_not.2 hpending)]
      by_cases hresolve : Passes w.tick
      · exact .inr ⟨⟨p, hp, hpending⟩, exec_resolve_of_passes hresolve⟩
      · rw [exec_resolve_of_not_passes hresolve]
        exact .inl ⟨_, _, rfl, rfl⟩
    · rw [if_pos hpending]
      exact .inl ⟨_, _, rfl, rfl⟩
  · rw [Prog.exec_bind_of_error hread]
    exact .inl ⟨_, _, rfl, rfl⟩
  · rw [Prog.exec_bind_of_ok hread]
    exact .inl ⟨_, _, rfl, rfl⟩

/-! ## What the calls leave of a proposal -/

/-- Put to the vote, or as a review may leave it. -/
def Sound (p : Proposal) : Prop := p.status = .voting ∧ Unset p ∨ Unstranded p

def AllSound (db : Db) : Prop := ∀ p ∈ db.contributionProposals.rows, Sound p

theorem AllSound.row (h : AllSound db) (hp : proposalRow db id = some p) : Sound p := h p (Table.mem_of_find? hp)

theorem Sound.unstranded (h : Sound p) (hvoting : p.status ≠ .voting) : Unstranded p :=
  h.resolve_left fun hv => hvoting hv.1

theorem fullyResolved_withResolution {status : ProposalStatus} (hstatus : status.resolved = true) (now : F64) (p : Proposal) :
    FullyResolved (withResolution status now reviewer p) := ⟨hstatus, rfl, rfl⟩

theorem allSound_afterResolve {status : ProposalStatus} {now : F64} (hstatus : status.resolved = true) (h : AllSound db) :
    AllSound (afterResolve id status now reviewer db) := by
  intro p hp
  obtain ⟨q, hq, rfl⟩ := List.mem_map.1 hp
  split
  · exact .inr (.inr (fullyResolved_withResolution hstatus now q))
  · exact h q hq

theorem allSound_acceptedBy {now : F64} (h : AllSound db) : AllSound (acceptedBy id reviewer now db) := by
  intro p hp
  obtain ⟨q, hq, rfl⟩ := List.mem_map.1 hp
  obtain ⟨r, hr, rfl⟩ := List.mem_map.1 hq
  by_cases hid : r.id = id
  · simp only [hid, beq_self_eq_true, if_true, withStatus_id]
    exact .inr (.inr (fullyResolved_withResolution rfl now _))
  · simp only [beq_iff_eq, hid, if_false]
    exact h r hr

theorem insertProposal_rows {db' : Db} (h : insertProposal p db = some db') :
    db'.contributionProposals.rows = db.contributionProposals.rows ++ [p] ∧ db'.engine = db.engine := by
  unfold insertProposal at h
  split at h
  · obtain ⟨t, ht, rfl⟩ := Option.map_eq_some_iff.1 h
    exact ⟨(Table.insert_eq_some.1 ht).2, rfl⟩
  · cases h

/-- What holds of every proposal, and of the new one. -/
theorem forall_insertProposal {P : Proposal → Prop} {db' : Db} (h : insertProposal p db = some db') (hp : P p)
    (hall : ∀ q ∈ db.contributionProposals.rows, P q) : ∀ q ∈ db'.contributionProposals.rows, P q := by
  intro q hq
  rw [(insertProposal_rows h).1] at hq
  rcases List.mem_append.1 hq with hq | hq
  · exact hall q hq
  · rw [List.mem_singleton.1 hq]
    exact hp

theorem allSound_insertVote {v : Vote} {db' : Db} (hi : insertVote v db = some db') (h : AllSound db) : AllSound db' := by
  rcases insertVote_eq_some hi with ⟨-, rfl⟩ | ⟨-, hdb, -⟩
  · exact h
  · rw [hdb]
    exact h

/-- As `open` makes a proposal. -/
def Opening (p : Proposal) : Prop := (p.status = .voting ∨ p.status = .prPending) ∧ Unset p

theorem Opening.sound (h : Opening p) : Sound p :=
  h.1.elim (fun hvoting => .inl ⟨hvoting, h.2⟩) fun hpending => .inr (.inl ⟨hpending, h.2⟩)

theorem Opening.unresolved (h : Opening p) : p.status.resolved = false := by
  rcases h.1 with h | h <;> rw [h] <;> rfl

theorem keeps_open {I : Db → Prop} (h : ∀ p db db', Opening p → insertProposal p db = some db' → I db → I db')
    {uuid : Uuid} {projectId proposerGateway proposerAgent snapshotId description : String} {gatewayCount : Int} :
    (Contributions.open uuid projectId proposerGateway proposerAgent snapshotId description gatewayCount).Moves (Keeps I) := by
  unfold Contributions.open
  refine (Prog.moves_look (fun _ hi => hi) _).bind fun now =>
    (moves_execute (fun _ hi => hi) fun w db hdb hi => ?_).bind fun _ => trivial
  refine h _ _ _ ⟨?_, rfl, rfl⟩ hdb hi
  by_cases hcount : 2 < gatewayCount
  · exact .inl (if_pos hcount)
  · exact .inr (if_neg hcount)

/-- A vote keeps what the insertion and the two ways to resolve keep. -/
theorem keeps_castVote {I : Db → Prop} {b : Ballot} (hvote : ∀ v db db', insertVote v db = some db' → I db → I db')
    (hresolve : ∀ status now db, status.resolved = true → I db → I (afterResolve id status now "vote-majority" db)) :
    (b.prog id).Moves (Keeps I) := by
  refine Prog.Moves.bind (keeps_in_status fun p => ?_) fun _ => trivial
  refine (Prog.moves_look (fun _ hi => hi) _).bind fun now =>
    (moves_execute (fun _ hi => hi) fun w db hdb hi => hvote _ _ _ hdb hi).bind fun _ => ?_
  unfold checkVoteOutcome
  simp only [Prog.bind_eq]
  refine (moves_query fun _ hi => hi).bind fun counts => moves_orThrow.bind fun counts => ?_
  split
  · exact (keeps_resolve fun now db => hresolve .accepted now db rfl).bind fun _ => trivial
  · split
    · exact (keeps_resolve fun now db => hresolve .rejected now db rfl).bind fun _ => trivial
    · trivial

/-- One call, if it is no `accept_pr` that stops between its updates. -/
theorem allSound_call {c : ContributionCall} (hc : Finishes w c) (h : AllSound w.db) : AllSound (c.prog.exec w).2.db := by
  cases c with
  | «open» =>
    have hopen : ∀ p db db', Opening p → insertProposal p db = some db' → AllSound db → AllSound db' :=
      fun p db db' hp hins => forall_insertProposal hins hp.sound
    exact ((keeps_open (I := AllSound) hopen).bind fun _ => Prog.moves_ret ()).keeps w h
  | castVote id b =>
    exact (keeps_castVote (fun _ _ _ => allSound_insertVote) fun _ _ _ => allSound_afterResolve).keeps w h
  | acceptPr id reviewer =>
    rcases exec_acceptPr_cases id reviewer w with ⟨-, e, w', hexec, hdb⟩ | ⟨hhalf, ⟨-, hexec⟩ | ⟨hstop, -⟩⟩
    · simp only [ContributionCall.prog, hexec, hdb]
      exact h
    · simp only [ContributionCall.prog, hexec]
      exact allSound_acceptedBy h
    · exact absurd (hc hhalf) hstop
  | rejectPr id reviewer => exact (keeps_rejectPr (I := AllSound) fun _ _ => allSound_afterResolve rfl).keeps w h

theorem Reached.allSound (h : Reached Finishes w) : AllSound w.db := by
  induction h with
  | start hempty =>
    intro p hp
    rw [hempty] at hp
    cases hp
  | call _ hc ih => exact allSound_call hc ih
  | outside _ hsame _ ih =>
    intro p hp
    rw [hsame] at hp
    exact ih p hp

/-- A review that fails spares the proposal if and only if it does not stop between the updates. -/
theorem failsSafe_iff (h : AllSound w.db) (c : ContributionCall) : FailsSafe w c ↔ Finishes w c := by
  cases c with
  | «open» => exact Iff.rfl
  | castVote => exact Iff.rfl
  | acceptPr id reviewer =>
    rcases exec_acceptPr_cases id reviewer w with ⟨hnot, e, w', hexec, hdb⟩ | ⟨hhalf, ⟨hgoes, hexec⟩ | ⟨hstop, hexec⟩⟩
    · refine iff_of_true (fun p e' w'' hp hvoting hfail => ?_) fun hhalf => absurd hhalf hnot
      cases hexec.symm.trans hfail
      exact ⟨p, by rw [hdb, hp], (h.row hp).unstranded hvoting⟩
    · refine iff_of_true (fun p e w' hp hvoting hfail => ?_) fun _ => hgoes
      cases hexec.symm.trans hfail
    · refine iff_of_false (fun hsafe => ?_) fun hfinishes => hstop (hfinishes hhalf)
      obtain ⟨⟨p, hp, hpending⟩, -, -⟩ := hhalf
      obtain ⟨p', hp', hspared⟩ := hsafe p _ _ hp (by rw [hpending]; decide) hexec
      rw [proposalRow_afterSetStatus, hp] at hp'
      cases hp'
      rcases hspared with ⟨hstatus, -⟩ | ⟨hstatus, -⟩
      · cases hstatus
      · cases hstatus
  | rejectPr id reviewer =>
    refine iff_of_true (fun p e w' hp hvoting hfail => ?_) trivial
    rcases exec_rejectPr_cases id reviewer w with ⟨e', w'', hexec, hdb⟩ | ⟨-, hexec⟩
    · cases hexec.symm.trans hfail
      exact ⟨p, by rw [hdb, hp], (h.row hp).unstranded hvoting⟩
    · cases hexec.symm.trans hfail

/-! ## The way to a resolution -/

theorem hasProposal_of_row (hp : proposalRow db id = some p) : db.hasProposal id = true :=
  List.any_eq_true.2 ⟨p, Table.mem_of_find? hp, Table.prop_of_find? (p := fun q : Proposal => q.id == id) hp⟩

/-- The vote of a gateway that has not voted, under an id that is not taken. -/
theorem insertVote_fresh {v : Vote} (hproposal : db.hasProposal v.proposalId = true)
    (hfresh : ∀ x ∈ db.contributionVotes.rows, x.id ≠ v.id ∧ x.gatewayName ≠ v.gatewayName) :
    ∃ db', insertVote v db = some db' ∧ db'.contributionProposals = db.contributionProposals ∧ db'.engine = db.engine ∧
      votesOn db' v.proposalId = votesOn db v.proposalId ++ [v] := by
  have hnew : ∀ x ∈ db.contributionVotes.rows, x.sameVoter v = false := by
    intro x hx
    simp [Vote.sameVoter, (hfresh x hx).2]
  have hclash : ∀ x ∈ db.contributionVotes.rows, Constraints.clash x v = false := by
    intro x hx
    simp [Constraints.clash, hnew x hx, (hfresh x hx).1]
  cases hinsert : db.contributionVotes.insert v with
  | none =>
    obtain ⟨x, hx, hxv⟩ := Table.insert_eq_none.1 hinsert
    rw [hclash x hx] at hxv
    cases hxv
  | some t =>
    refine ⟨{ db with contributionVotes := t }, ?_, rfl, rfl, ?_⟩
    · rw [insertVote, if_neg (by simpa using hnew), if_pos hproposal, hinsert]
      rfl
    · simp [votesOn, (Table.insert_eq_some.1 hinsert).2]

theorem resolved_afterResolve {status : ProposalStatus} (hstatus : status.resolved = true) {now : F64}
    (hp : proposalRow db id = some p) : Resolved (afterResolve id status now reviewer db) id :=
  ⟨withResolution status now reviewer p, by rw [proposalRow_afterResolve, hp]; rfl, hstatus⟩

/-- With a vote recorded and nothing in the way, the outcome is checked to the end. -/
theorem exec_checkVoteOutcome_legible (h : w.Legible) (hp : proposalRow w.db id = some p) (hvotes : votesOn w.db id ≠ []) :
    ∃ outcome w', (checkVoteOutcome id p).exec w = (.ok outcome, w') ∧ w'.Legible ∧
      (Resolved w'.db id ∨ w' = w ∧ tallyOf w.db id .approve < majority p.gatewayCount) := by
  obtain ⟨hcalm, hwide⟩ := h
  have hpasses : Passes w := by simp [Passes, hcalm]
  have hcounts : tally w.db id = some (tallyOf w.db id .approve, tallyOf w.db id .reject) := if_neg hvotes
  have hquery := exec_query_calm (e := .msg "tally votes") (f := fun db => tally db id) hcalm
  unfold checkVoteOutcome
  simp only [Prog.bind_eq]
  rw [Prog.exec_bind_of_ok hquery, hcounts]
  simp only [orThrow, Prog.ret_bind]
  by_cases hyes : majority p.gatewayCount ≤ tallyOf w.db id .approve
  · rw [if_pos hyes, Prog.exec_bind_of_ok (exec_resolve_of_passes hpasses)]
    exact ⟨_, _, rfl, ⟨World.tick_faults hcalm, hwide⟩, .inl (resolved_afterResolve rfl hp)⟩
  · rw [if_neg hyes]
    by_cases hno : majority p.gatewayCount ≤ tallyOf w.db id .reject
    · rw [if_pos hno, Prog.exec_bind_of_ok (exec_resolve_of_passes hpasses)]
      exact ⟨_, _, rfl, ⟨World.tick_faults hcalm, hwide⟩, .inl (resolved_afterResolve rfl hp)⟩
    · rw [if_neg hno]
      exact ⟨_, _, rfl, ⟨hcalm, hwide⟩, .inr ⟨rfl, Int.not_le.1 hyes⟩⟩

/-- The call then resolves the proposal, or the approvals are one more and still too few. -/
theorem exec_castVote_fresh {b : Ballot} (h : w.Legible) (hp : proposalRow w.db id = some p)
    (hvoting : p.status = .voting) (happrove : b.vote = .approve)
    (hfresh : ∀ x ∈ w.db.contributionVotes.rows, x.id ≠ b.voteId.text ∧ x.gatewayName ≠ b.gatewayName) :
    ∃ w', (b.prog id).exec w = (.ok (), w') ∧ w'.Legible ∧
      (Resolved w'.db id ∨ proposalRow w'.db id = some p ∧
        tallyOf w'.db id .approve = tallyOf w.db id .approve + 1 ∧ tallyOf w'.db id .approve < majority p.gatewayCount) := by
  have hget : (Contributions.get id).exec w = (.ok (some p), w) := exec_get_legible h hp
  obtain ⟨db', hinsert, hsame, hengine, hvotes⟩ :=
    insertVote_fresh (v := b.row id w.now) (hasProposal_of_row hp) hfresh
  have hrow : proposalRow db' id = some p := by rw [proposalRow, hsame, ← hp, proposalRow]
  have htally : tallyOf db' id .approve = tallyOf w.db id .approve + 1 := by
    have hv : votesOn db' id = votesOn w.db id ++ [b.row id w.now] := hvotes
    simp [tallyOf, hv, Ballot.row, happrove]
  have hany : votesOn db' id ≠ [] := by
    have hv : votesOn db' id = votesOn w.db id ++ [b.row id w.now] := hvotes
    simp [hv]
  have hlegible : World.Legible { w with db := db' } := ⟨h.1, by rw [hengine]; exact h.2⟩
  obtain ⟨outcome, w', hcheck, hlegible', hend⟩ := exec_checkVoteOutcome_legible hlegible hrow hany
  refine ⟨w', ?_, hlegible', hend.imp_right fun hgoes => ?_⟩
  · have hvote : (execute (.msg "insert vote") fun _ db => insertVote (b.row id w.now) db).exec w = (.ok (), { w with db := db' }) := by
      rw [exec_execute_calm h.1, hinsert]
    unfold Ballot.prog castVote
    simp only [Prog.bind_eq, Prog.bind_assoc]
    rw [Prog.exec_bind_of_ok hget, orThrow, Prog.ret_bind, if_neg (not_not.2 hvoting), Prog.bind_assoc, nowSecs,
      Prog.exec_bind_of_ok (Prog.exec_look _ _), Prog.bind_assoc]
    exact (Prog.exec_bind_of_ok hvote).trans (Prog.exec_bind_of_ok hcheck)
  · obtain ⟨rfl, hfew⟩ := hgoes
    exact ⟨hrow, htally, hfew⟩

/-- Approvals of one gateway after the other resolve a proposal that is put to the vote. -/
theorem resolvable_of_voting (hvoting : p.status = .voting) : ∀ (n : Nat) {w : World},
    w.db.engine.integers = .widened → proposalRow w.db id = some p →
    majority p.gatewayCount ≤ tallyOf w.db id .approve + n → Resolvable id w
  | n, w, hwide, hp, hmissing => by
    obtain ⟨u, hu⟩ := Uuid.exists_fresh (w.db.contributionVotes.rows.map (·.id) ++ w.db.contributionVotes.rows.map (·.gatewayName))
    have hfresh : ∀ x ∈ w.db.contributionVotes.rows, x.id ≠ u.text ∧ x.gatewayName ≠ u.text := by
      intro x hx
      refine ⟨fun h => hu ?_, fun h => hu ?_⟩
      · exact List.mem_append_left _ (List.mem_map.2 ⟨x, hx, h⟩)
      · exact List.mem_append_right _ (List.mem_map.2 ⟨x, hx, h⟩)
    have hlegible : w.calm.Legible := ⟨rfl, hwide⟩
    obtain ⟨w', hexec, hlegible', hend⟩ :=
      exec_castVote_fresh (b := ⟨u, u.text, "", .approve, ""⟩) hlegible hp hvoting rfl hfresh
    refine .call (c := .castVote id ⟨u, u.text, "", .approve, ""⟩) (by simp [ContributionCall.proposal]) hexec ?_
    rcases hend with hresolved | ⟨hrow, hmore, hfew⟩
    · exact .resolved hresolved
    · cases n with
      | zero =>
        simp only [World.calm_db] at hmore
        omega
      | succ n =>
        simp only [World.calm_db] at hmore
        exact resolvable_of_voting hvoting n hlegible'.2 hrow (by omega)

theorem resolvable_of_prPending (hpending : p.status = .prPending) (hwide : w.db.engine.integers = .widened)
    (hp : proposalRow w.db id = some p) : Resolvable id w := by
  have hexec : (Contributions.acceptPr id "").exec w.calm = (.ok (), { w.calm with db := acceptedBy id "" w.calm.now w.db }) :=
    exec_acceptPr_pending ⟨rfl, hwide⟩ hp hpending
  exact .call (c := .acceptPr id "") (by simp [ContributionCall.proposal]) hexec
    (.resolved ⟨_, proposalRow_acceptedBy hp, rfl⟩)

/-! ## No way to a resolution -/

theorem proposalRow_updateProposal_of_ne {id' : String} (hne : id' ≠ id) (f : Proposal → Proposal) (hf : ∀ p, (f p).id = p.id) :
    proposalRow (updateProposal id' f hf db) id = proposalRow db id := by
  unfold proposalRow updateProposal
  rw [Table.find?_update_where fun p => by rw [hf]]
  cases hp : db.contributionProposals.find? (·.id == id) with
  | none => rfl
  | some p =>
    have hid : p.id = id := by simpa using Table.prop_of_find? (p := fun q : Proposal => q.id == id) hp
    simp [hid, Ne.symm hne]

/-- A call about another proposal. -/
theorem elsewhere_call {c : ContributionCall} {id' : String} (hc : c.proposal = some id') (hne : id' ≠ id) :
    proposalRow (c.prog.exec w).2.db id = proposalRow w.db id := by
  have hkept : c.prog.Moves (Keeps fun db => proposalRow db id = proposalRow w.db id) := by
    have hset : ∀ db status, proposalRow (afterSetStatus id' status db) id = proposalRow db id :=
      fun db status => proposalRow_updateProposal_of_ne hne _ _
    have hresolve : ∀ db status now resolvedBy, proposalRow (afterResolve id' status now resolvedBy db) id = proposalRow db id :=
      fun db status now resolvedBy => proposalRow_updateProposal_of_ne hne _ _
    cases c with
    | «open» => cases hc
    | castVote id b =>
      cases hc
      refine keeps_castVote (fun v db db' hinsert hi => ?_) fun status now db _ hi => (hresolve ..).trans hi
      rcases insertVote_eq_some hinsert with ⟨-, rfl⟩ | ⟨-, hdb, -⟩
      · exact hi
      · rw [hdb]
        exact hi
    | acceptPr id reviewer =>
      cases hc
      exact keeps_acceptPr (fun _ hi => (hset ..).trans hi) fun _ _ hi => (hresolve ..).trans hi
    | rejectPr id reviewer =>
      cases hc
      exact keeps_rejectPr fun _ _ hi => (hresolve ..).trans hi
  exact hkept.keeps w rfl

/-- No call gets anywhere with a proposal that is `pr_accepted`. -/
theorem stuck_call {c : ContributionCall} (hc : c.proposal = some id) (hp : proposalRow w.db id = some p)
    (hstatus : p.status = .prAccepted) : c.prog.exec w ≠ (.ok (), w') := by
  have hnot : ¬ ∃ q, proposalRow w.db id = some q ∧ q.status = .prPending := by
    rintro ⟨q, hq, hpending⟩
    cases hp.symm.trans hq
    cases hstatus.symm.trans hpending
  intro hexec
  cases c with
  | «open» => cases hc
  | castVote id b =>
    cases hc
    obtain ⟨_, _, hvote, -⟩ := Prog.exec_bind_ok.1 hexec
    obtain ⟨row, _, hget, hrest⟩ := Prog.exec_bind_ok.1 hvote
    obtain ⟨-, ⟨rfl, -⟩, rfl⟩ := get_iff.1 hget
    rw [hp] at hrest
    have hvoting : p.status ≠ .voting := by
      rw [hstatus]
      decide
    simp only [Prog.bind_eq, orThrow, Prog.ret_bind, if_pos hvoting] at hrest
    cases hrest
  | acceptPr id reviewer =>
    cases hc
    rcases exec_acceptPr_cases id reviewer w with ⟨-, e, w', hfail, -⟩ | ⟨hhalf, -⟩
    · cases hfail.symm.trans hexec
    · exact hnot hhalf.1
  | rejectPr id reviewer =>
    cases hc
    rcases exec_rejectPr_cases id reviewer w with ⟨e, w', hfail, -⟩ | ⟨hpending, -⟩
    · cases hfail.symm.trans hexec
    · exact hnot hpending

theorem not_resolvable_of_prAccepted (hp : proposalRow w.db id = some p) (hstatus : p.status = .prAccepted) :
    ¬ Resolvable id w := by
  intro h
  induction h with
  | resolved h =>
    obtain ⟨q, hq, hresolved⟩ := h
    cases hp.symm.trans hq
    rw [hstatus] at hresolved
    cases hresolved
  | @call w w' c hc hexec _ ih =>
    obtain ⟨id', hid'⟩ := Option.ne_none_iff_exists'.1 hc
    by_cases hsame : id' = id
    · subst hsame
      exact stuck_call hid' (w := w.calm) hp hstatus hexec
    · have hrow := elsewhere_call (w := w.calm) hid' hsame
      rw [hexec] at hrow
      exact ih (hrow.trans hp)

/-! ## As shipped -/

/-- As shipped no vote or review is answered with Ok. -/
theorem resolved_of_resolvable_shipped (hship : w.AsShipped) (h : Resolvable id w) : Resolved w.db id := by
  cases h with
  | resolved h => exact h
  | @call _ w' c hc hexec _ =>
    have hno : c.prog.Upholds World.AsShipped fun _ => False := by
      cases c with
      | «open» => exact absurd rfl hc
      | castVote id b => exact b.upholds_shipped (fun _ hw => hw) (fun _ hw => hw) id
      | acceptPr id reviewer => exact upholds_acceptPr_shipped (fun _ hw => hw) (fun _ hw => hw) id reviewer
      | rejectPr id reviewer => exact upholds_rejectPr_shipped (fun _ hw => hw) (fun _ hw => hw) id reviewer
    exact ((hno.exec (s := w.calm) hship).2 () (by rw [hexec])).elim

/-- As shipped, and nothing is resolved. -/
def NoneResolved (db : Db) : Prop :=
  db.engine.integers = .refused ∧ ∀ p ∈ db.contributionProposals.rows, p.status.resolved = false

theorem noneResolved_call {c : ContributionCall} (h : NoneResolved w.db) : NoneResolved (c.prog.exec w).2.db := by
  have hship : ∀ w : World, NoneResolved w.db → w.AsShipped := fun _ hw => hw.1
  have ht : ∀ w : World, NoneResolved w.db → NoneResolved w.tick.db := fun _ hw => hw
  cases c with
  | «open» =>
    have hopen : ∀ p db db', Opening p → insertProposal p db = some db' → NoneResolved db → NoneResolved db' := by
      intro p db db' hp hins hi
      refine ⟨by rw [(insertProposal_rows hins).2]; exact hi.1, forall_insertProposal hins hp.unresolved hi.2⟩
    exact ((keeps_open hopen).bind fun _ => Prog.moves_ret ()).keeps w h
  | castVote id b => exact ((b.upholds_shipped hship ht id).exec h).1
  | acceptPr id reviewer => exact ((upholds_acceptPr_shipped hship ht id reviewer).exec h).1
  | rejectPr id reviewer => exact ((upholds_rejectPr_shipped hship ht id reviewer).exec h).1

/-- No call changes how columns are decoded. -/
theorem engine_call (c : ContributionCall) (w : World) : (c.prog.exec w).2.db.engine = w.db.engine := by
  have hkept : c.prog.Moves (Keeps fun db => db.engine = w.db.engine) := by
    cases c with
    | «open» =>
      exact (keeps_open fun _ _ _ _ hins hi => (insertProposal_rows hins).2.trans hi).bind fun _ => Prog.moves_ret ()
    | castVote id b =>
      refine keeps_castVote (fun v db db' hins hi => ?_) fun _ _ _ _ hi => hi
      rcases insertVote_eq_some hins with ⟨-, rfl⟩ | ⟨-, hdb, -⟩
      · exact hi
      · rw [hdb]
        exact hi
    | acceptPr id reviewer => exact keeps_acceptPr (fun _ hi => hi) fun _ _ hi => hi
    | rejectPr id reviewer => exact keeps_rejectPr fun _ _ hi => hi
  exact hkept.keeps w rfl

theorem Reached.noneResolved {may : World → ContributionCall → Prop} (h : Reached may w) (hship : w.AsShipped) :
    NoneResolved w.db := by
  induction h with
  | start hempty =>
    refine ⟨hship, fun p hp => ?_⟩
    rw [hempty] at hp
    cases hp
  | @call w c _ _ ih => exact noneResolved_call (ih (by rw [World.AsShipped, ← engine_call c w]; exact hship))
  | outside _ hsame hengine ih =>
    obtain ⟨-, hnone⟩ := ih (by rw [World.AsShipped, ← hengine]; exact hship)
    exact ⟨hship, by rw [hsame]; exact hnone⟩

/-- **As long as no `accept_pr` stops between its two updates, every proposal that is not resolved can be resolved if and
only if the columns are read or there is no proposal at all, and whether a review spares its proposal when it fails
depends on nothing else.** -/
theorem unstranded_iff (h : Reached Finishes w) :
    ((∀ id p, proposalRow w.db id = some p → p.status.resolved = false → Resolvable id w) ↔
      (w.AsShipped → w.db.contributionProposals.rows = [])) ∧
      ∀ c, FailsSafe w c ↔ Finishes w c := by
  refine ⟨⟨fun hall hship => ?_, fun hread id p hp hopen => ?_⟩, failsSafe_iff h.allSound⟩
  · -- As shipped no proposal gets anywhere, so that there is none.
    refine List.eq_nil_iff_forall_not_mem.2 fun p hp => ?_
    obtain ⟨-, hnone⟩ := h.noneResolved hship
    have hfound : (w.db.contributionProposals.find? (·.id == p.id)).isSome = true :=
      List.find?_isSome.2 ⟨p, hp, by simp⟩
    obtain ⟨q, hq⟩ := Option.isSome_iff_exists.1 hfound
    obtain ⟨r, hr, hresolved⟩ := resolved_of_resolvable_shipped hship (hall p.id q hq (hnone q (Table.mem_of_find? hq)))
    cases (hnone r (Table.mem_of_find? hr)).symm.trans hresolved
  · have hwide : w.db.engine.integers = .widened := by
      cases hint : w.db.engine.integers with
      | widened => rfl
      | refused =>
        have hmem : p ∈ w.db.contributionProposals.rows := Table.mem_of_find? hp
        rw [hread hint] at hmem
        cases hmem
    rcases h.allSound.row hp with ⟨hvoting, -⟩ | ⟨hpending, -⟩ | ⟨hresolved, -⟩
    · exact resolvable_of_voting hvoting (majority p.gatewayCount - tallyOf w.db id .approve).toNat hwide hp (by omega)
    · exact resolvable_of_prPending hpending hwide hp
    · rw [hresolved] at hopen
      cases hopen

end

namespace DemoOwner

/-- gw-b has opened its proposal, and the next statements end as listed. -/
def failing (engine : Engine) (faults : List (Option Nat)) : World := { opened engine with faults }

theorem reached_failing {may : World → ContributionCall → Prop} (engine : Engine) (faults : List (Option Nat))
    (hmay : may (state engine) (.open proposalId "p" "gw-b" "writer" "s" "" 2)) : Reached may (failing engine faults) :=
  .outside (.call (.start rfl) hmay) rfl rfl

end DemoOwner

open DemoOwner in
/-- Here the columns are read, and `set_status` fails. -/
theorem unstranded_iff_demo : Resolvable proposal.id (failing .widening [none, some 0]) ∧
    FailsSafe (failing .widening [none, some 0]) (.acceptPr proposal.id "gw-a") := by
  have h := unstranded_iff (reached_failing .widening [none, some 0] trivial)
  exact ⟨h.1.2 (fun hship => nomatch hship) _ proposal (by decide +kernel) (by decide),
    (h.2 _).2 fun hhalf => absurd hhalf.2.2.2 (by decide)⟩

open DemoOwner in
/-- **As shipped the proposal that gw-b has opened cannot be resolved**: gw-a's review fails, as every call does. -/
theorem stranded_proposal : ∃ w, Reached (fun _ _ => True) w ∧ w.AsShipped ∧ w.faults = [] ∧
    proposalRow w.db proposal.id = some proposal ∧ proposal.status = .prPending ∧
    ((acceptPr proposal.id "gw-a").exec w).1 = .error (.msg "get proposal") ∧ ¬ Resolvable proposal.id w := by
  have hrow : proposalRow (failing .shipped []).db proposal.id = some proposal := by decide +kernel
  refine ⟨failing .shipped [], reached_failing .shipped [] trivial, rfl, rfl, hrow, rfl, ?_, fun h => ?_⟩
  · unfold acceptPr
    rw [Prog.bind_eq, Prog.exec_bind_of_error (get_refused (h := rfl) hrow)]
  · obtain ⟨p, hp, hresolved⟩ := resolved_of_resolvable_shipped (w := failing .shipped []) rfl h
    cases hrow.symm.trans hp
    cases hresolved

-- Where the columns are read and the update after `set_status` fails, the proposal stays `pr_accepted`.
open DemoOwner in
example : (proposalRow ((acceptPr proposal.id "gw-a").exec (failing .widening [none, none, some 0])).2.db proposal.id).map
    (·.status) = some .prAccepted := by
  decide +kernel

end A2AGateway
