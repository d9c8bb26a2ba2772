import A2AGateway.Voting

/-!
# A resolved proposal

`cast_vote`, `accept_pr` and `reject_pr` read the status, decide, and later update the row under
no condition. As shipped the read fails, and no proposal changes. With any decoding, as long as each update finds the
row as the call has last seen it, a resolved proposal is final and at most one review of it is answered with Ok
(`resolved_is_final`). Where the columns are read, two reviews that read the same `pr_pending` row are both answered
with Ok, the second undoing the first.
-/

namespace A2AGateway

open Gw Contributions

/-- The gateways whose review of the proposal has been answered with Ok. -/
abbrev Reviewers := List String

/-- What a review leaves among them. -/
def reviewed (reviewerGateway : String) : Except Err Unit → Reviewers
  | .ok () => [reviewerGateway]
  | .error _ => []

/-- The calls that may resolve the proposal. -/
def Resolves (id : String) (_ : World × Reviewers) (p : Prog (World × Reviewers) Err Unit) : Prop :=
  (∃ b : Ballot, p = (b.prog id).replying fun _ => []) ∨
    (∃ reviewer, p = (acceptPr id reviewer).replying (reviewed reviewer)) ∨
      ∃ reviewer, p = (rejectPr id reviewer).replying (reviewed reviewer)

/-- The rest of the gateway leaves the proposal alone. -/
def LeavesProposal (id : String) (s s' : World × Reviewers) : Prop :=
  proposalRow s'.1.db id = proposalRow s.1.db id ∧ s'.1.db.engine = s.1.db.engine ∧ s'.2 = s.2

/-- The proposal and its reviewers so far. -/
def standing (id : String) (db : Db) (reviewers : Reviewers) : Option Proposal × Reviewers :=
  (proposalRow db id, reviewers)

/-- Only an unresolved proposal changes, and a review is answered with Ok as it resolves it. -/
def Resolving (x x' : Option Proposal × Reviewers) : Prop :=
  (∀ p, x.1 = some p → p.status.resolved = false) ∧
    (x'.2 = x.2 ∨ (∃ reviewer, x'.2 = x.2 ++ [reviewer]) ∧ ∃ p, x'.1 = some p ∧ p.status.resolved = true)

section
variable {id : String}

theorem reply_silent {ρ : Type} (p : Gw Unit) : p.reply (fun _ => ([] : List ρ)) = [] := by
  cases p <;> rfl

/-- The update of `resolve`, by a call that has last seen an unresolved proposal. -/
theorem follows_resolve {p : Proposal} {reviewers : Reviewers} {status : ProposalStatus} {resolvedBy : String}
    {note : Except Err Unit → Reviewers} (hopen : p.status.resolved = false) (hstatus : status.resolved = true)
    (herr : ∀ e, note (.error e) = []) (hok : note (.ok ()) = [] ∨ ∃ reviewer, note (.ok ()) = [reviewer]) :
    (((resolve id status resolvedBy).bind fun _ => .ret ()).replying note).Follows (beside (standing id)) Resolving
      (some p, reviewers) := by
  unfold resolve
  simp only [Prog.bind_eq, Prog.bind_assoc]
  refine follows_nowSecs_replying fun now => ⟨rfl, ?_⟩
  refine follows_execute_replying herr fun _ db db' l hdb => ⟨fun hv => ⟨Or.inr ?_, trivial⟩, fun _ _ => trivial⟩
  cases hdb
  obtain ⟨hrow, rfl⟩ := Prod.mk.inj hv
  refine ⟨fun q hq => by cases hq; exact hopen, ?_⟩
  simp only [standing, proposalRow_updateProposal, hrow]
  rcases hok with h | ⟨reviewer, h⟩
  · exact Or.inl (by simp [Prog.reply, h])
  · exact Or.inr ⟨⟨reviewer, by simp [Prog.reply, h]⟩, _, rfl, hstatus⟩

theorem follows_checkVoteOutcome {p : Proposal} {reviewers : Reviewers} (hopen : p.status.resolved = false) :
    (((checkVoteOutcome id p).bind fun _ => .ret ()).replying fun _ => []).Follows (beside (standing id)) Resolving
      (some p, reviewers) := by
  unfold checkVoteOutcome
  simp only [Prog.bind_eq, Prog.pure_eq, Prog.bind_assoc]
  refine follows_query_replying (fun _ => rfl) fun w => ⟨reply_silent _, ?_⟩
  cases tally w.db id with
  | none => trivial
  | some counts =>
    simp only [orThrow, Prog.ret_bind]
    split
    · simp only [Prog.bind_assoc, Prog.ret_bind]
      exact follows_resolve hopen rfl (fun _ => rfl) (Or.inl rfl)
    · split
      · simp only [Prog.bind_assoc, Prog.ret_bind]
        exact follows_resolve hopen rfl (fun _ => rfl) (Or.inl rfl)
      · trivial

theorem castVote_begins (b : Ballot) :
    ((b.prog id).replying fun _ => []).Begins (beside (standing id)) Resolving := by
  unfold Ballot.prog castVote
  simp only [Prog.bind_eq, Prog.bind_assoc]
  refine begins_fetch_replying (fun _ => rfl) fun w l o ho => ⟨reply_silent _, ?_⟩
  obtain ⟨rfl, -⟩ := Engine.decodeRow_eq_some.1 ho
  cases hp : proposalRow w.db id with
  | none => trivial
  | some p =>
    have hseen : standing id w.db l = (some p, l) := by rw [standing, hp]
    simp only [orThrow, Prog.ret_bind, hseen]
    split
    · trivial
    · rename_i hvoting
      have hvoting : p.status = .voting := by simpa using hvoting
      have hopen : p.status.resolved = false := by rw [hvoting]; rfl
      simp only [Prog.bind_assoc]
      refine follows_nowSecs_replying fun now => ⟨reply_silent _, ?_⟩
      refine follows_execute_replying (fun _ => rfl) fun _ db db' l' hins => ?_
      -- The vote is not part of what stands.
      have hsame : standing id db' l' = standing id db l' := by
        rw [standing, (votesOn_insertVote hins rfl).1, standing]
      simp only [reply_silent, List.append_nil, hsame]
      exact ⟨fun hv => ⟨Or.inl hv, by rw [hv]; exact follows_checkVoteOutcome hopen⟩,
        fun _ _ => follows_checkVoteOutcome hopen⟩

theorem reviewed_error (reviewer : String) (e : Err) : reviewed reviewer (.error e) = [] := rfl

theorem acceptPr_begins (reviewer : String) :
    ((acceptPr id reviewer).replying (reviewed reviewer)).Begins (beside (standing id)) Resolving := by
  rw [← Prog.bind_ret (acceptPr id reviewer)]
  unfold acceptPr
  simp only [Prog.bind_eq, Prog.bind_assoc]
  refine begins_fetch_replying (reviewed_error reviewer) fun w l o ho => ?_
  obtain ⟨rfl, -⟩ := Engine.decodeRow_eq_some.1 ho
  cases hp : proposalRow w.db id with
  | none => exact ⟨rfl, trivial⟩
  | some p =>
    have hseen : standing id w.db l = (some p, l) := by rw [standing, hp]
    simp only [orThrow, Prog.ret_bind, hseen]
    split
    · exact ⟨rfl, trivial⟩
    · rename_i hpending
      have hpending : p.status = .prPending := by simpa using hpending
      have hopen : p.status.resolved = false := by rw [hpending]; rfl
      simp only [Prog.bind_assoc]
      refine ⟨rfl, follows_execute_replying (reviewed_error reviewer) fun _ db db' l' hdb => ?_⟩
      cases hdb
      refine ⟨fun hv => ?_, fun _ _ => follows_resolve hopen rfl (reviewed_error reviewer) (Or.inr ⟨reviewer, rfl⟩)⟩
      obtain ⟨hrow, rfl⟩ := Prod.mk.inj hv
      have hafter : standing id (updateProposal id (fun p => { p with status := .prAccepted }) (fun _ => rfl) db)
          l' = (some { p with status := .prAccepted }, l') := by
        rw [standing, proposalRow_updateProposal, hrow]
        rfl
      have hreply : ((resolve id .accepted reviewer).bind .ret).reply (reviewed reviewer) = [] := rfl
      rw [hreply, List.append_nil, hafter]
      exact ⟨Or.inr ⟨fun q hq => by cases hq; exact hopen, Or.inl rfl⟩,
        follows_resolve rfl rfl (reviewed_error reviewer) (Or.inr ⟨reviewer, rfl⟩)⟩

theorem rejectPr_begins (reviewer : String) :
    ((rejectPr id reviewer).replying (reviewed reviewer)).Begins (beside (standing id)) Resolving := by
  rw [← Prog.bind_ret (rejectPr id reviewer)]
  unfold rejectPr
  simp only [Prog.bind_eq, Prog.bind_assoc]
  refine begins_fetch_replying (reviewed_error reviewer) fun w l o ho => ?_
  obtain ⟨rfl, -⟩ := Engine.decodeRow_eq_some.1 ho
  cases hp : proposalRow w.db id with
  | none => exact ⟨rfl, trivial⟩
  | some p =>
    have hseen : standing id w.db l = (some p, l) := by rw [standing, hp]
    simp only [orThrow, Prog.ret_bind, hseen]
    split
    · exact ⟨rfl, trivial⟩
    · rename_i hpending
      have hpending : p.status = .prPending := by simpa using hpending
      have hopen : p.status.resolved = false := by rw [hpending]; rfl
      exact ⟨rfl, follows_resolve hopen rfl (reviewed_error reviewer) (Or.inr ⟨reviewer, rfl⟩)⟩

theorem resolves_begin {s : World × Reviewers} {p : Prog (World × Reviewers) Err Unit} (h : Resolves id s p) :
    p.Begins (beside (standing id)) Resolving := by
  rcases h with ⟨b, rfl⟩ | ⟨reviewer, rfl⟩ | ⟨reviewer, rfl⟩
  · exact castVote_begins b
  · exact acceptPr_begins reviewer
  · exact rejectPr_begins reviewer

theorem standing_leaves {s s' : World × Reviewers} (h : LeavesProposal id s s') :
    beside (standing id) s' = beside (standing id) s := by
  simp only [beside, standing, h.1, h.2.2]

/-! ## Along `Resolving` -/

/-- At most one review has been answered with Ok, and not before the proposal was resolved. -/
def AtMostOneReview (x : Option Proposal × Reviewers) : Prop :=
  x.2 = [] ∨ (∃ reviewer, x.2 = [reviewer]) ∧ ∃ p, x.1 = some p ∧ p.status.resolved = true

theorem Resolving.atMostOneReview {x x' : Option Proposal × Reviewers} (h : Resolving x x')
    (hx : AtMostOneReview x) : AtMostOneReview x' := by
  obtain ⟨hopen, hreplies⟩ := h
  have hnone : x.2 = [] := by
    rcases hx with h | ⟨-, p, hp, hres⟩
    · exact h
    · rw [hopen p hp] at hres
      cases hres
  rcases hreplies with h | ⟨⟨reviewer, h⟩, hres⟩
  · exact Or.inl (h.trans hnone)
  · exact Or.inr ⟨⟨reviewer, by rw [h, hnone]; rfl⟩, hres⟩

theorem Resolving.atMostOneReview_run {x x' : Option Proposal × Reviewers} (h : Relation.ReflTransGen Resolving x x')
    (hx : AtMostOneReview x) : AtMostOneReview x' := by
  induction h with
  | refl => exact hx
  | tail _ hstep ih => exact hstep.atMostOneReview ih

/-- Nothing follows a resolved proposal. -/
theorem Resolving.final {x x' : Option Proposal × Reviewers} (h : Relation.ReflTransGen Resolving x x')
    {p : Proposal} (hp : x.1 = some p) (hres : p.status.resolved = true) : x' = x := by
  induction h using Relation.ReflTransGen.head_induction_on with
  | refl => rfl
  | head hstep _ _ =>
    rw [hstep.1 p hp] at hres
    cases hres

/-- A resolved proposal stays as it is from one state to the other. -/
def StaysResolved (id : String) (s s' : World × Reviewers) : Prop :=
  ∀ p, proposalRow s.1.db id = some p → p.status.resolved = true → proposalRow s'.1.db id = some p

theorem resolved_is_final_watched {c : Watch (World × Reviewers) Err (Option Proposal × Reviewers)}
    (h : Watch.Reachable (beside (standing id)) (fun s => s.2 = []) (Resolves id) (LeavesProposal id) c) :
    c.state.2.length ≤ 1 ∧ ∀ c', Relation.ReflTransGen (Watch.Step (beside (standing id)) (Resolves id) (LeavesProposal id))
      c c' → StaysResolved id c.state c'.state := by
  obtain ⟨s, hs, hrun⟩ := h
  obtain ⟨halong, hgood⟩ := Watch.run_along hrun (Watch.good_nil s) (fun _ _ => resolves_begin)
    fun _ _ => standing_leaves
  refine ⟨?_, fun c' hrun' p hp hres => ?_⟩
  · rcases Resolving.atMostOneReview_run halong (Or.inl hs) with h | ⟨⟨reviewer, h⟩, -⟩
    · rw [show c.state.2 = [] from h]
      exact Nat.zero_le _
    · rw [show c.state.2 = [reviewer] from h]
      exact Nat.le_refl _
  · have hmoved := (Watch.run_along hrun' hgood (fun _ _ => resolves_begin) fun _ _ => standing_leaves).1
    have hsame := Resolving.final hmoved hp hres
    exact (congrArg Prod.fst hsame).trans hp

/-! ## As shipped -/

/-- As shipped, with this row, and no review answered with Ok. -/
def Unreviewed (id : String) (row : Option Proposal) (s : World × Reviewers) : Prop :=
  (s.1.AsShipped ∧ proposalRow s.1.db id = row) ∧ s.2 = []

theorem upholds_resolves {row : Option Proposal} {s : World × Reviewers} {p : Prog (World × Reviewers) Err Unit}
    (h : Resolves id s p) : p.Upholds (Unreviewed id row) fun _ => True := by
  have hship : ∀ w, (World.AsShipped w ∧ proposalRow w.db id = row) → w.AsShipped := fun _ hw => hw.1
  have ht : ∀ w, (World.AsShipped w ∧ proposalRow w.db id = row) →
      (World.AsShipped w.tick ∧ proposalRow w.tick.db id = row) := fun _ hw => hw
  rcases h with ⟨b, rfl⟩ | ⟨reviewer, rfl⟩ | ⟨reviewer, rfl⟩
  · exact (b.upholds_shipped hship ht id).replying (fun _ hno => hno.elim) fun _ => rfl
  · exact (upholds_acceptPr_shipped hship ht id reviewer).replying (fun _ hno => hno.elim) (reviewed_error reviewer)
  · exact (upholds_rejectPr_shipped hship ht id reviewer).replying (fun _ hno => hno.elim) (reviewed_error reviewer)

theorem unreviewed {row : Option Proposal} {c : Pool (World × Reviewers) Err}
    (h : Pool.Reachable (Unreviewed id row) (Resolves id) (LeavesProposal id) c) : Unreviewed id row c.state := by
  refine h.upheld (fun _ hs => hs) (fun _ _ _ => upholds_resolves) fun s s' hs hleaves => ?_
  obtain ⟨hrow, hengine, hreviewers⟩ := hleaves
  refine ⟨⟨?_, hrow.trans hs.1.2⟩, hreviewers.trans hs.2⟩
  rw [World.AsShipped, hengine]
  exact hs.1.1

/-- **A resolved proposal is final, and at most one review is answered with Ok**: as shipped in every run, and with any
decoding in every run in which an update changes the proposal only while it is as the call has last seen it. -/
theorem resolved_is_final (id : String) :
    (∀ c : Pool (World × Reviewers) Err,
      Pool.Reachable (fun s => s.1.AsShipped ∧ s.2 = []) (Resolves id) (LeavesProposal id) c →
      c.state.2.length ≤ 1 ∧ ∀ c', Relation.ReflTransGen (Pool.Step (Resolves id) (LeavesProposal id)) c c' →
        StaysResolved id c.state c'.state) ∧
    ∀ c : Watch (World × Reviewers) Err (Option Proposal × Reviewers),
      Watch.Reachable (beside (standing id)) (fun s => s.2 = []) (Resolves id) (LeavesProposal id) c →
      c.state.2.length ≤ 1 ∧ ∀ c', Relation.ReflTransGen (Watch.Step (beside (standing id)) (Resolves id) (LeavesProposal id))
        c c' → StaysResolved id c.state c'.state := by
  refine ⟨?_, fun c => resolved_is_final_watched⟩
  rintro c ⟨s, hs, hrun⟩
  have hinit : Unreviewed id (proposalRow s.1.db id) s := ⟨⟨hs.1, rfl⟩, hs.2⟩
  obtain ⟨⟨-, hrow⟩, hnone⟩ := unreviewed ⟨s, hinit, hrun⟩
  refine ⟨by simp [hnone], fun c' hrun' p hp _ => ?_⟩
  obtain ⟨⟨-, hrow'⟩, -⟩ := unreviewed ⟨s, hinit, hrun.trans hrun'⟩
  rw [hrow', ← hrow, hp]

end

/-! ## A proposal to review -/

namespace DemoReview

def proposal : Proposal := { DemoVote.proposal with status := .prPending, gatewayCount := 2 }

def state (engine : Engine) : World × Reviewers :=
  ({ World.fresh with db := { Db.empty engine with contributionProposals := ⟨[proposal], List.pairwise_singleton _ _⟩ } }, [])

def accept : Prog (World × Reviewers) Err Unit := (acceptPr "prop" "gw-a").replying (reviewed "gw-a")

def reject : Prog (World × Reviewers) Err Unit := (rejectPr "prop" "gw-b").replying (reviewed "gw-b")

theorem resolves_accept (s : World × Reviewers) : Resolves "prop" s accept := Or.inr (Or.inl ⟨"gw-a", rfl⟩)

theorem resolves_reject (s : World × Reviewers) : Resolves "prop" s reject := Or.inr (Or.inr ⟨"gw-b", rfl⟩)

/-- What is in the proposal's row about its resolution. -/
def outcome (db : Db) : Option (ProposalStatus × Option String) :=
  (proposalRow db "prop").map fun p => (p.status, p.resolvedBy)

end DemoReview

/-- As shipped two reviews are refused and change nothing. Where the columns are read, the proposal is accepted by one
review; a second that had not read the row comes too late. -/
theorem resolved_is_final_demo :
    (∃ c : Pool (World × Reviewers) Err, DemoReview.outcome c.state.1.db = some (.prPending, none) ∧
      c.threads.length = 2 ∧ c.state.2.length ≤ 1) ∧
    ∃ c : Watch (World × Reviewers) Err (Option Proposal × Reviewers),
      DemoReview.outcome c.state.1.db = some (.accepted, some "gw-a") ∧ c.state.2.length ≤ 1 := by
  constructor
  · have hreach : Pool.Reachable (fun s : World × Reviewers => s.1.AsShipped ∧ s.2 = []) (Resolves "prop")
        (LeavesProposal "prop") (Pool.schedule [0, 1] ⟨DemoReview.state .shipped, [DemoReview.accept, DemoReview.reject]⟩) :=
      ⟨DemoReview.state .shipped, ⟨rfl, rfl⟩, ((Relation.ReflTransGen.single (.start (DemoReview.resolves_accept _))).tail
        (.start (DemoReview.resolves_reject _))).trans (Pool.schedule_run _ _)⟩
    exact ⟨_, by decide +kernel, rfl, ((resolved_is_final "prop").1 _ hreach).1⟩
  · have hreach : Watch.Reachable (beside (standing "prop")) (fun s => s.2 = []) (Resolves "prop")
        (LeavesProposal "prop") (Watch.schedule (beside (standing "prop")) [0, 0, 0, 0, 1]
          ⟨DemoReview.state .widening, [(none, DemoReview.accept), (none, DemoReview.reject)]⟩) :=
      ⟨_, rfl, ((Relation.ReflTransGen.single (.start (DemoReview.resolves_accept _))).tail
        (.start (DemoReview.resolves_reject _))).trans (Watch.schedule_run _ _)⟩
    exact ⟨_, by decide +kernel, ((resolved_is_final "prop").2 _ hreach).1⟩

-- Where the columns are read, two reviews that read the same row are both answered with Ok, and the proposal that the one
-- has rejected the other accepts.
example :
    let c := Pool.schedule [0, 1, 1, 1] ⟨DemoReview.state .widening, [DemoReview.accept, DemoReview.reject]⟩
    DemoReview.outcome c.state.1.db = some (.rejected, some "gw-b") ∧
      DemoReview.outcome (Pool.schedule [0, 0, 0] c).state.1.db = some (.accepted, some "gw-a") ∧
      (Pool.schedule [0, 0, 0] c).state.2 = ["gw-b", "gw-a"] := by
  decide +kernel

end A2AGateway
