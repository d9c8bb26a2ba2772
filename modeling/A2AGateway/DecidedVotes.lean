import A2AGateway.Voting

/-!
# No decided vote is lost

Whatever order the statements of concurrent `cast_vote` calls take effect in: once all calls
have come to an end, none of them at a database error, the stored status agrees with the
recorded votes (`decided_votes_kept`). A voter's recorded vote is the first one it committed
(`recorded_vote_is_first`): `ON CONFLICT .. DO NOTHING` turns every later one away.
-/

namespace A2AGateway

open Gw Contributions

/-- The recorded vote of an agent of a gateway. -/
def voteOf (db : Db) (id gatewayName agentName : String) : Option Vote :=
  (votesOn db id).find? fun v => v.gatewayName == gatewayName && v.agentName == agentName

/-- The statement that inserts a vote. -/
def voteStatement (v : Vote) : Gw Unit := execute (.msg "insert vote") fun _ db => insertVote v db

/-- One step, in which the statement of some call that inserts `v` is committed. -/
def Commits (id : String) (v : Vote) (c c' : Pool World Err) : Prop :=
  v.proposalId = id ∧ ∃ (ts₁ ts₂ : List (Gw Unit)) (g : Unit → Gw Unit),
    c.threads = ts₁ ++ (voteStatement v).bind g :: ts₂ ∧
    ((voteStatement v).exec c.state).1 = .ok () ∧ c' = ⟨((voteStatement v).exec c.state).2, ts₁ ++ g () :: ts₂⟩

/-- A run, with the votes whose statements were committed on the way, in that order. -/
inductive Vote.Trace (id : String) (may : String → String → VoteKind → Prop) (c : Pool World Err) :
    List Vote → Pool World Err → Prop
  | refl : Trace id may c [] c
  | commit {l v c₁ c₂} : Trace id may c l c₁ → Pool.Step (Casts id may) (Elsewhere id) c₁ c₂ → Commits id v c₁ c₂ →
      Trace id may c (l ++ [v]) c₂
  | other {l c₁ c₂} : Trace id may c l c₁ → Pool.Step (Casts id may) (Elsewhere id) c₁ c₂ →
      (¬ ∃ v, Commits id v c₁ c₂) → Trace id may c l c₂

section
variable {id : String} {n : Int} {may : String → String → VoteKind → Prop}

/-- Every run has its trace. -/
theorem Vote.Trace.of_run {c c' : Pool World Err}
    (h : Relation.ReflTransGen (Pool.Step (Casts id may) (Elsewhere id)) c c') : ∃ l, Vote.Trace id may c l c' := by
  induction h with
  | refl => exact ⟨[], .refl⟩
  | @tail c₁ c₂ _ hstep ih =>
    obtain ⟨l, hl⟩ := ih
    by_cases hc : ∃ v, Commits id v c₁ c₂
    · obtain ⟨v, hv⟩ := hc
      exact ⟨l ++ [v], .commit hl hstep hv⟩
    · exact ⟨l, .other hl hstep hc⟩

theorem Vote.Trace.run {c c' : Pool World Err} {l : List Vote} (h : Vote.Trace id may c l c') :
    Relation.ReflTransGen (Pool.Step (Casts id may) (Elsewhere id)) c c' := by
  induction h with
  | refl => exact .refl
  | commit _ hstep _ ih => exact ih.tail hstep
  | other _ hstep _ ih => exact ih.tail hstep

/-! ## Only the insert statement touches the votes -/

/-- What is left of a call that is about to insert a vote on the proposal. -/
def AboutToVote (id : String) (p : Gw Unit) : Prop := ∃ v g, v.proposalId = id ∧ p = (voteStatement v).bind g

/-- The votes on the proposal are the same. -/
def SameVotes (id : String) (w w' : World) : Prop := votesOn w'.db id = votesOn w.db id

theorem SameVotes.refl (w : World) : SameVotes id w w := rfl

theorem checkVoteOutcome_moves (p : Proposal) : (checkVoteOutcome id p).Moves (SameVotes id) := by
  have hresolve : ∀ status resolvedBy, (resolve id status resolvedBy).Moves (SameVotes id) := by
    intro status resolvedBy
    have hnow : nowSecs.Moves (SameVotes id) := Prog.moves_look SameVotes.refl _
    refine hnow.bind fun now => moves_execute (fun _ => rfl) fun w db hdb => ?_
    cases hdb
    rfl
  have htally : (query (.msg "tally votes") fun db => tally db id).Moves (SameVotes id) := moves_query fun _ => rfl
  unfold checkVoteOutcome
  simp only [Prog.bind_eq, Prog.pure_eq]
  refine htally.bind fun o => moves_orThrow.bind fun counts => ?_
  split
  · exact (hresolve _ _).bind fun _ => trivial
  · split
    · exact (hresolve _ _).bind fun _ => trivial
    · trivial

/-- Of the actions of a call only the insert statement touches the votes. -/
theorem castVote_movesBut (b : Ballot) : (b.prog id).MovesBut (SameVotes id) (AboutToVote id) := by
  have hget : (Contributions.get id).Moves (SameVotes id) := moves_fetch fun _ => rfl
  have hnow : nowSecs.Moves (SameVotes id) := Prog.moves_look SameVotes.refl _
  unfold Ballot.prog castVote
  simp only [Prog.bind_eq, Prog.bind_assoc]
  refine hget.bind_but fun o => moves_orThrow.bind_but fun p => ?_
  split
  · trivial
  · simp only [Prog.bind_assoc]
    refine hnow.bind_but fun now => ?_
    obtain ⟨F, hp, -⟩ := execute_prim (.msg "insert vote") fun _ db => insertVote (b.row id now) db
    have hx : ∀ g, AboutToVote id ((Prog.prim F).bind g) := fun g => ⟨b.row id now, g, rfl, by rw [voteStatement, hp]⟩
    have hrest : ((checkVoteOutcome id p).bind fun _ => Prog.ret ()).MovesBut (SameVotes id) (AboutToVote id) :=
      ((checkVoteOutcome_moves p).bind fun _ => Prog.moves_ret ()).but
    have hbut := Prog.MovesBut.prim_bind (hx _) fun _ => hrest
    rw [← hp] at hbut
    exact hbut

/-! ## The first vote stays -/

/-- A committed vote goes in behind those on the proposal, unless its voter has one there. -/
theorem Commits.votesOn {v : Vote} {c c' : Pool World Err} (h : Commits id v c c') :
    (∃ x ∈ votesOn c.state.db id, x.sameVoter v = true) ∧ votesOn c'.state.db id = votesOn c.state.db id ∨
      (∀ x ∈ votesOn c.state.db id, x.sameVoter v = false) ∧
        votesOn c'.state.db id = votesOn c.state.db id ++ [v] := by
  obtain ⟨hv, ts₁, ts₂, g, -, hok, rfl⟩ := h
  obtain ⟨db, hins, hw⟩ := exec_execute_ok (Prog.exec_eq_of_fst hok)
  simp only [voteStatement, hw]
  exact (votesOn_insertVote hins hv).2

/-- What is no commit leaves the votes as they are. -/
theorem votesOn_of_not_commits {c c' : Pool World Err}
    (h : Pool.Step (Casts id may) (Elsewhere id) c c')
    (hthreads : ∀ p ∈ c.threads, p.MovesBut (SameVotes id) (AboutToVote id)) (hno : ¬ ∃ v, Commits id v c c') :
    votesOn c'.state.db id = votesOn c.state.db id := by
  have hstart : ∀ s p, Casts id may s p → p.MovesBut (SameVotes id) (AboutToVote id) := by
    rintro _ _ ⟨b, -, rfl⟩
    exact castVote_movesBut b
  obtain ⟨-, hsame | ⟨ts₁, ts₂, β, f, k, ⟨v, g, hv, heq⟩, hc, rfl⟩⟩ :=
    h.but SameVotes.refl hthreads hstart fun _ _ hw => hw.2
  · exact hsame
  · -- An insert that was not committed is one that failed.
    obtain ⟨F, hp, hF⟩ := execute_prim (.msg "insert vote") fun _ db => insertVote v db
    have hnode : voteStatement v = Prog.prim F := hp
    have hact : Prog.act f k = (Prog.prim F).bind g := by rw [heq, hnode]
    cases hact
    rcases hF c.state with hfail | ⟨db, hins, hok⟩
    · rw [hfail]
      rfl
    · refine absurd ⟨v, hv, ts₁, ts₂, g, by rw [hc, hnode]; rfl, ?_, ?_⟩ hno
      · rw [hnode, Prog.exec_prim, hok]
      · rw [hnode, Prog.exec_prim, hok]
        rfl

/-- **A voter's recorded vote is the first one it committed.** -/
theorem recorded_vote_is_first {w : World} {c : Pool World Err} {l : List Vote} (hw : votesOn w.db id = [])
    (h : Vote.Trace id may ⟨w, []⟩ l c) (gatewayName agentName : String) :
    voteOf c.state.db id gatewayName agentName =
      l.find? fun v => v.gatewayName == gatewayName && v.agentName == agentName := by
  have hstart : ∀ s p, Casts id may s p → p.MovesBut (SameVotes id) (AboutToVote id) := by
    rintro _ _ ⟨b, -, rfl⟩
    exact castVote_movesBut b
  have hall : (∀ p ∈ c.threads, p.MovesBut (SameVotes id) (AboutToVote id)) ∧
      voteOf c.state.db id gatewayName agentName =
        l.find? fun v => v.gatewayName == gatewayName && v.agentName == agentName := by
    induction h with
    | refl => exact ⟨by simp, by simp [voteOf, hw]⟩
    | @commit l v c₁ c₂ _ hstep hcommit ih =>
      obtain ⟨hthreads, hrec⟩ := ih
      refine ⟨(hstep.but SameVotes.refl hthreads hstart fun _ _ hw => hw.2).1, ?_⟩
      have hv := hcommit.1
      rw [List.find?_append, ← hrec]
      rcases hcommit.votesOn with ⟨⟨x, hx, hsame⟩, hvotes⟩ | ⟨-, hvotes⟩
      · -- The voter has a vote: one of the list already answers for it.
        rw [voteOf, voteOf, hvotes]
        by_cases hby : (v.gatewayName == gatewayName && v.agentName == agentName) = true
        · obtain ⟨-, hg, ha⟩ := Vote.sameVoter_iff.1 hsame
          rw [Option.or_of_isSome (List.find?_isSome.2 ⟨x, hx, by rw [hg, ha, hby]⟩)]
        · simp [hby]
      · rw [voteOf, voteOf, hvotes, List.find?_append]
    | @other l c₁ c₂ _ hstep hno ih =>
      obtain ⟨hthreads, hrec⟩ := ih
      refine ⟨(hstep.but SameVotes.refl hthreads hstart fun _ _ hw => hw.2).1, ?_⟩
      rw [← hrec, voteOf, voteOf, votesOn_of_not_commits hstep hthreads hno]
  exact hall.2

/-! ## The decision is seen to -/

/-- Every call has come to its end, none at a database error. -/
def Completed (c : Pool World Err) : Prop :=
  ∀ p ∈ c.threads, p = .ret () ∨ ∃ e, p = .fail e ∧ ¬ DatabaseError e

/-- Once all calls are through, the proposal says what the votes say. -/
theorem resolved_of_completed {c : Pool World Err} (h : Vote.Run id n may c) (hdone : Completed c)
    (hd : Decided c.state.db id n) : Resolved c.state.db id := by
  by_contra hno
  obtain ⟨p, hp, ho⟩ := h.paid.2 ⟨hd, hno⟩
  rcases hdone p hp with rfl | ⟨e, rfl, he⟩
  · exact hno (Seen.resolved (a := ()) ho)
  · rcases (ho : Seen id (.error e : Except Err Unit) c.state.db) with hres | ⟨e', heq, hdb⟩
    · exact hno hres
    · cases heq
      exact he hdb

/-- **No decided vote is lost**: once all calls are through without a database error, the stored status
agrees with the recorded votes; and each voter's recorded vote is the first one it committed. -/
theorem decided_votes_kept {w : World} {c : Pool World Err} {l : List Vote} (hw : Opened id n w)
    (h : Vote.Trace id may ⟨w, []⟩ l c) :
    (Completed c → ∃ p, proposalRow c.state.db id = some p ∧ p.gatewayCount = n ∧
      (p.status = .voting ↔ ¬ majority n ≤ tallyOf c.state.db id .approve ∧
        ¬ majority n ≤ tallyOf c.state.db id .reject) ∧
      (p.status = .accepted → majority n ≤ tallyOf c.state.db id .approve) ∧
      (p.status = .rejected → majority n ≤ tallyOf c.state.db id .reject)) ∧
    ∀ gatewayName agentName, voteOf c.state.db id gatewayName agentName =
      l.find? fun v => v.gatewayName == gatewayName && v.agentName == agentName := by
  have hrun : Vote.Run id n may c := ⟨w, hw, h.run⟩
  refine ⟨fun hdone => ?_, recorded_vote_is_first hw.2.2 h⟩
  obtain ⟨⟨p, hp, hn, hback⟩, -⟩ := hrun.paid.1
  have hres := resolved_of_completed hrun hdone
  refine ⟨p, hp, hn, ⟨fun hvoting => ?_, fun hno => ?_⟩, fun ha => ?_, fun hr => ?_⟩
  · have hopen : ¬ Resolved c.state.db id := by
      rintro ⟨q, hq, hqres⟩
      rw [hp] at hq
      cases hq
      rw [hvoting] at hqres
      cases hqres
    exact ⟨fun ha => hopen (hres (Or.inl ha)), fun hr => hopen (hres (Or.inr hr))⟩
  · cases hs : p.status with
    | voting => rfl
    | accepted => exact absurd (by rw [hs] at hback; exact hback) hno.1
    | rejected => exact absurd (by rw [hs] at hback; exact hback) hno.2
    | «open» => rw [hs] at hback; exact hback.elim
    | prPending => rw [hs] at hback; exact hback.elim
    | prAccepted => rw [hs] at hback; exact hback.elim
  · rw [ha] at hback
    exact hback
  · rw [hr] at hback
    exact hback

end

/-- Two gateways of three approve: accepted, on their two votes. -/
theorem decided_votes_kept_demo : ∃ (l : List Vote) (p : Proposal),
    Vote.Trace "prop" (fun _ _ _ => True) ⟨DemoVote.world .widening, []⟩ l (DemoVote.pool .widening DemoVote.ballotA DemoVote.ballotB) ∧
      proposalRow (DemoVote.pool .widening DemoVote.ballotA DemoVote.ballotB).state.db "prop" = some p ∧ p.status = .accepted ∧
      2 ≤ tallyOf (DemoVote.pool .widening DemoVote.ballotA DemoVote.ballotB).state.db "prop" .approve := by
  have hrun : Relation.ReflTransGen (Pool.Step (Casts "prop" fun _ _ _ => True) (Elsewhere "prop"))
    ⟨DemoVote.world .widening, []⟩ (DemoVote.pool .widening DemoVote.ballotA DemoVote.ballotB) := DemoVote.run_pool trivial trivial
  obtain ⟨l, hl⟩ := Vote.Trace.of_run hrun
  have hok₁ : (((DemoVote.ballotA).prog "prop").exec (DemoVote.world .widening)).1 = .ok () := rfl
  have hok₂ : (((DemoVote.ballotB).prog "prop").exec (((DemoVote.ballotA).prog "prop").exec (DemoVote.world .widening)).2).1 =
      .ok () := rfl
  have hdone : Completed (DemoVote.pool .widening DemoVote.ballotA DemoVote.ballotB) := by
    intro p hp
    simp only [DemoVote.pool, hok₁, hok₂, List.mem_cons, List.not_mem_nil, or_false] at hp
    rcases hp with rfl | rfl <;> exact Or.inl rfl
  obtain ⟨p, hp, hn, -, hacc, -⟩ := (decided_votes_kept (DemoVote.opened .widening) hl).1 hdone
  have hstatus : (proposalRow (DemoVote.pool .widening DemoVote.ballotA DemoVote.ballotB).state.db "prop").map (·.status) =
      some .accepted := by decide +kernel
  have haccepted : p.status = .accepted := by simpa [hp] using hstatus
  exact ⟨l, p, hl, hp, haccepted, hacc haccepted⟩

end A2AGateway
