import A2AGateway.Contributions
import A2AGateway.Statements

/-!
# A vote under way (`cast_vote`, many callers)

The interleavings of any number of `cast_vote` calls on one proposal, statement by statement,
and the discipline they all keep: votes are only ever added, a status is only ever left for a
decided one, and a decided status has its majority among the recorded votes. A call that records
the deciding vote still owes the proposal its resolution (`pays_castVote`).

As shipped `get` returns no proposal, so that a vote or a review ends there (`Ballot.upholds_shipped`,
`upholds_acceptPr_shipped`, `upholds_rejectPr_shipped`).
-/

namespace A2AGateway

open Gw Contributions

/-- The arguments of one `cast_vote` call but for the proposal. -/
structure Ballot where
  voteId : Uuid
  gatewayName : String
  agentName : String
  vote : VoteKind
  reason : String

namespace Ballot

def prog (b : Ballot) (id : String) : Gw Unit :=
  (castVote b.voteId id b.gatewayName b.agentName b.vote b.reason).bind fun _ => .ret ()

/-- The row a ballot asks to insert. -/
def row (b : Ballot) (id : String) (now : F64) : Vote :=
  ⟨b.voteId.text, id, b.gatewayName, b.agentName, b.vote, b.reason, now⟩

end Ballot

/-- `cast_vote` calls on the proposal; `may` says which agents of which gateways cast which votes. -/
def Casts (id : String) (may : String → String → VoteKind → Prop) (_ : World) (p : Gw Unit) : Prop :=
  ∃ b : Ballot, may b.gatewayName b.agentName b.vote ∧ p = b.prog id

/-- Whatever else goes on leaves the proposal and its votes alone. -/
def Elsewhere (id : String) (w w' : World) : Prop :=
  proposalRow w'.db id = proposalRow w.db id ∧ votesOn w'.db id = votesOn w.db id

/-- Put to the vote among `n` gateways; nobody has voted. -/
def Opened (id : String) (n : Int) (w : World) : Prop :=
  2 < n ∧ (∃ p, proposalRow w.db id = some p ∧ p.status = .voting ∧ p.gatewayCount = n) ∧ votesOn w.db id = []

/-- The voting so far. -/
abbrev Vote.Run (id : String) (n : Int) (may : String → String → VoteKind → Prop) (c : Pool World Err) : Prop :=
  Pool.Reachable (Opened id n) (Casts id may) (Elsewhere id) c

/-- `open` with more than two gateways puts the proposal to the vote. -/
theorem opened_of_open {uuid : Uuid} {projectId proposerGateway proposerAgent snapshotId description : String}
    {gatewayCount : Int} {w w' : World} {p : Proposal}
    (hfk : ∀ v ∈ w.db.contributionVotes.rows, w.db.hasProposal v.proposalId = true)
    (hcount : 2 < gatewayCount)
    (h : (Contributions.open uuid projectId proposerGateway proposerAgent snapshotId description gatewayCount).exec w =
      (.ok p, w')) : Opened p.id gatewayCount w' := by
  obtain ⟨hid, hn, hstatus, hfresh, hrow, hvotes⟩ := open_exec_ok h
  rw [if_pos hcount] at hstatus
  refine ⟨hcount, ⟨p, by rw [hid, hrow], hstatus, hn⟩, ?_⟩
  rw [votesOn, hvotes, List.filter_eq_nil_iff]
  intro v hv hon
  have hon : v.proposalId = uuid.text := by simpa [hid] using hon
  rw [← hon, hfk v hv] at hfresh
  cases hfresh

/-! ## What everybody keeps -/

/-- A decided status has its majority among the recorded votes. -/
def Backed (db : Db) (id : String) (n : Int) : ProposalStatus → Prop
  | .voting => True
  | .accepted => majority n ≤ tallyOf db id .approve
  | .rejected => majority n ≤ tallyOf db id .reject
  | _ => False

/-- Accepted or rejected. -/
def ProposalStatus.resolved : ProposalStatus → Bool
  | .accepted | .rejected => true
  | _ => false

def Resolved (db : Db) (id : String) : Prop := ∃ p, proposalRow db id = some p ∧ p.status.resolved = true

/-- One of the two sides has its majority. -/
def Decided (db : Db) (id : String) (n : Int) : Prop :=
  majority n ≤ tallyOf db id .approve ∨ majority n ≤ tallyOf db id .reject

def voting (id : String) (n : Int) (may : String → String → VoteKind → Prop) : Discipline Db where
  inv db := (∃ p, proposalRow db id = some p ∧ p.gatewayCount = n ∧ Backed db id n p.status) ∧
    ∀ v ∈ votesOn db id, may v.gatewayName v.agentName v.vote
  step db db' := (∃ l, votesOn db' id = votesOn db id ++ l) ∧ (Resolved db id → Resolved db' id)
  refl db := ⟨⟨[], by simp⟩, fun h => h⟩
  trans a b c hab hbc := by
    obtain ⟨⟨l, hl⟩, hr⟩ := hab
    obtain ⟨⟨l', hl'⟩, hr'⟩ := hbc
    exact ⟨⟨l ++ l', by rw [hl', hl, List.append_assoc]⟩, fun h => hr' (hr h)⟩

section
variable {id : String} {n : Int} {may : String → String → VoteKind → Prop} {db db' : Db}

theorem Backed.mono {l : List Vote} (h : votesOn db' id = votesOn db id ++ l) {s : ProposalStatus}
    (hs : Backed db id n s) : Backed db' id n s := by
  cases s with
  | accepted => exact Int.le_trans hs (tallyOf_mono h _)
  | rejected => exact Int.le_trans hs (tallyOf_mono h _)
  | _ => exact hs

theorem Decided.mono (h : (voting id n may).step db db') (hd : Decided db id n) : Decided db' id n := by
  obtain ⟨⟨l, hl⟩, -⟩ := h
  exact hd.imp (fun ha => Int.le_trans ha (tallyOf_mono hl _)) fun hr => Int.le_trans hr (tallyOf_mono hl _)

/-! ### The statements -/

/-- Recording a vote. -/
theorem voting_insertVote {v : Vote} (hv : v.proposalId = id) (hmay : may v.gatewayName v.agentName v.vote)
    (hi : (voting id n may).inv db) (h : insertVote v db = some db') :
    (voting id n may).step db db' ∧ (voting id n may).inv db' := by
  obtain ⟨hrow, hvotes⟩ := votesOn_insertVote h hv
  obtain ⟨⟨p, hp, hn, hb⟩, hall⟩ := hi
  have happend : ∃ l, votesOn db' id = votesOn db id ++ l := by
    rcases hvotes with ⟨-, h⟩ | ⟨-, h⟩
    · exact ⟨[], by simp [h]⟩
    · exact ⟨[v], h⟩
  obtain ⟨l, hl⟩ := happend
  refine ⟨⟨⟨l, hl⟩, fun ⟨q, hq, hr⟩ => ⟨q, by rw [hrow, hq], hr⟩⟩, ⟨p, by rw [hrow, hp], hn, hb.mono hl⟩, ?_⟩
  intro x hx
  rcases hvotes with ⟨-, h⟩ | ⟨-, h⟩
  · exact hall x (h ▸ hx)
  · rw [h] at hx
    rcases List.mem_append.1 hx with hx | hx
    · exact hall x hx
    · rw [List.mem_singleton.1 hx]
      exact hmay

/-- Resolving a proposal for the side that has its majority. -/
theorem voting_resolve (f : Proposal → Proposal) (hf : ∀ p, (f p).id = p.id)
    (hcount : ∀ p, (f p).gatewayCount = p.gatewayCount) (hstatus : ∀ p, (f p).status.resolved = true)
    (hback : ∀ p, Backed db id n (f p).status) (hi : (voting id n may).inv db) :
    (voting id n may).step db (updateProposal id f hf db) ∧ (voting id n may).inv (updateProposal id f hf db) ∧
      Resolved (updateProposal id f hf db) id := by
  obtain ⟨⟨p, hp, hn, -⟩, hall⟩ := hi
  have hrow : proposalRow (updateProposal id f hf db) id = some (f p) := by
    rw [proposalRow_updateProposal, hp]
    rfl
  have hresolved : Resolved (updateProposal id f hf db) id := ⟨f p, hrow, hstatus p⟩
  have hvotes : votesOn (updateProposal id f hf db) id = votesOn db id := rfl
  exact ⟨⟨⟨[], by simp [hvotes]⟩, fun _ => hresolved⟩,
    ⟨⟨f p, hrow, (hcount p).trans hn, (hback p).mono (l := []) (by simp [hvotes])⟩, hall⟩, hresolved⟩

/-! ### The calls -/

/-- What a call that fails at the database says. -/
def DatabaseError (e : Err) : Prop :=
  e = .msg "get proposal" ∨ e = .msg "insert vote" ∨ e = .msg "tally votes" ∨ e = .msg "resolve proposal"

/-- Recorded votes have decided, and the proposal does not say so. -/
def Owed (id : String) (n : Int) (db : Db) : Prop := Decided db id n ∧ ¬ Resolved db id

/-- It says so, or the call failed at the database. -/
def Seen {α : Type} (id : String) (r : Except Err α) (db : Db) : Prop :=
  Resolved db id ∨ ∃ e, r = .error e ∧ DatabaseError e

theorem Seen.resolved {α : Type} {a : α} (h : Seen id (.ok a) db) : Resolved db id := by
  rcases h with h | ⟨_, he, _⟩
  · exact h
  · cases he

theorem Seen.failed {α β : Type} {e : Err} (h : Seen id (.error e : Except Err α) db) :
    Seen id (.error e : Except Err β) db := by
  rcases h with h | ⟨_, he, hdb⟩
  · exact Or.inl h
  · cases he
    exact Or.inr ⟨e, rfl, hdb⟩

variable {w : World}

/-- The discipline, of one gateway's state. -/
abbrev votingWorld (id : String) (n : Int) (may : String → String → VoteKind → Prop) : Discipline World :=
  (voting id n may).comap World.db

/-- The update of `resolve`, at any later state. -/
theorem resolve_statement {status : ProposalStatus} {resolvedBy : String} {now : F64} {db db₁ db₂ : Db}
    (hstatus : status.resolved = true) (hback : Backed db id n status) (hs : (voting id n may).step db db₁)
    (hi : (voting id n may).inv db₁)
    (h : some (updateProposal id (fun p => { p with status, resolvedAt := some now, resolvedBy := some resolvedBy })
      (fun _ => rfl) db₁) = some db₂) :
    ((voting id n may).step db₁ db₂ ∧ (voting id n may).inv db₂) ∧ Resolved db₂ id := by
  cases h
  obtain ⟨l, hl⟩ := hs.1
  obtain ⟨hstep, hinv, hres⟩ := voting_resolve (fun p =>
    { p with status, resolvedAt := some now, resolvedBy := some resolvedBy }) (fun _ => rfl)
    (fun _ => rfl) (fun _ => hstatus) (fun _ => hback.mono hl) hi
  exact ⟨⟨hstep, hinv⟩, hres⟩

theorem obeys_resolve {status : ProposalStatus} {resolvedBy : String} (hstatus : status.resolved = true)
    (hback : Backed w.db id n status) :
    (resolve id status resolvedBy).Obeys (votingWorld id n may) (fun r w => Seen id r w.db) w := by
  intro w₁ hs₁ hi₁
  refine ⟨⟨(voting id n may).refl _, hi₁⟩, ?_⟩
  refine obeys_execute (Q := Seen id) ?_ fun _ _ _ => Or.inr ⟨_, rfl, by simp [DatabaseError]⟩
  intro now db db' hs hi hf
  obtain ⟨hstep, hres⟩ := resolve_statement hstatus hback ((voting id n may).trans _ _ _ hs₁ hs) hi hf
  exact ⟨hstep, Or.inl hres⟩

theorem pays_resolve {status : ProposalStatus} {resolvedBy : String} (hstatus : status.resolved = true)
    (hback : Backed w.db id n status) :
    (resolve id status resolvedBy).Pays (votingWorld id n may) (fun w => Owed id n w.db)
      (fun r w => Seen id r w.db) w := by
  refine Prog.Pays.look_bind fun w₁ hs₁ _ => ?_
  refine pays_execute (Q := Seen id) fun now db db' hs hi hf => ?_
  obtain ⟨hstep, hres⟩ := resolve_statement hstatus hback ((voting id n may).trans _ _ _ hs₁ hs) hi hf
  exact ⟨hstep, fun _ => Or.inl hres⟩

/-- Where the votes have decided, the tally finds it and the proposal is resolved. -/
theorem obeys_checkVoteOutcome {p : Proposal} (hn : p.gatewayCount = n) (hd : Decided w.db id n) :
    (checkVoteOutcome id p).Obeys (votingWorld id n may) (fun r w => Seen id r w.db) w := by
  unfold checkVoteOutcome
  simp only [Prog.bind_eq, Prog.pure_eq]
  refine obeys_query_bind (Q := Seen id) (fun w₁ hs₁ _ => ?_) fun _ _ _ => Or.inr ⟨_, rfl, by simp [DatabaseError]⟩
  have hd₁ : Decided w₁.db id n := hd.mono hs₁
  cases ht : tally w₁.db id with
  | none => exact Or.inr ⟨_, rfl, by simp [DatabaseError]⟩
  | some counts =>
    obtain ⟨approvals, rejections⟩ := counts
    obtain ⟨rfl, rfl⟩ := tally_eq_some ht
    simp only [orThrow, Prog.ret_bind, hn]
    split
    · rename_i happrove
      have hback : Backed w₁.db id n .accepted := happrove
      exact (obeys_resolve rfl hback).bind (fun _ _ h => Or.inl h.resolved) fun _ _ h => h.failed
    · rename_i happrove
      have hreject : majority n ≤ tallyOf w₁.db id .reject := hd₁.resolve_left happrove
      have hback : Backed w₁.db id n .rejected := hreject
      rw [if_pos hreject]
      exact (obeys_resolve rfl hback).bind (fun _ _ h => Or.inl h.resolved) fun _ _ h => h.failed

theorem pays_checkVoteOutcome {p : Proposal} (hn : p.gatewayCount = n) :
    (checkVoteOutcome id p).Pays (votingWorld id n may) (fun w => Owed id n w.db) (fun r w => Seen id r w.db) w := by
  unfold checkVoteOutcome
  simp only [Prog.bind_eq, Prog.pure_eq]
  refine pays_query_bind fun w₁ _ _ => ?_
  cases ht : tally w₁.db id with
  | none => trivial
  | some counts =>
    obtain ⟨approvals, rejections⟩ := counts
    obtain ⟨rfl, rfl⟩ := tally_eq_some ht
    simp only [orThrow, Prog.ret_bind, hn]
    split
    · rename_i happrove
      have hback : Backed w₁.db id n .accepted := happrove
      exact (pays_resolve rfl hback).bind (fun _ _ => trivial) (fun _ _ h => Or.inl h.resolved) fun _ _ h => h.failed
    · split
      · rename_i hreject
        have hback : Backed w₁.db id n .rejected := hreject
        exact (pays_resolve rfl hback).bind (fun _ _ => trivial) (fun _ _ h => Or.inl h.resolved) fun _ _ h => h.failed
      · trivial

/-- **A call that records the deciding vote still owes the proposal its resolution.** -/
theorem pays_castVote {b : Ballot} (hmay : may b.gatewayName b.agentName b.vote) :
    (b.prog id).Pays (votingWorld id n may) (fun w => Owed id n w.db) (fun r w => Seen id r w.db) w := by
  refine Prog.Pays.bind (Q := fun r w => Seen id r w.db) ?_ (fun _ _ => trivial) (fun _ _ h => Or.inl h.resolved)
    fun _ _ h => h.failed
  unfold castVote
  simp only [Prog.bind_eq]
  refine pays_fetch_bind fun w₁ o hs₁ hi₁ ho => ?_
  obtain ⟨rfl, -⟩ := Engine.decodeRow_eq_some.1 ho
  obtain ⟨⟨p, hp, hn, -⟩, -⟩ := hi₁
  simp only [hp, orThrow, Prog.ret_bind]
  split
  · trivial
  · refine Prog.Pays.look_bind fun w₂ hs₂ hi₂ => ?_
    refine pays_execute_bind (fun now db db' _ hi hins => voting_insertVote rfl hmay hi hins) ?_
    intro now db w₃ _ _ hins
    -- The vote is in: if it decides, the tally that follows will find so.
    exact ⟨fun howed => obeys_checkVoteOutcome hn howed.1, pays_checkVoteOutcome hn⟩

/-- What goes on elsewhere is nothing to the vote. -/
theorem voting_elsewhere {w w' : World} (h : Elsewhere id w w') (hi : (voting id n may).inv w.db) :
    ((voting id n may).step w.db w'.db ∧ (voting id n may).inv w'.db) ∧ (Owed id n w'.db → Owed id n w.db) := by
  obtain ⟨hrow, hvotes⟩ := h
  have htally : ∀ kind, tallyOf w'.db id kind = tallyOf w.db id kind := fun kind => by simp only [tallyOf, hvotes]
  obtain ⟨⟨p, hp, hn, hb⟩, hall⟩ := hi
  have hresolved : Resolved w.db id → Resolved w'.db id := by
    rintro ⟨q, hq, hr⟩
    exact ⟨q, by rw [hrow, hq], hr⟩
  refine ⟨⟨⟨⟨[], by simp [hvotes]⟩, hresolved⟩, ⟨p, by rw [hrow, hp], hn, ?_⟩, ?_⟩, ?_⟩
  · exact hb.mono (l := []) (by simp [hvotes])
  · rw [hvotes]
    exact hall
  · simp only [Owed, Decided, Resolved, htally, hrow]
    exact fun h => h

theorem voting_opened {w : World} (h : Opened id n w) : (voting id n may).inv w.db ∧ ¬ Owed id n w.db := by
  obtain ⟨hn, ⟨p, hp, hstatus, hcount⟩, hnone⟩ := h
  refine ⟨⟨⟨p, hp, hcount, by rw [hstatus]; trivial⟩, by simp [hnone]⟩, fun ⟨hd, _⟩ => ?_⟩
  have htally : ∀ kind, tallyOf w.db id kind = 0 := fun kind => by simp [tallyOf, hnone]
  have hpos : 0 < majority n := by
    have := Int.tdiv_nonneg (by omega : 0 ≤ n) (by omega : (0 : Int) ≤ 2)
    simp only [majority]
    omega
  simp only [Decided, htally] at hd
  omega

/-- The discipline holds in every state of the voting, and an owed resolution is seen to. -/
theorem Vote.Run.paid {c : Pool World Err} (h : Vote.Run id n may c) :
    (voting id n may).inv c.state.db ∧ (Owed id n c.state.db →
      ∃ p ∈ c.threads, p.Obeys (votingWorld id n may) (fun r w => Seen id r w.db) c.state) := by
  refine Pool.Reachable.paid (D := votingWorld id n may) (P := fun w => Owed id n w.db)
    (Q := fun r w => Seen id r w.db) h (fun w hw => voting_opened hw) ?_ (fun w w' hi hw => voting_elsewhere hw hi) ?_
  · rintro w p _ ⟨b, hmay, rfl⟩
    exact pays_castVote hmay
  · intro r a b hs hseen
    exact hseen.imp_left hs.2

/-- Votes are only added. -/
theorem Vote.Run.added {c c' : Pool World Err} (h : Vote.Run id n may c)
    (hrun : Relation.ReflTransGen (Pool.Step (Casts id may) (Elsewhere id)) c c') :
    ∃ l, votesOn c'.state.db id = votesOn c.state.db id ++ l := by
  have halong := Pool.Reachable.along (D := votingWorld id n may) h hrun (fun w hw => (voting_opened hw).1) ?_
    fun w w' hi hw => (voting_elsewhere hw hi).1
  · exact halong.1
  · rintro w p _ ⟨b, hmay, rfl⟩
    exact (pays_castVote hmay).obeys

end

/-! ## As shipped -/

section
variable {I : World → Prop} (hship : ∀ w, I w → w.AsShipped) (ht : ∀ w, I w → I w.tick)
include hship ht

/-- A proposal that is there is not returned. -/
theorem Contributions.upholds_get_shipped (id : String) : (Contributions.get id).Upholds I fun o => o = none := by
  refine upholds_fetch ht fun w o hw ho => ?_
  obtain ⟨rfl, hnone⟩ := Engine.decodeRow_eq_some.1 ho
  exact hnone (hship w hw)

theorem Ballot.upholds_shipped (b : Ballot) (id : String) : (b.prog id).Upholds I fun _ => False := by
  unfold prog castVote
  simp only [Prog.bind_eq, Prog.bind_assoc]
  refine (Contributions.upholds_get_shipped hship ht id).bind ?_
  rintro _ rfl
  trivial

theorem upholds_acceptPr_shipped (id reviewer : String) : (acceptPr id reviewer).Upholds I fun _ => False := by
  unfold acceptPr
  simp only [Prog.bind_eq]
  refine (Contributions.upholds_get_shipped hship ht id).bind ?_
  rintro _ rfl
  trivial

theorem upholds_rejectPr_shipped (id reviewer : String) : (rejectPr id reviewer).Upholds I fun _ => False := by
  unfold rejectPr
  simp only [Prog.bind_eq]
  refine (Contributions.upholds_get_shipped hship ht id).bind ?_
  rintro _ rfl
  trivial

end

/-! ## A proposal to vote on -/

namespace DemoVote

def proposal : Proposal :=
  { id := "prop", projectId := "p", proposerGateway := "gw-a", proposerAgent := "planner", snapshotId := "s",
    description := "", status := .voting, gatewayCount := 3, createdAt := .fin 0 }

def world (engine : Engine) : World :=
  { World.fresh with db := { Db.empty engine with contributionProposals := ⟨[proposal], List.pairwise_singleton _ _⟩ } }

theorem opened (engine : Engine) : Opened "prop" 3 (world engine) := ⟨by decide, ⟨proposal, rfl, rfl, rfl⟩, rfl⟩

def voteId1 : Uuid := ⟨"00000000-0000-4000-8000-0000000000a1", by decide⟩

def voteId2 : Uuid := ⟨"00000000-0000-4000-8000-0000000000a2", by decide⟩

/-- An approval of the one gateway, of another, and of another agent of the first. -/
def ballotA : Ballot := ⟨voteId1, "gw-a", "x", .approve, ""⟩

def ballotB : Ballot := ⟨voteId2, "gw-b", "y", .approve, ""⟩

def ballotA' : Ballot := ⟨voteId2, "gw-a", "y", .approve, ""⟩

/-- One call after the other. -/
def pool (engine : Engine) (b₁ b₂ : Ballot) : Pool World Err where
  state := ((b₂.prog "prop").exec ((b₁.prog "prop").exec (world engine)).2).2
  threads := [.ofExcept ((b₁.prog "prop").exec (world engine)).1,
    .ofExcept ((b₂.prog "prop").exec ((b₁.prog "prop").exec (world engine)).2).1]

/-- One call after the other is one of the runs. -/
theorem run_pool {engine : Engine} {may : String → String → VoteKind → Prop} {outside : World → World → Prop} {b₁ b₂ : Ballot}
    (h₁ : may b₁.gatewayName b₁.agentName b₁.vote) (h₂ : may b₂.gatewayName b₂.agentName b₂.vote) :
    Relation.ReflTransGen (Pool.Step (Casts "prop" may) outside) ⟨world engine, []⟩ (pool engine b₁ b₂) :=
  (Pool.start_alone ⟨b₁, h₁, rfl⟩ []).trans (Pool.start_alone ⟨b₂, h₂, rfl⟩ _)

end DemoVote

end A2AGateway
