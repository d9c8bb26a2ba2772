import A2AGateway.Voting
import Mathlib.Data.Finset.Card

/-!
# A majority of gateways

As shipped no vote is recorded and a proposal that is put to the vote stays there (`stays_voting`). Where the columns are
read, the quorum is counted in gateways (`gateway_count / 2 + 1`), the recorded votes in agents: the table takes one vote
from each agent of each gateway. With any decoding, as long as no gateway votes the same way under two agent names, a
decided proposal has its majority of gateways behind it (`majority_of_gateways`).
-/

namespace A2AGateway

open Gw Contributions

/-- The gateways with a recorded vote of this kind. -/
def gatewaysFor (db : Db) (id : String) (kind : VoteKind) : Finset String :=
  (((votesOn db id).filter (·.vote == kind)).map (·.gatewayName)).toFinset

/-- Decided, and a majority of the `n` gateways has voted for it. -/
def DecidedByGateways (db : Db) (id : String) (n : Int) : Prop :=
  ∀ p, proposalRow db id = some p →
    (p.status = .accepted → majority n ≤ (gatewaysFor db id .approve).card) ∧
    (p.status = .rejected → majority n ≤ (gatewaysFor db id .reject).card)

section
variable {id : String} {n : Int} {agentOf : String → VoteKind → String}

/-- Where each gateway has one agent for each kind of vote, votes of a kind are as many as gateways. -/
theorem card_gatewaysFor {db : Db} (h : ∀ v ∈ votesOn db id, v.agentName = agentOf v.gatewayName v.vote)
    (kind : VoteKind) : ((gatewaysFor db id kind).card : Int) = tallyOf db id kind := by
  have hnodup : (((votesOn db id).filter (·.vote == kind)).map (·.gatewayName)).Nodup := by
    refine List.pairwise_map.2 ?_
    have hpair : ((votesOn db id).filter (·.vote == kind)).Pairwise fun a b => Constraints.clash a b = false :=
      (db.contributionVotes.unique.filter _).filter _
    refine hpair.imp_of_mem fun {x y} hx hy hclash heq => ?_
    obtain ⟨hx, hkx⟩ := List.mem_filter.1 hx
    obtain ⟨hy, hky⟩ := List.mem_filter.1 hy
    have hkind : x.vote = y.vote := (beq_iff_eq.1 hkx).trans (beq_iff_eq.1 hky).symm
    have hsame : x.sameVoter y = true := Vote.sameVoter_iff.2
      ⟨(mem_votesOn.1 hx).2.trans (mem_votesOn.1 hy).2.symm, heq, by rw [h x hx, h y hy, heq, hkind]⟩
    simp [Constraints.clash, hsame] at hclash
  rw [gatewaysFor, List.toFinset_card_of_nodup hnodup, tallyOf, List.length_map, List.countP_eq_length_filter]

theorem decided_by_gateways {c : Pool World Err}
    (h : Vote.Run id n (fun gatewayName agentName kind => agentName = agentOf gatewayName kind) c) :
    DecidedByGateways c.state.db id n := by
  obtain ⟨⟨p, hp, -, hback⟩, hall⟩ := h.paid.1
  intro q hq
  rw [hp] at hq
  cases hq
  rw [card_gatewaysFor hall, card_gatewaysFor hall]
  refine ⟨fun ha => ?_, fun hr => ?_⟩
  · rw [ha] at hback
    exact hback
  · rw [hr] at hback
    exact hback

/-! ## As shipped -/

/-- Put to the vote as shipped. -/
def OpenedShipped (id : String) (n : Int) (w : World) : Prop := Opened id n w ∧ w.AsShipped

/-- Whatever else goes on leaves the proposal, its votes and the decoding of columns alone. -/
def ElsewhereDecoded (id : String) (w w' : World) : Prop := Elsewhere id w w' ∧ w'.db.engine = w.db.engine

/-- As shipped a proposal that is put to the vote stays there, without a vote. -/
theorem stays_voting {may : String → String → VoteKind → Prop} {c : Pool World Err}
    (h : Pool.Reachable (OpenedShipped id n) (Casts id may) (ElsewhereDecoded id) c) : OpenedShipped id n c.state := by
  refine h.upheld (fun _ hw => hw) (fun _ p _ hp => ?_) fun w w' hw hout => ?_
  · obtain ⟨b, -, rfl⟩ := hp
    exact (b.upholds_shipped (fun _ hw => hw.2) (fun _ hw => hw) id).post fun _ _ => trivial
  · obtain ⟨⟨hrow, hvotes⟩, hengine⟩ := hout
    obtain ⟨⟨hn, hp, hnone⟩, hship⟩ := hw
    refine ⟨⟨hn, by rw [hrow]; exact hp, hvotes.trans hnone⟩, ?_⟩
    rw [World.AsShipped, hengine]
    exact hship

theorem OpenedShipped.decidedByGateways {w : World} (h : OpenedShipped id n w) : DecidedByGateways w.db id n := by
  obtain ⟨⟨-, ⟨p, hp, hvoting, -⟩, -⟩, -⟩ := h
  intro q hq
  cases hp.symm.trans hq
  refine ⟨fun ha => ?_, fun hr => ?_⟩
  · cases hvoting.symm.trans ha
  · cases hvoting.symm.trans hr

/-- **A decided proposal has a majority of the gateways behind it**: as shipped in every run, and with any decoding in
every run in which no gateway votes the same way under two agent names. -/
theorem majority_of_gateways (id : String) (n : Int) :
    (∀ (may : String → String → VoteKind → Prop) (c : Pool World Err),
      Pool.Reachable (OpenedShipped id n) (Casts id may) (ElsewhereDecoded id) c → DecidedByGateways c.state.db id n) ∧
    ∀ (agentOf : String → VoteKind → String) (c : Pool World Err),
      Vote.Run id n (fun gatewayName agentName kind => agentName = agentOf gatewayName kind) c →
      DecidedByGateways c.state.db id n :=
  ⟨fun _ _ h => (stays_voting h).decidedByGateways, fun _ _ h => decided_by_gateways h⟩

end

/-- As shipped two approvals by one gateway are not recorded. Where the columns are read, two gateways with one agent each
accept the proposal, by a majority of three. -/
theorem majority_of_gateways_demo :
    (∃ c : Pool World Err, c.threads.length = 2 ∧
      (proposalRow c.state.db "prop").map (·.status) = some .voting ∧ DecidedByGateways c.state.db "prop" 3) ∧
    DecidedByGateways (DemoVote.pool .widening DemoVote.ballotA DemoVote.ballotB).state.db "prop" 3 ∧
      (proposalRow (DemoVote.pool .widening DemoVote.ballotA DemoVote.ballotB).state.db "prop").map (·.status) =
        some .accepted := by
  refine ⟨⟨DemoVote.pool .shipped DemoVote.ballotA DemoVote.ballotA', rfl, by decide +kernel, ?_⟩, ?_, by decide +kernel⟩
  · exact (majority_of_gateways "prop" 3).1 (fun _ _ _ => True) _
      ⟨_, ⟨DemoVote.opened .shipped, rfl⟩, DemoVote.run_pool trivial trivial⟩
  · exact (majority_of_gateways "prop" 3).2 (fun g _ => if g = "gw-a" then "x" else "y") _
      ⟨_, DemoVote.opened .widening, DemoVote.run_pool rfl rfl⟩

-- Where the columns are read, two agents of one gateway accept a proposal of three gateways.
example :
    let c := DemoVote.pool .widening DemoVote.ballotA DemoVote.ballotA'
    (proposalRow c.state.db "prop").map (·.status) = some .accepted ∧ gatewaysFor c.state.db "prop" .approve = {"gw-a"} := by
  decide +kernel

end A2AGateway
