import A2AGateway.Provenance
import A2AGateway.Voting

/-!
# How proposals stand

"gateway_count > 2 → agents vote (majority wins)", otherwise a proposal "requires PR review by origin owner"
(`005_contributions.sql`). The two ways are kept apart by one status column, which every call reads some statements
before it writes. Whatever comes in between, a proposal among more than two gateways is never reviewed, and resolved
only by a majority of the votes that are recorded; one among fewer gets no votes, and is resolved only by this gateway;
and one that has been resolved is never put to the vote or to review again (`proposals_ruled`). As shipped no call gets as
far as to write to one.
-/

namespace A2AGateway

open Gw Reconciler

namespace Contributions

/-- How a proposal may stand on a gateway of that name. -/
inductive Stands (own : String) (db : Db) (p : Proposal) : Prop
  | voting (hcount : 2 < p.gatewayCount) (hstatus : p.status = .voting) (hby : p.resolvedBy = none)
  | decided (hcount : 2 < p.gatewayCount) (hstatus : p.status.resolved = true)
      (hback : Backed db p.id p.gatewayCount p.status) (hby : p.resolvedBy = some "vote-majority")
  | pending (hcount : p.gatewayCount ≤ 2) (hstatus : p.status = .prPending) (hby : p.resolvedBy = none)
  /-- Between the two statements of `accept_pr`, or left there. -/
  | accepting (hcount : p.gatewayCount ≤ 2) (hstatus : p.status = .prAccepted)
      (hby : p.resolvedBy = none ∨ p.resolvedBy = some own)
  | reviewed (hcount : p.gatewayCount ≤ 2) (hstatus : p.status.resolved = true) (hby : p.resolvedBy = some own)

/-- The proposal of that id is put to that many gateways. -/
def Among (db : Db) (id : String) (n : Int) : Prop := ∃ p ∈ db.contributionProposals.rows, p.id = id ∧ p.gatewayCount = n

/-- All proposals, and all votes. -/
structure Ruled (own : String) (db : Db) : Prop where
  proposals : ∀ p ∈ db.contributionProposals.rows, Stands own db p
  votes : ∀ b ∈ db.contributionVotes.rows, b.gatewayName = own ∧ ∃ n, 2 < n ∧ Among db b.proposalId n

/-- No vote is lost, and no `resolved_by` is cleared; as shipped no vote is recorded and no proposal changes. -/
structure Onward (db db' : Db) : Prop where
  votes : db.contributionVotes.rows <+: db'.contributionVotes.rows
  proposals : ∀ p ∈ db.contributionProposals.rows, ∃ p' ∈ db'.contributionProposals.rows, p'.id = p.id ∧
    p'.gatewayCount = p.gatewayCount ∧ (p.resolvedBy ≠ none → p'.resolvedBy ≠ none)
  engine : db'.engine = db.engine
  shipped : db.engine.integers = .refused → db'.contributionVotes = db.contributionVotes ∧
    db.contributionProposals.rows <+: db'.contributionProposals.rows

theorem Onward.refl (db : Db) : Onward db db :=
  ⟨List.prefix_rfl, fun p hp => ⟨p, hp, rfl, rfl, fun h => h⟩, rfl, fun _ => ⟨rfl, List.prefix_rfl⟩⟩

theorem Onward.trans {a b c : Db} (h : Onward a b) (h' : Onward b c) : Onward a c := by
  refine ⟨h.votes.trans h'.votes, fun p hp => ?_, h'.engine.trans h.engine, fun hship => ?_⟩
  · obtain ⟨q, hq, hid, hcount, hby⟩ := h.proposals p hp
    obtain ⟨r, hr, hid', hcount', hby'⟩ := h'.proposals q hq
    exact ⟨r, hr, hid'.trans hid, hcount'.trans hcount, fun h => hby' (hby h)⟩
  · obtain ⟨hvotes, hrows⟩ := h.shipped hship
    obtain ⟨hvotes', hrows'⟩ := h'.shipped (by rw [h.engine]; exact hship)
    exact ⟨hvotes'.trans hvotes, hrows.trans hrows'⟩

/-- Where the columns are read. -/
def Read (db : Db) : Prop := db.engine.integers = .widened

theorem Read.onward {db db' : Db} (h : Onward db db') (hread : Read db) : Read db' := by
  rw [Read, h.engine]
  exact hread

theorem Read.not_shipped {P : Prop} {db : Db} (hread : Read db) (hship : db.engine.integers = .refused) : P :=
  IntegerDecoding.noConfusion (hship.symm.trans hread)

/-- What all calls keep. -/
def ruling (own : String) : Discipline Db where
  inv := Ruled own
  step := Onward
  refl := .refl
  trans _ _ _ := .trans

section
variable {own id : String} {n : Int} {db db' : Db} {p q : Proposal}

theorem Among.onward (h : Onward db db') (hn : Among db id n) : Among db' id n := by
  obtain ⟨p, hp, hid, hcount⟩ := hn
  obtain ⟨p', hp', hid', hcount', -⟩ := h.proposals p hp
  exact ⟨p', hp', hid'.trans hid, hcount'.trans hcount⟩

/-- An id is one proposal's. -/
theorem Among.count (h : Among db id n) (hp : p ∈ db.contributionProposals.rows) (hid : p.id = id) : p.gatewayCount = n := by
  obtain ⟨q, hq, hqid, rfl⟩ := h
  have hsame : p = q := Table.eq_of_clash _ hp hq (by simp [Constraints.clash, hid, hqid])
  rw [hsame]

theorem Onward.votesOn (h : Onward db db') (id : String) : ∃ l, votesOn db' id = votesOn db id ++ l := by
  obtain ⟨l, hl⟩ := h.votes
  exact ⟨l.filter (·.proposalId == id), by rw [Contributions.votesOn, ← hl, List.filter_append, ← Contributions.votesOn]⟩

theorem Stands.onward (h : Onward db db') (hp : Stands own db p) : Stands own db' p := by
  cases hp with
  | voting hcount hstatus hby => exact .voting hcount hstatus hby
  | decided hcount hstatus hback hby =>
    obtain ⟨l, hl⟩ := h.votesOn p.id
    exact .decided hcount hstatus (hback.mono hl) hby
  | pending hcount hstatus hby => exact .pending hcount hstatus hby
  | accepting hcount hstatus hby => exact .accepting hcount hstatus hby
  | reviewed hcount hstatus hby => exact .reviewed hcount hstatus hby

theorem Stands.voted (h : Stands own db p) (hstatus : p.status = .voting) : 2 < p.gatewayCount := by
  cases h with
  | voting hcount _ _ => exact hcount
  | decided hcount _ _ _ => exact hcount
  | pending _ hother _ | accepting _ hother _ =>
    rw [hstatus] at hother
    cases hother
  | reviewed _ hother _ =>
    rw [hstatus] at hother
    cases hother

theorem Stands.reviewable (h : Stands own db p) (hstatus : p.status = .prPending) : p.gatewayCount ≤ 2 := by
  cases h with
  | pending hcount _ _ => exact hcount
  | accepting hcount _ _ => exact hcount
  | reviewed hcount _ _ => exact hcount
  | voting _ hother _ =>
    rw [hstatus] at hother
    cases hother
  | decided _ hother _ _ =>
    rw [hstatus] at hother
    cases hother

theorem Stands.reviewer (h : Stands own db p) (hcount : p.gatewayCount ≤ 2) :
    p.resolvedBy = none ∨ p.resolvedBy = some own := by
  cases h with
  | pending _ _ hby => exact Or.inl hby
  | accepting _ _ hby => exact hby
  | reviewed _ _ hby => exact Or.inr hby
  | voting hother _ _ => omega
  | decided hother _ _ _ => omega

/-- One that names who has resolved it is neither put to the vote nor to review. -/
theorem Stands.settled (h : Stands own db p) (hby : p.resolvedBy ≠ none) : p.status ≠ .voting ∧ p.status ≠ .prPending := by
  have hresolved : p.status.resolved = true → p.status ≠ .voting ∧ p.status ≠ .prPending := by
    intro hstatus
    refine ⟨fun hvoting => ?_, fun hpending => ?_⟩
    · rw [hvoting] at hstatus
      cases hstatus
    · rw [hpending] at hstatus
      cases hstatus
  cases h with
  | voting _ _ hnone | pending _ _ hnone => exact absurd hnone hby
  | decided _ hstatus _ _ => exact hresolved hstatus
  | accepting _ hstatus _ => simp [hstatus]
  | reviewed _ hstatus _ => exact hresolved hstatus

/-- A proposal that names who has resolved it still does, and is neither put to the vote nor to review. -/
def StaySettled (db db' : Db) : Prop := ∀ p ∈ db.contributionProposals.rows, p.resolvedBy ≠ none →
  ∃ p' ∈ db'.contributionProposals.rows, p'.id = p.id ∧ p'.resolvedBy ≠ none ∧ p'.status ≠ .voting ∧ p'.status ≠ .prPending

theorem Onward.staySettled (h : Onward db db') (hi : Ruled own db') : StaySettled db db' := by
  intro p hp hby
  obtain ⟨p', hp', hid, -, hkeeps⟩ := h.proposals p hp
  exact ⟨p', hp', hid, hkeeps hby, (hi.proposals p' hp').settled (hkeeps hby)⟩

/-! ## The statements -/

theorem ruled_insertProposal (hi : Ruled own db) (hby : p.resolvedBy = none)
    (hstatus : p.status = if 2 < p.gatewayCount then .voting else .prPending) (h : insertProposal p db = some db') :
    Onward db db' ∧ Ruled own db' := by
  unfold insertProposal at h
  split at h
  · obtain ⟨t, ht, rfl⟩ := Option.map_eq_some_iff.1 h
    obtain ⟨-, hrows⟩ := Table.insert_eq_some.1 ht
    have honward : Onward db { db with contributionProposals := t } := by
      refine ⟨List.prefix_rfl, fun q hq => ⟨q, ?_, rfl, rfl, fun h => h⟩, rfl, fun _ => ⟨rfl, ⟨[p], hrows.symm⟩⟩⟩
      rw [hrows]
      exact List.mem_append_left _ hq
    refine ⟨honward, fun q hq => ?_, fun b hb => ?_⟩
    · rw [hrows] at hq
      rcases List.mem_append.1 hq with hq | hq
      · exact (hi.proposals q hq).onward honward
      · rw [List.mem_singleton.1 hq]
        by_cases hcount : 2 < p.gatewayCount
        · exact .voting hcount (by rw [hstatus, if_pos hcount]) hby
        · exact .pending (by omega) (by rw [hstatus, if_neg hcount]) hby
    · obtain ⟨hown, n, hn, hamong⟩ := hi.votes b hb
      exact ⟨hown, n, hn, hamong.onward honward⟩
  · cases h

theorem ruled_insertVote {b : Vote} (hi : Ruled own db) (hread : Read db) (hown : b.gatewayName = own) (hn : 2 < n)
    (hamong : Among db b.proposalId n) (h : insertVote b db = some db') : Onward db db' ∧ Ruled own db' := by
  rcases insertVote_eq_some h with ⟨-, rfl⟩ | ⟨-, hdb, hrows⟩
  · exact ⟨.refl _, hi⟩
  · have hproposals : db'.contributionProposals = db.contributionProposals := by rw [hdb]
    have honward : Onward db db' := by
      refine ⟨⟨[b], hrows.symm⟩, fun q hq => ⟨q, ?_, rfl, rfl, fun h => h⟩, by rw [hdb], fun hship => hread.not_shipped hship⟩
      rw [hproposals]
      exact hq
    refine ⟨honward, fun q hq => ?_, fun x hx => ?_⟩
    · rw [hproposals] at hq
      exact (hi.proposals q hq).onward honward
    · rw [hrows] at hx
      rcases List.mem_append.1 hx with hx | hx
      · obtain ⟨hown, n, hn, hamong⟩ := hi.votes x hx
        exact ⟨hown, n, hn, hamong.onward honward⟩
      · rw [List.mem_singleton.1 hx]
        exact ⟨hown, n, hn, hamong.onward honward⟩

/-- An update that leaves the proposal where it may stand. -/
theorem ruled_update {f : Proposal → Proposal} {hf : ∀ p, (f p).id = p.id} (hi : Ruled own db) (hread : Read db)
    (hcount : ∀ p, (f p).gatewayCount = p.gatewayCount) (hby : ∀ p, p.resolvedBy ≠ none → (f p).resolvedBy ≠ none)
    (hstands : ∀ p ∈ db.contributionProposals.rows, p.id = id → Stands own db (f p)) :
    Onward db (updateProposal id f hf db) ∧ Ruled own (updateProposal id f hf db) := by
  have honward : Onward db (updateProposal id f hf db) := by
    refine ⟨List.prefix_rfl, fun p hp => ?_, rfl, fun hship => hread.not_shipped hship⟩
    refine ⟨if (p.id == id) = true then f p else p, List.mem_map_of_mem hp, ?_, ?_, ?_⟩
    all_goals split
    · exact hf p
    · rfl
    · exact hcount p
    · rfl
    · exact hby p
    · exact fun h => h
  refine ⟨honward, fun q hq => ?_, fun b hb => ?_⟩
  · obtain ⟨p, hp, rfl⟩ := List.mem_map.1 hq
    refine Stands.onward honward ?_
    split
    · rename_i hid
      exact hstands p hp (by simpa using hid)
    · exact hi.proposals p hp
  · obtain ⟨hown, n, hn, hamong⟩ := hi.votes b hb
    exact ⟨hown, n, hn, hamong.onward honward⟩

/-- The proposal and its votes as they were. -/
theorem ruled_of_same (hproposals : db'.contributionProposals = db.contributionProposals)
    (hvotes : db'.contributionVotes = db.contributionVotes) (hengine : db'.engine = db.engine) (hi : Ruled own db) :
    Onward db db' ∧ Ruled own db' := by
  have honward : Onward db db' := by
    refine ⟨by rw [hvotes], fun p hp => ⟨p, ?_, rfl, rfl, fun h => h⟩, hengine, fun _ => ⟨hvotes, by rw [hproposals]⟩⟩
    rw [hproposals]
    exact hp
  refine ⟨honward, fun p hp => ?_, fun b hb => ?_⟩
  · rw [hproposals] at hp
    exact (hi.proposals p hp).onward honward
  · rw [hvotes] at hb
    obtain ⟨hown, n, hn, hamong⟩ := hi.votes b hb
    exact ⟨hown, n, hn, hamong.onward honward⟩

end

/-! ## The calls -/

/-- The discipline, of one gateway's state. -/
abbrev rulingWorld (own : String) : Discipline World := (ruling own).comap World.db

section
variable {own id : String} {w : World}

/-- A proposal has been read. -/
theorem read_of_row {p : Proposal} (hp : proposalRow w.db id = some p)
    (h : w.db.engine.integers = .refused → proposalRow w.db id = none) : Read w.db := by
  cases hint : w.db.engine.integers with
  | widened => exact hint
  | refused => cases hp.symm.trans (h hint)

/-- Whenever the statement comes, the row may stand as it says. -/
theorem ruled_resolve {status : ProposalStatus} {resolvedBy : String} (hread : Read w.db)
    (h : ∀ db, Onward w.db db → ∀ p ∈ db.contributionProposals.rows, p.id = id → ∀ now,
      Stands own db { p with status, resolvedAt := some now, resolvedBy := some resolvedBy }) :
    (resolve id status resolvedBy).Obeys (rulingWorld own) (fun _ _ => True) w := by
  intro w₁ hs₁ hi₁
  refine ⟨⟨.refl _, hi₁⟩, ?_⟩
  refine obeys_execute (Q := fun _ _ => True) (fun now db db' hs hi hf => ?_) fun _ _ _ => trivial
  cases hf
  refine ⟨ruled_update hi (hread.onward (hs₁.trans hs)) (fun _ => rfl) (fun _ _ => Option.some_ne_none _) fun p hp hid => ?_,
    trivial⟩
  exact h db (hs₁.trans hs) p hp hid _

/-- What the tally has found is still there when the proposal is resolved. -/
theorem ruled_checkVoteOutcome {p : Proposal} (hread : Read w.db) (hn : 2 < p.gatewayCount) (hamong : Among w.db id p.gatewayCount) :
    (checkVoteOutcome id p).Obeys (rulingWorld own) (fun _ _ => True) w := by
  unfold checkVoteOutcome
  simp only [Prog.bind_eq, Prog.pure_eq]
  refine obeys_query_bind (Q := fun _ _ => True) (fun w₁ hs₁ hi₁ => ?_) fun _ _ _ => trivial
  have hdecide : ∀ status : ProposalStatus, status.resolved = true → Backed w₁.db id p.gatewayCount status →
      (resolve id status "vote-majority").Obeys (rulingWorld own) (fun _ _ => True) w₁ := by
    intro status hstatus hback
    refine ruled_resolve (hread.onward hs₁) fun db hs q hq hid now => ?_
    have hcount : q.gatewayCount = p.gatewayCount := ((hamong.onward hs₁).onward hs).count hq hid
    obtain ⟨l, hl⟩ := hs.votesOn id
    refine .decided (by rw [hcount]; exact hn) hstatus ?_ rfl
    rw [hid, hcount]
    exact hback.mono hl
  cases ht : tally w₁.db id with
  | none => trivial
  | some counts =>
    obtain ⟨approvals, rejections⟩ := counts
    obtain ⟨rfl, rfl⟩ := tally_eq_some ht
    simp only [orThrow, Prog.ret_bind]
    split
    · rename_i happrove
      exact (hdecide .accepted rfl happrove).bind (fun _ _ _ => trivial) fun _ _ _ => trivial
    · split
      · rename_i hreject
        exact (hdecide .rejected rfl hreject).bind (fun _ _ _ => trivial) fun _ _ _ => trivial
      · trivial

/-- A vote is recorded only where votes decide, whatever has become of the proposal since it was read. -/
theorem ruled_castVote (voteId : Uuid) (agentName : String) (vote : VoteKind) (reason : String) :
    (castVote voteId id own agentName vote reason).Obeys (rulingWorld own) (fun _ _ => True) w := by
  unfold castVote get
  simp only [Prog.bind_eq]
  refine obeys_fetch_bind (Q := fun _ _ => True) (fun w₁ o _ hi₁ ho => ?_) fun _ _ _ => trivial
  obtain ⟨rfl, hread⟩ := Engine.decodeRow_eq_some.1 ho
  cases hrow : proposalRow w₁.db id with
  | none => trivial
  | some p =>
    have hmem := Table.mem_of_find? hrow
    have hid : p.id = id := by simpa using Table.prop_of_find? hrow
    simp only [orThrow, Prog.ret_bind]
    split
    · trivial
    · rename_i hstatus
      have hread : Read w₁.db := read_of_row hrow hread
      have hn : 2 < p.gatewayCount := (hi₁.proposals p hmem).voted (not_not.1 hstatus)
      have hthere : Among w₁.db id p.gatewayCount := ⟨p, hmem, hid, rfl⟩
      intro w₂ hs₂ hi₂
      refine ⟨⟨.refl _, hi₂⟩, ?_⟩
      have hinsert : ∀ now db db', Onward w₂.db db → Ruled own db →
          insertVote ⟨voteId.text, id, own, agentName, vote, reason, now⟩ db = some db' → Onward db db' ∧ Ruled own db' :=
        fun now db db' hs hi hins => ruled_insertVote hi (hread.onward (hs₂.trans hs)) rfl hn ((hthere.onward hs₂).onward hs) hins
      refine obeys_execute_bind (Q := fun _ _ => True) (fun now db db' hs hi hins => hinsert _ db db' hs hi hins)
        (fun now db w₃ hs hi hins => ?_) fun _ _ _ => trivial
      have honward := (hs₂.trans hs).trans (hinsert _ db _ hs hi hins).1
      exact ruled_checkVoteOutcome (hread.onward honward) hn (hthere.onward honward)

theorem ruled_open (uuid : Uuid) (projectId proposerGateway proposerAgent snapshotId description : String) (gatewayCount : Int) :
    («open» uuid projectId proposerGateway proposerAgent snapshotId description gatewayCount).Obeys (rulingWorld own)
      (fun _ _ => True) w := by
  unfold Contributions.open
  simp only [Prog.bind_eq, Prog.pure_eq]
  refine Prog.Obeys.bind (Q := fun _ _ => True) (Prog.Obeys.look fun _ _ _ => trivial) (fun now w₁ _ => ?_) fun _ _ _ => trivial
  refine obeys_execute_bind (Q := fun _ _ => True) (fun _ db db' hs hi hins => ?_) ?_ fun _ _ _ => trivial
  · exact ruled_insertProposal hi rfl rfl hins
  · exact fun _ _ _ _ _ _ => trivial

/-- The last statement of a review. -/
theorem ruled_review {n : Int} (hread : Read w.db) (hn : n ≤ 2) (hamong : Among w.db id n) {status : ProposalStatus} (hstatus : status.resolved = true) :
    (resolve id status own).Obeys (rulingWorld own) (fun _ _ => True) w := by
  refine ruled_resolve hread fun db hs p hp hid now => ?_
  have hcount : p.gatewayCount = n := (hamong.onward hs).count hp hid
  exact .reviewed (by rw [hcount]; exact hn) hstatus rfl

/-- A review reads the status first: only where no votes decide does it write. -/
theorem ruled_get_bind {g : Proposal → Gw Unit} (h : ∀ (p : Proposal) (w' : World), Read w'.db → p.status = .prPending →
      p.gatewayCount ≤ 2 → Among w'.db id p.gatewayCount → (g p).Obeys (rulingWorld own) (fun _ _ => True) w') :
    ((get id).bind fun row => (orThrow (.msg "proposal not found") row).bind fun p =>
      if p.status ≠ .prPending then Prog.fail (.msg "proposal is not in pr_pending state") else g p).Obeys (rulingWorld own)
        (fun _ _ => True) w := by
  unfold get
  refine obeys_fetch_bind (Q := fun _ _ => True) (fun w₁ o _ hi₁ ho => ?_) fun _ _ _ => trivial
  obtain ⟨rfl, hread⟩ := Engine.decodeRow_eq_some.1 ho
  cases hrow : proposalRow w₁.db id with
  | none => trivial
  | some p =>
    have hmem := Table.mem_of_find? hrow
    have hid : p.id = id := by simpa using Table.prop_of_find? hrow
    simp only [orThrow, Prog.ret_bind]
    split
    · trivial
    · rename_i hstatus
      have hpending : p.status = .prPending := not_not.1 hstatus
      exact h p w₁ (read_of_row hrow hread) hpending ((hi₁.proposals p hmem).reviewable hpending) ⟨p, hmem, hid, rfl⟩

theorem ruled_acceptPr : (acceptPr id own).Obeys (rulingWorld own) (fun _ _ => True) w := by
  refine ruled_get_bind fun p w₁ hread _ hn hamong => ?_
  have hset : ∀ db, Onward w₁.db db → Ruled own db →
      Onward db (updateProposal id (fun q => { q with status := .prAccepted }) (fun _ => rfl) db) ∧
        Ruled own (updateProposal id (fun q => { q with status := .prAccepted }) (fun _ => rfl) db) := by
    intro db hs hi
    refine ruled_update hi (hread.onward hs) (fun _ => rfl) (fun _ h => h) fun q hq hid => ?_
    have hcount : q.gatewayCount ≤ 2 := by
      rw [(hamong.onward hs).count hq hid]
      exact hn
    exact .accepting hcount rfl ((hi.proposals q hq).reviewer hcount)
  refine obeys_execute_bind (Q := fun _ _ => True) (fun now db db' hs hi hf => ?_) (fun now db w₂ hs hi hf => ?_) fun _ _ _ => trivial
  · cases hf
    exact hset db hs hi
  · have hdb : w₂.db = updateProposal id (fun q => { q with status := .prAccepted }) (fun _ => rfl) db := (Option.some.inj hf).symm
    have honward : Onward w₁.db w₂.db := by
      rw [hdb]
      exact hs.trans (hset db hs hi).1
    exact ruled_review (hread.onward honward) hn (hamong.onward honward) rfl

theorem ruled_rejectPr : (rejectPr id own).Obeys (rulingWorld own) (fun _ _ => True) w :=
  ruled_get_bind fun _ _ hread _ hn hamong => ruled_review hread hn hamong rfl

end

end Contributions

open Contributions

/-! ## The web UI among the others -/

/-- What the site keeps of it. -/
abbrev rulingSite (own : String) : Discipline Site := (rulingWorld own).comap Site.gateway.get

/-- Proposals and votes are the same. -/
def SameProposals (s s' : Site) : Prop :=
  s'.world.db.contributionProposals = s.world.db.contributionProposals ∧
    s'.world.db.contributionVotes = s.world.db.contributionVotes ∧ s'.world.db.engine = s.world.db.engine

theorem SameProposals.refl (s : Site) : SameProposals s s := ⟨rfl, rfl, rfl⟩

theorem SameProposals.of_frame {may : TableName → Prop} {fresh : Row → Prop} {s s' : Site}
    (hproposals : ¬ may .contributionProposals) (hvotes : ¬ may .contributionVotes) (h : Frame may fresh s.world s'.world) :
    SameProposals s s' := ⟨h.others .contributionProposals hproposals, h.others .contributionVotes hvotes, h.engine⟩

theorem SameProposals.of_same {s s' : Site} (h : SameStored s.world s'.world) : SameProposals s s' := by
  have hdb : s'.world.db = s.world.db := congrArg Prod.fst h
  rw [SameProposals, hdb]
  exact ⟨rfl, rfl, rfl⟩

theorem ruled_aside {own : String} {p : Prog Site Err Unit} (hp : p.Moves SameProposals) (s : Site) :
    p.Obeys (rulingSite own) (fun _ _ => True) s := by
  have hmoves : p.Moves fun s s' => (rulingSite own).inv s → (rulingSite own).step s s' ∧ (rulingSite own).inv s' :=
    hp.mono fun s s' hsame hi => ruled_of_same hsame.1 hsame.2.1 hsame.2.2 hi
  exact (hmoves.obeys ((rulingSite own).refl s)).post fun _ _ _ => trivial

namespace Web

variable {own : String} {w : World}

theorem ruled_reading {ε α : Type} {p : Prog World ε α} (hp : p.Moves SameStored) (w : World) :
    p.Obeys (rulingWorld own) (fun _ _ => True) w := by
  have hmoves : p.Moves fun w w' => (rulingWorld own).inv w → (rulingWorld own).step w w' ∧ (rulingWorld own).inv w' := by
    refine hp.mono fun w w' hsame hi => ?_
    have hdb : w'.db = w.db := congrArg Prod.fst hsame
    exact ruled_of_same (by rw [hdb]) (by rw [hdb]) (by rw [hdb]) hi
  exact (hmoves.obeys ((rulingWorld own).refl w)).post fun _ _ _ => trivial

/-- What a handler shows of it is its own affair. -/
theorem ruled_shown {α β : Type} {p : Gw α} (hp : p.Obeys (rulingWorld own) (fun _ _ => True) w) (f : α → β) :
    ((p.mapErr AppError.internal).bind fun a => .ret (f a)).Obeys (rulingWorld own) (fun _ _ => True) w := by
  have hworded : (p.mapErr AppError.internal).Obeys (rulingWorld own) (fun _ _ => True) w :=
    Prog.Obeys.mapErr hp fun _ _ _ => trivial
  exact hworded.bind (fun _ _ _ => trivial) fun _ _ _ => trivial

theorem ruled_openContribution (proposalId : Uuid) (id : String) (form : ContributionForm) :
    (openContribution own proposalId id form).Obeys (rulingWorld own) (fun _ _ => True) w := by
  have hcounted : (((Groups.gatewayCountForProject id).mapErr AppError.internal).attempt).Moves SameStored :=
    (moves_query .tick).mapErr.attempt
  refine Prog.Obeys.bind (ruled_reading hcounted w) (fun gwCount w₁ _ => ?_) fun _ _ _ => trivial
  exact ruled_shown (ruled_open proposalId id own form.agentName form.snapshotId form.description (gwCount.getD 2)) proposalView

theorem ruled_castVote (voteId : Uuid) (propId : String) (form : VoteForm) :
    (castVote own voteId propId form).Obeys (rulingWorld own) (fun _ _ => True) w :=
  ruled_shown (Contributions.ruled_castVote voteId form.agentName form.kind form.reason) voteMessage

theorem ruled_reviewPr (propId action : String) :
    (reviewPr own propId action).Obeys (rulingWorld own) (fun _ _ => True) w := by
  unfold reviewPr
  split
  · exact ruled_shown ruled_acceptPr fun _ => "PR accepted. Contribution merged."
  · exact ruled_shown ruled_rejectPr fun _ => "PR rejected."

end Web

section
variable [Sha256] [HmacSha256] {d : Wiring} {v : Visitors}

omit [Sha256] in
/-- **Each request to the web UI keeps to the rules.** -/
theorem WebCall.ruled (o : Others) (c : WebCall) (s : Site) :
    (c.prog d o).Obeys (rulingSite d.gateway.name) (fun _ _ => True) s := by
  have hframe : ∀ {s s' : Site}, Frame (fun t => t = .projects ∨ t = .taskLog) (fun _ => True) s.world s'.world →
      SameProposals s s' := .of_frame (by simp) (by simp)
  have hgateway : ∀ {ε α : Type} {p : Prog World ε α}, p.Moves (Frame (fun t => t = .projects ∨ t = .taskLog) fun _ => True) →
      (request (p.within Site.gateway)).Obeys (rulingSite d.gateway.name) (fun _ _ => True) s :=
    fun h => ruled_aside (moves_request (h.within_of fun _ _ hw => hframe hw)) s
  have hdesk : ∀ {ε α : Type} {p : Prog Onboarding.Desk ε α},
      p.Moves (fun x y => Frame (fun t => t = .projects ∨ t = .taskLog) (fun _ => True) x.world y.world) →
      (request (p.within Site.desk)).Obeys (rulingSite d.gateway.name) (fun _ _ => True) s :=
    fun h => ruled_aside (moves_request (h.within_of fun _ _ hw => hframe hw)) s
  have hlxc : ∀ {ε α : Type} (p : Prog (Outbox Unit) ε α),
      (request (p.within Site.proxmox)).Obeys (rulingSite d.gateway.name) (fun _ _ => True) s := fun p =>
    ruled_aside (moves_request (Prog.moves_within (fun s _ => ⟨rfl, rfl, rfl⟩) p)) s
  cases c with
  | onboardPrompt id =>
    unfold WebCall.prog Web.onboardPrompt Onboarding.peekPrompt
    exact hdesk ((Prog.moves_look (fun _ => .refl _) _).mapErr.bind fun _ => trivial)
  | onboardAnswer entryId id form =>
    exact hdesk (Web.frames_onboardAnswer (Or.inl rfl) (Or.inr rfl) (fun _ _ _ => trivial) entryId id form)
  | taskLogPartial id after =>
    unfold WebCall.prog A2AGateway.taskLogPartial
    exact hgateway (frames_fetch.bind fun _ => trivial)
  | openContribution proposalId id form => exact obeys_request (Web.ruled_openContribution proposalId id form).within
  | contributionDetail propId => exact hgateway (Web.frames_contributionDetail propId)
  | castVote voteId propId form => exact obeys_request (Web.ruled_castVote voteId propId form).within
  | reviewPr propId action => exact obeys_request (Web.ruled_reviewPr propId action).within
  | lxcList => exact hlxc _
  | lxcSpawn agentName => exact hlxc _
  | lxcStop vmid => exact hlxc _

variable [SerdeJson] [SerdeStrings] [Lowercase] [Collation]

theorem Runs.ruled {i : Interface} {s : Site} {p : Prog Site Err Unit} (h : Runs d v s i p) (hi : i ≠ .library) :
    p.Obeys (rulingSite d.gateway.name) (fun _ _ => True) s := by
  by_cases hweb : i = .web
  · subst hweb
    cases h with
    | web o c hreq =>
      unfold WebCall.guarded
      split
      · exact c.ruled o s
      · trivial
  · have hwrites : ∀ t, t = .contributionProposals ∨ t = .contributionVotes → ¬ Writes d v i t := by
      rintro t (rfl | rfl) hw
      · cases hw with
        | proposals => exact hweb rfl
        | library => exact hi rfl
      · cases hw with
        | votes => exact hweb rfl
        | library => exact hi rfl
    exact ruled_aside (h.steps.mono fun s s' hframe => .of_frame (hwrites _ (Or.inl rfl)) (hwrites _ (Or.inr rfl)) hframe) s

theorem Process.Starts.ruled (hlibrary : ¬ v.uses .library) {s : Site} {p : Prog Site Err Unit}
    (h : Process.Starts d v s p) : p.Obeys (rulingSite d.gateway.name) (fun _ _ => True) s := by
  obtain ⟨i, hused, hruns⟩ := h
  refine hruns.ruled fun hi => hlibrary ?_
  rw [← hi]
  exact hused

omit [Sha256] [HmacSha256] [SerdeJson] [SerdeStrings] [Lowercase] [Collation] in
theorem ruled_of_sameStored {own : String} {s s' : Site} (hi : (rulingSite own).inv s) (hsame : SameStored s.world s'.world) :
    (rulingSite own).step s s' ∧ (rulingSite own).inv s' := by
  have hproposals : SameProposals s s' := .of_same hsame
  exact ruled_of_same hproposals.1 hproposals.2.1 hproposals.2.2 hi

variable {init : Site → Prop} {c c' : Pool Site Err}

/-- **The two ways of deciding are kept apart**: in every run a proposal stands as one of its kind may, votes are recorded
only where votes decide, none is lost, and what names who has resolved it goes on to do so, and is never put to the vote or
to review again; as shipped no vote is recorded and no proposal changes. -/
theorem proposals_ruled (hinit : ∀ s, init s → Ruled d.gateway.name s.world.db) (hlibrary : ¬ v.uses .library)
    (h : Process.Reached d v init c) (hl : Process.Later d v c c') :
    Ruled d.gateway.name c.state.world.db ∧ Ruled d.gateway.name c'.state.world.db ∧
      Onward c.state.world.db c'.state.world.db ∧ StaySettled c.state.world.db c'.state.world.db := by
  have hstart : ∀ s p, (rulingSite d.gateway.name).inv s → Process.Starts d v s p →
      p.Obeys (rulingSite d.gateway.name) (fun _ _ => True) s := fun _ _ _ hp => hp.ruled hlibrary
  have hout : ∀ s s', (rulingSite d.gateway.name).inv s → Site.Outside s s' →
      (rulingSite d.gateway.name).step s s' ∧ (rulingSite d.gateway.name).inv s' := by
    rintro s s' hi ⟨world, pending, hsame, rfl⟩
    exact ruled_of_sameStored hi hsame
  have hthen : Ruled d.gateway.name c'.state.world.db := ((h.later hl).good hinit hstart hout).1
  have honward : Onward c.state.world.db c'.state.world.db := Pool.Reachable.along h hl hinit hstart hout
  exact ⟨(h.good hinit hstart hout).1, hthen, honward, honward.staySettled hthen⟩

end

/-! ## Two agents of one gateway -/

namespace DemoSite

/-- A request with the token. -/
def withToken : Web.WebRequest := ⟨[], [("token", "s3cret")]⟩

def voters : Visitors where
  uses i := i ≠ .library
  web req := req = withToken
  tokens _ := False

def opened (engine : Engine) : Pool Site Err := ⟨.start (DemoVote.world engine), []⟩

def approval (voteId : Uuid) (agentName : String) : Prog Site Err Unit := letI := demoLogHmac
  WebCall.guarded wiring others (.castVote voteId "prop" ⟨"approve", agentName, ""⟩) withToken

def voted (engine : Engine) : Pool Site Err :=
  after (approval DemoVote.voteId2 "y") (after (approval DemoVote.voteId1 "x") (opened engine))

theorem voted_resolved : (voted .widening).state.world.db.contributionProposals.rows.map (fun p => (p.status, p.resolvedBy)) =
    [(.accepted, some "vote-majority")] := by decide +kernel

theorem later_voted (engine : Engine) : letI := demoSha256; letI := demoLogHmac; letI := DemoReconciler.serde
    letI := SerdeJson.nullOnly; letI := DemoReconciler.ascii; letI := DemoReconciler.byCodePoint
    Process.Later wiring voters (opened engine) (voted engine) := by
  let _ := demoSha256
  let _ := demoLogHmac
  let _ := DemoReconciler.serde
  let _ := SerdeJson.nullOnly
  let _ := DemoReconciler.ascii
  let _ := DemoReconciler.byCodePoint
  have hstarts : ∀ s voteId agentName, Process.Starts wiring voters s (approval voteId agentName) := fun _ _ _ =>
    ⟨.web, Interface.noConfusion, .web others _ rfl⟩
  exact (Pool.start_alone (hstarts _ _ _) []).trans (Pool.start_alone (hstarts _ _ _) _)

theorem opened_ruled (engine : Engine) : Ruled "gw-a" (DemoVote.world engine).db := by
  refine ⟨fun p hp => ?_, fun b hb => absurd hb List.not_mem_nil⟩
  rw [List.mem_singleton.1 hp]
  exact .voting (by decide) rfl rfl

end DemoSite

open DemoSite

/-- As shipped two approvals leave the proposal as it is. Where the columns are read, they accept it: two of three gateways
were needed, and both votes are this gateway's. -/
theorem proposals_ruled_demo :
    ((voted .shipped).threads.length = 2 ∧ (voted .shipped).state.world.db.contributionVotes = .empty ∧
      [DemoVote.proposal] <+: (voted .shipped).state.world.db.contributionProposals.rows) ∧
    (voted .widening).state.world.db.contributionProposals.rows.map (fun p => (p.status, p.resolvedBy)) =
      [(.accepted, some "vote-majority")] ∧
    ∀ b ∈ (voted .widening).state.world.db.contributionVotes.rows, b.gatewayName = "gw-a" := by
  have h := fun engine => @proposals_ruled demoSha256 demoLogHmac wiring voters SerdeJson.nullOnly DemoReconciler.serde
    DemoReconciler.ascii DemoReconciler.byCodePoint (· = .start (DemoVote.world engine)) _ _
    (fun s hs => by rw [hs]; exact opened_ruled engine) (fun h => h rfl) ⟨_, rfl, .refl⟩ (later_voted engine)
  obtain ⟨hvotes, hrows⟩ := (h .shipped).2.2.1.shipped rfl
  exact ⟨⟨rfl, hvotes, hrows⟩, voted_resolved, fun b hb => ((h .widening).2.1.votes b hb).1⟩

end A2AGateway
