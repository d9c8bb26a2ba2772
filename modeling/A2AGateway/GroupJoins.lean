import A2AGateway.PeerAccess
import A2AGateway.SingleUseInvites
import A2AGateway.Lib.Logged

/-!
# Joining a group

| here | there |
| --- | --- |
| `JoinGroupRequest`, `JoinGroupResponse` | `peer.proto:169-179` |
| `PeerHandler.joinGroup`                 | `peer_server.rs:318-335` |

`consume_invite` marks the token as used in one statement and adds the member in the next, and does
not take the first back when the second fails (`consumeInvite_clean_iff`). `join_group` checks the
token of the request and then lets in the gateway that the request names, not the one that the token
was issued by (`joins_authentic`).
-/

namespace A2AGateway

open Gw

namespace Groups

/-! ## A join that fails -/

/-- A call that fails leaves invites and members as they were. -/
def FailsCleanly (token gateway : String) (w : World) : Prop :=
  ∀ e w', (consumeInvite token gateway).exec w = (.error e, w') →
    w'.db.invites = w.db.invites ∧ w'.db.groupMembers = w.db.groupMembers

/-- The gateway can be added to the group: the group is there, the index takes the key, and the gateway is not in it
yet. -/
def Addable (db : Db) (groupId gateway : String) : Prop :=
  db.hasGroup groupId = true ∧ db.engine.indexes [groupId, gateway] = true ∧
    ∀ m ∈ db.groupMembers.rows, m.groupId = groupId → m.gatewayName ≠ gateway

instance (db : Db) (groupId gateway : String) : Decidable (Addable db groupId gateway) :=
  inferInstanceAs (Decidable (_ ∧ _ ∧ _))

section
variable {token gateway : String} {w : World} {i : Invite} {db : Db}

theorem exec_addMember_ok {groupId invitedBy : String} (hcalm : w.faults = [])
    (hins : insertMember ⟨groupId, gateway, w.now, invitedBy⟩ w.db = some db) :
    (addMember groupId gateway invitedBy).exec w = (.ok (), { w with db }) := by
  simp only [addMember, Prog.bind_eq, nowSecs]
  rw [Prog.exec_bind_of_ok (Prog.exec_look _ w), exec_execute_calm hcalm, hins]

theorem exec_addMember_none {groupId invitedBy : String} (hcalm : w.faults = [])
    (hins : insertMember ⟨groupId, gateway, w.now, invitedBy⟩ w.db = none) :
    (addMember groupId gateway invitedBy).exec w = (.error (.msg "add group member"), w) := by
  simp only [addMember, Prog.bind_eq, nowSecs]
  rw [Prog.exec_bind_of_ok (Prog.exec_look _ w), exec_execute_calm hcalm, hins]

theorem insertMember_isSome {row : GroupMember} :
    (insertMember row db).isSome = true ↔ Addable db row.groupId row.gatewayName := by
  unfold insertMember
  by_cases hg : (db.hasGroup row.groupId && db.engine.indexes [row.groupId, row.gatewayName]) = true
  · obtain ⟨hgroup, hkey⟩ := Bool.and_eq_true_iff.1 hg
    rw [if_pos hg, Option.isSome_map, ← Option.ne_none_iff_isSome, ne_eq, Table.insert_eq_none]
    simp [Addable, hgroup, hkey, Constraints.clash]
  · rw [if_neg hg]
    refine iff_of_false Bool.false_ne_true fun h => hg ?_
    rw [h.1, h.2.1, Bool.and_self]

theorem consumeInvite_unusable (hcalm : w.faults = []) (hi : w.db.invites.find? (usable token w.now) = none) :
    (consumeInvite token gateway).exec w = (.error (.msg "invite token is expired or already used"), w) := by
  have huse : useInvite token gateway w.now w.db = (none, w.db) := by simp only [useInvite, hi]
  simp only [consumeInvite, Prog.bind_eq, nowSecs]
  rw [Prog.exec_bind_of_ok (Prog.exec_look _ w),
    Prog.exec_bind_of_ok (exec_statement_of_some hcalm (congrArg some huse))]
  rfl

/-- The database after the `UPDATE` of the invite. -/
def burnt (token gateway : String) (w : World) : Db := (useInvite token gateway w.now w.db).2

theorem burnt_addable (groupId gateway' : String) :
    Addable (burnt token gateway w) groupId gateway' ↔ Addable w.db groupId gateway' := by
  unfold burnt useInvite
  cases w.db.invites.find? (usable token w.now) <;> exact Iff.rfl

/-- An invite that can be used is not what it was. -/
theorem burnt_invites (hi : w.db.invites.find? (usable token w.now) = some i) :
    (burnt token gateway w).invites ≠ w.db.invites := by
  have huse : useInvite token gateway w.now w.db = (some (i.groupId, i.createdBy), burnt token gateway w) := by
    simp only [burnt, useInvite, hi]
  obtain ⟨⟨j, hj, htoken, -, -, hat, -⟩, hunused, -⟩ :=
    @useInvite_some (.consumeInvite token gateway) _ _ _ _ _ _ _ huse
  intro hsame
  rw [hsame] at hj
  have hused : isUsed token w.db = true := isUsed_iff.2 ⟨j, hj, htoken, by rw [hat]; exact Option.some_ne_none _⟩
  rw [hunused] at hused
  cases hused

theorem consumeInvite_usable (hcalm : w.faults = []) (hi : w.db.invites.find? (usable token w.now) = some i) :
    (consumeInvite token gateway).exec w =
      ((addMember i.groupId gateway i.createdBy).bind fun _ => (getGroup i.groupId).bind
        (orThrow (.msg "group not found after invite consume"))).exec { w with db := burnt token gateway w } := by
  have huse : useInvite token gateway w.now w.db = (some (i.groupId, i.createdBy), burnt token gateway w) := by
    simp only [burnt, useInvite, hi]
  simp only [consumeInvite, Prog.bind_eq, nowSecs]
  rw [Prog.exec_bind_of_ok (Prog.exec_look _ w),
    Prog.exec_bind_of_ok (exec_statement_of_some hcalm (congrArg some huse))]
  rfl

theorem insertMember_groups {row : GroupMember} {db' : Db} (h : insertMember row db = some db') : db'.groups = db.groups := by
  unfold insertMember at h
  split at h
  · obtain ⟨groupMembers, -, rfl⟩ := Option.map_eq_some_iff.1 h
    rfl
  · cases h

/-- What follows the `UPDATE`, where the member is added and its group found. -/
theorem exec_added {groupId invitedBy : String} {group : Group} (hcalm : w.faults = [])
    (hins : insertMember ⟨groupId, gateway, w.now, invitedBy⟩ w.db = some db)
    (hfound : db.groups.find? (·.id == groupId) = some group) :
    ((addMember groupId gateway invitedBy).bind fun _ => (getGroup groupId).bind
      (orThrow (.msg "group not found after invite consume"))).exec w = (.ok group, { w with db }) := by
  rw [Prog.exec_bind_of_ok (exec_addMember_ok hcalm hins), getGroup,
    Prog.exec_bind_of_ok (exec_query_calm (w := { w with db }) hcalm), hfound]
  rfl

/-- Where the member can be added, the call succeeds; where not, it fails with the invite used up. -/
theorem consumeInvite_ends (gateway : String) (hcalm : w.faults = []) (hi : w.db.invites.find? (usable token w.now) = some i) :
    Addable w.db i.groupId gateway ∧ (∃ group w', (consumeInvite token gateway).exec w = (.ok group, w')) ∨
      ¬ Addable w.db i.groupId gateway ∧
        (consumeInvite token gateway).exec w = (.error (.msg "add group member"), { w with db := burnt token gateway w }) := by
  rw [consumeInvite_usable hcalm hi]
  have hadds := @insertMember_isSome (burnt token gateway w) ⟨i.groupId, gateway, w.now, i.createdBy⟩
  rw [burnt_addable] at hadds
  cases hins : insertMember ⟨i.groupId, gateway, w.now, i.createdBy⟩ (burnt token gateway w) with
  | none =>
    rw [hins] at hadds
    refine .inr ⟨fun h => absurd (hadds.2 h) Bool.false_ne_true, ?_⟩
    exact Prog.exec_bind_of_error (exec_addMember_none (w := { w with db := burnt token gateway w }) hcalm hins)
  | some db =>
    rw [hins] at hadds
    have haddable := hadds.1 rfl
    have hgroup : (burnt token gateway w).hasGroup i.groupId = true := (burnt_addable _ _).2 haddable |>.1
    -- the group is still there to be returned
    have hfound : (db.groups.find? (·.id == i.groupId)).isSome = true := by
      rw [insertMember_groups hins, Table.find?, List.find?_isSome]
      rw [Db.hasGroup, List.any_eq_true] at hgroup
      exact hgroup
    obtain ⟨group, hfound⟩ := Option.isSome_iff_exists.1 hfound
    exact .inl ⟨haddable, group, _, exec_added (w := { w with db := burnt token gateway w }) hcalm hins hfound⟩

/-- **A failed join leaves everything as it was if and only if no usable invite of the token is for a group
that is gone, that the gateway is already in, or whose id and the gateway's name are too long a key.** -/
theorem consumeInvite_clean_iff (token gateway : String) {w : World} (hcalm : w.faults = []) :
    FailsCleanly token gateway w ↔
      ∀ i ∈ w.db.invites.rows, usable token w.now i = true → Addable w.db i.groupId gateway := by
  cases hi : w.db.invites.find? (usable token w.now) with
  | none =>
    refine iff_of_true ?_ fun i hmem hu => ?_
    · intro e w' h
      rw [consumeInvite_unusable hcalm hi] at h
      cases h
      exact ⟨rfl, rfl⟩
    · exact absurd hu (by simpa using List.find?_eq_none.1 hi i hmem)
  | some i =>
    have hmem := Table.mem_of_find? hi
    have husable := Table.prop_of_find? hi
    rcases consumeInvite_ends gateway hcalm hi with ⟨hadds, group, w', hrun⟩ | ⟨hnot, hrun⟩
    · refine iff_of_true ?_ fun j hj hu => ?_
      · intro e w'' h
        rw [hrun] at h
        cases h
      · -- the token is the primary key: this is the one invite
        have hij : j = i := Table.eq_of_clash _ hj hmem
          (by simp [Constraints.clash, (usable_iff.1 hu).1, (usable_iff.1 husable).1])
        rw [hij]
        exact hadds
    · refine iff_of_false ?_ fun h => hnot (h i hmem husable)
      intro hclean
      exact burnt_invites hi (hclean _ _ hrun).1

end

namespace DemoJoin

def group : Uuid := ⟨"00000000-0000-4000-8000-0000000000aa", Uuid.hex_aa⟩

/-- A group of `gw-a` with one invite. -/
def setup : Gw Unit := do
  let _ ← createGroup group "g" "" "gw-a"
  let _ ← createInvite "t" group.text "gw-a"

def world : World := (setup.exec { World.fresh with now := .fin 1000 }).2

theorem world_calm : world.faults = [] := by decide +kernel

end DemoJoin

open DemoJoin in
/-- A gateway that is not in the group yet loses no invite. -/
theorem consumeInvite_clean_demo : FailsCleanly "t" "gw-b" world :=
  (consumeInvite_clean_iff "t" "gw-b" world_calm).2 (by decide +kernel)

open DemoJoin in
/-- **The invite is gone after `gw-a`, which is in the group, has failed to join it.** -/
theorem failed_join_burns_invite :
    (world.db.invites.rows.any (usable "t" world.now)) = true ∧
      (∃ e w', (consumeInvite "t" "gw-a").exec world = (.error e, w') ∧ w'.faults = [] ∧
        (w'.db.invites.rows.any (usable "t" w'.now)) = false) ∧
      ¬ FailsCleanly "t" "gw-a" world := by
  have hrun : ((consumeInvite "t" "gw-a").exec world).1 = .error (.msg "add group member") := by decide +kernel
  have hburnt : (((consumeInvite "t" "gw-a").exec world).2.db.invites.rows.any
      (usable "t" ((consumeInvite "t" "gw-a").exec world).2.now)) = false := by decide +kernel
  refine ⟨by decide +kernel, ⟨_, _, Prog.exec_eq_of_fst hrun, by decide +kernel, hburnt⟩, fun hclean => ?_⟩
  have hsame := congrArg Table.rows (hclean _ _ (Prog.exec_eq_of_fst hrun)).1
  exact absurd hsame (by decide +kernel)

end Groups

/-! ## The handler -/

structure JoinGroupRequest where
  inviteToken : String
  gatewayName : String
  jwt : String
deriving DecidableEq

structure JoinGroupResponse where
  groupId : String
  groupName : String
  error : String
deriving DecidableEq

namespace PeerHandler

def joinGroup (h : PeerHandler) (r : JoinGroupRequest) : Prog World Status JoinGroupResponse := do
  let _ ← h.authJwt r.jwt
  let group ← (Groups.consumeInvite r.inviteToken r.gatewayName).mapErr fun e => ⟨.permissionDenied, e.text⟩
  return { groupId := group.id, groupName := group.name, error := "" }

end PeerHandler

namespace Groups

/-! ## What a join does to the members -/

section
variable {token gateway : String} {w : World}

/-- Members stay. -/
def keepMembers : Discipline Db where
  inv _ := True
  step db db' := ∀ m ∈ db.groupMembers.rows, m ∈ db'.groupMembers.rows
  refl _ _ hm := hm
  trans _ _ _ hab hbc m hm := hbc m (hab m hm)

theorem useInvite_members {now : F64} {db db' : Db} {row : Option (String × String)}
    (h : useInvite token gateway now db = (row, db')) : db'.groupMembers = db.groupMembers := by
  unfold useInvite at h
  split at h <;> cases h <;> rfl

/-- The members go along `R`, if it allows the gateway to be added. -/
theorem moves_consumeInvite {R : Db → Db → Prop} (hsame : ∀ db db', db'.groupMembers = db.groupMembers → R db db')
    (hadd : ∀ db db' row, insertMember row db = some db' → row.gatewayName = gateway → R db db') :
    (consumeInvite token gateway).Moves fun w w' : World => R w.db w'.db := by
  have h₀ : ∀ w : World, R w.db w.db := fun w => hsame _ _ rfl
  have ht : ∀ w : World, R w.db w.tick.db := fun w => hsame _ _ rfl
  unfold consumeInvite
  simp only [Prog.bind_eq, nowSecs]
  refine (Prog.moves_look h₀ _).bind fun now => ?_
  refine (moves_statement ht fun w a db hf => hsame _ _ (useInvite_members (Option.some.inj hf))).bind fun row => ?_
  cases row with
  | none => trivial
  | some row =>
    unfold addMember
    simp only [Prog.bind_eq, nowSecs, orThrow, Prog.ret_bind, Prog.bind_assoc]
    refine (Prog.moves_look h₀ _).bind fun now => ?_
    refine (moves_execute ht fun w db hf => hadd _ _ _ hf rfl).bind fun _ => ?_
    refine (moves_query ht).bind fun group => ?_
    cases group <;> trivial

/-- The gateway is a member of the group. -/
def Joined (gateway groupId : String) (db : Db) : Prop :=
  ∃ m ∈ db.groupMembers.rows, m.groupId = groupId ∧ m.gatewayName = gateway

theorem Joined.stays {groupId : String} {db db' : Db} (h : Joined gateway groupId db) (hstep : keepMembers.step db db') :
    Joined gateway groupId db' := by
  obtain ⟨m, hm, hrest⟩ := h
  exact ⟨m, hstep m hm, hrest⟩

theorem insertMember_step {row : GroupMember} {db db' : Db} (h : insertMember row db = some db') :
    keepMembers.step db db' ∧ Joined row.gatewayName row.groupId db' := by
  have hrows := (insertMember_eq_some h).1
  refine ⟨fun m hm => ?_, row, ?_, rfl, rfl⟩
  · rw [hrows]
    exact List.mem_append_left _ hm
  · rw [hrows]
    exact List.mem_append_right _ (List.mem_singleton_self row)

theorem yields_addMember {groupId invitedBy : String} : (addMember groupId gateway invitedBy).Yields
    (keepMembers.comap World.db) (fun _ w => Joined gateway groupId w.db) w := by
  unfold addMember
  simp only [Prog.bind_eq, nowSecs]
  refine (Prog.Yields.look (P := fun _ _ => True) fun _ _ _ => trivial).bind fun now w' _ => ?_
  refine obeys_execute (Q := fun r db => ∀ a, r = .ok a → Joined gateway groupId db) ?_ fun db _ _ a ha => by cases ha
  intro now' db db' _ hi hins
  obtain ⟨hstep, hjoined⟩ := insertMember_step hins
  exact ⟨⟨hstep, hi⟩, fun _ _ => hjoined⟩

/-- Who has joined a group is a member of it. -/
theorem yields_consumeInvite : (consumeInvite token gateway).Yields (keepMembers.comap World.db)
    (fun group w => Joined gateway group.id w.db) w := by
  unfold consumeInvite
  simp only [Prog.bind_eq, nowSecs]
  refine (Prog.Yields.look (P := fun _ _ => True) fun _ _ _ => trivial).bind fun now w₁ _ => ?_
  have huse : (statement (.msg "consume invite") fun _ db => some (useInvite token gateway now db)).Yields
      (keepMembers.comap World.db) (fun _ _ => True) w₁ := by
    refine Prog.Obeys.yields (Prog.Obeys.post (Prog.Moves.obeys ?_ ((keepMembers.comap World.db).refl w₁)) fun _ _ _ => trivial)
    refine moves_statement (fun w hi => ⟨(keepMembers.comap World.db).refl w, hi⟩) fun w a db hf hi => ⟨fun m hm => ?_, hi⟩
    rw [useInvite_members (Option.some.inj hf)]
    exact hm
  refine huse.bind fun row w₂ _ => ?_
  cases row with
  | none => exact Prog.Yields.fail _
  | some row =>
    simp only [orThrow, Prog.ret_bind]
    refine yields_addMember.bind fun _ w₃ hjoined => ?_
    refine obeys_query_bind (Q := fun (r : Except Err Group) db => ∀ group, r = .ok group → Joined gateway group.id db) ?_
      fun db _ _ group hg => by cases hg
    intro w₄ hstep _
    cases hfind : w₄.db.groups.find? (·.id == row.1) with
    | none => exact Prog.Yields.fail _
    | some group =>
      have hid : group.id = row.1 := by simpa using Table.prop_of_find? hfind
      refine Prog.Yields.ret (P := fun (group : Group) (w : World) => Joined gateway group.id w.db) ?_
      rw [hid]
      exact hjoined.stays hstep

end

end Groups

namespace PeerHandler

/-! ## Every interleaving of requests -/

/-- The gateway accepts the token, at some time, with these claims. -/
def Accepts (h : PeerHandler) (jwt : String) (claims : PeerClaims) : Prop :=
  ∃ now, h.auth.validateFor jwt h.gatewayName now = .ok claims

/-- The request names the gateway that its token was issued by. -/
def NamesIssuer (h : PeerHandler) (r : JoinGroupRequest) : Prop :=
  ∀ claims, h.Accepts r.jwt claims → r.gatewayName = claims.iss

/-- A member is added only under the issuer of the request's token. -/
def AddsIssuer (h : PeerHandler) (r : JoinGroupRequest) (db db' : Db) : Prop :=
  ∀ m ∈ db'.groupMembers.rows, m ∉ db.groupMembers.rows → ∃ claims, h.Accepts r.jwt claims ∧ m.gatewayName = claims.iss

/-- After a join that went well, the issuer of the request's token is a member of the group. -/
def IssuerJoined (h : PeerHandler) (r : JoinGroupRequest) (result : Except Status JoinGroupResponse) (w : World) : Prop :=
  ∀ resp, result = .ok resp → ∀ claims, h.Accepts r.jwt claims → Groups.Joined claims.iss resp.groupId w.db

/-- An action of a request, with the database before it and after it. -/
abbrev Joins := Prog.Event JoinGroupRequest Db Status JoinGroupResponse

/-- Requests that name their issuers may come at any time. -/
def Arrives (h : PeerHandler) (_ : World × List Joins) (p : Prog (World × List Joins) Status Unit) : Prop :=
  ∃ r, h.NamesIssuer r ∧ p = (h.joinGroup r).traced r World.db

/-- The rest of the gateway takes no member out of a group. -/
def MembersStay (s s' : World × List Joins) : Prop := Groups.keepMembers.step s.1.db s'.1.db ∧ s'.2 = s.2

section
variable {h : PeerHandler} {r : JoinGroupRequest}

/-- Past the check of the token. -/
theorem joinGroup_eq (h : PeerHandler) (r : JoinGroupRequest) : h.joinGroup r =
    (Prog.look (·.now)).bind fun now =>
      match h.auth.validateFor r.jwt h.gatewayName now with
      | .ok _ => ((Groups.consumeInvite r.inviteToken r.gatewayName).mapErr fun e => ⟨.permissionDenied, e.text⟩).bind
          fun group => Prog.ret { groupId := group.id, groupName := group.name, error := "" }
      | .error e => Prog.fail ⟨.unauthenticated, e.text⟩ := by
  simp only [joinGroup, authJwt, Prog.bind_eq, Prog.pure_eq, Prog.bind_assoc]
  refine congrArg _ (funext fun now => ?_)
  cases h.auth.validateFor r.jwt h.gatewayName now <;> rfl

theorem moves_joinGroup (hnames : h.NamesIssuer r) : (h.joinGroup r).Moves fun w w' : World => h.AddsIssuer r w.db w'.db := by
  rw [joinGroup_eq]
  refine (Prog.moves_look (fun w m hm hnot => absurd hm hnot) _).bind fun now => ?_
  cases hv : h.auth.validateFor r.jwt h.gatewayName now with
  | error e => trivial
  | ok claims =>
    refine (Groups.moves_consumeInvite ?_ ?_).mapErr.bind fun _ => trivial
    · intro db db' hsame m hm hnot
      rw [hsame] at hm
      exact absurd hm hnot
    · intro db db' row hins hrow m hm hnot
      rw [(Groups.insertMember_eq_some hins).1] at hm
      rcases List.mem_append.1 hm with hm | hm
      · exact absurd hm hnot
      · rw [List.mem_singleton.1 hm, hrow]
        exact ⟨claims, ⟨now, hv⟩, hnames claims ⟨now, hv⟩⟩

theorem obeys_joinGroup (hnames : h.NamesIssuer r) (w : World) :
    (h.joinGroup r).Obeys (Groups.keepMembers.comap World.db) (h.IssuerJoined r) w := by
  show (h.joinGroup r).Yields _ (fun resp w => ∀ claims, h.Accepts r.jwt claims → Groups.Joined claims.iss resp.groupId w.db) w
  rw [joinGroup_eq]
  refine (Prog.Yields.look (P := fun _ _ => True) fun _ _ _ => trivial).bind fun now w₁ _ => ?_
  cases h.auth.validateFor r.jwt h.gatewayName now with
  | error e => exact Prog.Yields.fail _
  | ok _ =>
    refine Groups.yields_consumeInvite.mapErr.bind fun group w₂ hjoined => Prog.Yields.ret ?_
    intro claims haccepts
    rw [← hnames claims haccepts]
    exact hjoined

/-- **Only the authenticated gateway joins**, in every interleaving of requests that name the issuers of
their tokens: a member is added only under the name that the request's token was issued by, and a gateway
that has joined is found in the group under that name. -/
theorem joins_authentic (h : PeerHandler) {c : Pool (World × List Joins) Status}
    (hrun : Pool.Reachable (fun s => s.2 = []) h.Arrives MembersStay c) :
    ∀ e ∈ c.state.2, h.AddsIssuer e.label e.before e.after ∧
      ∀ result, e.result = some result → h.IssuerJoined e.label result c.state.1 := by
  refine hrun.logged (D := Groups.keepMembers.comap World.db) (fun s hs => ⟨trivial, hs⟩) ?_
    (fun s s' _ hs => ⟨⟨hs.1, trivial⟩, hs.2⟩) ?_
  · rintro s p - ⟨r, hnames, rfl⟩
    exact ⟨r, World.db, h.joinGroup r, rfl, obeys_joinGroup hnames s.1, moves_joinGroup hnames⟩
  · intro r result w w' hstep hq resp hresp claims haccepts
    exact (hq resp hresp claims haccepts).stays hstep

end

namespace DemoJoin

open Groups.DemoJoin

/-- `gw-b` joins under the name. -/
def request (name : String) : JoinGroupRequest := ⟨"t", name, "token"⟩

/-- The request is under way. -/
def pool (name : String) : Pool (World × List Joins) Status :=
  ⟨(world, []), [(demoHandler.joinGroup (request name)).traced (request name) World.db]⟩

/-- It has been answered. -/
def answered (name : String) : Pool (World × List Joins) Status := (pool name).schedule [0, 0, 0, 0, 0, 0]

theorem iss_of_accepts {claims : PeerClaims} (h : demoHandler.Accepts "token" claims) : claims.iss = "gw-b" := by
  obtain ⟨now, hv⟩ := h
  have hvalid : demoHandler.auth.validate "token" now = .ok claims := by
    unfold JwtAuth.validateFor at hv
    cases hval : demoHandler.auth.validate "token" now with
    | error e =>
      rw [hval] at hv
      cases hv
    | ok c =>
      rw [hval] at hv
      simp only [bind, Except.bind] at hv
      split at hv <;> cases hv
      rfl
  have hdecode : demoHandler.auth.decode now "token" = some ⟨"gw-b", "gw-a", 4600, 1000, "sync"⟩ := rfl
  simp only [JwtAuth.validate, hdecode] at hvalid
  split at hvalid <;> cases hvalid
  rfl

theorem accepted : demoHandler.Accepts "token" ⟨"gw-b", "gw-a", 4600, 1000, "sync"⟩ := ⟨.fin 1000, by decide +kernel⟩

theorem answered_reachable {start : World × List Joins → Prog (World × List Joins) Status Unit → Prop} (name : String)
    (hstart : start (world, []) ((demoHandler.joinGroup (request name)).traced (request name) World.db)) :
    Pool.Reachable (fun s => s.2 = []) start MembersStay (answered name) := by
  have hpool : Pool.Reachable (fun s => s.2 = []) start MembersStay (pool name) :=
    ⟨(world, []), rfl, .single (.start hstart)⟩
  exact hpool.scheduled _

end DemoJoin

open DemoJoin in
/-- `gw-b` joins under its own name. -/
theorem joins_authentic_demo : (answered "gw-b").state.2.isEmpty = false ∧
    ∀ e ∈ (answered "gw-b").state.2, demoHandler.AddsIssuer e.label e.before e.after ∧
      ∀ result, e.result = some result → demoHandler.IssuerJoined e.label result (answered "gw-b").state.1 := by
  refine ⟨by decide +kernel, joins_authentic demoHandler (answered_reachable "gw-b" ⟨request "gw-b", ?_, rfl⟩)⟩
  intro claims haccepts
  exact (iss_of_accepts haccepts).symm

/-- Requests with any fields may come at any time. -/
def ArrivesAny (h : PeerHandler) (_ : World × List Joins) (p : Prog (World × List Joins) Status Unit) : Prop :=
  ∃ r, p = (h.joinGroup r).traced r World.db

open DemoJoin in
/-- **With a token of `gw-b`, the gateway `gw-c` is added to the group, and `gw-b` is not.** -/
theorem other_gateway_joins : ∃ c : Pool (World × List Joins) Status,
    Pool.Reachable (fun s => s.2 = []) demoHandler.ArrivesAny MembersStay c ∧
      (∃ e ∈ c.state.2, ¬ demoHandler.AddsIssuer e.label e.before e.after) ∧
      ∃ e ∈ c.state.2, ∃ result, e.result = some result ∧ ¬ demoHandler.IssuerJoined e.label result c.state.1 := by
  refine ⟨answered "gw-c", answered_reachable "gw-c" ⟨request "gw-c", rfl⟩, ?_, ?_⟩
  · have hadds : ∃ e ∈ (answered "gw-c").state.2, e.label = request "gw-c" ∧
        ∃ m ∈ e.after.groupMembers.rows, m ∉ e.before.groupMembers.rows ∧ m.gatewayName = "gw-c" := by decide +kernel
    obtain ⟨e, he, hlabel, m, hm, hnot, hname⟩ := hadds
    refine ⟨e, he, fun hadd => ?_⟩
    obtain ⟨claims, haccepts, hiss⟩ := hadd m hm hnot
    rw [hlabel] at haccepts
    rw [iss_of_accepts haccepts, hname] at hiss
    exact absurd hiss (by decide)
  · have hends : ∃ e ∈ (answered "gw-c").state.2, e.label = request "gw-c" ∧
        e.result = some (.ok ⟨Groups.DemoJoin.group.text, "g", ""⟩) := by decide +kernel
    obtain ⟨e, he, hlabel, hresult⟩ := hends
    refine ⟨e, he, _, hresult, fun hjoined => ?_⟩
    have haccepts : demoHandler.Accepts e.label.jwt ⟨"gw-b", "gw-a", 4600, 1000, "sync"⟩ := by
      rw [hlabel]
      exact accepted
    obtain ⟨m, hm, -, hname⟩ := hjoined _ rfl _ haccepts
    have hnone : ∀ m ∈ (answered "gw-c").state.1.db.groupMembers.rows, m.gatewayName ≠ "gw-b" := by decide +kernel
    exact hnone m hm hname

end PeerHandler

end A2AGateway
