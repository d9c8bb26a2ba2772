import A2AGateway.Groups
import A2AGateway.Statements
import A2AGateway.Lib.Credits

/-!
# Invites are single-use and the only way in

Calls of `groups.rs` side by side, each SQL statement one action. A used invite never changes
again, since the `UPDATE` asks for `used_at IS NULL`. A call of `consume_invite` that has marked
its token holds the one success that the token is worth, so no other call on it ends well. Every
member that neither `create_group` nor a direct `add_member` has added was let in by an invite,
and the primary key of `group_members` keeps two of them from sharing one
(`invites_single_use`).
-/

namespace A2AGateway

open Gw

namespace Groups

/-! ## The calls and what is written down of them -/

/-- A call of the group store. -/
inductive Call
  | createGroup (id : Uuid) (name description createdBy : String)
  | createInvite (token groupId createdBy : String)
  | addMember (groupId gatewayName invitedBy : String)
  | consumeInvite (token joiningGateway : String)

def Call.prog : Call → Gw Unit
  | .createGroup id name description createdBy => (Groups.createGroup id name description createdBy).bind fun _ => .ret ()
  | .createInvite token groupId createdBy => (Groups.createInvite token groupId createdBy).bind fun _ => .ret ()
  | .addMember groupId gatewayName invitedBy => Groups.addMember groupId gatewayName invitedBy
  | .consumeInvite token joiningGateway => (Groups.consumeInvite token joiningGateway).bind fun _ => .ret ()

/-- `create_group` and a direct `add_member`. -/
def Call.direct : Call → Bool
  | .createGroup .. | .addMember .. => true
  | _ => false

/-- An action of a call, with the database before it and after it. -/
abbrev Taken := Prog.Event Call Db Err Unit

/-- The gateway and the actions taken so far. -/
abbrev Store := World × List Taken

/-- The result is a success of `consume_invite` on the token. -/
def wins (token : String) : Call → Option (Except Err Unit) → Bool
  | .consumeInvite t _, some (.ok ()) => t == token
  | _, _ => false

/-- How many calls of `consume_invite` on the token have returned `Ok`. -/
def winners (token : String) (taken : List Taken) : Nat := taken.countP fun e => wins token e.label e.result

/-- The row went in by `create_group` or by a direct `add_member`. -/
def AddedDirectly (taken : List Taken) (r : GroupMember) : Prop :=
  ∃ e ∈ taken, e.label.direct = true ∧ r ∉ e.before.groupMembers.rows ∧ r ∈ e.after.groupMembers.rows

/-- The invite has let the member in, before it expired. -/
def Admits (i : Invite) (r : GroupMember) : Prop :=
  i.groupId = r.groupId ∧ i.usedBy = some r.gatewayName ∧ ∃ at', i.usedAt = some at' ∧ at'.lt i.expiresAt = true

/-- Any call may be made at any time. -/
def Starts (_ : Store) (p : Prog Store Err Unit) : Prop := ∃ call : Call, p = call.prog.traced call World.db

/-- The rest of the gateway does not write these tables, and the clock does not go back. -/
def Elsewhere (s s' : Store) : Prop :=
  s'.1.db.groups = s.1.db.groups ∧ s'.1.db.groupMembers = s.1.db.groupMembers ∧ s'.1.db.invites = s.1.db.invites ∧
    s.1.now.le s'.1.now = true ∧ s'.2 = s.2

/-- Nobody is a member yet and nothing has been called. -/
def NoMembers (s : Store) : Prop := s.1.db.groupMembers.rows = [] ∧ s.2 = []

/-! ## What an action may do -/

/-- Used invites stay as they are; the list of actions grows. -/
def letIn : Discipline Store where
  inv s := ∀ r ∈ s.1.db.groupMembers.rows, AddedDirectly s.2 r ∨ ∃ i ∈ s.1.db.invites.rows, Admits i r
  step s s' := (∀ i ∈ s.1.db.invites.rows, i.usedAt ≠ none → i ∈ s'.1.db.invites.rows) ∧ s.2 <+: s'.2
  refl _ := ⟨fun _ hi _ => hi, List.prefix_rfl⟩
  trans _ _ _ hab hbc :=
    ⟨fun i hi hused => hbc.1 i (hab.1 i hi hused) hused, hab.2.trans hbc.2⟩

/-- Whether the token has been used. -/
def isUsed (token : String) (db : Db) : Bool := db.invites.rows.any fun i => i.token == token && i.usedAt.isSome

/-- The one success that a used token is worth, and what has been had of it. -/
def worth (token : String) (s : Store) : Int := (isUsed token s.1.db).toNat - winners token s.2

/-- What an action of the call may do to the database. -/
structure Fair (call : Call) (db db' : Db) : Prop where
  members : ∀ r ∈ db'.groupMembers.rows,
    r ∈ db.groupMembers.rows ∨ call.direct = true ∨ ∃ i ∈ db'.invites.rows, Admits i r
  used : ∀ i ∈ db.invites.rows, i.usedAt ≠ none → i ∈ db'.invites.rows

theorem Fair.refl (call : Call) (db : Db) : Fair call db db := ⟨fun _ hr => Or.inl hr, fun _ hi _ => hi⟩

variable {call : Call} {token : String} {w w' : World} {taken : List Taken} {result : Option (Except Err Unit)}

theorem isUsed_iff {db : Db} : isUsed token db = true ↔ ∃ i ∈ db.invites.rows, i.token = token ∧ i.usedAt ≠ none := by
  simp [isUsed, Option.isSome_iff_ne_none]

theorem AddedDirectly.append {r : GroupMember} {more : List Taken} (h : AddedDirectly taken r) :
    AddedDirectly (taken ++ more) r := by
  obtain ⟨e, he, hrest⟩ := h
  exact ⟨e, List.mem_append_left _ he, hrest⟩

theorem Admits.used {i : Invite} {r : GroupMember} (h : Admits i r) : i.usedAt ≠ none := by
  obtain ⟨-, -, at', hat, -⟩ := h
  rw [hat]
  exact Option.some_ne_none at'

/-- An action that is fair goes along the discipline. -/
theorem Fair.step (h : Fair call w.db w'.db) (hi : letIn.inv (w, taken)) :
    letIn.step (w, taken) (w', taken ++ [⟨call, w.db, w'.db, result⟩]) ∧
      letIn.inv (w', taken ++ [⟨call, w.db, w'.db, result⟩]) := by
  refine ⟨⟨h.used, List.prefix_append _ _⟩, fun r hr => ?_⟩
  by_cases hbefore : r ∈ w.db.groupMembers.rows
  · rcases hi r hbefore with hdirect | ⟨i, hmem, hadmits⟩
    · exact Or.inl hdirect.append
    · exact Or.inr ⟨i, h.used i hmem hadmits.used, hadmits⟩
  · rcases h.members r hr with hold | hdirect | hadmitted
    · exact absurd hold hbefore
    · left
      exact ⟨_, List.mem_append_right _ (List.mem_singleton_self _), hdirect, hbefore, hr⟩
    · exact Or.inr hadmitted

theorem worth_append : worth token (w', taken ++ [⟨call, w.db, w'.db, result⟩]) =
    (isUsed token w'.db).toNat - winners token taken - (wins token call result).toNat := by
  unfold worth winners
  rw [List.countP_append, List.countP_singleton]
  cases wins token call result with
  | true =>
    simp
    omega
  | false => simp

theorem Fair.used_le {db db' : Db} (h : Fair call db db') : (isUsed token db).toNat ≤ (isUsed token db').toNat := by
  by_cases hu : isUsed token db = true
  · obtain ⟨i, hi, htoken, hused⟩ := isUsed_iff.1 hu
    have hu' : isUsed token db' = true := isUsed_iff.2 ⟨i, h.used i hi hused, htoken, hused⟩
    exact Nat.le_of_eq (by rw [hu, hu'])
  · rw [Bool.not_eq_true] at hu
    rw [hu]
    exact Nat.zero_le _

theorem wins_error {e : Err} : wins token call (some (.error e)) = false := by
  cases call <;> rfl

section
variable {α : Type} {g : α → Gw Unit} {n : Nat} {s : Store} {e : Err}

/-- One action: it is fair, and what it takes on and wins is paid by what is held and by what it marks as
used. -/
theorem credits_prim_bind {F : World → Except Err α × World}
    (hok : ∀ s' : Store, letIn.step s s' → ∀ a w', F s'.1 = (.ok a, w') →
      Fair call s'.1.db w'.db ∧ ∃ n' : Nat,
        n' + (isUsed token s'.1.db).toNat + (wins token call (g a).ended).toNat ≤ n + (isUsed token w'.db).toNat ∧
        ∀ taken', ((g a).traced call World.db).Credits letIn (worth token) n' (w', taken'))
    (herr : ∀ w e w', F w = (.error e, w') → w'.db = w.db) :
    ((((Prog.prim F).bind g)).traced call World.db).Credits letIn (worth token) n s := by
  rw [Prog.traced_prim_bind]
  intro s' hs hi
  obtain ⟨w, taken⟩ := s'
  rcases hF : F w with ⟨r, w'⟩
  cases r with
  | error e =>
    have hdb := herr w e w' hF
    have hfair : Fair call w.db w'.db := hdb ▸ Fair.refl call w.db
    simp only [hF]
    refine ⟨hfair.step hi, 0, ?_, trivial⟩
    rw [worth_append, wins_error, hdb, worth]
    simp only [Bool.toNat_false]
    omega
  | ok a =>
    obtain ⟨hfair, n', hle, hk⟩ := hok (w, taken) hs a w' hF
    simp only [hF]
    refine ⟨hfair.step hi, n', ?_, hk _⟩
    rw [worth_append, worth]
    simp only at hle ⊢
    omega

theorem credits_look_bind {f : World → α} (hnow : ∀ a, wins token call (g a).ended = false)
    (h : ∀ a s', letIn.step s s' → ((g a).traced call World.db).Credits letIn (worth token) n s') :
    (((Prog.look f).bind g).traced call World.db).Credits letIn (worth token) n s := by
  intro s' hs hi
  obtain ⟨w, taken⟩ := s'
  have hstep : letIn.step (w, taken) (w, taken ++ [⟨call, w.db, w.db, (g (f w)).ended⟩]) ∧
      letIn.inv (w, taken ++ [⟨call, w.db, w.db, (g (f w)).ended⟩]) := (Fair.refl call w.db).step hi
  have hworth : (n : Int) + worth token (w, taken) ≤
      n + worth token (w, taken ++ [Prog.Event.mk call w.db w.db (g (f w)).ended]) := by
    rw [worth_append, hnow, worth]
    simp
  exact ⟨hstep, n, hworth, h _ _ (letIn.trans _ _ _ hs hstep.1)⟩

theorem credits_query_bind {f : Db → α} (hnow : ∀ a, (wins token call (g a).ended).toNat ≤ n)
    (h : ∀ a s', ((g a).traced call World.db).Credits letIn (worth token) 0 s') :
    (((query e f).bind g).traced call World.db).Credits letIn (worth token) n s := by
  obtain ⟨F, hp, hF⟩ := query_prim e f
  rw [hp]
  apply credits_prim_bind
  · intro s' _ a w' ha
    rcases hF s'.1 with hf | hf <;> rw [hf] at ha <;> cases ha
    refine ⟨Fair.refl call _, 0, ?_, fun taken' => h _ _⟩
    have := hnow (f s'.1.db)
    simp only [World.tick_db]
    omega
  · intro w e' w' he
    rcases hF w with hf | hf <;> rw [hf] at he <;> cases he
    rfl

theorem credits_statement_bind {f : F64 → Db → Option (α × Db)}
    (h : ∀ s' : Store, letIn.step s s' → ∀ a db', f s'.1.now s'.1.db = some (a, db') →
      Fair call s'.1.db db' ∧ ∃ n' : Nat,
        n' + (isUsed token s'.1.db).toNat + (wins token call (g a).ended).toNat ≤ n + (isUsed token db').toNat ∧
        ∀ s'' : Store, s''.1.db = db' → ((g a).traced call World.db).Credits letIn (worth token) n' s'') :
    (((statement e f).bind g).traced call World.db).Credits letIn (worth token) n s := by
  obtain ⟨F, hp, hF⟩ := statement_prim e f
  rw [hp]
  apply credits_prim_bind
  · intro s' hs a w' ha
    rcases hF s'.1 with hf | ⟨a', db', hdb, hf⟩ <;> rw [hf] at ha <;> cases ha
    obtain ⟨hfair, n', hle, hk⟩ := h s' hs _ _ hdb
    exact ⟨hfair, n', hle, fun taken' => hk _ rfl⟩
  · intro w e' w' he
    rcases hF w with hf | ⟨a', db', hdb, hf⟩ <;> rw [hf] at he <;> cases he
    rfl

theorem credits_execute_bind {f : F64 → Db → Option Db} {g : Unit → Gw Unit}
    (h : ∀ s' : Store, letIn.step s s' → ∀ db', f s'.1.now s'.1.db = some db' → Fair call s'.1.db db')
    (hnow : wins token call (g ()).ended = false)
    (hk : ∀ s' : Store, ((g ()).traced call World.db).Credits letIn (worth token) n s') :
    (((execute e f).bind g).traced call World.db).Credits letIn (worth token) n s := by
  apply credits_statement_bind
  intro s' hs u db' hf
  obtain ⟨db'', hdb, hpair⟩ := Option.map_eq_some_iff.1 hf
  cases hpair
  have hfair := h s' hs _ hdb
  refine ⟨hfair, n, ?_, fun s'' _ => hk s''⟩
  have hle : (isUsed token s'.1.db).toNat ≤ (isUsed token _).toNat := hfair.used_le
  rw [hnow, Bool.toNat_false]
  omega

end

/-! ## The statements -/

section
variable {db db' : Db} {now : F64} {gateway groupId createdBy : String}

theorem insertMember_eq_some {row : GroupMember} (h : insertMember row db = some db') :
    db'.groupMembers.rows = db.groupMembers.rows ++ [row] ∧ db'.invites = db.invites := by
  unfold insertMember at h
  split at h
  · obtain ⟨groupMembers, hins, rfl⟩ := Option.map_eq_some_iff.1 h
    exact ⟨(Table.insert_eq_some.1 hins).2, rfl⟩
  · cases h

theorem insertGroup_fair {row : Group} (h : insertGroup row db = some db') : Fair call db db' := by
  obtain ⟨groups, -, rfl⟩ := Option.map_eq_some_iff.1 h
  exact ⟨fun r hr => Or.inl hr, fun i hi _ => hi⟩

theorem insertInvite_fair {row : Invite} (h : insertInvite row db = some db') : Fair call db db' := by
  unfold insertInvite at h
  split at h
  · obtain ⟨invites, hins, rfl⟩ := Option.map_eq_some_iff.1 h
    refine ⟨fun r hr => Or.inl hr, fun i hi _ => ?_⟩
    rw [(Table.insert_eq_some.1 hins).2]
    exact List.mem_append_left _ hi
  · cases h

/-- A row that the call may add, or that an invite admits. -/
theorem insertMember_fair {row : GroupMember} (h : insertMember row db = some db')
    (hrow : call.direct = true ∨ ∃ i ∈ db.invites.rows, Admits i row) : Fair call db db' := by
  obtain ⟨hrows, hinvites⟩ := insertMember_eq_some h
  constructor
  · intro r hr
    rw [hrows] at hr
    rcases List.mem_append.1 hr with hr | hr
    · exact Or.inl hr
    · rw [List.mem_singleton] at hr
      subst hr
      rw [hinvites]
      exact Or.inr hrow
  · intro i hi _
    rw [hinvites]
    exact hi

theorem usable_iff {i : Invite} :
    usable token now i = true ↔ i.token = token ∧ i.usedAt = none ∧ now.lt i.expiresAt = true := by
  simp [usable, and_assoc]

/-- What the `UPDATE` returns is of an invite that was unused and is now used by the gateway, in time. -/
theorem useInvite_some (h : useInvite token gateway now db = (some (groupId, createdBy), db')) :
    (∃ i ∈ db'.invites.rows, i.token = token ∧ i.groupId = groupId ∧ i.usedBy = some gateway ∧
      i.usedAt = some now ∧ now.lt i.expiresAt = true) ∧
    isUsed token db = false ∧ Fair call db db' := by
  unfold useInvite at h
  split at h
  · rename_i i hfind
    cases h
    have hmem := Table.mem_of_find? hfind
    obtain ⟨htoken, hunused, hlt⟩ := usable_iff.1 (Table.prop_of_find? hfind)
    refine ⟨⟨{ i with usedAt := some now, usedBy := some gateway }, ?_, htoken, rfl, rfl, rfl, hlt⟩, ?_, ?_⟩
    · refine List.mem_map.2 ⟨i, hmem, ?_⟩
      rw [if_pos (Table.prop_of_find? hfind)]
    · -- The token is the primary key: its only row is unused.
      rw [Bool.eq_false_iff]
      intro hu
      obtain ⟨j, hj, hjtoken, hjused⟩ := isUsed_iff.1 hu
      have hij : j = i := Table.eq_of_clash _ hj hmem (by simp [Constraints.clash, htoken, hjtoken])
      exact hjused (hij ▸ hunused)
    · refine ⟨fun r hr => Or.inl hr, fun j hj hused => List.mem_map.2 ⟨j, hj, ?_⟩⟩
      rw [if_neg fun hu => hused (usable_iff.1 hu).2.1]
  · cases h

theorem useInvite_none (h : useInvite token gateway now db = (none, db')) : db' = db := by
  unfold useInvite at h
  split at h <;> cases h
  rfl

end

/-! ## The calls -/

section
variable {n : Nat} {s : Store}

/-- `add_member`, where the call may add the row or knows an invite that admits it. -/
theorem credits_addMember_bind {groupId gateway invitedBy : String} {g : Unit → Gw Unit}
    (hrow : call.direct = true ∨ ∃ i ∈ s.1.db.invites.rows, i.groupId = groupId ∧ i.usedBy = some gateway ∧
      ∃ at', i.usedAt = some at' ∧ at'.lt i.expiresAt = true)
    (hnow : wins token call (g ()).ended = false)
    (hk : ∀ s' : Store, ((g ()).traced call World.db).Credits letIn (worth token) n s') :
    (((Groups.addMember groupId gateway invitedBy).bind g).traced call World.db).Credits letIn (worth token) n s := by
  unfold Groups.addMember
  simp only [Prog.bind_eq, nowSecs, Prog.bind_assoc]
  apply credits_look_bind
  · intro now
    rcases call with _ | _ | _ | _ <;> rfl
  intro now s₁ hs₁
  apply credits_execute_bind
  · intro s₂ hs₂ db' hins
    apply insertMember_fair hins
    rcases hrow with hdirect | ⟨i, hi, hgroup, hby, at', hat, hlt⟩
    · exact Or.inl hdirect
    · right
      have hused : i.usedAt ≠ none := hat ▸ Option.some_ne_none at'
      exact ⟨i, hs₂.1 i (hs₁.1 i hi hused) hused, hgroup, hby, at', hat, hlt⟩
  · exact hnow
  · exact hk

/-- The call that may win the token. -/
theorem credits_consumeInvite (token' gateway : String) :
    (((Groups.consumeInvite token' gateway).bind fun _ => .ret ()).traced (.consumeInvite token' gateway) World.db).Credits letIn
      (worth token) 0 s := by
  unfold Groups.consumeInvite
  simp only [Prog.bind_eq, nowSecs, Prog.bind_assoc]
  apply credits_look_bind (fun _ => rfl)
  intro now s₁ _
  apply credits_statement_bind
  intro s₂ _ row db' hf
  rcases row with _ | ⟨groupId, createdBy⟩
  · cases useInvite_none (Option.some.inj hf)
    exact ⟨Fair.refl _ _, 0, by simp [orThrow, Prog.ended, wins_error], fun s₃ _ => trivial⟩
  · obtain ⟨⟨i, hi, htoken, hgroup, hby, hat, hlt⟩, hunused, hfair⟩ := useInvite_some (Option.some.inj hf)
    have hused : isUsed token' db' = true := isUsed_iff.2 ⟨i, hi, htoken, by rw [hat]; exact Option.some_ne_none now⟩
    -- Having marked the token, the call holds the success it is worth.
    refine ⟨hfair, if token' = token then 1 else 0, ?_, fun s₃ hs₃ => ?_⟩
    · have hle : (isUsed token s₂.1.db).toNat ≤ (isUsed token db').toNat := hfair.used_le
      by_cases htoken' : token' = token
      · subst htoken'
        rw [hunused, hused, if_pos rfl]
        exact Nat.le_refl _
      · rw [if_neg htoken']
        show 0 + (isUsed token s₂.1.db).toNat + false.toNat ≤ 0 + (isUsed token db').toNat
        rw [Bool.toNat_false]
        omega
    · apply credits_addMember_bind
      · right
        rw [hs₃]
        exact ⟨i, hi, hgroup, hby, now, hat, hlt⟩
      · rfl
      intro s₄
      unfold Groups.getGroup
      apply credits_query_bind
      · intro o
        by_cases htoken' : token' = token
        · rw [if_pos htoken']
          exact Bool.toNat_le _
        · rw [if_neg htoken']
          cases o with
          | none => exact Nat.le_refl 0
          | some group => simp [orThrow, Prog.ended, wins, htoken']
      · intro o s₅
        cases o <;> trivial

theorem credits_call (call : Call) : (call.prog.traced call World.db).Credits letIn (worth token) 0 s := by
  cases call with
  | createGroup id name description createdBy =>
    show (((Groups.createGroup id name description createdBy).bind fun _ => .ret ()).traced _ World.db).Credits _ _ 0 s
    unfold Groups.createGroup
    simp only [Prog.bind_eq, Prog.pure_eq, nowSecs, Prog.bind_assoc]
    apply credits_look_bind (fun _ => rfl)
    intro now s₁ _
    apply credits_execute_bind
    · intro s₂ _ db' hins
      exact insertGroup_fair hins
    · rfl
    intro s₂
    apply credits_addMember_bind (Or.inl rfl) rfl
    intro s₃
    trivial
  | createInvite token' groupId createdBy =>
    show (((Groups.createInvite token' groupId createdBy).bind fun _ => .ret ()).traced _ World.db).Credits _ _ 0 s
    unfold Groups.createInvite
    simp only [Prog.bind_eq, Prog.pure_eq, nowSecs, Prog.bind_assoc]
    apply credits_look_bind (fun _ => rfl)
    intro now s₁ _
    apply credits_execute_bind
    · intro s₂ _ db' hins
      exact insertInvite_fair hins
    · rfl
    intro s₂
    trivial
  | addMember groupId gateway invitedBy =>
    show ((Groups.addMember groupId gateway invitedBy).traced _ World.db).Credits _ _ 0 s
    rw [← Prog.bind_ret (Groups.addMember groupId gateway invitedBy)]
    apply credits_addMember_bind (Or.inl rfl) rfl
    intro s₁
    trivial
  | consumeInvite token' gateway => exact credits_consumeInvite token' gateway

end

/-! ## Every interleaving -/

/-- A used invite is still there, and is its token's only row. -/
def StaysUsed (db db' : Db) : Prop :=
  ∀ i ∈ db.invites.rows, i.usedAt ≠ none →
    i ∈ db'.invites.rows ∧ ∀ i' ∈ db'.invites.rows, i'.token = i.token → i' = i

/-- Every member that was not added directly has an invite of its own. -/
def ComeByInvite (s : Store) : Prop :=
  ∃ backing : GroupMember → Invite,
    (∀ r ∈ s.1.db.groupMembers.rows, ¬ AddedDirectly s.2 r →
      backing r ∈ s.1.db.invites.rows ∧ Admits (backing r) r) ∧
    ∀ r ∈ s.1.db.groupMembers.rows, ∀ r' ∈ s.1.db.groupMembers.rows, ¬ AddedDirectly s.2 r → ¬ AddedDirectly s.2 r' →
      (backing r).token = (backing r').token → r = r'

theorem elsewhere_step {s s' : Store} (h : Elsewhere s s') (hi : letIn.inv s) :
    (letIn.step s s' ∧ letIn.inv s') ∧ worth token s ≤ worth token s' := by
  obtain ⟨-, hmembers, hinvites, -, htaken⟩ := h
  refine ⟨⟨⟨?_, ?_⟩, ?_⟩, ?_⟩
  · intro i hi _
    rw [hinvites]
    exact hi
  · simp [htaken]
  · intro r hr
    rw [hmembers] at hr
    rw [htaken, hinvites]
    exact hi r hr
  · exact Int.le_of_eq (by rw [worth, worth, isUsed, isUsed, hinvites, htaken])

theorem noMembers_inv {s : Store} (h : NoMembers s) : letIn.inv s ∧ 0 ≤ worth token s := by
  obtain ⟨hmembers, htaken⟩ := h
  constructor
  · intro r hr
    rw [hmembers] at hr
    cases hr
  · rw [worth, htaken]
    exact Int.sub_nonneg_of_le (Int.natCast_nonneg _)

/-- Two members of one invite are the same row. -/
theorem Admits.unique {db : Db} {i i' : Invite} {r r' : GroupMember} (hi : i ∈ db.invites.rows)
    (hi' : i' ∈ db.invites.rows) (hr : r ∈ db.groupMembers.rows) (hr' : r' ∈ db.groupMembers.rows) (h : Admits i r)
    (h' : Admits i' r') (htoken : i.token = i'.token) : r = r' := by
  have heq : i = i' := Table.eq_of_clash _ hi hi' (by simp [Constraints.clash, htoken])
  subst heq
  obtain ⟨hgroup, hby, -⟩ := h
  obtain ⟨hgroup', hby', -⟩ := h'
  have hname : r.gatewayName = r'.gatewayName := Option.some.inj (hby.symm.trans hby')
  exact Table.eq_of_clash _ hr hr' (by simp [Constraints.clash, ← hgroup, hgroup', hname])

theorem comeByInvite {s : Store} (hi : letIn.inv s) : ComeByInvite s := by
  have hback : ∀ r ∈ s.1.db.groupMembers.rows, ¬ AddedDirectly s.2 r → ∃ i ∈ s.1.db.invites.rows, Admits i r := by
    intro r hr hnot
    rcases hi r hr with hdirect | hadmitted
    · exact absurd hdirect hnot
    · exact hadmitted
  classical
  have hchoice : ∀ r : GroupMember, ∃ i : Invite, r ∈ s.1.db.groupMembers.rows → ¬ AddedDirectly s.2 r →
      i ∈ s.1.db.invites.rows ∧ Admits i r := by
    intro r
    by_cases h : r ∈ s.1.db.groupMembers.rows ∧ ¬ AddedDirectly s.2 r
    · obtain ⟨i, hmem, hadmits⟩ := hback r h.1 h.2
      exact ⟨i, fun _ _ => ⟨hmem, hadmits⟩⟩
    · exact ⟨⟨"", "", "", .nan, .nan, none, none⟩, fun hr hnot => absurd ⟨hr, hnot⟩ h⟩
  obtain ⟨backing, hbacking⟩ := Classical.skolem.1 hchoice
  refine ⟨backing, hbacking, fun r hr r' hr' hnot hnot' htoken => ?_⟩
  obtain ⟨hmem, hadmits⟩ := hbacking r hr hnot
  obtain ⟨hmem', hadmits'⟩ := hbacking r' hr' hnot'
  exact hadmits.unique hmem hmem' hr hr' hadmits' htoken

/-- **Invites are single-use and the only way in**, in every interleaving of the calls. -/
theorem invites_single_use {c c' : Pool Store Err} (h : Pool.Reachable NoMembers Starts Elsewhere c)
    (hrun : Relation.ReflTransGen (Pool.Step Starts Elsewhere) c c') :
    StaysUsed c.state.1.db c'.state.1.db ∧ (∀ token, winners token c'.state.2 ≤ 1) ∧ ComeByInvite c'.state := by
  have hstart : ∀ (token : String) (s : Store) (p : Prog Store Err Unit), letIn.inv s → Starts s p →
      p.Credits letIn (worth token) 0 s := by
    rintro token s _ - ⟨call, rfl⟩
    exact credits_call call
  have h' : Pool.Reachable NoMembers Starts Elsewhere c' := by
    obtain ⟨s, hs, hbefore⟩ := h
    exact ⟨s, hs, hbefore.trans hrun⟩
  have hcovered : ∀ token, letIn.inv c'.state ∧ 0 ≤ worth token c'.state := by
    intro token
    exact h'.covered (fun s hs => noMembers_inv hs) (hstart token) fun s s' hi hs => elsewhere_step hs hi
  have halong := h.along hrun (fun s hs => (@noMembers_inv "" s hs).1)
    (fun s p hi hp => (hstart "" s p hi hp).obeys) fun s s' hi hs => (@elsewhere_step "" s s' hs hi).1
  refine ⟨fun i hi hused => ?_, fun token => ?_, comeByInvite (hcovered "").1⟩
  · have hmem := halong.1 i hi hused
    exact ⟨hmem, fun i' hi' htoken => Table.eq_of_clash _ hi' hmem (by simp [Constraints.clash, htoken])⟩
  · have hworth := (hcovered token).2
    have hle := Bool.toNat_le (isUsed token c'.state.1.db)
    unfold worth at hworth
    omega

/-! ## A group with one invite -/

namespace DemoInvite

def groupId : Uuid := ⟨"00000000-0000-4000-8000-0000000000aa", Uuid.hex_aa⟩

def calls : List Call :=
  [.createGroup groupId "g" "" "gw-a", .createInvite "t" groupId.text "gw-a", .consumeInvite "t" "gw-b",
    .consumeInvite "t" "gw-c"]

/-- The calls are under way. -/
def pool : Pool Store Err := ⟨({ World.fresh with now := .fin 1000 }, []), calls.map fun call => call.prog.traced call World.db⟩

theorem pool_reachable : Pool.Reachable NoMembers Starts Elsewhere pool := by
  refine ⟨pool.state, ⟨rfl, rfl⟩, ?_⟩
  have hstart : ∀ ts (call : Call), Relation.ReflTransGen (Pool.Step Starts Elsewhere) ⟨pool.state, ts⟩
      ⟨pool.state, ts ++ [call.prog.traced call World.db]⟩ := fun ts call => .single (.start ⟨call, rfl⟩)
  exact (((hstart _ _).trans (hstart _ _)).trans (hstart _ _)).trans (hstart _ _)

end DemoInvite

/-- Two gateways race for one invite: one gets in. -/
theorem invites_single_use_demo : ∃ c : Pool Store Err,
    (c.state.1.db.groupMembers.rows.map (·.gatewayName) = ["gw-a", "gw-c"]) ∧ winners "t" c.state.2 = 1 ∧
      ComeByInvite c.state := by
  have hreach := DemoInvite.pool_reachable
  have hrun : Relation.ReflTransGen (Pool.Step Starts Elsewhere) DemoInvite.pool
      (DemoInvite.pool.schedule [0, 0, 0, 0, 1, 1, 2, 3, 3, 2, 3, 3, 3, 2]) := Pool.schedule_run _ _
  exact ⟨_, by decide +kernel, by decide +kernel, (invites_single_use hreach hrun).2.2⟩

end Groups

end A2AGateway
