import A2AGateway.World
import A2AGateway.Lib.FreshWrites
import A2AGateway.Lib.Upheld

/-!
# Statements among the statements of others

The rules of `Lib/Interleave.lean` at the operations of a gateway, for a discipline on its
database alone: clock, disk and faults may be anything at every statement.
-/

namespace A2AGateway.Gw

open Prog

variable {α β : Type} {e : Err}

/-! ## Each operation is one action -/

theorem op_prim (e : Err) (f : World → Except Err α × World) :
    ∃ F, op e f = prim F ∧ ∀ w, F w = (.error e, w.tick) ∨ F w = f w.tick := by
  refine ⟨_, rfl, fun w => ?_⟩
  split
  · exact Or.inl rfl
  · exact Or.inr rfl

theorem query_prim (e : Err) (f : Db → α) :
    ∃ F, query e f = prim F ∧ ∀ w, F w = (.error e, w.tick) ∨ F w = (.ok (f w.db), w.tick) :=
  op_prim e _

theorem statement_prim (e : Err) (f : F64 → Db → Option (α × Db)) :
    ∃ F, statement e f = prim F ∧ ∀ w, F w = (.error e, w.tick) ∨
      ∃ a db, f w.now w.db = some (a, db) ∧ F w = (.ok a, { w.tick with db }) := by
  obtain ⟨F, hp, hF⟩ := op_prim e _
  refine ⟨F, hp, fun w => ?_⟩
  rcases hF w with h | h
  · exact Or.inl h
  · simp only [World.tick_now, World.tick_db] at h
    cases hf : f w.now w.db with
    | none =>
      rw [hf] at h
      exact Or.inl h
    | some r =>
      rw [hf] at h
      exact Or.inr ⟨_, _, rfl, h⟩

theorem fetch_prim (e : Err) (f : Db → Option α) :
    ∃ F, fetch e f = prim F ∧ ∀ w, F w = (.error e, w.tick) ∨ ∃ a, f w.db = some a ∧ F w = (.ok a, w.tick) := by
  obtain ⟨F, hp, hF⟩ := op_prim e _
  refine ⟨F, hp, fun w => ?_⟩
  rcases hF w with h | h
  · exact Or.inl h
  · simp only [World.tick_db] at h
    cases hf : f w.db with
    | none =>
      rw [hf] at h
      exact Or.inl h
    | some a =>
      rw [hf] at h
      exact Or.inr ⟨a, rfl, h⟩

theorem execute_prim (e : Err) (f : F64 → Db → Option Db) :
    ∃ F, execute e f = prim F ∧ ∀ w, F w = (.error e, w.tick) ∨
      ∃ db, f w.now w.db = some db ∧ F w = (.ok (), { w.tick with db }) := by
  obtain ⟨F, hp, hF⟩ := statement_prim e fun now db => (f now db).map ((), ·)
  refine ⟨F, hp, fun w => ?_⟩
  rcases hF w with h | ⟨_, db, hf, h⟩
  · exact Or.inl h
  · obtain ⟨db', hdb, hpair⟩ := Option.map_eq_some_iff.1 hf
    cases hpair
    exact Or.inr ⟨_, hdb, h⟩

theorem insertReturning_prim (e : Err) (f : F64 → Db → Option (α × Db)) :
    ∃ F, insertReturning e f = prim F ∧ ∀ w, F w = (.error e, w.tick) ∨ ∃ a db, f w.now w.db = some (a, db) ∧
      F w = ((w.db.engine.decode a).elim (.error e) .ok, { w.tick with db }) := by
  obtain ⟨F, hp, hF⟩ := op_prim e _
  refine ⟨F, hp, fun w => ?_⟩
  rcases hF w with h | h
  · exact Or.inl h
  · simp only [World.tick_now, World.tick_db] at h
    cases hf : f w.now w.db with
    | none =>
      rw [hf] at h
      exact Or.inl h
    | some r =>
      rw [hf] at h
      exact Or.inr ⟨_, _, rfl, h⟩

/-! ## Under an invariant -/

section
variable {I : World → Prop} (ht : ∀ w, I w → I w.tick)
include ht

theorem upholds_query {f : Db → α} {P : α → Prop} (hP : ∀ w, I w → P (f w.db)) : (query e f).Upholds I P := by
  obtain ⟨F, hp, hF⟩ := query_prim e f
  rw [hp]
  refine upholds_prim (fun w hw => ?_) fun w a hw ha => ?_
  · rcases hF w with h | h <;> rw [h] <;> exact ht w hw
  · rcases hF w with h | h <;> rw [h] at ha <;> cases ha
    exact hP w hw

theorem upholds_fetch {f : Db → Option α} {P : α → Prop} (hP : ∀ w a, I w → f w.db = some a → P a) :
    (fetch e f).Upholds I P := by
  obtain ⟨F, hp, hF⟩ := fetch_prim e f
  rw [hp]
  refine upholds_prim (fun w hw => ?_) fun w a hw ha => ?_
  · rcases hF w with h | ⟨a, -, h⟩ <;> rw [h] <;> exact ht w hw
  · rcases hF w with h | ⟨b, hb, h⟩ <;> rw [h] at ha <;> cases ha
    exact hP w a hw hb

/-- Where `INTEGER` columns are not decoded, nothing comes back from an `INSERT .. RETURNING`. -/
theorem upholds_insertReturning {f : F64 → Db → Option (α × Db)} (hI : ∀ w, I w → w.AsShipped)
    (h : ∀ w a db, I w → f w.now w.db = some (a, db) → I { w.tick with db }) :
    (insertReturning e f).Upholds I fun _ => False := by
  obtain ⟨F, hp, hF⟩ := insertReturning_prim e f
  rw [hp]
  refine upholds_prim (fun w hw => ?_) fun w a hw ha => ?_
  · rcases hF w with hrun | ⟨a, db, hf, hrun⟩ <;> rw [hrun]
    · exact ht w hw
    · exact h w a db hw hf
  · rcases hF w with hrun | ⟨a, db, hf, hrun⟩ <;> rw [hrun] at ha
    · cases ha
    · rw [Engine.decode_refused (hI w hw)] at ha
      cases ha

theorem upholds_execute {f : F64 → Db → Option Db} (h : ∀ w db, I w → f w.now w.db = some db → I { w.tick with db }) :
    (execute e f).Upholds I fun _ => True := by
  refine Moves.upholds (moves_execute ht fun w db hdb hw => ?_)
  exact h w db hw hdb

end

/-- A `SELECT` on a part of the state. -/
theorem upholds_fetch_within {σ : Type} {L : Focus σ World} {J : σ → Prop} (ht : ∀ s, J s → J (L.set (L.get s).tick s))
    {f : Db → Option α} {P : α → Prop} (hP : ∀ s a, J s → f (L.get s).db = some a → P a) :
    ((fetch e f).within L).Upholds J P := by
  obtain ⟨F, hp, hF⟩ := fetch_prim e f
  rw [hp, within_prim]
  refine upholds_prim (fun s hs => ?_) fun s a hs ha => ?_
  · rcases hF (L.get s) with h | ⟨a, -, h⟩ <;> rw [h] <;> exact ht s hs
  · rcases hF (L.get s) with h | ⟨b, hb, h⟩ <;> rw [h] at ha <;> cases ha
    exact hP s a hs hb

/-! ## Under a discipline on the database -/

section
variable {D : Discipline Db} {P : Db → Prop} {Q : Except Err β → Db → Prop} {w : World}

theorem obeys_query_bind {f : Db → α} {g : α → Gw β}
    (hok : ∀ w' : World, D.step w.db w'.db → D.inv w'.db →
      (g (f w'.db)).Obeys (D.comap World.db) (fun r w => Q r w.db) w')
    (herr : ∀ db, D.step w.db db → D.inv db → Q (.error e) db) :
    ((query e f).bind g).Obeys (D.comap World.db) (fun r w => Q r w.db) w := by
  obtain ⟨F, hp, hF⟩ := query_prim e f
  rw [hp]
  refine Obeys.prim_bind ?_ ?_ ?_
  · intro w' _ hi
    rcases hF w' with h | h <;> rw [h] <;> exact ⟨D.refl _, hi⟩
  · intro w' a hs hi ha
    rcases hF w' with h | h <;> rw [h] at ha ⊢ <;> cases ha
    exact hok w'.tick hs hi
  · intro w' e' hs hi he
    rcases hF w' with h | h <;> rw [h] at he ⊢ <;> cases he
    exact herr w'.db hs hi

theorem obeys_fetch_bind {f : Db → Option α} {g : α → Gw β}
    (hok : ∀ (w' : World) a, D.step w.db w'.db → D.inv w'.db → f w'.db = some a →
      (g a).Obeys (D.comap World.db) (fun r w => Q r w.db) w')
    (herr : ∀ db, D.step w.db db → D.inv db → Q (.error e) db) :
    ((fetch e f).bind g).Obeys (D.comap World.db) (fun r w => Q r w.db) w := by
  obtain ⟨F, hp, hF⟩ := fetch_prim e f
  rw [hp]
  refine Obeys.prim_bind ?_ ?_ ?_
  · intro w' _ hi
    rcases hF w' with h | ⟨a, -, h⟩ <;> rw [h] <;> exact ⟨D.refl _, hi⟩
  · intro w' a hs hi ha
    rcases hF w' with h | ⟨b, hb, h⟩ <;> rw [h] at ha ⊢ <;> cases ha
    exact hok w'.tick a hs hi hb
  · intro w' e' hs hi he
    rcases hF w' with h | ⟨b, -, h⟩ <;> rw [h] at he ⊢ <;> cases he
    exact herr w'.db hs hi

theorem obeys_execute_bind {f : F64 → Db → Option Db} {g : Unit → Gw β}
    (hstep : ∀ now db db', D.step w.db db → D.inv db → f now db = some db' → D.step db db' ∧ D.inv db')
    (hok : ∀ now db (w' : World), D.step w.db db → D.inv db → f now db = some w'.db →
      (g ()).Obeys (D.comap World.db) (fun r w => Q r w.db) w')
    (herr : ∀ db, D.step w.db db → D.inv db → Q (.error e) db) :
    ((execute e f).bind g).Obeys (D.comap World.db) (fun r w => Q r w.db) w := by
  obtain ⟨F, hp, hF⟩ := execute_prim e f
  rw [hp]
  refine Obeys.prim_bind ?_ ?_ ?_
  · intro w' hs hi
    rcases hF w' with h | ⟨db, hf, h⟩ <;> rw [h]
    · exact ⟨D.refl _, hi⟩
    · exact hstep _ _ _ hs hi hf
  · intro w' a hs hi ha
    rcases hF w' with h | ⟨db, hf, h⟩ <;> rw [h] at ha ⊢ <;> cases ha
    exact hok _ _ _ hs hi hf
  · intro w' e' hs hi he
    rcases hF w' with h | ⟨db, hf, h⟩ <;> rw [h] at he ⊢ <;> cases he
    exact herr w'.db hs hi

theorem obeys_execute {Q : Except Err Unit → Db → Prop} {f : F64 → Db → Option Db}
    (hstep : ∀ now db db', D.step w.db db → D.inv db → f now db = some db' →
      (D.step db db' ∧ D.inv db') ∧ Q (.ok ()) db')
    (herr : ∀ db, D.step w.db db → D.inv db → Q (.error e) db) :
    (execute e f).Obeys (D.comap World.db) (fun r w => Q r w.db) w := by
  rw [← Prog.bind_ret (execute e f)]
  exact obeys_execute_bind (fun now db db' hs hi hf => (hstep now db db' hs hi hf).1)
    (fun now db w' hs hi hf => (hstep now db w'.db hs hi hf).2) herr

theorem pays_query_bind {f : Db → α} {g : α → Gw β}
    (hok : ∀ w' : World, D.step w.db w'.db → D.inv w'.db →
      (g (f w'.db)).Pays (D.comap World.db) (fun w => P w.db) (fun r w => Q r w.db) w') :
    ((query e f).bind g).Pays (D.comap World.db) (fun w => P w.db) (fun r w => Q r w.db) w := by
  obtain ⟨F, hp, hF⟩ := query_prim e f
  rw [hp]
  refine Pays.prim_bind ?_ ?_ ?_
  · intro w' _ hi
    rcases hF w' with h | h <;> rw [h] <;> exact ⟨D.refl _, hi⟩
  · intro w' a hs hi ha
    rcases hF w' with h | h <;> rw [h] at ha ⊢ <;> cases ha
    exact ⟨fun hno hyes => absurd hyes hno, hok w'.tick hs hi⟩
  · intro w' e' _ _ he hno hyes
    rcases hF w' with h | h <;> rw [h] at hyes <;> exact absurd hyes hno

theorem pays_fetch_bind {f : Db → Option α} {g : α → Gw β}
    (hok : ∀ (w' : World) a, D.step w.db w'.db → D.inv w'.db → f w'.db = some a →
      (g a).Pays (D.comap World.db) (fun w => P w.db) (fun r w => Q r w.db) w') :
    ((fetch e f).bind g).Pays (D.comap World.db) (fun w => P w.db) (fun r w => Q r w.db) w := by
  obtain ⟨F, hp, hF⟩ := fetch_prim e f
  rw [hp]
  refine Pays.prim_bind ?_ ?_ ?_
  · intro w' _ hi
    rcases hF w' with h | ⟨a, -, h⟩ <;> rw [h] <;> exact ⟨D.refl _, hi⟩
  · intro w' a hs hi ha
    rcases hF w' with h | ⟨b, hb, h⟩ <;> rw [h] at ha ⊢ <;> cases ha
    exact ⟨fun hno hyes => absurd hyes hno, hok w'.tick a hs hi hb⟩
  · intro w' e' _ _ he hno hyes
    rcases hF w' with h | ⟨b, -, h⟩ <;> rw [h] at hyes <;> exact absurd hyes hno

theorem pays_execute_bind {f : F64 → Db → Option Db} {g : Unit → Gw β}
    (hstep : ∀ now db db', D.step w.db db → D.inv db → f now db = some db' → D.step db db' ∧ D.inv db')
    (hok : ∀ now db (w' : World), D.step w.db db → D.inv db → f now db = some w'.db →
      (P w'.db → (g ()).Obeys (D.comap World.db) (fun r w => Q r w.db) w') ∧
        (g ()).Pays (D.comap World.db) (fun w => P w.db) (fun r w => Q r w.db) w') :
    ((execute e f).bind g).Pays (D.comap World.db) (fun w => P w.db) (fun r w => Q r w.db) w := by
  obtain ⟨F, hp, hF⟩ := execute_prim e f
  rw [hp]
  refine Pays.prim_bind ?_ ?_ ?_
  · intro w' hs hi
    rcases hF w' with h | ⟨db, hf, h⟩ <;> rw [h]
    · exact ⟨D.refl _, hi⟩
    · exact hstep _ _ _ hs hi hf
  · intro w' a hs hi ha
    rcases hF w' with h | ⟨db, hf, h⟩ <;> rw [h] at ha ⊢ <;> cases ha
    obtain ⟨ho, hk⟩ := hok _ _ { w'.tick with db } hs hi hf
    exact ⟨fun _ hyes => ho hyes, hk⟩
  · intro w' e' _ _ he hno hyes
    rcases hF w' with h | ⟨db, hf, h⟩ <;> rw [h] at he hyes
    · exact absurd hyes hno
    · cases he

theorem pays_execute {Q : Except Err Unit → Db → Prop} {f : F64 → Db → Option Db}
    (hstep : ∀ now db db', D.step w.db db → D.inv db → f now db = some db' →
      (D.step db db' ∧ D.inv db') ∧ (P db' → Q (.ok ()) db')) :
    (execute e f).Pays (D.comap World.db) (fun w => P w.db) (fun r w => Q r w.db) w := by
  rw [← Prog.bind_ret (execute e f)]
  exact pays_execute_bind (fun now db db' hs hi hf => (hstep now db db' hs hi hf).1)
    fun now db w' hs hi hf => ⟨(hstep now db w'.db hs hi hf).2, trivial⟩

end

/-! ## From a view of the database -/

section
variable {τ : Type} {v : Db → τ} {G : τ → τ → Prop} {b : τ}

theorem begins_fetch_bind {f : Db → Option α} {g : α → Gw β}
    (h : ∀ (w : World) a, f w.db = some a → (g a).Follows (fun w : World => v w.db) G (v w.db)) :
    ((fetch e f).bind g).Begins (fun w : World => v w.db) G := by
  obtain ⟨F, hp, hF⟩ := fetch_prim e f
  rw [hp]
  refine Begins.prim_bind ?_ ?_
  · intro w a w' ha
    rcases hF w with h' | ⟨b, hb, h'⟩ <;> rw [h'] at ha <;> cases ha
    exact ⟨Or.inl rfl, h w a hb⟩
  · intro w e' w' he
    rcases hF w with h' | ⟨b, -, h'⟩ <;> rw [h'] at he <;> cases he
    rfl

/-- The last statement of a program. -/
theorem follows_execute {f : F64 → Db → Option Db}
    (h : ∀ now db db', f now db = some db' → v db = b → v db' = b ∨ G b (v db')) :
    (execute e f).Follows (fun w : World => v w.db) G b := by
  obtain ⟨F, hp, hF⟩ := execute_prim e f
  rw [← Prog.bind_ret (execute e f), hp]
  refine Follows.prim_bind ?_ ?_
  · intro w a w' ha
    rcases hF w with h' | ⟨db, hdb, h'⟩ <;> rw [h'] at ha <;> cases ha
    exact ⟨fun hb => ⟨h _ _ _ hdb hb, trivial⟩, fun _ _ => trivial⟩
  · intro w e' w' he
    rcases hF w with h' | ⟨db, hdb, h'⟩ <;> rw [h'] at he <;> cases he
    rfl

theorem begins_execute {f : F64 → Db → Option Db}
    (h : ∀ now db db', f now db = some db' → v db' = v db ∨ G (v db) (v db')) :
    (execute e f).Begins (fun w : World => v w.db) G := by
  obtain ⟨F, hp, hF⟩ := execute_prim e f
  rw [← Prog.bind_ret (execute e f), hp]
  refine Begins.prim_bind ?_ ?_
  · intro w a w' ha
    rcases hF w with h' | ⟨db, hdb, h'⟩ <;> rw [h'] at ha <;> cases ha
    exact ⟨h _ _ _ hdb, trivial⟩
  · intro w e' w' he
    rcases hF w with h' | ⟨db, hdb, h'⟩ <;> rw [h'] at he <;> cases he
    rfl

end

/-! ## From a view of the database and of the replies so far -/

section
variable {τ ρ : Type} {v : Db → List ρ → τ} {G : τ → τ → Prop} {b : τ} {note : Except Err β → List ρ}

/-- The view, of a gateway's state beside its replies. -/
def beside {τ ρ : Type} (v : Db → List ρ → τ) (s : World × List ρ) : τ := v s.1.db s.2

/-- A statement that changes nothing of the view. -/
theorem follows_query_replying {f : Db → α} {g : α → Gw β} (hnote : ∀ e, note (.error e) = [])
    (h : ∀ w : World, (g (f w.db)).reply note = [] ∧ ((g (f w.db)).replying note).Follows (beside v) G b) :
    (((query e f).bind g).replying note).Follows (beside v) G b := by
  obtain ⟨F, hp, hF⟩ := query_prim e f
  rw [hp]
  refine Follows.replying_prim_bind ?_ ?_
  · intro w l a w' ha
    rcases hF w with h' | h' <;> rw [h'] at ha <;> cases ha
    obtain ⟨hreply, hg⟩ := h w
    rw [hreply, List.append_nil]
    exact ⟨fun hb => ⟨Or.inl hb, by rw [← hb] at hg; exact hg⟩, fun _ _ => hg⟩
  · intro w l e' w' he hb
    rcases hF w with h' | h' <;> rw [h'] at he <;> cases he
    rw [hnote, List.append_nil]
    exact Or.inl hb

theorem begins_fetch_replying {f : Db → Option α} {g : α → Gw β} (hnote : ∀ e, note (.error e) = [])
    (h : ∀ (w : World) l a, f w.db = some a →
      (g a).reply note = [] ∧ ((g a).replying note).Follows (beside v) G (v w.db l)) :
    (((fetch e f).bind g).replying note).Begins (beside v) G := by
  obtain ⟨F, hp, hF⟩ := fetch_prim e f
  rw [hp]
  refine Begins.replying_prim_bind ?_ ?_
  · intro w l a w' ha
    rcases hF w with h' | ⟨b, hb, h'⟩ <;> rw [h'] at ha <;> cases ha
    obtain ⟨hreply, hg⟩ := h w l a hb
    rw [hreply, List.append_nil]
    exact ⟨Or.inl rfl, hg⟩
  · intro w l e' w' he
    rcases hF w with h' | ⟨b, -, h'⟩ <;> rw [h'] at he <;> cases he
    rw [hnote, List.append_nil]
    rfl

theorem follows_nowSecs_replying {g : F64 → Gw β}
    (h : ∀ now, (g now).reply note = [] ∧ ((g now).replying note).Follows (beside v) G b) :
    ((nowSecs.bind g).replying note).Follows (beside v) G b := by
  refine ⟨fun ⟨w, l⟩ hb => ?_, fun ⟨w, l⟩ _ _ => (h w.now).2⟩
  obtain ⟨hreply, hg⟩ := h w.now
  have hview : beside v (w, l ++ (g w.now).reply note) = b := by rw [hreply, List.append_nil, hb]
  refine ⟨Or.inl hview, ?_⟩
  rw [← hview] at hg
  exact hg

/-- A statement that may change the view, and what follows where it found the view `b` and where it
found another and left it alone. -/
theorem follows_execute_replying {f : F64 → Db → Option Db} {g : Unit → Gw β} (hnote : ∀ e, note (.error e) = [])
    (h : ∀ now db db' l, f now db = some db' →
      (v db l = b → (v db' (l ++ (g ()).reply note) = b ∨ G b (v db' (l ++ (g ()).reply note))) ∧
        ((g ()).replying note).Follows (beside v) G (v db' (l ++ (g ()).reply note))) ∧
      (v db l ≠ b → v db' (l ++ (g ()).reply note) = v db l → ((g ()).replying note).Follows (beside v) G b)) :
    (((execute e f).bind g).replying note).Follows (beside v) G b := by
  obtain ⟨F, hp, hF⟩ := execute_prim e f
  rw [hp]
  refine Follows.replying_prim_bind ?_ ?_
  · intro w l a w' ha
    rcases hF w with h' | ⟨db, hdb, h'⟩ <;> rw [h'] at ha <;> cases ha
    exact h _ _ _ l hdb
  · intro w l e' w' he hb
    rcases hF w with h' | ⟨db, hdb, h'⟩ <;> rw [h'] at he <;> cases he
    rw [hnote, List.append_nil]
    exact Or.inl hb

/-- The last statement, which replies with the column it returns where that is decoded. -/
theorem follows_insertReturning_replying {γ : Type} {note : Except Err γ → List ρ} {f : F64 → Db → Option (α × Db)} {g : α → γ}
    (h : ∀ now db a db' l, f now db = some (a, db') → v db l = b →
      G b (v db' (l ++ note ((db.engine.decode (g a)).elim (.error e) .ok)))) (hnote : note (.error e) = []) :
    (((insertReturning e f).bind fun a => ret (g a)).replying note).Follows (beside v) G b := by
  obtain ⟨F, hp, hF⟩ := insertReturning_prim e f
  rw [hp]
  refine Follows.replying_prim_bind ?_ ?_
  · intro w l a w' ha
    refine ⟨fun hb => ⟨?_, trivial⟩, fun _ _ => trivial⟩
    rcases hF w with h' | ⟨a', db, hdb, h'⟩ <;> rw [h'] at ha
    · cases ha
    · have hgiven := h _ _ _ _ l hdb hb
      cases hd : w.db.engine.integers with
      | refused =>
        rw [Engine.decode_refused hd] at ha
        cases ha
      | widened =>
        rw [Engine.decode_widened hd] at ha hgiven
        cases ha
        exact Or.inr hgiven
  · intro w l e' w' he hb
    rcases hF w with h' | ⟨a', db, hdb, h'⟩ <;> rw [h'] at he
    · cases he
      rw [hnote, List.append_nil]
      exact Or.inl hb
    · have hgiven := h _ _ _ _ l hdb hb
      cases hd : w.db.engine.integers with
      | refused =>
        rw [Engine.decode_refused hd] at he hgiven
        cases he
        exact Or.inr hgiven
      | widened =>
        rw [Engine.decode_widened hd] at he
        cases he

end

end A2AGateway.Gw
