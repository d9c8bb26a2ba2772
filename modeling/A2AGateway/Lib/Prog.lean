import Mathlib.Logic.Function.Basic

/-!
# Programs made of atomic actions

A `Prog` is a tree: each node is one atomic action on the shared state, and its subtrees are
what the program does next for each value the action returns. The same tree has two readings:
`exec` runs it alone to the end, and `Interleave.lean` runs several of them with their actions
mixed. A failure keeps the effects of the actions before it.
-/

/-- A program over states `σ` that returns an `α` or fails with an `ε`. -/
inductive Prog (σ ε α : Type) : Type 1
  | ret (a : α)
  | fail (e : ε)
  | act {β : Type} (f : σ → β × σ) (k : β → Prog σ ε α)

namespace Prog

variable {σ τ ε ε' α β : Type}

protected def bind : Prog σ ε α → (α → Prog σ ε β) → Prog σ ε β
  | ret a, g => g a
  | fail e, _ => fail e
  | act f k, g => act f fun b => (k b).bind g

instance : Monad (Prog σ ε) where
  pure := ret
  bind := Prog.bind

/-- One action that may fail. -/
def prim (f : σ → Except ε α × σ) : Prog σ ε α :=
  act f fun
    | .ok a => ret a
    | .error e => fail e

/-- One action that only looks at the state. -/
def look (f : σ → α) : Prog σ ε α :=
  act (fun s => (f s, s)) ret

/-- A result that is already there. -/
def ofExcept : Except ε α → Prog σ ε α
  | .ok a => ret a
  | .error e => fail e

/-- `.ok()`: the failure becomes `none`, the effects stay. -/
def attempt : Prog σ ε α → Prog σ ε (Option α)
  | ret a => ret (some a)
  | fail _ => ret none
  | act f k => act f fun b => (k b).attempt

/-- The result as a value; the effects stay. -/
def outcome : Prog σ ε α → Prog σ ε' (Except ε α)
  | ret a => ret (.ok a)
  | fail e => ret (.error e)
  | act f k => act f fun b => (k b).outcome

/-- `.map_err(g)`. -/
def mapErr (g : ε → ε') : Prog σ ε α → Prog σ ε' α
  | ret a => ret a
  | fail e => fail (g e)
  | act f k => act f fun b => (k b).mapErr g

/-- `for x in xs { body }`. -/
def forEach {γ : Type} (xs : List γ) (body : γ → Prog σ ε Unit) : Prog σ ε Unit :=
  match xs with
  | [] => ret ()
  | x :: xs => (body x).bind fun _ => forEach xs body

/-! ## Running a program alone -/

/-- Run every action of the program, with nothing in between. -/
def exec : Prog σ ε α → σ → Except ε α × σ
  | ret a, s => (.ok a, s)
  | fail e, s => (.error e, s)
  | act f k, s => (k (f s).1).exec (f s).2

@[simp] theorem bind_eq (p : Prog σ ε α) (g : α → Prog σ ε β) : (p >>= g) = p.bind g := rfl

@[simp] theorem pure_eq (a : α) : (pure a : Prog σ ε α) = ret a := rfl

@[simp] theorem ret_bind (a : α) (g : α → Prog σ ε β) : (ret a).bind g = g a := rfl

@[simp] theorem fail_bind (e : ε) (g : α → Prog σ ε β) : (fail e).bind g = fail e := rfl

theorem bind_ret (p : Prog σ ε α) : p.bind ret = p := by
  induction p with
  | ret a => rfl
  | fail e => rfl
  | act f k ih => exact congrArg (act f) (funext ih)

theorem bind_assoc {γ : Type} (p : Prog σ ε α) (g : α → Prog σ ε β) (h : β → Prog σ ε γ) :
    (p.bind g).bind h = p.bind fun a => (g a).bind h := by
  induction p with
  | ret a => rfl
  | fail e => rfl
  | act f k ih => exact congrArg (act f) (funext ih)

@[simp] theorem exec_ret (a : α) (s : σ) : (ret a : Prog σ ε α).exec s = (.ok a, s) := rfl

@[simp] theorem exec_fail (e : ε) (s : σ) : (fail e : Prog σ ε α).exec s = (.error e, s) := rfl

@[simp] theorem exec_look (f : σ → α) (s : σ) : (look f : Prog σ ε α).exec s = (.ok (f s), s) := rfl

@[simp] theorem exec_prim (f : σ → Except ε α × σ) (s : σ) : (prim f).exec s = f s := by
  cases h : f s with
  | mk r s' => cases r <;> simp [prim, exec, h]

@[simp] theorem exec_ofExcept (r : Except ε α) (s : σ) : (ofExcept r).exec s = (r, s) := by
  cases r <;> rfl

theorem exec_bind (p : Prog σ ε α) (g : α → Prog σ ε β) (s : σ) :
    (p.bind g).exec s = match p.exec s with
      | (.ok a, s') => (g a).exec s'
      | (.error e, s') => (.error e, s') := by
  induction p generalizing s with
  | ret a => rfl
  | fail e => rfl
  | act f k ih => exact ih (f s).1 (f s).2

/-- A run that ends well went well up to the middle and well from there on. -/
theorem exec_bind_ok {p : Prog σ ε α} {g : α → Prog σ ε β} {s s' : σ} {b : β} :
    (p.bind g).exec s = (.ok b, s') ↔
      ∃ a s₁, p.exec s = (.ok a, s₁) ∧ (g a).exec s₁ = (.ok b, s') := by
  rw [exec_bind]
  rcases h : p.exec s with ⟨r, s₁⟩
  cases r with
  | ok a =>
    constructor
    · exact fun hg => ⟨a, s₁, rfl, hg⟩
    · rintro ⟨_, _, ha, hg⟩
      cases ha
      exact hg
  | error e => simp

theorem exec_bind_of_ok {p : Prog σ ε α} {g : α → Prog σ ε β} {s s₁ : σ} {a : α}
    (h : p.exec s = (.ok a, s₁)) : (p.bind g).exec s = (g a).exec s₁ := by
  rw [exec_bind, h]

theorem exec_bind_of_error {p : Prog σ ε α} {g : α → Prog σ ε β} {s s₁ : σ} {e : ε}
    (h : p.exec s = (.error e, s₁)) : (p.bind g).exec s = (.error e, s₁) := by
  rw [exec_bind, h]

/-- What holds where the first part ends, and outlives the second part where the first went well, holds in the end. -/
theorem exec_bind_state {p : Prog σ ε α} {g : α → Prog σ ε β} {s : σ} {P : σ → Prop} (hp : P (p.exec s).2)
    (hg : ∀ a s', p.exec s = (.ok a, s') → P s' → P ((g a).exec s').2) : P ((p.bind g).exec s).2 := by
  rw [exec_bind]
  rcases h : p.exec s with ⟨r, s'⟩
  rw [h] at hp
  cases r with
  | ok a => exact hg a s' h hp
  | error e => exact hp

/-- A second part that ends in `Q` where it reaches its aim and in `P` where it does not, after a first part that may
fail and ends in `P` then. -/
theorem exec_bind_reaches {p : Prog σ ε α} {g : α → Prog σ ε β} {s : σ} {P Q : σ → Prop} {reaches : α → σ → Prop}
    (hp : P (p.exec s).2) (hg : ∀ a s₁, p.exec s = (.ok a, s₁) →
      Q ((g a).exec s₁).2 ∧ reaches a s₁ ∨ P ((g a).exec s₁).2 ∧ ¬ reaches a s₁) :
    Q ((p.bind g).exec s).2 ∧ (∃ a s₁, p.exec s = (.ok a, s₁) ∧ reaches a s₁) ∨
      P ((p.bind g).exec s).2 ∧ ¬ ∃ a s₁, p.exec s = (.ok a, s₁) ∧ reaches a s₁ := by
  rcases hrun : p.exec s with ⟨r, s₁⟩
  rw [hrun] at hp
  cases r with
  | error e =>
    right
    rw [exec_bind_of_error hrun]
    refine ⟨hp, ?_⟩
    rintro ⟨_, _, h, -⟩
    cases h
  | ok a =>
    rw [exec_bind_of_ok hrun]
    rcases hg a s₁ hrun with ⟨hq, hreach⟩ | ⟨hp', hreach⟩
    · exact Or.inl ⟨hq, a, s₁, rfl, hreach⟩
    · right
      refine ⟨hp', ?_⟩
      rintro ⟨_, _, h, hr⟩
      cases h
      exact hreach hr

/-- A run that ends in an error met it in the first part or in the second. -/
theorem exec_bind_error {p : Prog σ ε α} {g : α → Prog σ ε β} {s s' : σ} {e : ε} (h : (p.bind g).exec s = (.error e, s')) :
    p.exec s = (.error e, s') ∨ ∃ a s₁, p.exec s = (.ok a, s₁) ∧ (g a).exec s₁ = (.error e, s') := by
  rw [exec_bind] at h
  rcases hp : p.exec s with ⟨r, s₁⟩
  rw [hp] at h
  cases r with
  | ok a => exact Or.inr ⟨a, s₁, rfl, h⟩
  | error e' =>
    cases h
    exact Or.inl rfl

/-- What only changes the result. -/
theorem exec_bind_ret (p : Prog σ ε α) (f : α → β) (s : σ) :
    (p.bind fun a => ret (f a)).exec s = ((p.exec s).1.map f, (p.exec s).2) := by
  rw [exec_bind]
  rcases p.exec s with ⟨r, s'⟩
  cases r <;> rfl

theorem exec_bind_ret_state (p : Prog σ ε α) (f : α → β) (s : σ) : ((p.bind fun a => ret (f a)).exec s).2 = (p.exec s).2 := by
  rw [exec_bind_ret]

theorem exec_eq_of_fst {p : Prog σ ε α} {s : σ} {r : Except ε α} (h : (p.exec s).1 = r) :
    p.exec s = (r, (p.exec s).2) := by rw [← h]

theorem exec_attempt (p : Prog σ ε α) (s : σ) :
    p.attempt.exec s = (.ok (p.exec s).1.toOption, (p.exec s).2) := by
  induction p generalizing s with
  | ret a => rfl
  | fail e => rfl
  | act f k ih => exact ih (f s).1 (f s).2

theorem exec_outcome (p : Prog σ ε α) (s : σ) :
    (p.outcome : Prog σ ε' _).exec s = (.ok (p.exec s).1, (p.exec s).2) := by
  induction p generalizing s with
  | ret a => rfl
  | fail e => rfl
  | act f k ih => exact ih (f s).1 (f s).2

@[simp] theorem mapError_ok (g : ε → ε') (a : α) : (Except.ok a).mapError g = .ok a := rfl

@[simp] theorem mapError_error (g : ε → ε') (e : ε) : (Except.error e : Except ε α).mapError g = .error (g e) := rfl

theorem exec_mapErr (g : ε → ε') (p : Prog σ ε α) (s : σ) :
    (p.mapErr g).exec s = ((p.exec s).1.mapError g, (p.exec s).2) := by
  induction p generalizing s with
  | ret a => rfl
  | fail e => rfl
  | act f k ih => exact ih (f s).1 (f s).2

theorem exec_mapErr_ok {g : ε → ε'} {p : Prog σ ε α} {s s' : σ} {a : α} :
    (p.mapErr g).exec s = (.ok a, s') ↔ p.exec s = (.ok a, s') := by
  rw [exec_mapErr]
  rcases p.exec s with ⟨r, s₁⟩
  cases r <;> simp

theorem exec_mapErr_of_ok {g : ε → ε'} {p : Prog σ ε α} {s s' : σ} {a : α} (h : p.exec s = (.ok a, s')) :
    (p.mapErr g).exec s = (.ok a, s') := exec_mapErr_ok.2 h

/-- A loop whose body never fails does not fail. -/
theorem exec_forEach_ok {γ : Type} {body : γ → Prog σ ε Unit}
    (h : ∀ x s, ((body x).exec s).1 = .ok ()) : ∀ xs s, ((forEach xs body).exec s).1 = .ok ()
  | [], _ => rfl
  | x :: xs, s => by
    rw [forEach, exec_bind_of_ok (exec_eq_of_fst (h x s))]
    exact exec_forEach_ok h xs _

/-! ## Where a program may take the state

`p.Moves R`: each action of `p`, in whatever state it is taken, goes along `R`. -/

def Moves (R : σ → σ → Prop) : Prog σ ε α → Prop
  | ret _ => True
  | fail _ => True
  | act f k => (∀ s, R s (f s).2) ∧ ∀ b, (k b).Moves R

section Moves
variable {R R' : σ → σ → Prop}

@[simp] theorem moves_ret (a : α) : (ret a : Prog σ ε α).Moves R := trivial

@[simp] theorem moves_fail (e : ε) : (fail e : Prog σ ε α).Moves R := trivial

theorem moves_prim {f : σ → Except ε α × σ} (h : ∀ s, R s (f s).2) : (prim f).Moves R := by
  refine ⟨h, fun b => ?_⟩
  cases b <;> trivial

theorem moves_look (hR : ∀ s, R s s) (f : σ → α) : (look f : Prog σ ε α).Moves R :=
  ⟨hR, fun _ => trivial⟩

theorem moves_ofExcept (r : Except ε α) : (ofExcept r : Prog σ ε α).Moves R := by
  cases r <;> trivial

theorem Moves.bind {p : Prog σ ε α} {g : α → Prog σ ε β} (hp : p.Moves R)
    (hg : ∀ a, (g a).Moves R) : (p.bind g).Moves R := by
  induction p with
  | ret a => exact hg a
  | fail e => trivial
  | act f k ih => exact ⟨hp.1, fun b => ih b (hp.2 b)⟩

theorem Moves.attempt {p : Prog σ ε α} (hp : p.Moves R) : p.attempt.Moves R := by
  induction p with
  | ret a => trivial
  | fail e => trivial
  | act f k ih => exact ⟨hp.1, fun b => ih b (hp.2 b)⟩

theorem Moves.outcome {p : Prog σ ε α} (hp : p.Moves R) : (p.outcome : Prog σ ε' _).Moves R := by
  induction p with
  | ret a => trivial
  | fail e => trivial
  | act f k ih => exact ⟨hp.1, fun b => ih b (hp.2 b)⟩

theorem Moves.mapErr {g : ε → ε'} {p : Prog σ ε α} (hp : p.Moves R) : (p.mapErr g).Moves R := by
  induction p with
  | ret a => trivial
  | fail e => trivial
  | act f k ih => exact ⟨hp.1, fun b => ih b (hp.2 b)⟩

theorem Moves.forEach {γ : Type} {body : γ → Prog σ ε Unit} :
    ∀ {xs : List γ}, (∀ x ∈ xs, (body x).Moves R) → (forEach xs body).Moves R
  | [], _ => trivial
  | x :: _, h => (h x (by simp)).bind fun _ => Moves.forEach fun y hy => h y (by simp [hy])

theorem Moves.mono {p : Prog σ ε α} (h : ∀ s s', R s s' → R' s s') (hp : p.Moves R) :
    p.Moves R' := by
  induction p with
  | ret a => trivial
  | fail e => trivial
  | act f k ih => exact ⟨fun s => h _ _ (hp.1 s), fun b => ih b (hp.2 b)⟩

theorem Moves.both {p : Prog σ ε α} (hp : p.Moves R) (hp' : p.Moves R') : p.Moves fun s s' => R s s' ∧ R' s s' := by
  induction p with
  | ret a => trivial
  | fail e => trivial
  | act f k ih => exact ⟨fun s => ⟨hp.1 s, hp'.1 s⟩, fun b => ih b (hp.2 b) (hp'.2 b)⟩

/-- A program whose actions go along a preorder goes along it as a whole, failed or not. -/
theorem Moves.exec {p : Prog σ ε α} (hR : ∀ s, R s s)
    (hT : ∀ a b c, R a b → R b c → R a c) (hp : p.Moves R) (s : σ) : R s (p.exec s).2 := by
  induction p generalizing s with
  | ret a => exact hR s
  | fail e => exact hR s
  | act f k ih => exact hT _ _ _ (hp.1 s) (ih _ (hp.2 _) _)

/-- Each action of `p` goes along `R`, but where what is left of the program is an `X`. -/
def MovesBut (R : σ → σ → Prop) (X : Prog σ ε α → Prop) : Prog σ ε α → Prop
  | ret _ => True
  | fail _ => True
  | act f k => (X (act f k) ∨ ∀ s, R s (f s).2) ∧ ∀ b, (k b).MovesBut R X

theorem Moves.but {X : Prog σ ε α → Prop} {p : Prog σ ε α} (hp : p.Moves R) : p.MovesBut R X := by
  induction p with
  | ret a => trivial
  | fail e => trivial
  | act f k ih => exact ⟨Or.inr hp.1, fun b => ih b (hp.2 b)⟩

theorem Moves.bind_but {X : Prog σ ε β → Prop} {p : Prog σ ε α} {g : α → Prog σ ε β} (hp : p.Moves R)
    (hg : ∀ a, (g a).MovesBut R X) : (p.bind g).MovesBut R X := by
  induction p with
  | ret a => exact hg a
  | fail e => trivial
  | act f k ih => exact ⟨Or.inr hp.1, fun b => ih b (hp.2 b)⟩

/-- The exception itself. -/
theorem MovesBut.prim_bind {X : Prog σ ε β → Prop} {f : σ → Except ε α × σ} {g : α → Prog σ ε β}
    (hx : X ((prim f).bind g)) (hg : ∀ a, (g a).MovesBut R X) : ((prim f).bind g).MovesBut R X := by
  refine ⟨Or.inl hx, fun b => ?_⟩
  cases b with
  | ok a => exact hg a
  | error e => trivial

end Moves

/-! ## What a run preserves

`p.Keeps P`: a run of `p` alone that begins where `P` holds ends where `P` holds, failed or not. -/

def Keeps (P : σ → Prop) (p : Prog σ ε α) : Prop := ∀ s, P s → P (p.exec s).2

section Keeps
variable {P : σ → Prop}

theorem keeps_ret (a : α) : (ret a : Prog σ ε α).Keeps P := fun _ h => h

theorem keeps_fail (e : ε) : (fail e : Prog σ ε α).Keeps P := fun _ h => h

theorem Keeps.bind {p : Prog σ ε α} {g : α → Prog σ ε β} (hp : p.Keeps P)
    (hg : ∀ a, (g a).Keeps P) : (p.bind g).Keeps P :=
  fun s hs => exec_bind_state (hp s hs) fun a s' _ => hg a s'

/-- A program whose every action preserves `P` keeps it. -/
theorem Moves.keeps {p : Prog σ ε α} (hp : p.Moves fun s s' => P s → P s') : p.Keeps P :=
  fun s hs => hp.exec (fun _ h => h) (fun _ _ _ h h' hs => h' (h hs)) s hs

end Keeps

/-! ## Replies

`p.replying note` is `p` beside a list of what has been replied: the action after which nothing is
left of the program adds `note` of its result. -/

/-- The reply, if the program has come to its end. -/
def reply {ρ : Type} (note : Except ε α → List ρ) : Prog σ ε α → List ρ
  | ret a => note (.ok a)
  | fail e => note (.error e)
  | act _ _ => []

def replying {ρ : Type} (note : Except ε α → List ρ) : Prog σ ε α → Prog (σ × List ρ) ε Unit
  | ret _ => ret ()
  | fail e => fail e
  | act f k => act (fun s => ((f s.1).1, (f s.1).2, s.2 ++ (k (f s.1).1).reply note)) fun b => (k b).replying note

/-- One action and what follows it. -/
theorem replying_prim_bind {ρ : Type} (note : Except ε β → List ρ) (F : σ → Except ε α × σ) (g : α → Prog σ ε β) :
    ((prim F).bind g).replying note = act
      (fun s => ((F s.1).1, (F s.1).2, s.2 ++ match (F s.1).1 with
        | .ok a => (g a).reply note
        | .error e => note (.error e)))
      fun
        | .ok a => (g a).replying note
        | .error e => fail e := by
  have hf : ∀ r : Except ε α, reply note (Prog.bind (match r with | .ok a => ret a | .error e => fail e) g) =
      match r with
        | .ok a => (g a).reply note
        | .error e => note (.error e) := by
    intro r
    cases r <;> rfl
  have hk : ∀ r : Except ε α, replying note (Prog.bind (match r with | .ok a => ret a | .error e => fail e) g) =
      match r with
        | .ok a => (g a).replying note
        | .error e => fail e := by
    intro r
    cases r <;> rfl
  exact congr (congrArg act (funext fun s => by rw [← hf])) (funext hk)

/-- A program that replies nothing. -/
theorem Moves.replying {ρ : Type} {R : σ → σ → Prop} {p : Prog σ ε α} (hp : p.Moves R) :
    (p.replying fun _ => ([] : List ρ)).Moves fun s s' => R s.1 s'.1 ∧ s'.2 = s.2 := by
  induction p with
  | ret a => trivial
  | fail e => trivial
  | act f k ih =>
    refine ⟨fun s => ⟨hp.1 s.1, ?_⟩, fun b => ih b (hp.2 b)⟩
    show s.2 ++ (k (f s.1).1).reply (fun _ => []) = s.2
    cases k (f s.1).1 with
    | ret a => exact List.append_nil _
    | fail e => exact List.append_nil _
    | act f' k' => exact List.append_nil _

/-- One action, with what it replies, and what follows it. -/
theorem Moves.replying_prim_bind {ρ : Type} {note : Except ε β → List ρ} {R : σ × List ρ → σ × List ρ → Prop}
    {F : σ → Except ε α × σ} {g : α → Prog σ ε β}
    (hF : ∀ s l, R (s, l) ((F s).2, l ++ match (F s).1 with
      | .ok a => (g a).reply note
      | .error e => note (.error e)))
    (hg : ∀ a, ((g a).replying note).Moves R) : (((prim F).bind g).replying note).Moves R := by
  rw [Prog.replying_prim_bind]
  refine ⟨fun s => hF s.1 s.2, fun b => ?_⟩
  cases b with
  | ok a => exact hg a
  | error e => trivial

/-! ## A program on one part of a larger state -/

/-- A part of type `τ` in a state `σ`. -/
structure Focus (σ τ : Type) where
  get : σ → τ
  set : τ → σ → σ
  get_set : ∀ t s, get (set t s) = t
  set_get : ∀ s, set (get s) s = s
  set_set : ∀ t t' s, set t (set t' s) = set t s

/-- The whole state. -/
def Focus.whole : Focus σ σ where
  get s := s
  set t _ := t
  get_set _ _ := rfl
  set_get _ := rfl
  set_set _ _ _ := rfl

/-- Run a program of the part inside the whole. -/
def within (L : Focus σ τ) : Prog τ ε α → Prog σ ε α
  | ret a => ret a
  | fail e => fail e
  | act f k => act (fun s => ((f (L.get s)).1, L.set (f (L.get s)).2 s)) fun b => (k b).within L

theorem exec_within (L : Focus σ τ) (p : Prog τ ε α) (s : σ) :
    (p.within L).exec s = ((p.exec (L.get s)).1, L.set (p.exec (L.get s)).2 s) := by
  induction p generalizing s with
  | ret a => simp [within, exec, L.set_get]
  | fail e => simp [within, exec, L.set_get]
  | act f k ih =>
    simp only [within, exec]
    rw [ih, L.get_set, L.set_set]

theorem exec_within_ok {L : Focus σ τ} {p : Prog τ ε α} {s s' : σ} {a : α} :
    (p.within L).exec s = (.ok a, s') ↔ ∃ t, p.exec (L.get s) = (.ok a, t) ∧ s' = L.set t s := by
  rw [exec_within]
  rcases p.exec (L.get s) with ⟨r, t⟩
  constructor
  · intro h
    cases h
    exact ⟨t, rfl, rfl⟩
  · rintro ⟨t', h, rfl⟩
    cases h
    rfl

theorem exec_within_error {L : Focus σ τ} {p : Prog τ ε α} {s s' : σ} {e : ε} (h : (p.within L).exec s = (.error e, s')) :
    ∃ t, p.exec (L.get s) = (.error e, t) ∧ s' = L.set t s := by
  rw [exec_within] at h
  exact ⟨_, exec_eq_of_fst (congrArg Prod.fst h), (congrArg Prod.snd h).symm⟩

theorem within_whole (p : Prog σ ε α) : p.within .whole = p := by
  induction p with
  | ret a => rfl
  | fail e => rfl
  | act f k ih => exact congrArg (act f) (funext ih)

theorem within_prim (L : Focus σ τ) (f : τ → Except ε α × τ) :
    (prim f).within L = prim fun s => ((f (L.get s)).1, L.set (f (L.get s)).2 s) := by
  refine congrArg (act _) (funext fun b => ?_)
  cases b <;> rfl

theorem within_look (L : Focus σ τ) (f : τ → α) :
    (look f : Prog τ ε α).within L = look fun s => f (L.get s) := by
  have hset : (fun s => (f (L.get s), L.set (L.get s) s)) = fun s => (f (L.get s), s) :=
    funext fun s => by rw [L.set_get]
  exact congrArg (act · ret) hset

theorem within_bind (L : Focus σ τ) (p : Prog τ ε α) (g : α → Prog τ ε β) :
    (p.bind g).within L = (p.within L).bind fun a => (g a).within L := by
  induction p with
  | ret a => rfl
  | fail e => rfl
  | act f k ih => exact congrArg (act _) (funext ih)

theorem within_attempt (L : Focus σ τ) (p : Prog τ ε α) : p.attempt.within L = (p.within L).attempt := by
  induction p with
  | ret a => rfl
  | fail e => rfl
  | act f k ih => exact congrArg (act _) (funext ih)

theorem within_mapErr (L : Focus σ τ) (g : ε → ε') (p : Prog τ ε α) :
    (p.mapErr g).within L = (p.within L).mapErr g := by
  induction p with
  | ret a => rfl
  | fail e => rfl
  | act f k ih => exact congrArg (act _) (funext ih)

theorem Moves.within {L : Focus σ τ} {R : τ → τ → Prop} {p : Prog τ ε α} (hp : p.Moves R) :
    (p.within L).Moves fun s s' => ∃ t, R (L.get s) t ∧ s' = L.set t s := by
  induction p with
  | ret a => trivial
  | fail e => trivial
  | act f k ih => exact ⟨fun s => ⟨_, hp.1 _, rfl⟩, fun b => ih b (hp.2 b)⟩

/-- Moving the part along `T` moves the whole along `R`. -/
theorem Moves.within_of {L : Focus σ τ} {T : τ → τ → Prop} {R : σ → σ → Prop}
    (hR : ∀ s t, T (L.get s) t → R s (L.set t s)) {p : Prog τ ε α} (hp : p.Moves T) :
    (p.within L).Moves R := by
  refine hp.within.mono fun s s' h => ?_
  obtain ⟨t, ht, rfl⟩ := h
  exact hR s t ht

/-- Whatever a program does to the part, the whole goes along `R` if setting the part does. -/
theorem moves_within {L : Focus σ τ} {R : σ → σ → Prop} (hR : ∀ s t, R s (L.set t s)) (p : Prog τ ε α) :
    (p.within L).Moves R := by
  induction p with
  | ret a => trivial
  | fail e => trivial
  | act f k ih => exact ⟨fun s => hR s _, ih⟩

end Prog
