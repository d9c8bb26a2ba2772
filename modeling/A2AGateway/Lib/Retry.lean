import A2AGateway.Lib.Loops
import A2AGateway.Lib.Prog

/-!
# Trying again

`p.retry again n` runs `p` up to `n + 1` times: once more after each failure that `again` accepts, as long
as there are retries left; `FailsOver` says what such failures lead to. `turns` is the loop of `Loops.lean` with a
program for its body; where what it finds outside is settled by what the loop keeps, it is a loop without the
outside (`exec_turns`).
-/

namespace Prog

variable {σ ε ε' α β γ : Type}

def retry (again : ε → Bool) (p : Prog σ ε α) : Nat → Prog σ ε α
  | 0 => p
  | n + 1 => p.outcome.bind fun
    | .ok a => ret a
    | .error e => if again e then retry again p n else fail e

/-- So many runs, one after the other, each failing with what is tried again. -/
inductive FailsOver (again : ε → Bool) (p : Prog σ ε α) : Nat → σ → σ → Prop
  | none (s : σ) : FailsOver again p 0 s s
  | more {n : Nat} {e : ε} {s s₁ s' : σ} (fails : p.exec s = (.error e, s₁)) (tried : again e = true)
      (rest : FailsOver again p n s₁ s') : FailsOver again p (n + 1) s s'

section
variable {again : ε → Bool} {k : Nat} {s s₁ : σ}

/-- What only changes the value changes no failure. -/
theorem failsOver_bind_ret {p : Prog σ ε α} {f : α → β} :
    FailsOver again (p.bind fun a => ret (f a)) k s s₁ ↔ FailsOver again p k s s₁ := by
  have hfails : ∀ {e s s'}, (p.bind fun a => ret (f a)).exec s = (.error e, s') ↔ p.exec s = (.error e, s') := by
    intro e s s'
    rw [exec_bind_ret]
    rcases p.exec s with ⟨r, s₂⟩
    cases r <;> simp [Except.map]
  constructor
  · intro h
    induction h with
    | none s => exact .none s
    | more fails tried _ ih => exact .more (hfails.1 fails) tried ih
  · intro h
    induction h with
    | none s => exact .none s
    | more fails tried _ ih => exact .more (hfails.2 fails) tried ih

end

/-! ## Until it is left -/

section
variable {τ ρ : Type}

/-- `n` turns, or fewer if one of them leaves the loop. -/
def turns (body : τ → Prog σ ε (Loops.Turn τ ρ)) : Nat → τ → Prog σ ε (Loops.Turn τ ρ)
  | 0, t => ret (.again t)
  | n + 1, t => (turns body n t).bind fun
    | .again t => body t
    | .stop r => ret (.stop r)

/-- **Turns that do what `turn` says, and each leave the state where the next is to find it.** -/
theorem exec_turns {body : τ → Prog σ ε (Loops.Turn τ ρ)} {turn : τ → Loops.Turn τ ρ} (place : Loops.Turn τ ρ → σ)
    (hbody : ∀ t, (body t).exec (place (.again t)) = (.ok (turn t), place (turn t))) (t : τ) (n : Nat) :
    (turns body n t).exec (place (.again t)) = (.ok (Loops.turns turn n t), place (Loops.turns turn n t)) := by
  induction n with
  | zero => rfl
  | succ n ih =>
    rw [turns, exec_bind_of_ok ih, Loops.turns]
    cases Loops.turns turn n t with
    | again t' => exact hbody t'
    | stop r => rfl

end

/-! ## Programs that are the same -/

theorem mapErr_bind_ret (p : Prog σ ε α) (f : ε → ε') (g : α → β) :
    (p.bind fun a => ret (g a)).mapErr f = (p.mapErr f).bind fun a => ret (g a) := by
  induction p with
  | ret a => rfl
  | fail e => rfl
  | act f' k ih => exact congrArg (act f') (funext ih)

theorem mapErr_mapErr {ε'' : Type} (p : Prog σ ε α) (f : ε → ε') (g : ε' → ε'') :
    (p.mapErr f).mapErr g = p.mapErr fun e => g (f e) := by
  induction p with
  | ret a => rfl
  | fail e => rfl
  | act f' k ih => exact congrArg (act f') (funext ih)

end Prog
