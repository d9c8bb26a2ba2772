import Mathlib.Algebra.Order.Ring.Int
import Mathlib.Algebra.Order.Ring.Nat
import A2AGateway.Lib.Upheld

/-!
# What interleaved programs may use up

`balance` counts what the state still has to give away. Each program under way holds some of it:
an action may hand back what it holds, take what it has itself added to the balance, or spend,
but never what another program holds (`Credits`). Then all that is held fits into the balance in
every state (`Pool.Reachable.covered`), so what is not there is never spent. `traced` writes down
each action of a program, so that a balance can count what has happened.
-/

namespace Prog

variable {σ τ ε α β ℓ : Type}

/-- The result, if the program has come to its end. -/
def ended : Prog σ ε α → Option (Except ε α)
  | ret a => some (.ok a)
  | fail e => some (.error e)
  | act _ _ => none

/-- One action: whose it was, the part that is watched before and after, and the result if it was the last. -/
structure Event (ℓ τ ε α : Type) where
  label : ℓ
  before : τ
  after : τ
  result : Option (Except ε α)

/-- The program beside a list of the actions taken so far. -/
def traced (label : ℓ) (view : σ → τ) : Prog σ ε α → Prog (σ × List (Event ℓ τ ε α)) ε Unit
  | ret _ => ret ()
  | fail e => fail e
  | act f k => act
      (fun s => ((f s.1).1, (f s.1).2, s.2 ++ [⟨label, view s.1, view (f s.1).2, (k (f s.1).1).ended⟩]))
      fun b => (k b).traced label view

/-- One action and what follows it. -/
theorem traced_prim_bind (label : ℓ) (view : σ → τ) (F : σ → Except ε α × σ) (g : α → Prog σ ε β) :
    ((prim F).bind g).traced label view = act
      (fun s => ((F s.1).1, (F s.1).2, s.2 ++ [⟨label, view s.1, view (F s.1).2, match (F s.1).1 with
        | .ok a => (g a).ended
        | .error e => some (.error e)⟩]))
      fun
        | .ok a => (g a).traced label view
        | .error e => fail e := by
  have hended : ∀ r : Except ε α, ended (Prog.bind (match r with | .ok a => ret a | .error e => fail e) g) =
      match r with
        | .ok a => (g a).ended
        | .error e => some (.error e) := by
    intro r
    cases r <;> rfl
  have hk : ∀ r : Except ε α, traced label view (Prog.bind (match r with | .ok a => ret a | .error e => fail e) g) =
      match r with
        | .ok a => (g a).traced label view
        | .error e => fail e := by
    intro r
    cases r <;> rfl
  refine congr (congrArg act (funext fun s => ?_)) (funext hk)
  exact congrArg (fun result => ((F s.1).1, (F s.1).2, s.2 ++ [Event.mk label (view s.1) (view (F s.1).2) result]))
    (hended (F s.1).1)

/-- Each action goes along `R`, and is written down with the view before and after it. -/
theorem Moves.traced {label : ℓ} {view : σ → τ} {R : σ → σ → Prop} {p : Prog σ ε α} (hp : p.Moves R) :
    (p.traced label view).Moves fun s s' => R s.1 s'.1 ∧
      ∃ result, s'.2 = s.2 ++ [⟨label, view s.1, view s'.1, result⟩] := by
  induction p with
  | ret a => trivial
  | fail e => trivial
  | act f k ih => exact ⟨fun s => ⟨hp.1 s.1, _, rfl⟩, fun b => ih b (hp.2 b)⟩

/-- Writing down what happens breaks no invariant. -/
theorem Upholds.traced {label : ℓ} {view : σ → τ} {I : σ → Prop} {P : α → Prop} {p : Prog σ ε α} (hp : p.Upholds I P) :
    (p.traced label view).Upholds (fun s => I s.1) fun _ => True := by
  induction p with
  | ret a => trivial
  | fail e => trivial
  | act f k ih => exact fun s hs => ⟨(hp s.1 hs).1, ih _ (hp s.1 hs).2⟩

/-- The program obeys; holding `n`, it lowers the balance by no more than it gives up of it. -/
def Credits (D : Discipline σ) (balance : σ → Int) : Nat → Prog σ ε α → σ → Prop
  | _, ret _, _ => True
  | _, fail _, _ => True
  | n, act f k, s => ∀ s', D.step s s' → D.inv s' →
      (D.step s' (f s').2 ∧ D.inv (f s').2) ∧
        ∃ n' : Nat, (n' : Int) + balance s' ≤ n + balance (f s').2 ∧ (k (f s').1).Credits D balance n' (f s').2

variable {D : Discipline σ} {balance : σ → Int} {n : Nat} {s s' : σ}

theorem Credits.weaken {p : Prog σ ε α} (h : p.Credits D balance n s) (hs : D.step s s') :
    p.Credits D balance n s' := by
  cases p with
  | ret a => trivial
  | fail e => trivial
  | act f k =>
    intro s'' hs'' hi
    exact h s'' (D.trans _ _ _ hs hs'') hi

theorem Credits.obeys {p : Prog σ ε α} (h : p.Credits D balance n s) : p.Obeys D (fun _ _ => True) s := by
  induction p generalizing n s with
  | ret a => trivial
  | fail e => trivial
  | act f k ih =>
    intro s' hs hi
    obtain ⟨hstep, n', -, hk⟩ := h s' hs hi
    exact ⟨hstep, ih _ hk⟩

end Prog

namespace Pool

variable {σ ε : Type} {D : Discipline σ} {balance : σ → Int} {start : σ → Prog σ ε Unit → Prop} {outside : σ → σ → Prop}

/-- What the programs hold fits into the balance. -/
def Covered (D : Discipline σ) (balance : σ → Int) (c : Pool σ ε) : Prop :=
  D.inv c.state ∧ ∃ held : List (Nat × Prog σ ε Unit), held.map Prod.snd = c.threads ∧
    (∀ h ∈ held, h.2.Credits D balance h.1 c.state) ∧ ((held.map Prod.fst).sum : Int) ≤ balance c.state

theorem Step.covered {c c' : Pool σ ε} (h : Step start outside c c') (hc : Covered D balance c)
    (hstart : ∀ s p, D.inv s → start s p → p.Credits D balance 0 s)
    (hout : ∀ s s', D.inv s → outside s s' → (D.step s s' ∧ D.inv s') ∧ balance s ≤ balance s') :
    Covered D balance c' := by
  obtain ⟨hi, held, hthreads, hheld, hsum⟩ := hc
  cases h with
  | @start s ts p hp =>
    refine ⟨hi, held ++ [(0, p)], ?_, ?_, ?_⟩
    · rw [List.map_append, hthreads]
      rfl
    · intro h hh
      rcases List.mem_append.1 hh with hh | hh
      · exact hheld h hh
      · rw [List.mem_singleton.1 hh]
        exact hstart _ _ hi hp
    · simpa using hsum
  | @act s ts₁ ts₂ β f k =>
    -- The program that moves, with what it holds, between the others.
    obtain ⟨held₁, held', rfl, rfl, hrest⟩ := List.map_eq_append_iff.1 hthreads
    obtain ⟨⟨n, p⟩, held₂, rfl, rfl, rfl⟩ := List.map_eq_cons_iff.1 hrest
    obtain ⟨⟨hs, hi'⟩, n', hbal, hk⟩ := hheld (n, .act f k) (by simp) s (D.refl s) hi
    refine ⟨hi', held₁ ++ (n', k (f s).1) :: held₂, by simp, ?_, ?_⟩
    · intro h hh
      rcases List.mem_append.1 hh with hh | hh
      · exact (hheld h (by simp [hh])).weaken hs
      · rcases List.mem_cons.1 hh with rfl | hh
        · exact hk
        · exact (hheld h (by simp [hh])).weaken hs
    · simp only [List.map_append, List.map_cons, List.sum_append, List.sum_cons, Int.natCast_add] at hsum ⊢
      omega
  | @outside s s' ts hs =>
    obtain ⟨⟨hs', hi'⟩, hbal⟩ := hout _ _ hi hs
    exact ⟨hi', held, hthreads, fun h hh => (hheld h hh).weaken hs', Int.le_trans hsum hbal⟩

/-- **What is held never exceeds what is there.** -/
theorem Reachable.covered {init : σ → Prop} {c : Pool σ ε} (h : Reachable init start outside c)
    (hinit : ∀ s, init s → D.inv s ∧ 0 ≤ balance s)
    (hstart : ∀ s p, D.inv s → start s p → p.Credits D balance 0 s)
    (hout : ∀ s s', D.inv s → outside s s' → (D.step s s' ∧ D.inv s') ∧ balance s ≤ balance s') :
    D.inv c.state ∧ 0 ≤ balance c.state := by
  obtain ⟨s, hs, hrun⟩ := h
  have hall : Covered D balance c := by
    induction hrun with
    | refl => exact ⟨(hinit s hs).1, [], rfl, by simp, (hinit s hs).2⟩
    | tail _ hstep ih => exact hstep.covered ih hstart hout
  obtain ⟨hi, held, -, -, hsum⟩ := hall
  exact ⟨hi, Int.le_trans (Int.natCast_nonneg _) hsum⟩

end Pool
