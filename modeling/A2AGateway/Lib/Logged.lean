import A2AGateway.Lib.Credits

/-!
# What is true of everything that has been written down

Programs side by side, each action written down with its program's label (`Prog.traced`). What each
action of a program does (`R`) and what is known where the program ends (`Q`) are then known of the
list as a whole (`Pool.Reachable.logged`): every entry is an `R`, and every result that has ever
been returned is still good, if `Q` outlives what the others do. What an entry says of the state
after it has been so (`Pool.Reachable.seen`).
-/

variable {σ τ ε α ℓ : Type}

/-- A discipline on the state, and on the list of the actions taken. -/
def Discipline.logged (D : Discipline σ) (R : ℓ → τ → τ → Prop) (Q : ℓ → Except ε α → σ → Prop) :
    Discipline (σ × List (Prog.Event ℓ τ ε α)) where
  inv s := D.inv s.1 ∧ ∀ e ∈ s.2, R e.label e.before e.after ∧ ∀ r, e.result = some r → Q e.label r s.1
  step s s' := D.step s.1 s'.1
  refl s := D.refl s.1
  trans a b c := D.trans a.1 b.1 c.1

variable {D : Discipline σ} {R : ℓ → τ → τ → Prop} {Q : ℓ → Except ε α → σ → Prop}

namespace Prog

theorem Obeys.logged {label : ℓ} {view : σ → τ} {p : Prog σ ε α} {s : σ} (h : p.Obeys D (Q label) s)
    (hR : p.Moves fun s s' => R label (view s) (view s')) (hQ : ∀ l r a b, D.step a b → Q l r a → Q l r b)
    (taken : List (Event ℓ τ ε α)) :
    (p.traced label view).Obeys (D.logged R Q) (fun _ _ => True) (s, taken) := by
  induction p generalizing s taken with
  | ret a => trivial
  | fail e => trivial
  | act f k ih =>
    rintro ⟨s', taken'⟩ hs ⟨hi, hall⟩
    obtain ⟨⟨hstep, hi'⟩, hk⟩ := h s' hs hi
    refine ⟨⟨hstep, hi', fun e he => ?_⟩, ih _ hk (hR.2 _) _⟩
    rcases List.mem_append.1 he with he | he
    · exact ⟨(hall e he).1, fun r hr => hQ _ _ _ _ hstep ((hall e he).2 r hr)⟩
    · cases List.mem_singleton.1 he
      refine ⟨hR.1 s', fun r hr => ?_⟩
      cases hk' : k (f s').1 with
      | ret a =>
        rw [hk'] at hr hk
        cases hr
        exact hk
      | fail e =>
        rw [hk'] at hr hk
        cases hr
        exact hk
      | act f' k' =>
        rw [hk'] at hr
        cases hr

end Prog

/-- **Every action written down is an `R`, and every result keeps its `Q`**, in every interleaving. -/
theorem Pool.Reachable.logged {init : σ × List (Prog.Event ℓ τ ε α) → Prop}
    {start : σ × List (Prog.Event ℓ τ ε α) → Prog (σ × List (Prog.Event ℓ τ ε α)) ε Unit → Prop}
    {outside : σ × List (Prog.Event ℓ τ ε α) → σ × List (Prog.Event ℓ τ ε α) → Prop}
    {c : Pool (σ × List (Prog.Event ℓ τ ε α)) ε} (h : Reachable init start outside c)
    (hinit : ∀ s, init s → D.inv s.1 ∧ s.2 = [])
    (hstart : ∀ s p, D.inv s.1 → start s p → ∃ (label : ℓ) (view : σ → τ) (q : Prog σ ε α), p = q.traced label view ∧
      q.Obeys D (Q label) s.1 ∧ q.Moves fun a b => R label (view a) (view b))
    (hout : ∀ s s', D.inv s.1 → outside s s' → (D.step s.1 s'.1 ∧ D.inv s'.1) ∧ s'.2 = s.2)
    (hQ : ∀ l r a b, D.step a b → Q l r a → Q l r b) :
    ∀ e ∈ c.state.2, R e.label e.before e.after ∧ ∀ r, e.result = some r → Q e.label r c.state.1 := by
  have hgood : Pool.Good (D.logged R Q) c := by
    refine h.good ?_ ?_ ?_
    · rintro ⟨s, taken⟩ hs
      obtain ⟨hi, rfl⟩ := hinit _ hs
      exact ⟨hi, fun e he => by cases he⟩
    · rintro ⟨s, taken⟩ p hi hp
      obtain ⟨label, view, q, rfl, hobeys, hmoves⟩ := hstart _ p hi.1 hp
      exact hobeys.logged hmoves hQ taken
    · rintro ⟨s, taken⟩ ⟨s', taken'⟩ hi hs
      obtain ⟨⟨hstep, hi'⟩, rfl⟩ := hout _ _ hi.1 hs
      exact ⟨hstep, hi', fun e he => ⟨(hi.2 e he).1, fun r hr => hQ _ _ _ _ hstep ((hi.2 e he).2 r hr)⟩⟩
  exact hgood.1.2

/-- Every state that has been written down was one of the run. -/
theorem Pool.Reachable.seen (view : σ → τ) {init : σ × List (Prog.Event ℓ τ ε α) → Prop}
    {start : σ × List (Prog.Event ℓ τ ε α) → Prog (σ × List (Prog.Event ℓ τ ε α)) ε Unit → Prop}
    {outside : σ × List (Prog.Event ℓ τ ε α) → σ × List (Prog.Event ℓ τ ε α) → Prop}
    {c : Pool (σ × List (Prog.Event ℓ τ ε α)) ε} (h : Reachable init start outside c)
    (hinit : ∀ s, init s → s.2 = [])
    (hstart : ∀ s p, start s p → p.Moves fun s s' => s'.2 = s.2 ∨ ∃ e, s'.2 = s.2 ++ [e] ∧ e.after = view s'.1)
    (hout : ∀ s s', outside s s' → s'.2 = s.2) :
    ∀ e ∈ c.state.2, ∃ c₁, Reachable init start outside c₁ ∧
      Relation.ReflTransGen (Step start outside) c₁ c ∧ e.after = view c₁.state.1 := by
  obtain ⟨s, hs, hrun⟩ := h
  have hall : (∀ p ∈ c.threads, p.MovesBut
        (fun s s' => s'.2 = s.2 ∨ ∃ e, s'.2 = s.2 ++ [e] ∧ e.after = view s'.1) fun _ => False) ∧
      ∀ e ∈ c.state.2, ∃ c₁, Reachable init start outside c₁ ∧
        Relation.ReflTransGen (Step start outside) c₁ c ∧ e.after = view c₁.state.1 := by
    induction hrun with
    | refl =>
      refine ⟨by simp, fun e he => ?_⟩
      rw [hinit s hs] at he
      cases he
    | @tail c₁ c₂ hbefore hstep ih =>
      obtain ⟨hthreads, hseen⟩ := ih
      have hold : ∀ e ∈ c₁.state.2, ∃ c₀, Reachable init start outside c₀ ∧
          Relation.ReflTransGen (Step start outside) c₀ c₂ ∧ e.after = view c₀.state.1 := by
        intro e he
        obtain ⟨c₀, hreach, hto, hafter⟩ := hseen e he
        exact ⟨c₀, hreach, hto.tail hstep, hafter⟩
      obtain ⟨hthreads', hmoved⟩ := hstep.but (fun _ => .inl rfl) hthreads (fun s p hp => (hstart s p hp).but)
        fun s s' hs => .inl (hout s s' hs)
      refine ⟨hthreads', fun e he => ?_⟩
      rcases hmoved with (hsame | ⟨e', hadded, hafter⟩) | ⟨_, _, _, _, _, hfalse, _⟩
      · rw [hsame] at he
        exact hold e he
      · rw [hadded] at he
        rcases List.mem_append.1 he with he | he
        · exact hold e he
        · rw [List.mem_singleton.1 he]
          exact ⟨c₂, ⟨s, hs, hbefore.tail hstep⟩, .refl, hafter⟩
      · exact hfalse.elim
  exact hall.2
