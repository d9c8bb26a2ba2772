import A2AGateway.Lib.Interleave

/-!
# Programs that leave marks

`p.marked marks` is `p` beside a list: each action adds the marks that are meant for it, unless the
program fails with it. What the others add in between stays where it is, so the list tells in which
order the actions of several programs took effect. Every interleaving of programs is one of the
marked programs with the marks left out (`Pool.Reachable.marked`).
-/

namespace Prog

variable {σ ε α β μ : Type}

/-- The program has failed. -/
def failed : Prog σ ε α → Bool
  | fail _ => true
  | _ => false

/-- The marks of the first action, of the second, and so on. -/
def marked : List (List μ) → Prog σ ε α → Prog (σ × List μ) ε Unit
  | _, ret _ => ret ()
  | _, fail e => fail e
  | marks, act f k => act
      (fun s => ((f s.1).1, (f s.1).2, s.2 ++ if (k (f s.1).1).failed then [] else marks.headD []))
      fun b => (k b).marked marks.tail

/-- One action that adds its marks when it goes well, and what follows it. -/
theorem Moves.marked_prim_bind {R : σ × List μ → σ × List μ → Prop} {F : σ → Except ε α × σ} {g : α → Prog σ ε β}
    {m : List μ} {marks : List (List μ)} (hok : ∀ s log a, (F s).1 = .ok a → R (s, log) ((F s).2, log ++ m))
    (herr : ∀ s log e, (F s).1 = .error e → R (s, log) ((F s).2, log)) (hg : ∀ a, (g a).failed = false)
    (hrest : ∀ a, ((g a).marked marks).Moves R) : (((prim F).bind g).marked (m :: marks)).Moves R := by
  refine ⟨fun s => ?_, fun r => ?_⟩
  · cases hr : (F s.1).1 with
    | ok a =>
      have hgoes : (Prog.bind (ret a) g).failed = false := hg a
      simp only [hr, hgoes, Bool.false_eq_true, if_false, List.headD_cons]
      exact hok s.1 s.2 a hr
    | error e =>
      have hfails : (Prog.bind (fail e : Prog σ ε α) g).failed = true := rfl
      simp only [hr, hfails, if_true, List.append_nil]
      exact herr s.1 s.2 e hr
  · cases r with
    | ok a => exact hrest a
    | error e => trivial

/-- The last action, if it cannot fail. -/
theorem Moves.marked_act {R : σ × List μ → σ × List μ → Prop} {f : σ → α × σ} {m : List μ} {marks : List (List μ)}
    (h : ∀ s log, R (s, log) ((f s).2, log ++ m)) : ((act f ret : Prog σ ε α).marked (m :: marks)).Moves R :=
  ⟨fun s => h s.1 s.2, fun _ => trivial⟩

end Prog

namespace Pool

variable {σ ε μ : Type}

/-- The programs under way and the marks each of them has still to leave. -/
def Beside (c : Pool (σ × List μ) ε) (c' : Pool σ ε) : Prop :=
  c.state.1 = c'.state ∧ ∃ ts : List (List (List μ) × Prog σ ε Unit),
    c.threads = ts.map (fun t => t.2.marked t.1) ∧ c'.threads = ts.map (·.2)

variable {start : σ → Prog σ ε Unit → Prop} {outside : σ → σ → Prop}
  {startMarked : σ × List μ → Prog (σ × List μ) ε Unit → Prop} {outsideMarked : σ × List μ → σ × List μ → Prop}

theorem Step.marked {c₁ c₂ : Pool σ ε} {m₁ : Pool (σ × List μ) ε} (h : Step start outside c₁ c₂) (hm : Beside m₁ c₁)
    (hstart : ∀ s log p, start s p → ∃ marks, startMarked (s, log) (p.marked marks))
    (hout : ∀ s s' log, outside s s' → outsideMarked (s, log) (s', log)) :
    ∃ m₂, Step startMarked outsideMarked m₁ m₂ ∧ Beside m₂ c₂ := by
  obtain ⟨⟨s₁, log⟩, threads⟩ := m₁
  obtain ⟨hstate, ts, hthreads, hprogs⟩ := hm
  cases hstate
  cases hthreads
  cases h with
  | @start s ps p hp =>
    cases hprogs
    obtain ⟨marks, hmarks⟩ := hstart _ log p hp
    exact ⟨_, .start hmarks, rfl, ts ++ [(marks, p)], by simp, by simp⟩
  | @act s ps₁ ps₂ β f k =>
    obtain ⟨ts₁, ts', rfl, rfl, hrest⟩ := List.map_eq_append_iff.1 hprogs.symm
    obtain ⟨⟨marks, p⟩, ts₂, rfl, rfl, rfl⟩ := List.map_eq_cons_iff.1 hrest
    rw [List.map_append, List.map_cons]
    exact ⟨_, .act, rfl, ts₁ ++ (marks.tail, k (f s).1) :: ts₂, by simp, by simp⟩
  | @outside s s' ps hs =>
    cases hprogs
    exact ⟨_, .outside (hout _ _ log hs), rfl, ts, rfl, rfl⟩

/-- **Whatever the programs do, they can leave their marks while they do it.** -/
theorem Reachable.marked {init : σ → Prop} {initMarked : σ × List μ → Prop} {c : Pool σ ε} (h : Reachable init start outside c)
    (hinit : ∀ s, init s → initMarked (s, []))
    (hstart : ∀ s log p, start s p → ∃ marks, startMarked (s, log) (p.marked marks))
    (hout : ∀ s s' log, outside s s' → outsideMarked (s, log) (s', log)) :
    ∃ m, Reachable initMarked startMarked outsideMarked m ∧ Beside m c := by
  obtain ⟨s, hs, hrun⟩ := h
  induction hrun with
  | refl => exact ⟨⟨(s, []), []⟩, .initial (hinit s hs), rfl, [], rfl, rfl⟩
  | tail _ hstep ih =>
    obtain ⟨m, ⟨s₀, hs₀, hto⟩, hm⟩ := ih
    obtain ⟨m', hstep', hm'⟩ := hstep.marked hm hstart hout
    exact ⟨m', ⟨s₀, hs₀, hto.tail hstep'⟩, hm'⟩

end Pool
