import A2AGateway.Lib.Interleave

/-!
# Crashes

A crash may come between any two actions. It drops every program that is under way; what a restart then finds is a
relation on the state. A discipline whose invariant a restart keeps holds in every life (`Survived.good`).
-/

namespace Pool

variable {σ ε : Type} {start : σ → Prog σ ε Unit → Prop} {outside restart : σ → σ → Prop} {init : σ → Prop}

/-- A step, or a crash and a restart. -/
inductive CrashStep (start : σ → Prog σ ε Unit → Prop) (outside restart : σ → σ → Prop) : Pool σ ε → Pool σ ε → Prop
  | step {c c' : Pool σ ε} (h : Step start outside c c') : CrashStep start outside restart c c'
  | crash {c : Pool σ ε} {s : σ} (h : restart c.state s) : CrashStep start outside restart c ⟨s, []⟩

/-- Reachable with any number of crashes. -/
def Survived (init : σ → Prop) (start : σ → Prog σ ε Unit → Prop) (outside restart : σ → σ → Prop) (c : Pool σ ε) : Prop :=
  ∃ s, init s ∧ Relation.ReflTransGen (CrashStep start outside restart) ⟨s, []⟩ c

theorem Survived.later {c c' : Pool σ ε} (h : Survived init start outside restart c)
    (hrun : Relation.ReflTransGen (CrashStep start outside restart) c c') : Survived init start outside restart c' := by
  obtain ⟨s, hs, hfirst⟩ := h
  exact ⟨s, hs, hfirst.trans hrun⟩

variable {D : Discipline σ} {c c' : Pool σ ε}

theorem CrashStep.good (h : CrashStep start outside restart c c') (hg : Good D c)
    (hstart : ∀ s p, D.inv s → start s p → p.Obeys D (fun _ _ => True) s)
    (hout : ∀ s s', D.inv s → outside s s' → D.step s s' ∧ D.inv s')
    (hrestart : ∀ s s', D.inv s → restart s s' → D.inv s') : Good D c' := by
  cases h with
  | step h => exact h.good hg hstart hout
  | crash h => exact ⟨hrestart _ _ hg.1 h, fun _ hp => absurd hp List.not_mem_nil⟩

/-- **The discipline holds in every state of every life.** -/
theorem Survived.good (h : Survived init start outside restart c) (hinit : ∀ s, init s → D.inv s)
    (hstart : ∀ s p, D.inv s → start s p → p.Obeys D (fun _ _ => True) s)
    (hout : ∀ s s', D.inv s → outside s s' → D.step s s' ∧ D.inv s')
    (hrestart : ∀ s s', D.inv s → restart s s' → D.inv s') : Good D c := by
  obtain ⟨s, hs, hrun⟩ := h
  induction hrun with
  | refl => exact ⟨hinit s hs, by simp⟩
  | tail _ hstep ih => exact hstep.good ih hstart hout hrestart

/-- **The state goes along `D.step` from one life to the next**, if a restart does. -/
theorem Survived.along (h : Survived init start outside restart c)
    (hrun : Relation.ReflTransGen (CrashStep start outside restart) c c') (hinit : ∀ s, init s → D.inv s)
    (hstart : ∀ s p, D.inv s → start s p → p.Obeys D (fun _ _ => True) s)
    (hout : ∀ s s', D.inv s → outside s s' → D.step s s' ∧ D.inv s')
    (hrestart : ∀ s s', D.inv s → restart s s' → D.step s s' ∧ D.inv s') : D.step c.state c'.state := by
  have hgood := h.good hinit hstart hout fun s s' hi hr => (hrestart s s' hi hr).2
  have hall : D.step c.state c'.state ∧ Good D c' := by
    induction hrun with
    | refl => exact ⟨D.refl _, hgood⟩
    | tail _ hstep ih =>
      obtain ⟨halong, hgood₁⟩ := ih
      refine ⟨D.trans _ _ _ halong ?_, hstep.good hgood₁ hstart hout fun s s' hi hr => (hrestart s s' hi hr).2⟩
      cases hstep with
      | step h => exact h.along hgood₁ hout
      | crash h => exact (hrestart _ _ hgood₁.1 h).1
  exact hall.1

end Pool
