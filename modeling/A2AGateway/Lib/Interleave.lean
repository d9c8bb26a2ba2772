import A2AGateway.Lib.Prog
import Mathlib.Logic.Relation

/-!
# Programs run side by side

Several programs over one state, their actions mixed in any order. A `Discipline` says which
states may be seen (`inv`) and how the state may evolve under anybody's hand (`step`). A program
obeys it when each of its actions does, whatever the others did since the action before
(`Obeys`); then the discipline holds in every state of every interleaving (`Pool.reaches`).
-/

/-- What all programs that share a state have agreed on. -/
structure Discipline (σ : Type) where
  inv : σ → Prop
  step : σ → σ → Prop
  refl : ∀ s, step s s
  trans : ∀ a b c, step a b → step b c → step a c

/-- A discipline on one part of the state; the rest may change as it likes. -/
def Discipline.comap {σ τ : Type} (D : Discipline τ) (get : σ → τ) : Discipline σ where
  inv s := D.inv (get s)
  step s s' := D.step (get s) (get s')
  refl s := D.refl (get s)
  trans a b c := D.trans (get a) (get b) (get c)

namespace Prog

variable {σ ε ε' α β : Type} {D : Discipline σ}

/-- Before each action the others may have moved the state along `D.step`; the action itself
must go along `D.step` too and keep `D.inv`. `Q` is known where the program ends. -/
def Obeys (D : Discipline σ) (Q : Except ε α → σ → Prop) : Prog σ ε α → σ → Prop
  | ret a, s => Q (.ok a) s
  | fail e, s => Q (.error e) s
  | act f k, s => ∀ s', D.step s s' → D.inv s' →
      (D.step s' (f s').2 ∧ D.inv (f s').2) ∧ (k (f s').1).Obeys D Q (f s').2

variable {Q Q' : Except ε α → σ → Prop}

theorem Obeys.post {p : Prog σ ε α} {s : σ} (h : p.Obeys D Q s)
    (hq : ∀ r s', Q r s' → Q' r s') : p.Obeys D Q' s := by
  induction p generalizing s with
  | ret a => exact hq _ _ h
  | fail e => exact hq _ _ h
  | act f k ih => exact fun s' hs hi => ⟨(h s' hs hi).1, ih _ (h s' hs hi).2⟩

theorem Obeys.look {f : σ → α} {s : σ} (h : ∀ s', D.step s s' → D.inv s' → Q (.ok (f s')) s') :
    (look f).Obeys D Q s :=
  fun s' hs hi => ⟨⟨D.refl s', hi⟩, h s' hs hi⟩

theorem Obeys.prim {f : σ → Except ε α × σ} {s : σ} (h : ∀ s', D.step s s' → D.inv s' →
    (D.step s' (f s').2 ∧ D.inv (f s').2) ∧ Q (f s').1 (f s').2) : (prim f).Obeys D Q s := by
  intro s' hs hi
  obtain ⟨hstep, hq⟩ := h s' hs hi
  refine ⟨hstep, ?_⟩
  cases hr : (f s').1 with
  | ok a =>
    rw [hr] at hq
    exact hq
  | error e =>
    rw [hr] at hq
    exact hq

theorem Obeys.bind {p : Prog σ ε α} {g : α → Prog σ ε β} {Q' : Except ε β → σ → Prop} {s : σ}
    (h : p.Obeys D Q s) (hok : ∀ a s', Q (.ok a) s' → (g a).Obeys D Q' s')
    (herr : ∀ e s', Q (.error e) s' → Q' (.error e) s') : (p.bind g).Obeys D Q' s := by
  induction p generalizing s with
  | ret a => exact hok _ _ h
  | fail e => exact herr _ _ h
  | act f k ih => exact fun s' hs hi => ⟨(h s' hs hi).1, ih _ (h s' hs hi).2⟩

/-- One action, then what follows when it goes well. -/
theorem Obeys.prim_bind {f : σ → Except ε α × σ} {g : α → Prog σ ε β} {Q : Except ε β → σ → Prop} {s : σ}
    (hstep : ∀ s', D.step s s' → D.inv s' → D.step s' (f s').2 ∧ D.inv (f s').2)
    (hok : ∀ s' a, D.step s s' → D.inv s' → (f s').1 = .ok a → (g a).Obeys D Q (f s').2)
    (herr : ∀ s' e, D.step s s' → D.inv s' → (f s').1 = .error e → Q (.error e) (f s').2) :
    ((Prog.prim f).bind g).Obeys D Q s := by
  intro s' hs hi
  refine ⟨hstep s' hs hi, ?_⟩
  cases hr : (f s').1 with
  | ok a => exact hok s' a hs hi hr
  | error e => exact herr s' e hs hi hr

theorem Obeys.attempt {p : Prog σ ε α} {Q' : Except ε (Option α) → σ → Prop} {s : σ}
    (h : p.Obeys D Q s) (hq : ∀ r s', Q r s' → Q' (.ok r.toOption) s') :
    p.attempt.Obeys D Q' s := by
  induction p generalizing s with
  | ret a => exact hq _ _ h
  | fail e => exact hq _ _ h
  | act f k ih => exact fun s' hs hi => ⟨(h s' hs hi).1, ih _ (h s' hs hi).2⟩

theorem Obeys.mapErr {g : ε → ε'} {p : Prog σ ε α} {Q' : Except ε' α → σ → Prop} {s : σ}
    (h : p.Obeys D Q s) (hq : ∀ r s', Q r s' → Q' (r.mapError g) s') : (p.mapErr g).Obeys D Q' s := by
  induction p generalizing s with
  | ret a => exact hq _ _ h
  | fail e => exact hq _ _ h
  | act f k ih => exact fun s' hs hi => ⟨(h s' hs hi).1, ih _ (h s' hs hi).2⟩

theorem Obeys.outcome {p : Prog σ ε α} {P : Except ε' (Except ε α) → σ → Prop} {s : σ}
    (h : p.Obeys D Q s) (hq : ∀ r s', Q r s' → P (.ok r) s') : p.outcome.Obeys D P s := by
  induction p generalizing s with
  | ret a => exact hq _ _ h
  | fail e => exact hq _ _ h
  | act f k ih => exact fun s' hs hi => ⟨(h s' hs hi).1, ih _ (h s' hs hi).2⟩

/-- On one part of a larger state, under the discipline of that part. -/
theorem Obeys.within {τ : Type} {L : Focus σ τ} {D : Discipline τ} {Q : Except ε α → τ → Prop} {p : Prog τ ε α} {s : σ}
    (h : p.Obeys D Q (L.get s)) : (p.within L).Obeys (D.comap L.get) (fun r s' => Q r (L.get s')) s := by
  induction p generalizing s with
  | ret a => exact h
  | fail e => exact h
  | act f k ih =>
    intro s' hs hi
    obtain ⟨hact, hk⟩ := h (L.get s') hs hi
    have hget : L.get (L.set (f (L.get s')).2 s') = (f (L.get s')).2 := L.get_set _ _
    refine ⟨?_, ih _ ?_⟩
    · simp only [Discipline.comap, hget]
      exact hact
    · rw [hget]
      exact hk

/-- A loop whose body is safe wherever `P` holds, and `P` outlives what the others do. -/
theorem Obeys.forEach {γ : Type} {P : σ → Prop} {body : γ → Prog σ ε Unit} :
    ∀ {xs : List γ} {s : σ}, P s →
      (∀ x ∈ xs, ∀ s, P s → (body x).Obeys D (fun _ => P) s) →
      (forEach xs body).Obeys D (fun _ => P) s
  | [], _, hs, _ => hs
  | x :: _, s, hs, h =>
    Obeys.bind (h x (by simp) s hs)
      (fun _ _ hs' => Obeys.forEach hs' fun y hy => h y (by simp [hy]))
      (fun _ _ hs' => hs')

/-- The program obeys, and `P` holds of what it returns; nothing is said of how it fails. -/
def Yields (D : Discipline σ) (P : α → σ → Prop) (p : Prog σ ε α) (s : σ) : Prop :=
  p.Obeys D (fun r s' => ∀ a, r = .ok a → P a s') s

section
variable {P P' : α → σ → Prop} {P₂ : β → σ → Prop} {s : σ}

theorem Yields.ret {a : α} (h : P a s) : (ret a : Prog σ ε α).Yields D P s := by
  intro a' ha
  cases ha
  exact h

theorem Yields.fail (e : ε) : (fail e : Prog σ ε α).Yields D P s := by
  intro a ha
  cases ha

theorem Yields.look {f : σ → α} (h : ∀ s', D.step s s' → D.inv s' → P (f s') s') :
    (look f : Prog σ ε α).Yields D P s := by
  refine Obeys.look fun s' hs hi a ha => ?_
  cases ha
  exact h s' hs hi

theorem Yields.bind {p : Prog σ ε α} {g : α → Prog σ ε β} (hp : p.Yields D P s)
    (hg : ∀ a s', P a s' → (g a).Yields D P₂ s') : (p.bind g).Yields D P₂ s := by
  refine Obeys.bind hp (fun a s' h => hg a s' (h a rfl)) fun e s' _ b hb => ?_
  cases hb

theorem Yields.mapErr {p : Prog σ ε α} {g : ε → ε'} (hp : p.Yields D P s) : (p.mapErr g).Yields D P s := by
  refine Obeys.mapErr hp fun r s' h a ha => ?_
  cases r with
  | ok a' => exact h a (by cases ha; rfl)
  | error e => cases ha

theorem Yields.mono {p : Prog σ ε α} (hp : p.Yields D P s) (h : ∀ a s', P a s' → P' a s') :
    p.Yields D P' s :=
  Obeys.post hp fun _ s' hr a ha => h a s' (hr a ha)

/-- What is known however the program ends. -/
theorem Obeys.yields {p : Prog σ ε α} {I : σ → Prop} (hp : p.Obeys D (fun _ => I) s) :
    p.Yields D (fun _ => I) s :=
  Obeys.post hp fun _ _ h _ _ => h

end

/-- A program none of whose actions can break the discipline, as long as something is known that lasts, obeys it,
and the same is known at its end. -/
theorem Moves.obeys_knowing {p : Prog σ ε α} {K : σ → Prop} (hK : ∀ s s', D.step s s' → K s → K s')
    (hp : p.Moves fun s s' => D.inv s → K s → D.step s s' ∧ D.inv s') : ∀ {s : σ}, K s → p.Obeys D (fun _ => K) s := by
  induction p with
  | ret a => exact fun hs => hs
  | fail e => exact fun hs => hs
  | act f k ih =>
    intro s hs s' hs' hi
    have hk := hK _ _ hs' hs
    have hf := hp.1 s' hi hk
    exact ⟨hf, ih _ (hp.2 _) (hK _ _ hf.1 hk)⟩

/-- Where nothing need be known, it ends in a state that evolved from the one it began in. -/
theorem Moves.obeys {p : Prog σ ε α} (hp : p.Moves fun s s' => D.inv s → D.step s s' ∧ D.inv s') {s₀ : σ} :
    ∀ {s : σ}, D.step s₀ s → p.Obeys D (fun _ s' => D.step s₀ s') s := by
  intro s hs
  have hknowing : p.Moves fun s s' => D.inv s → D.step s₀ s → D.step s s' ∧ D.inv s' := hp.mono fun _ _ h hi _ => h hi
  exact hknowing.obeys_knowing (fun _ _ hstep hs => D.trans _ _ _ hs hstep) hs

/-- What is known at the end survives the others' moves, if it is stable itself. -/
theorem Obeys.weaken {p : Prog σ ε α} {s s' : σ} (h : p.Obeys D Q s)
    (hq : ∀ r a b, D.step a b → Q r a → Q r b) (hs : D.step s s') : p.Obeys D Q s' := by
  cases p with
  | ret a => exact hq _ _ _ hs h
  | fail e => exact hq _ _ _ hs h
  | act f k => exact fun s'' hs'' hi => h s'' (D.trans _ _ _ hs hs'') hi

/-! ### Debts -/

/-- The program obeys, and when one of its actions makes `P` true, what is left of it sees to `Q`. -/
def Pays (D : Discipline σ) (P : σ → Prop) (Q : Except ε α → σ → Prop) : Prog σ ε α → σ → Prop
  | ret _, _ => True
  | fail _, _ => True
  | act f k, s => ∀ s', D.step s s' → D.inv s' →
      (D.step s' (f s').2 ∧ D.inv (f s').2) ∧
        (¬ P s' → P (f s').2 → (k (f s').1).Obeys D Q (f s').2) ∧ (k (f s').1).Pays D P Q (f s').2

section
variable {P : σ → Prop} {s : σ}

theorem Pays.weaken {p : Prog σ ε α} {s' : σ} (h : p.Pays D P Q s) (hs : D.step s s') : p.Pays D P Q s' := by
  cases p with
  | ret a => trivial
  | fail e => trivial
  | act f k => exact fun s'' hs'' hi => h s'' (D.trans _ _ _ hs hs'') hi

theorem Pays.bind {p : Prog σ ε α} {g : α → Prog σ ε β} {Q' : Except ε β → σ → Prop} (hp : p.Pays D P Q s)
    (hg : ∀ a s', (g a).Pays D P Q' s') (hok : ∀ a s', Q (.ok a) s' → (g a).Obeys D Q' s')
    (herr : ∀ e s', Q (.error e) s' → Q' (.error e) s') : (p.bind g).Pays D P Q' s := by
  induction p generalizing s with
  | ret a => exact hg a s
  | fail e => trivial
  | act f k ih =>
    intro s' hs hi
    obtain ⟨hstep, howed, hk⟩ := hp s' hs hi
    exact ⟨hstep, fun hno hyes => (howed hno hyes).bind hok herr, ih _ hk⟩

theorem Pays.obeys {p : Prog σ ε α} (hp : p.Pays D P Q s) : p.Obeys D (fun _ _ => True) s := by
  induction p generalizing s with
  | ret a => trivial
  | fail e => trivial
  | act f k ih => exact fun s' hs hi => ⟨(hp s' hs hi).1, ih _ (hp s' hs hi).2.2⟩

/-- First a part that raises no debt. -/
theorem Pays.look_bind {f : σ → α} {g : α → Prog σ ε β} {Q : Except ε β → σ → Prop}
    (h : ∀ s', D.step s s' → D.inv s' → (g (f s')).Pays D P Q s') : ((look f).bind g).Pays D P Q s :=
  fun s' hs hi => ⟨⟨D.refl s', hi⟩, fun hno hyes => absurd hyes hno, h s' hs hi⟩

/-- One action, and what follows it when it raises a debt and when it does not. -/
theorem Pays.prim_bind {f : σ → Except ε α × σ} {g : α → Prog σ ε β} {Q : Except ε β → σ → Prop}
    (hstep : ∀ s', D.step s s' → D.inv s' → D.step s' (f s').2 ∧ D.inv (f s').2)
    (hok : ∀ s' a, D.step s s' → D.inv s' → (f s').1 = .ok a →
      (¬ P s' → P (f s').2 → (g a).Obeys D Q (f s').2) ∧ (g a).Pays D P Q (f s').2)
    (herr : ∀ s' e, D.step s s' → D.inv s' → (f s').1 = .error e → ¬ P s' → P (f s').2 → Q (.error e) (f s').2) :
    ((prim f).bind g).Pays D P Q s := by
  intro s' hs hi
  refine ⟨hstep s' hs hi, ?_⟩
  cases hr : (f s').1 with
  | ok a => exact hok s' a hs hi hr
  | error e => exact ⟨herr s' e hs hi hr, trivial⟩

end

/-- What is known only by having obeyed survives the others' moves. -/
theorem Obeys.stable {p : Prog σ ε α} {s s' : σ} (h : p.Obeys D (fun _ _ => True) s)
    (hs : D.step s s') : p.Obeys D (fun _ _ => True) s' := by
  cases p with
  | ret a => trivial
  | fail e => trivial
  | act f k => exact fun s'' hs'' hi => h s'' (D.trans _ _ _ hs hs'') hi

end Prog

/-! ## Pools of programs -/

/-- A shared state and the programs that are under way on it. -/
structure Pool (σ ε : Type) : Type 1 where
  state : σ
  threads : List (Prog σ ε Unit)

namespace Pool

variable {σ ε : Type} {D : Discipline σ}

/-- One step of the pool: a program is started, one program takes its next action, or the
state changes from outside. -/
inductive Step (start : σ → Prog σ ε Unit → Prop) (outside : σ → σ → Prop) :
    Pool σ ε → Pool σ ε → Prop
  | start {s ts p} : start s p → Step start outside ⟨s, ts⟩ ⟨s, ts ++ [p]⟩
  | act {s ts₁ ts₂} {β : Type} {f : σ → β × σ} {k : β → Prog σ ε Unit} :
      Step start outside ⟨s, ts₁ ++ .act f k :: ts₂⟩ ⟨(f s).2, ts₁ ++ k (f s).1 :: ts₂⟩
  | outside {s s' ts} : outside s s' → Step start outside ⟨s, ts⟩ ⟨s', ts⟩

/-- Reachable from a state with nothing under way. -/
def Reachable (init : σ → Prop) (start : σ → Prog σ ε Unit → Prop) (outside : σ → σ → Prop)
    (c : Pool σ ε) : Prop :=
  ∃ s, init s ∧ Relation.ReflTransGen (Step start outside) ⟨s, []⟩ c

/-- The state keeps the invariant and everything under way obeys. -/
def Good (D : Discipline σ) (c : Pool σ ε) : Prop :=
  D.inv c.state ∧ ∀ p ∈ c.threads, p.Obeys D (fun _ _ => True) c.state

variable {start : σ → Prog σ ε Unit → Prop} {outside : σ → σ → Prop}

theorem Step.good {c c' : Pool σ ε} (h : Step start outside c c') (hg : Good D c)
    (hstart : ∀ s p, D.inv s → start s p → p.Obeys D (fun _ _ => True) s)
    (hout : ∀ s s', D.inv s → outside s s' → D.step s s' ∧ D.inv s') : Good D c' := by
  obtain ⟨hi, ho⟩ := hg
  cases h with
  | @start s ts p hp =>
    refine ⟨hi, fun q hq => ?_⟩
    rcases List.mem_append.1 hq with hq | hq
    · exact ho q hq
    · rw [List.mem_singleton.1 hq]
      exact hstart _ _ hi hp
  | @act s ts₁ ts₂ β f k =>
    obtain ⟨⟨hs, hi'⟩, hk⟩ := ho (.act f k) (by simp) s (D.refl s) hi
    refine ⟨hi', fun q hq => ?_⟩
    rcases List.mem_append.1 hq with hq | hq
    · exact (ho q (by simp [hq])).stable hs
    · rcases List.mem_cons.1 hq with rfl | hq
      · exact hk
      · exact (ho q (by simp [hq])).stable hs
  | @outside s s' ts hs =>
    obtain ⟨hs', hi'⟩ := hout _ _ hi hs
    exact ⟨hi', fun q hq => (ho q hq).stable hs'⟩

/-- **The discipline holds in every state of every interleaving.** -/
theorem Reachable.good {init : σ → Prop} {c : Pool σ ε} (h : Reachable init start outside c)
    (hinit : ∀ s, init s → D.inv s)
    (hstart : ∀ s p, D.inv s → start s p → p.Obeys D (fun _ _ => True) s)
    (hout : ∀ s s', D.inv s → outside s s' → D.step s s' ∧ D.inv s') : Good D c := by
  obtain ⟨s, hs, hrun⟩ := h
  induction hrun with
  | refl => exact ⟨hinit s hs, by simp⟩
  | tail _ hstep ih => exact hstep.good ih hstart hout

/-- While `P` holds, something under way sees to `Q`. -/
theorem Step.paid {P : σ → Prop} {Q : Except ε Unit → σ → Prop} {c c' : Pool σ ε}
    (h : Step start outside c c') (hg : D.inv c.state ∧ (∀ p ∈ c.threads, p.Pays D P Q c.state) ∧
      (P c.state → ∃ p ∈ c.threads, p.Obeys D Q c.state))
    (hstart : ∀ s p, D.inv s → start s p → p.Pays D P Q s)
    (hout : ∀ s s', D.inv s → outside s s' → (D.step s s' ∧ D.inv s') ∧ (P s' → P s))
    (hq : ∀ r a b, D.step a b → Q r a → Q r b) :
    D.inv c'.state ∧ (∀ p ∈ c'.threads, p.Pays D P Q c'.state) ∧
      (P c'.state → ∃ p ∈ c'.threads, p.Obeys D Q c'.state) := by
  obtain ⟨hi, hpays, howed⟩ := hg
  cases h with
  | @start s ts p hp =>
    refine ⟨hi, fun q hq => ?_, fun hP => ?_⟩
    · rcases List.mem_append.1 hq with hq | hq
      · exact hpays q hq
      · rw [List.mem_singleton.1 hq]
        exact hstart _ _ hi hp
    · obtain ⟨q, hq, ho⟩ := howed hP
      exact ⟨q, List.mem_append_left _ hq, ho⟩
  | @act s ts₁ ts₂ β f k =>
    obtain ⟨⟨hs, hi'⟩, hraise, hk⟩ := hpays (.act f k) (by simp) s (D.refl s) hi
    refine ⟨hi', fun q hq => ?_, fun hP => ?_⟩
    · rcases List.mem_append.1 hq with hq | hq
      · exact (hpays q (by simp [hq])).weaken hs
      · rcases List.mem_cons.1 hq with rfl | hq
        · exact hk
        · exact (hpays q (by simp [hq])).weaken hs
    · by_cases hbefore : P s
      · -- Somebody saw to it already: this program, or another.
        obtain ⟨q, hmem, ho⟩ := howed hbefore
        rcases List.mem_append.1 hmem with hmem | hmem
        · exact ⟨q, List.mem_append_left _ hmem, ho.weaken hq hs⟩
        · rcases List.mem_cons.1 hmem with rfl | hmem
          · exact ⟨_, by simp, (ho s (D.refl s) hi).2⟩
          · exact ⟨q, by simp [hmem], ho.weaken hq hs⟩
      · exact ⟨_, by simp, hraise hbefore hP⟩
  | @outside s s' ts hs =>
    obtain ⟨⟨hs', hi'⟩, hraise⟩ := hout _ _ hi hs
    refine ⟨hi', fun q hq => (hpays q hq).weaken hs', fun hP => ?_⟩
    obtain ⟨q, hmem, ho⟩ := howed (hraise hP)
    exact ⟨q, hmem, ho.weaken hq hs'⟩

/-- **Whenever `P` holds, something under way sees to `Q`**; when everything has ended, `Q` has been seen
to. -/
theorem Reachable.paid {P : σ → Prop} {Q : Except ε Unit → σ → Prop} {init : σ → Prop} {c : Pool σ ε}
    (h : Reachable init start outside c) (hinit : ∀ s, init s → D.inv s ∧ ¬ P s)
    (hstart : ∀ s p, D.inv s → start s p → p.Pays D P Q s)
    (hout : ∀ s s', D.inv s → outside s s' → (D.step s s' ∧ D.inv s') ∧ (P s' → P s))
    (hq : ∀ r a b, D.step a b → Q r a → Q r b) :
    D.inv c.state ∧ (P c.state → ∃ p ∈ c.threads, p.Obeys D Q c.state) := by
  obtain ⟨s, hs, hrun⟩ := h
  have hall : D.inv c.state ∧ (∀ p ∈ c.threads, p.Pays D P Q c.state) ∧
      (P c.state → ∃ p ∈ c.threads, p.Obeys D Q c.state) := by
    induction hrun with
    | refl => exact ⟨(hinit s hs).1, by simp, fun hP => absurd hP (hinit s hs).2⟩
    | tail _ hstep ih => exact hstep.paid ih hstart hout hq
  exact ⟨hall.1, hall.2.2⟩

/-- Each step of a good pool goes along `D.step`. -/
theorem Step.along {c c' : Pool σ ε} (h : Step start outside c c') (hg : Good D c)
    (hout : ∀ s s', D.inv s → outside s s' → D.step s s' ∧ D.inv s') : D.step c.state c'.state := by
  cases h with
  | start hp => exact D.refl _
  | @act s ts₁ ts₂ β f k => exact (hg.2 (.act f k) (by simp) s (D.refl s) hg.1).1.1
  | outside hs => exact (hout _ _ hg.1 hs).1

/-- **The state only goes along `D.step`.** -/
theorem Reachable.along {init : σ → Prop} {c c' : Pool σ ε} (h : Reachable init start outside c)
    (hrun : Relation.ReflTransGen (Step start outside) c c')
    (hinit : ∀ s, init s → D.inv s)
    (hstart : ∀ s p, D.inv s → start s p → p.Obeys D (fun _ _ => True) s)
    (hout : ∀ s s', D.inv s → outside s s' → D.step s s' ∧ D.inv s') : D.step c.state c'.state := by
  have hgood := h.good hinit hstart hout
  have hall : D.step c.state c'.state ∧ Good D c' := by
    induction hrun with
    | refl => exact ⟨D.refl _, hgood⟩
    | tail _ hstep ih =>
      obtain ⟨halong, hgood₁⟩ := ih
      exact ⟨D.trans _ _ _ halong (hstep.along hgood₁ hout), hstep.good hgood₁ hstart hout⟩
  exact hall.1

/-- Where every program goes along `R` but at an `X`, so does every step. -/
theorem Step.but {R : σ → σ → Prop} {X : Prog σ ε Unit → Prop} {c c' : Pool σ ε} (h : Step start outside c c')
    (hR : ∀ s, R s s) (hthreads : ∀ p ∈ c.threads, p.MovesBut R X) (hstart : ∀ s p, start s p → p.MovesBut R X)
    (hout : ∀ s s', outside s s' → R s s') :
    (∀ p ∈ c'.threads, p.MovesBut R X) ∧ (R c.state c'.state ∨
      ∃ (ts₁ ts₂ : List (Prog σ ε Unit)) (β : Type) (f : σ → β × σ) (k : β → Prog σ ε Unit), X (.act f k) ∧
        c.threads = ts₁ ++ .act f k :: ts₂ ∧ c' = ⟨(f c.state).2, ts₁ ++ k (f c.state).1 :: ts₂⟩) := by
  cases h with
  | @start s ts p hp =>
    refine ⟨fun q hq => ?_, Or.inl (hR _)⟩
    rcases List.mem_append.1 hq with hq | hq
    · exact hthreads q hq
    · rw [List.mem_singleton.1 hq]
      exact hstart _ _ hp
  | @act s ts₁ ts₂ β f k =>
    obtain ⟨hact, hk⟩ := hthreads (.act f k) (by simp)
    refine ⟨fun q hq => ?_, ?_⟩
    · rcases List.mem_append.1 hq with hq | hq
      · exact hthreads q (by simp [hq])
      · rcases List.mem_cons.1 hq with rfl | hq
        · exact hk _
        · exact hthreads q (by simp [hq])
    · rcases hact with hx | hr
      · exact Or.inr ⟨ts₁, ts₂, β, f, k, hx, rfl, rfl⟩
      · exact Or.inl (hr s)
  | outside hs => exact ⟨hthreads, Or.inl (hout _ _ hs)⟩

/-- Running one program alone is one of its interleavings. -/
theorem run_alone (p : Prog σ ε Unit) (s : σ) (ts : List (Prog σ ε Unit)) :
    Relation.ReflTransGen (Step start outside) ⟨s, ts ++ [p]⟩ ⟨(p.exec s).2, ts ++ [.ofExcept (p.exec s).1]⟩ := by
  induction p generalizing s with
  | ret a => exact .refl
  | fail e => exact .refl
  | act f k ih => exact .head Step.act (ih (f s).1 (f s).2)

/-- The next action of the program at `i`, if it has one. -/
def advance (i : Nat) (c : Pool σ ε) : Pool σ ε :=
  match c.threads[i]? with
  | some (.act f k) => ⟨(f c.state).2, c.threads.set i (k (f c.state).1)⟩
  | _ => c

/-- One action after another, of the programs listed. -/
def schedule (is : List Nat) (c : Pool σ ε) : Pool σ ε := is.foldl (fun c i => c.advance i) c

/-- The list around its `i`-th element. -/
theorem split_at {α : Type*} {ts : List α} {i : Nat} {a : α} (h : ts[i]? = some a) (b : α) :
    ts = ts.take i ++ a :: ts.drop (i + 1) ∧ ts.set i b = ts.take i ++ b :: ts.drop (i + 1) := by
  obtain ⟨hlt, hget⟩ := List.getElem?_eq_some_iff.1 h
  refine ⟨?_, ?_⟩
  · rw [← hget, ← List.drop_eq_getElem_cons hlt, List.take_append_drop]
  · rw [List.set_eq_take_append_cons_drop, if_pos hlt]

theorem step_advance {c : Pool σ ε} {i : Nat} {β : Type} {f : σ → β × σ} {k : β → Prog σ ε Unit}
    (hi : c.threads[i]? = some (.act f k)) : Step start outside c (c.advance i) := by
  obtain ⟨s, ts⟩ := c
  have hi' : ts[i]? = some (.act f k) := hi
  obtain ⟨hsplit, hset⟩ := split_at hi' (k (f s).1)
  have hstep : Step start outside ⟨s, ts.take i ++ .act f k :: ts.drop (i + 1)⟩
    ⟨(f s).2, ts.take i ++ k (f s).1 :: ts.drop (i + 1)⟩ := .act
  rw [← hsplit] at hstep
  simp only [advance, hi', hset]
  exact hstep

theorem advance_step (i : Nat) (c : Pool σ ε) : c.advance i = c ∨ Step start outside c (c.advance i) := by
  by_cases h : ∃ (β : Type) (f : σ → β × σ) (k : β → Prog σ ε Unit), c.threads[i]? = some (.act f k)
  · obtain ⟨β, f, k, hi⟩ := h
    exact Or.inr (step_advance hi)
  · left
    unfold advance
    split
    · rename_i β f k hi
      exact absurd ⟨β, f, k, hi⟩ h
    · rfl

/-- Any schedule is a run. -/
theorem schedule_run (is : List Nat) (c : Pool σ ε) : Relation.ReflTransGen (Step start outside) c (c.schedule is) := by
  induction is generalizing c with
  | nil => exact .refl
  | cons i is ih =>
    rcases @advance_step σ ε start outside i c with h | h
    · have hrest := ih (c.advance i)
      rw [h] at hrest
      rw [schedule, List.foldl_cons, h]
      exact hrest
    · exact (Relation.ReflTransGen.single h).trans (ih (c.advance i))

/-- Start a program and run it to its end. -/
theorem start_alone {p : Prog σ ε Unit} {s : σ} (h : start s p) (ts : List (Prog σ ε Unit)) :
    Relation.ReflTransGen (Step start outside) ⟨s, ts⟩ ⟨(p.exec s).2, ts ++ [.ofExcept (p.exec s).1]⟩ :=
  .head (Step.start h) (run_alone p s ts)

/-- A program that may be started can be run to its end before anything else happens. -/
theorem Reachable.run {init : σ → Prop} {c : Pool σ ε} (h : Reachable init start outside c)
    {p : Prog σ ε Unit} (hp : start c.state p) :
    ∃ ts, Reachable init start outside ⟨(p.exec c.state).2, ts⟩ := by
  obtain ⟨s, hs, hrun⟩ := h
  exact ⟨_, s, hs, hrun.trans (start_alone hp c.threads)⟩

theorem Reachable.initial {init : σ → Prop} {s : σ} (h : init s) : Reachable init start outside (⟨s, []⟩ : Pool σ ε) :=
  ⟨s, h, .refl⟩

/-- One more program is under way. -/
theorem Reachable.started {init : σ → Prop} {c : Pool σ ε} (h : Reachable init start outside c)
    {p : Prog σ ε Unit} (hp : start c.state p) : Reachable init start outside ⟨c.state, c.threads ++ [p]⟩ := by
  obtain ⟨s, hs, hrun⟩ := h
  exact ⟨s, hs, hrun.tail (Step.start hp)⟩

theorem Reachable.scheduled {init : σ → Prop} {c : Pool σ ε} (h : Reachable init start outside c) (is : List Nat) :
    Reachable init start outside (c.schedule is) := by
  obtain ⟨s, hs, hrun⟩ := h
  exact ⟨s, hs, hrun.trans (schedule_run is c)⟩

/-- A change from outside leads from a reachable state to a reachable one. -/
theorem Reachable.moved {init : σ → Prop} {c : Pool σ ε} {s' : σ}
    (h : Reachable init start outside c) (hs : outside c.state s') :
    Reachable init start outside ⟨s', c.threads⟩ := by
  obtain ⟨s, hi, hrun⟩ := h
  exact ⟨s, hi, hrun.tail (Step.outside hs)⟩

end Pool
