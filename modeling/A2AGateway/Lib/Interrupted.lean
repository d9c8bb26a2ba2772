import A2AGateway.Lib.Prog
import Mathlib.Logic.Function.Iterate
import Mathlib.Logic.Relation

/-!
# A program that is interrupted

One program, between whose actions others change the state. The program and the others do not keep the same
promises: `others` says what may happen in between, and the actions of the program are judged one by one
(`Guards`). A run may leave out the actions that are taken where `X` holds of what is left of the program and of
the state (`Interrupted.Step`).
-/

namespace Prog

variable {σ ε ε' α β : Type}

/-- Whatever comes of the first program, what follows goes on with it. -/
def andThen : Prog σ ε α → (Except ε α → Prog σ ε' β) → Prog σ ε' β
  | ret a, g => g (.ok a)
  | fail e, g => g (.error e)
  | act f k, g => act f fun b => (k b).andThen g

theorem bind_andThen {γ : Type} (p : Prog σ ε α) (g : α → Prog σ ε β) (r : Except ε β → Prog σ ε' γ) :
    (p.bind g).andThen r = p.andThen fun
      | .ok a => (g a).andThen r
      | .error e => r (.error e) := by
  induction p with
  | ret a => rfl
  | fail e => rfl
  | act f k ih => exact congrArg (act f) (funext ih)

theorem attempt_bind (p : Prog σ ε α) (g : Option α → Prog σ ε β) :
    p.attempt.bind g = p.andThen fun r => g r.toOption := by
  induction p with
  | ret a => rfl
  | fail e => rfl
  | act f k ih => exact congrArg (act f) (funext ih)

end Prog

/-! ## Runs -/

namespace Interrupted

variable {σ ε α : Type}

/-- One action of the program, but none that `X` holds of, or a change by others. -/
inductive Step (others : σ → σ → Prop) (X : Prog σ ε α → σ → Prop) : Prog σ ε α × σ → Prog σ ε α × σ → Prop
  | act {β : Type} {f : σ → β × σ} {k : β → Prog σ ε α} {s : σ} : ¬ X (.act f k) s →
      Step others X (.act f k, s) (k (f s).1, (f s).2)
  | others {p : Prog σ ε α} {s s' : σ} : others s s' → Step others X (p, s) (p, s')

abbrev Run (others : σ → σ → Prop) (X : Prog σ ε α → σ → Prop) := Relation.ReflTransGen (Step others X)

/-- The next action of the program, if it has one. -/
def advance : Prog σ ε α × σ → Prog σ ε α × σ
  | (.act f k, s) => (k (f s).1, (f s).2)
  | c => c

variable {others : σ → σ → Prop} {X : Prog σ ε α → σ → Prop}

/-- The program goes on for a while, and is not interrupted. -/
theorem run_advance {c : Prog σ ε α × σ} (n : Nat) (h : ∀ i < n, ¬ X (advance^[i] c).1 (advance^[i] c).2) :
    Run others X c (advance^[n] c) := by
  induction n with
  | zero => exact .refl
  | succ n ih =>
    have hbefore := ih fun i hi => h i (Nat.lt_succ_of_lt hi)
    have hnext := h n (Nat.lt_succ_self n)
    rw [Function.iterate_succ_apply']
    generalize advance^[n] c = c' at hbefore hnext
    obtain ⟨p, s⟩ := c'
    cases p with
    | ret a => exact hbefore
    | fail e => exact hbefore
    | act f k => exact hbefore.tail (Step.act hnext)

/-- The first part of the program, run to its end. -/
theorem run_andThen {ε₀ β : Type} (p : Prog σ ε₀ β) (g : Except ε₀ β → Prog σ ε α) (s : σ) :
    Run others (fun _ _ => False) (p.andThen g, s) (g (p.exec s).1, (p.exec s).2) := by
  induction p generalizing s with
  | ret a => exact .refl
  | fail e => exact .refl
  | act f k ih => exact .head (Step.act id) (ih (f s).1 (f s).2)

/-- Each action that is taken where `X` does not hold keeps `I`, whatever the others did before it. -/
def Guards (others : σ → σ → Prop) (X : Prog σ ε α → σ → Prop) (I : σ → Prop) : Prog σ ε α → σ → Prop
  | .ret _, _ => True
  | .fail _, _ => True
  | .act f k, s => ∀ s', others s s' → I s' → ¬ X (.act f k) s' → I (f s').2 ∧ Guards others X I (k (f s').1) (f s').2

/-- An action that may fail, and what follows it in a part of the program. -/
theorem Guards.prim_bind {I : σ → Prop} {ε₀ β γ : Type} {F : σ → Except ε₀ β × σ} {g : β → Prog σ ε₀ γ}
    {rest : Except ε₀ γ → Prog σ ε α} {s : σ}
    (hstep : ∀ s', others s s' → I s' → I (F s').2)
    (hok : ∀ s' a, others s s' → ¬ X (((Prog.prim F).bind g).andThen rest) s' → (F s').1 = .ok a →
      Guards others X I ((g a).andThen rest) (F s').2)
    (herr : ∀ s' e, others s s' → (F s').1 = .error e → Guards others X I (rest (.error e)) (F s').2) :
    Guards others X I (((Prog.prim F).bind g).andThen rest) s := by
  intro s' hs hi hX
  refine ⟨hstep s' hs hi, ?_⟩
  cases hr : (F s').1 with
  | ok a => exact hok s' a hs hX hr
  | error e => exact herr s' e hs hr

section
variable {I : σ → Prop} (htrans : ∀ a b c, others a b → others b c → others a c)
include htrans

theorem Guards.later {p : Prog σ ε α} {s s' : σ} (h : Guards others X I p s) (hs : others s s') : Guards others X I p s' := by
  cases p with
  | ret a => trivial
  | fail e => trivial
  | act f k => exact fun s'' hs'' => h s'' (htrans _ _ _ hs hs'')

variable (hI : ∀ s s', others s s' → I s → I s')
include hI

/-- First a program that only does what the others may do, too. -/
theorem Guards.andThen {ε₀ β : Type} {p : Prog σ ε₀ β} {g : Except ε₀ β → Prog σ ε α} {s₀ s : σ} (hp : p.Moves others)
    (hs : others s₀ s) (hg : ∀ r s', others s₀ s' → Guards others X I (g r) s') : Guards others X I (p.andThen g) s := by
  induction p generalizing s with
  | ret a => exact hg _ s hs
  | fail e => exact hg _ s hs
  | act f k ih =>
    intro s' hs' hi _
    have hmove := hp.1 s'
    exact ⟨hI _ _ hmove hi, ih _ (hp.2 _) (htrans _ _ _ hs (htrans _ _ _ hs' hmove))⟩

/-- **The invariant holds in every state of every run.** -/
theorem Run.keeps {c c' : Prog σ ε α × σ} (h : Run others X c c') (hrefl : ∀ s, others s s)
    (hc : I c.2 ∧ Guards others X I c.1 c.2) : I c'.2 ∧ Guards others X I c'.1 c'.2 := by
  induction h with
  | refl => exact hc
  | tail _ hstep ih =>
    obtain ⟨hi, hg⟩ := ih
    cases hstep with
    | @act β f k s hX => exact hg s (hrefl s) hi hX
    | others hs => exact ⟨hI _ _ hs hi, hg.later htrans hs⟩

end

/-! ## Runs to the end -/

/-- The program runs to its end from the state, and changes by others come before each of its actions; listed are
the states that the actions find. -/
inductive Ends (others : σ → σ → Prop) : Prog σ ε α → σ → List σ → Except ε α → σ → Prop
  | ret {a : α} {s : σ} : Ends others (.ret a) s [] (.ok a) s
  | fail {e : ε} {s : σ} : Ends others (.fail e) s [] (.error e) s
  | act {β : Type} {f : σ → β × σ} {k : β → Prog σ ε α} {s s' s'' : σ} {found : List σ} {r : Except ε α} : others s s' →
      Ends others (k (f s').1) (f s').2 found r s'' → Ends others (.act f k) s (s' :: found) r s''

namespace Ends

variable {others : σ → σ → Prop} {s s' : σ} {found : List σ}

theorem look_iff {f : σ → α} {r : Except ε α} :
    Ends others (Prog.look f) s found r s' ↔ others s s' ∧ found = [s'] ∧ r = .ok (f s') := by
  constructor
  · rintro (_ | _ | ⟨hs, hrest⟩)
    cases hrest
    exact ⟨hs, rfl, rfl⟩
  · rintro ⟨hs, rfl, rfl⟩
    exact .act hs .ret

theorem prim_iff {f : σ → Except ε α × σ} {r : Except ε α} :
    Ends others (Prog.prim f) s found r s' ↔ ∃ s₁, others s s₁ ∧ found = [s₁] ∧ (Prog.prim f).exec s₁ = (r, s') := by
  simp only [Prog.exec_prim]
  constructor
  · rintro (_ | _ | @⟨_, _, _, _, s₁, _, _, _, hs, hrest⟩)
    refine ⟨s₁, hs, ?_⟩
    cases hr : (f s₁).1 with
    | ok a =>
      rw [hr] at hrest
      cases hrest
      exact ⟨rfl, Prod.ext hr rfl⟩
    | error e =>
      rw [hr] at hrest
      cases hrest
      exact ⟨rfl, Prod.ext hr rfl⟩
  · rintro ⟨s₁, hs, rfl, hf⟩
    refine .act hs ?_
    rw [hf]
    cases r with
    | ok a => exact .ret
    | error e => exact .fail

theorem bind_ok_iff {β : Type} {p : Prog σ ε β} {g : β → Prog σ ε α} {a : α} :
    Ends others (p.bind g) s found (.ok a) s' ↔ ∃ b found₁ s₁ found₂, Ends others p s found₁ (.ok b) s₁ ∧
      Ends others (g b) s₁ found₂ (.ok a) s' ∧ found = found₁ ++ found₂ := by
  constructor
  · intro h
    induction p generalizing s found with
    | ret b => exact ⟨b, [], s, found, .ret, h, rfl⟩
    | fail e => cases h
    | act f k ih =>
      obtain _ | _ | ⟨hs, hrest⟩ := h
      obtain ⟨b, found₁, s₁, found₂, hp, hg, rfl⟩ := ih _ hrest
      exact ⟨b, _, s₁, found₂, .act hs hp, hg, rfl⟩
  · rintro ⟨b, found₁, s₁, found₂, hp, hg, rfl⟩
    induction p generalizing s found₁ with
    | ret b => cases hp; exact hg
    | fail e => cases hp
    | act f k ih =>
      obtain _ | _ | ⟨hs, hrest⟩ := hp
      exact .act hs (ih _ _ hrest)

theorem ofExcept_iff {q r : Except ε α} : Ends others (Prog.ofExcept q) s found r s' ↔ found = [] ∧ s' = s ∧ r = q := by
  cases q with
  | ok a =>
    constructor
    · rintro ⟨⟩
      exact ⟨rfl, rfl, rfl⟩
    · rintro ⟨rfl, rfl, rfl⟩
      exact .ret
  | error e =>
    constructor
    · rintro ⟨⟩
      exact ⟨rfl, rfl, rfl⟩
    · rintro ⟨rfl, rfl, rfl⟩
      exact .fail

/-- A program that does the same and tells its result in other words ends as the program does. -/
theorem retold_iff {β : Type} {retell : Prog σ ε' α → Prog σ ε β} {g : Except ε' α → Except ε β}
    (hends : ∀ q, retell (Prog.ofExcept q) = Prog.ofExcept (g q))
    (hact : ∀ {γ : Type} (f : σ → γ × σ) (k : γ → Prog σ ε' α), retell (.act f k) = .act f fun c => retell (k c))
    {p : Prog σ ε' α} {r : Except ε β} :
    Ends others (retell p) s found r s' ↔ ∃ r₀, Ends others p s found r₀ s' ∧ r = g r₀ := by
  have hended : ∀ {s : σ} {found : List σ} (q : Except ε' α), Ends others (retell (Prog.ofExcept q)) s found r s' ↔
      ∃ r₀, Ends others (Prog.ofExcept q) s found r₀ s' ∧ r = g r₀ := by
    intro s found q
    rw [hends]
    simp only [ofExcept_iff]
    constructor
    · rintro ⟨hfound, hs, rfl⟩
      exact ⟨q, ⟨hfound, hs, rfl⟩, rfl⟩
    · rintro ⟨r₀, ⟨hfound, hs, rfl⟩, rfl⟩
      exact ⟨hfound, hs, rfl⟩
  induction p generalizing s found with
  | ret a => exact hended (.ok a)
  | fail e => exact hended (.error e)
  | act f k ih =>
    rw [hact]
    constructor
    · rintro (_ | _ | ⟨hs, hrest⟩)
      obtain ⟨r₀, hp, rfl⟩ := (ih _).1 hrest
      exact ⟨r₀, .act hs hp, rfl⟩
    · rintro ⟨r₀, _ | _ | ⟨hs, hrest⟩, rfl⟩
      exact .act hs ((ih _).2 ⟨r₀, hrest, rfl⟩)

theorem mapErr_iff {p : Prog σ ε' α} {g : ε' → ε} {r : Except ε α} :
    Ends others (p.mapErr g) s found r s' ↔ ∃ r₀, Ends others p s found r₀ s' ∧ r = r₀.mapError g := by
  refine retold_iff (fun q => ?_) fun f k => rfl
  cases q <;> rfl

theorem attempt_iff {p : Prog σ ε α} {r : Except ε (Option α)} :
    Ends others p.attempt s found r s' ↔ ∃ r₀, Ends others p s found r₀ s' ∧ r = .ok r₀.toOption := by
  refine retold_iff (g := fun q => .ok q.toOption) (fun q => ?_) fun f k => rfl
  cases q <;> rfl

end Ends

end Interrupted
