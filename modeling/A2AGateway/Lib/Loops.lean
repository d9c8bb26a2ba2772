import Mathlib.Tactic.Common

/-!
# Loops

`forRange` is a `for` over `0..n` whose body may panic. `turns` is a `loop` that its body leaves with a
result: so many turns of it, and where that has got it. Both over any state; what a loop counts beside its
work is part of the state. What takes one element of a list after the other is `List.foldl`; the rule for it
here is for relations between any two of its states.
-/

namespace Loops

variable {σ ρ : Type}

/-! ## Over a range -/

/-- `for i in 0..n`; `none` if a pass panics. -/
def forRange (body : Nat → σ → Option σ) : Nat → σ → Option σ
  | 0, s => some s
  | n + 1, s => (forRange body n s).bind (body n)

/-- **Passes that do not panic and keep the invariant lead to its end.** -/
theorem forRange_inv {body : Nat → σ → Option σ} {I : Nat → σ → Prop} {s : σ} (hstart : I 0 s) :
    ∀ n, (∀ i < n, ∀ t, I i t → ∃ t', body i t = some t' ∧ I (i + 1) t') → ∃ t, forRange body n s = some t ∧ I n t
  | 0, _ => ⟨s, rfl, hstart⟩
  | n + 1, hpass => by
    obtain ⟨t, ht, hi⟩ := forRange_inv hstart n fun i hi => hpass i (by omega)
    obtain ⟨t', ht', hi'⟩ := hpass n (by omega) t hi
    exact ⟨t', by simp [forRange, ht, ht'], hi'⟩

/-! ## Until it is left -/

/-- How one turn ends. -/
inductive Turn (σ ρ : Type)
  | again (s : σ)
  | stop (r : ρ)

/-- `n` turns, or fewer if one of them leaves the loop. -/
def turns (body : σ → Turn σ ρ) : Nat → σ → Turn σ ρ
  | 0, s => .again s
  | n + 1, s =>
    match turns body n s with
    | .again t => body t
    | .stop r => .stop r

section
variable {body : σ → Turn σ ρ} {s t : σ} {r r' : ρ} {m n : Nat}

theorem turns_succ (h : turns body n s = .again t) : turns body (n + 1) s = body t := by
  simp [turns, h]

/-- A loop that has been left stays left. -/
theorem turns_of_le (h : turns body n s = .stop r) : ∀ {m}, n ≤ m → turns body m s = .stop r
  | 0, hm => by
    obtain rfl : n = 0 := by omega
    exact h
  | m + 1, hm => by
    by_cases hn : n = m + 1
    · rw [← hn, h]
    · simp [turns, turns_of_le h (show n ≤ m by omega)]

/-- There is one result. -/
theorem stop_unique (h : turns body n s = .stop r) (h' : turns body m s = .stop r') : r = r' := by
  have hle := turns_of_le h (Nat.le_max_left n m)
  rw [turns_of_le h' (Nat.le_max_right n m)] at hle
  cases hle
  rfl

/-- The turn before one that goes on went on. -/
theorem exists_before (h : turns body (n + 1) s = .again t) : ∃ t', turns body n s = .again t' ∧ body t' = .again t := by
  cases hn : turns body n s with
  | again t' => exact ⟨t', rfl, by rw [← h, turns_succ hn]⟩
  | stop r => simp [turns, hn] at h

/-- The turn that leaves the loop. -/
theorem exists_last (h : turns body n s = .stop r) : ∃ m < n, ∃ t, turns body m s = .again t ∧ body t = .stop r := by
  induction n with
  | zero => cases h
  | succ n ih =>
    cases hn : turns body n s with
    | again t => exact ⟨n, by omega, t, hn, by rw [← h, turns_succ hn]⟩
    | stop r' =>
      obtain rfl : r' = r := stop_unique hn h
      obtain ⟨m, hm, hlast⟩ := ih hn
      exact ⟨m, by omega, hlast⟩

/-- **Turns that go on and keep the invariant lead to the next one.** -/
theorem turns_inv {I : Nat → σ → Prop} (hstart : I 0 s) :
    ∀ n, (∀ i < n, ∀ t, I i t → ∃ t', body t = .again t' ∧ I (i + 1) t') → ∃ t, turns body n s = .again t ∧ I n t
  | 0, _ => ⟨s, rfl, hstart⟩
  | n + 1, hturn => by
    obtain ⟨t, ht, hi⟩ := turns_inv hstart n fun i hi => hturn i (by omega)
    obtain ⟨t', ht', hi'⟩ := hturn n (by omega) t hi
    exact ⟨t', by rw [turns_succ ht, ht'], hi'⟩

end

/-! ## Over a list -/

section
variable {κ : Type} {step : σ → κ → σ} {R : σ → σ → Prop}

/-- **Steps that keep a preorder, each in the state that those before it have led to, keep it all together.** -/
theorem foldl_rel (hrefl : ∀ s, R s s) (htrans : ∀ {a b c}, R a b → R b c → R a c) :
    ∀ (xs : List κ) (s : σ), (∀ before x rest, xs = before ++ x :: rest →
      R (before.foldl step s) (step (before.foldl step s) x)) → R s (xs.foldl step s)
  | [], s, _ => hrefl s
  | x :: xs, s, hstep => by
    refine htrans (hstep [] x xs rfl) (foldl_rel hrefl htrans xs (step s x) fun before y rest hxs => ?_)
    simpa using hstep (x :: before) y rest (by simp [hxs])

end

end Loops
