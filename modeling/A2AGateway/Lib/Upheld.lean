import A2AGateway.Lib.Interleave

/-!
# Invariants that everyone upholds

`p.Upholds I P`: each action of `p` that is taken where `I` holds leaves a state where `I` holds, and `P` holds of
what `p` returns, whatever the others have done meanwhile, as long as they uphold `I` too. `P` may not speak of the
state: it is what is known for good of a value that has been read. Where all programs of a pool uphold `I`, so
does the pool (`Pool.Reachable.upheld`).
-/

namespace Prog

variable {σ τ ε ε' α β : Type} {I : σ → Prop} {P : α → Prop} {Q : β → Prop}

def Upholds (I : σ → Prop) (P : α → Prop) : Prog σ ε α → Prop
  | ret a => P a
  | fail _ => True
  | act f k => ∀ s, I s → I (f s).2 ∧ (k (f s).1).Upholds I P

theorem Upholds.post {P' : α → Prop} {p : Prog σ ε α} (h : p.Upholds I P) (hP : ∀ a, P a → P' a) : p.Upholds I P' := by
  induction p with
  | ret a => exact hP a h
  | fail e => trivial
  | act f k ih => exact fun s hs => ⟨(h s hs).1, ih _ (h s hs).2⟩

theorem Upholds.bind {p : Prog σ ε α} {g : α → Prog σ ε β} (hp : p.Upholds I P) (hg : ∀ a, P a → (g a).Upholds I Q) :
    (p.bind g).Upholds I Q := by
  induction p with
  | ret a => exact hg a hp
  | fail e => trivial
  | act f k ih => exact fun s hs => ⟨(hp s hs).1, ih _ (hp s hs).2⟩

/-- Where nothing is known of what comes first. -/
theorem Upholds.seq {p : Prog σ ε α} {g : α → Prog σ ε β} (hp : p.Upholds I fun _ => True) (hg : ∀ a, (g a).Upholds I Q) :
    (p.bind g).Upholds I Q := hp.bind fun a _ => hg a

theorem Upholds.attempt {p : Prog σ ε α} (hp : p.Upholds I P) : p.attempt.Upholds I fun o => ∀ a ∈ o, P a := by
  induction p with
  | ret a =>
    intro a' ha
    cases ha
    exact hp
  | fail e => exact fun a ha => absurd ha (Option.not_mem_none a)
  | act f k ih => exact fun s hs => ⟨(hp s hs).1, ih _ (hp s hs).2⟩

theorem Upholds.outcome {p : Prog σ ε α} (hp : p.Upholds I P) :
    (p.outcome : Prog σ ε' _).Upholds I fun r => ∀ a, r = .ok a → P a := by
  induction p with
  | ret a =>
    intro a' ha
    cases ha
    exact hp
  | fail e =>
    intro a ha
    cases ha
  | act f k ih => exact fun s hs => ⟨(hp s hs).1, ih _ (hp s hs).2⟩

theorem Upholds.mapErr {g : ε → ε'} {p : Prog σ ε α} (hp : p.Upholds I P) : (p.mapErr g).Upholds I P := by
  induction p with
  | ret a => exact hp
  | fail e => trivial
  | act f k ih => exact fun s hs => ⟨(hp s hs).1, ih _ (hp s hs).2⟩

theorem Upholds.forEach {γ : Type} {body : γ → Prog σ ε Unit} :
    ∀ {xs : List γ}, (∀ x ∈ xs, (body x).Upholds I fun _ => True) → (forEach xs body).Upholds I fun _ => True
  | [], _ => trivial
  | x :: _, h => (h x (by simp)).bind fun _ _ => Upholds.forEach fun y hy => h y (by simp [hy])

/-- What a look at the state shows. -/
theorem upholds_look {f : σ → α} (h : ∀ s, I s → P (f s)) : (look f : Prog σ ε α).Upholds I P :=
  fun s hs => ⟨hs, h s hs⟩

theorem upholds_prim {f : σ → Except ε α × σ} (hI : ∀ s, I s → I (f s).2) (hP : ∀ s a, I s → (f s).1 = .ok a → P a) :
    (prim f).Upholds I P := by
  intro s hs
  refine ⟨hI s hs, ?_⟩
  cases hr : (f s).1 with
  | ok a => exact hP s a hs hr
  | error e => trivial

/-- A program that never replies, as what it could reply with never holds. -/
theorem Upholds.replying {ρ : Type} {note : Except ε α → List ρ} {l : List ρ} {p : Prog σ ε α} (hp : p.Upholds I P)
    (hok : ∀ a, P a → note (.ok a) = []) (herr : ∀ e, note (.error e) = []) :
    (p.replying note).Upholds (fun s => I s.1 ∧ s.2 = l) fun _ => True := by
  induction p with
  | ret a => trivial
  | fail e => trivial
  | act f k ih =>
    intro s hs
    obtain ⟨hI, hk⟩ := hp s.1 hs.1
    have hreply : (k (f s.1).1).reply note = [] := by
      cases h : k (f s.1).1 with
      | ret a =>
        rw [h] at hk
        exact hok a hk
      | fail e => exact herr e
      | act f' k' => rfl
    refine ⟨⟨hI, ?_⟩, ih _ hk⟩
    show s.2 ++ (k (f s.1).1).reply note = l
    rw [hreply, List.append_nil, hs.2]

theorem upholds_ofExcept {r : Except ε α} (h : ∀ a, r = .ok a → P a) : (ofExcept r : Prog σ ε α).Upholds I P := by
  cases r with
  | ok a => exact h a rfl
  | error e => trivial

/-- A program none of whose actions can break the invariant. -/
theorem Moves.upholds {p : Prog σ ε α} (hp : p.Moves fun s s' => I s → I s') : p.Upholds I fun _ => True := by
  induction p with
  | ret a => trivial
  | fail e => trivial
  | act f k ih => exact fun s hs => ⟨hp.1 s hs, ih _ (hp.2 _)⟩

/-- Run alone. -/
theorem Upholds.exec {p : Prog σ ε α} (hp : p.Upholds I P) {s : σ} (hs : I s) :
    I (p.exec s).2 ∧ ∀ a, (p.exec s).1 = .ok a → P a := by
  induction p generalizing s with
  | ret a => exact ⟨hs, fun a' ha => Except.ok.inj ha ▸ hp⟩
  | fail e => exact ⟨hs, fun a ha => nomatch ha⟩
  | act f k ih => exact ih _ (hp s hs).2 (hp s hs).1

/-- On a part of the state. -/
theorem Upholds.within {L : Focus σ τ} {J : τ → Prop} {p : Prog τ ε α} (hp : p.Upholds J P) (hget : ∀ s, I s → J (L.get s))
    (hset : ∀ s t, I s → J t → I (L.set t s)) : (p.within L).Upholds I P := by
  induction p with
  | ret a => exact hp
  | fail e => trivial
  | act f k ih =>
    intro s hs
    obtain ⟨hJ, hk⟩ := hp _ (hget s hs)
    exact ⟨hset s _ hs hJ, ih _ hk⟩

/-- The discipline of an invariant. -/
def upholding (I : σ → Prop) : Discipline σ where
  inv := I
  step _ _ := True
  refl _ := trivial
  trans _ _ _ _ _ := trivial

theorem Upholds.obeys {p : Prog σ ε α} (hp : p.Upholds I P) (s : σ) : p.Obeys (upholding I) (fun _ _ => True) s := by
  induction p generalizing s with
  | ret a => trivial
  | fail e => trivial
  | act f k ih => exact fun s' _ hs => ⟨⟨trivial, (hp s' hs).1⟩, ih _ (hp s' hs).2 _⟩

/-- A program that upholds the invariant of a discipline, each of whose actions is one of its steps. -/
theorem Upholds.obeys_along {D : Discipline σ} {p : Prog σ ε α} (hp : p.Upholds D.inv P) (hstep : p.Moves D.step) (s : σ) :
    p.Obeys D (fun _ _ => True) s := by
  induction p generalizing s with
  | ret a => trivial
  | fail e => trivial
  | act f k ih => exact fun s' _ hs => ⟨⟨hstep.1 s', (hp s' hs).1⟩, ih _ (hp s' hs).2 (hstep.2 _) _⟩

end Prog

/-- One step of a pool whose programs uphold `I`. -/
theorem Pool.Step.upheld {σ ε : Type} {I : σ → Prop} {start : σ → Prog σ ε Unit → Prop} {outside : σ → σ → Prop}
    {c c' : Pool σ ε} (h : Pool.Step start outside c c') (hI : I c.state) (hthreads : ∀ p ∈ c.threads, p.Upholds I fun _ => True)
    (hstart : ∀ s p, start s p → p.Upholds I fun _ => True) (hout : outside c.state c'.state → I c'.state) :
    I c'.state ∧ ∀ p ∈ c'.threads, p.Upholds I fun _ => True := by
  cases h with
  | start hp =>
    refine ⟨hI, fun q hq => ?_⟩
    rcases List.mem_append.1 hq with hq | hq
    · exact hthreads q hq
    · rw [List.mem_singleton.1 hq]
      exact hstart _ _ hp
  | @act s ts₁ ts₂ β f k =>
    obtain ⟨hI', hk⟩ := hthreads (.act f k) (by simp) s hI
    refine ⟨hI', fun q hq => ?_⟩
    rcases List.mem_append.1 hq with hq | hq
    · exact hthreads q (by simp [hq])
    · rcases List.mem_cons.1 hq with rfl | hq
      · exact hk
      · exact hthreads q (by simp [hq])
  | outside hs => exact ⟨hout hs, hthreads⟩

/-- **What every program of a pool upholds holds in every state of every interleaving.** -/
theorem Pool.Reachable.upheld {σ ε : Type} {I : σ → Prop} {init : σ → Prop} {start : σ → Prog σ ε Unit → Prop}
    {outside : σ → σ → Prop} {c : Pool σ ε} (h : Pool.Reachable init start outside c) (hinit : ∀ s, init s → I s)
    (hstart : ∀ s p, I s → start s p → p.Upholds I fun _ => True) (hout : ∀ s s', I s → outside s s' → I s') : I c.state :=
  (h.good (D := Prog.upholding I) hinit (fun s p hs hp => (hstart s p hs hp).obeys s)
    fun s s' hs hso => ⟨trivial, hout s s' hs hso⟩).1
