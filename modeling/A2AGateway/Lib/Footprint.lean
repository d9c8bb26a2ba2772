import A2AGateway.Lib.Prog

/-!
# Which cells a program touches

Some part of the state is a family of cells. A program touches only the cells in `P` if none of its
actions can tell what the other cells hold, and each leaves them as they are (`Touches`). A whole
run then does neither (`Touches.exec`, `Touches.frame`).
-/

namespace Prog

variable {σ ε α β ι γ : Type} {F : Focus σ (ι → γ)} {P Q : ι → Prop}

/-- With other values in the cells outside `P` the action yields the same and does the same in `P`; outside it
leaves what it finds. -/
def Local (F : Focus σ (ι → γ)) (P : ι → Prop) (f : σ → β × σ) : Prop :=
  ∀ s c, (∀ i, P i → c i = F.get s i) → (f (F.set c s)).1 = (f s).1 ∧
    ∃ d, (f (F.set c s)).2 = F.set d (f s).2 ∧ (∀ i, P i → d i = F.get (f s).2 i) ∧ ∀ i, ¬ P i → d i = c i

theorem Local.frame {f : σ → β × σ} (hf : Local F P f) (s : σ) {i : ι} (hi : ¬ P i) :
    F.get (f s).2 i = F.get s i := by
  obtain ⟨-, d, hd, -, hout⟩ := hf s (F.get s) fun _ _ => rfl
  rw [F.set_get] at hd
  rw [hd, F.get_set]
  exact hout i hi

theorem Local.mono {f : σ → β × σ} (hPQ : ∀ i, P i → Q i) (hf : Local F P f) : Local F Q f := by
  intro s c hc
  obtain ⟨hres, d, hd, hin, hout⟩ := hf s c fun i hi => hc i (hPQ i hi)
  refine ⟨hres, d, hd, fun i hi => ?_, fun i hi => hout i fun hP => hi (hPQ i hP)⟩
  by_cases hP : P i
  · exact hin i hP
  · rw [hout i hP, hf.frame s hP]
    exact hc i hi

/-- Every action of the program touches only the cells in `P`. -/
def Touches (F : Focus σ (ι → γ)) (P : ι → Prop) : Prog σ ε α → Prop
  | ret _ => True
  | fail _ => True
  | act f k => Local F P f ∧ ∀ b, (k b).Touches F P

theorem Touches.mono (hPQ : ∀ i, P i → Q i) {p : Prog σ ε α} (hp : p.Touches F P) : p.Touches F Q := by
  induction p with
  | ret a => trivial
  | fail e => trivial
  | act f k ih => exact ⟨hp.1.mono hPQ, fun b => ih b (hp.2 b)⟩

theorem Touches.bind {p : Prog σ ε α} {g : α → Prog σ ε β} (hp : p.Touches F P) (hg : ∀ a, (g a).Touches F P) :
    (p.bind g).Touches F P := by
  induction p with
  | ret a => exact hg a
  | fail e => trivial
  | act f k ih => exact ⟨hp.1, fun b => ih b (hp.2 b)⟩

theorem Touches.attempt {p : Prog σ ε α} (hp : p.Touches F P) : p.attempt.Touches F P := by
  induction p with
  | ret a => trivial
  | fail e => trivial
  | act f k ih => exact ⟨hp.1, fun b => ih b (hp.2 b)⟩

theorem touches_prim {f : σ → Except ε α × σ} (hf : Local F P f) : (prim f).Touches F P := by
  refine ⟨hf, fun r => ?_⟩
  cases r with
  | ok a => trivial
  | error e => trivial

/-- The whole run touches only these cells. -/
theorem Touches.exec {p : Prog σ ε α} (hp : p.Touches F P) : Local F P p.exec := by
  induction p with
  | ret a => exact fun s c hc => ⟨rfl, c, rfl, hc, fun _ _ => rfl⟩
  | fail e => exact fun s c hc => ⟨rfl, c, rfl, hc, fun _ _ => rfl⟩
  | act f k ih =>
    intro s c hc
    obtain ⟨hres, d, hd, hin, hout⟩ := hp.1 s c hc
    obtain ⟨hres', d', hd', hin', hout'⟩ := ih (f s).1 (hp.2 _) (f s).2 d hin
    simp only [Prog.exec]
    rw [hres, hd]
    exact ⟨hres', d', hd', hin', fun i hi => (hout' i hi).trans (hout i hi)⟩

/-- A run leaves the other cells as they were. -/
theorem Touches.frame {p : Prog σ ε α} (hp : p.Touches F P) (s : σ) {i : ι} (hi : ¬ P i) :
    F.get (p.exec s).2 i = F.get s i := hp.exec.frame s hi

end Prog
