import A2AGateway.Lib.Interleave

/-!
# Runs in which nobody writes on a stale view

Programs that look at a part of the shared state and change it later on the strength of what
they saw. `Watch` is a pool that remembers, for each program, the value of the part `v` it has
seen: at its first action, and again at each of its own changes. In a run of `Watch.Step` a
program changes the part only while that value still stands, as if each write were guarded by
it; a program whose view is stale may go on, but not change the part. What the programs do to
the part is then what each of them does from the value it has seen (`Follows`).
-/

namespace Prog

variable {σ ε α β τ : Type} {v : σ → τ} {G : τ → τ → Prop}

/-- Having seen `b`, the program changes the part along `G` only. -/
def Follows (v : σ → τ) (G : τ → τ → Prop) : τ → Prog σ ε α → Prop
  | _, ret _ => True
  | _, fail _ => True
  | b, act f k =>
    (∀ s, v s = b → (v (f s).2 = b ∨ G b (v (f s).2)) ∧ (k (f s).1).Follows v G (v (f s).2)) ∧
      ∀ s, v s ≠ b → v (f s).2 = v s → (k (f s).1).Follows v G b

/-- The same of a program that has not looked yet. -/
def Begins (v : σ → τ) (G : τ → τ → Prop) : Prog σ ε α → Prop
  | ret _ => True
  | fail _ => True
  | act f k => ∀ s, (v (f s).2 = v s ∨ G (v s) (v (f s).2)) ∧ (k (f s).1).Follows v G (v (f s).2)

variable {b : τ}

theorem Follows.prim_bind {F : σ → Except ε α × σ} {g : α → Prog σ ε β}
    (hok : ∀ s a s', F s = (.ok a, s') →
      (v s = b → (v s' = b ∨ G b (v s')) ∧ (g a).Follows v G (v s')) ∧ (v s ≠ b → v s' = v s → (g a).Follows v G b))
    (herr : ∀ s e s', F s = (.error e, s') → v s' = v s) : ((prim F).bind g).Follows v G b := by
  refine ⟨fun s hs => ?_, fun s hs hv => ?_⟩
  · rcases hF : F s with ⟨r, s'⟩
    cases r with
    | ok a => exact (hok s a s' hF).1 hs
    | error e => exact ⟨Or.inl ((herr s e s' hF).trans hs), trivial⟩
  · rcases hF : F s with ⟨r, s'⟩
    rw [hF] at hv
    cases r with
    | ok a => exact (hok s a s' hF).2 hs hv
    | error e => trivial

theorem Begins.prim_bind {F : σ → Except ε α × σ} {g : α → Prog σ ε β}
    (hok : ∀ s a s', F s = (.ok a, s') → (v s' = v s ∨ G (v s) (v s')) ∧ (g a).Follows v G (v s'))
    (herr : ∀ s e s', F s = (.error e, s') → v s' = v s) : ((prim F).bind g).Begins v G := by
  intro s
  rcases hF : F s with ⟨r, s'⟩
  cases r with
  | ok a => exact hok s a s' hF
  | error e => exact ⟨Or.inl (herr s e s' hF), trivial⟩

section
variable {ρ : Type} {v : σ × List ρ → τ} {note : Except ε β → List ρ}

theorem Follows.replying_prim_bind {F : σ → Except ε α × σ} {g : α → Prog σ ε β}
    (hok : ∀ s l a s', F s = (.ok a, s') →
      (v (s, l) = b → (v (s', l ++ (g a).reply note) = b ∨ G b (v (s', l ++ (g a).reply note))) ∧
        ((g a).replying note).Follows v G (v (s', l ++ (g a).reply note))) ∧
      (v (s, l) ≠ b → v (s', l ++ (g a).reply note) = v (s, l) → ((g a).replying note).Follows v G b))
    (herr : ∀ s l e s', F s = (.error e, s') → v (s, l) = b →
      v (s', l ++ note (.error e)) = b ∨ G b (v (s', l ++ note (.error e)))) :
    (((prim F).bind g).replying note).Follows v G b := by
  rw [Prog.replying_prim_bind]
  refine ⟨fun ⟨s, l⟩ hs => ?_, fun ⟨s, l⟩ hs hv => ?_⟩
  · rcases hF : F s with ⟨r, s'⟩
    simp only [hF]
    cases r with
    | ok a => exact (hok s l a s' hF).1 hs
    | error e => exact ⟨herr s l e s' hF hs, trivial⟩
  · rcases hF : F s with ⟨r, s'⟩
    simp only [hF] at hv ⊢
    cases r with
    | ok a => exact (hok s l a s' hF).2 hs hv
    | error e => trivial

theorem Begins.replying_prim_bind {F : σ → Except ε α × σ} {g : α → Prog σ ε β}
    (hok : ∀ s l a s', F s = (.ok a, s') →
      (v (s', l ++ (g a).reply note) = v (s, l) ∨ G (v (s, l)) (v (s', l ++ (g a).reply note))) ∧
        ((g a).replying note).Follows v G (v (s', l ++ (g a).reply note)))
    (herr : ∀ s l e s', F s = (.error e, s') → v (s', l ++ note (.error e)) = v (s, l)) :
    (((prim F).bind g).replying note).Begins v G := by
  rw [Prog.replying_prim_bind]
  rintro ⟨s, l⟩
  rcases hF : F s with ⟨r, s'⟩
  simp only [hF]
  cases r with
  | ok a => exact hok s l a s' hF
  | error e => exact ⟨Or.inl (herr s l e s' hF), trivial⟩

/-- The program begins with a look at the state. -/
theorem Begins.replying_look_bind {f : σ → α} {g : α → Prog σ ε β}
    (h : ∀ s l, (g (f s)).reply note = [] ∧ ((g (f s)).replying note).Follows v G (v (s, l))) :
    (((look f).bind g).replying note).Begins v G := by
  rintro ⟨s, l⟩
  obtain ⟨hreply, hg⟩ := h s l
  have hview : v (s, l ++ (g (f s)).reply note) = v (s, l) := by rw [hreply, List.append_nil]
  refine ⟨Or.inl hview, ?_⟩
  rw [← hview] at hg
  exact hg

end

end Prog

/-- A shared state and the programs under way on it, each with what it has seen. -/
structure Watch (σ ε τ : Type) : Type 1 where
  state : σ
  threads : List (Option τ × Prog σ ε Unit)

namespace Watch

variable {σ ε τ : Type}

/-- The pool without the memory. -/
def pool (c : Watch σ ε τ) : Pool σ ε := ⟨c.state, c.threads.map (·.2)⟩

inductive Step (v : σ → τ) (start : σ → Prog σ ε Unit → Prop) (outside : σ → σ → Prop) :
    Watch σ ε τ → Watch σ ε τ → Prop
  | start {s ts p} : start s p → Step v start outside ⟨s, ts⟩ ⟨s, ts ++ [(none, p)]⟩
  | fresh {s ts₁ ts₂} {seen : Option τ} {β : Type} {f : σ → β × σ} {k : β → Prog σ ε Unit} :
      seen = none ∨ seen = some (v s) → Step v start outside ⟨s, ts₁ ++ (seen, .act f k) :: ts₂⟩
        ⟨(f s).2, ts₁ ++ (some (v (f s).2), k (f s).1) :: ts₂⟩
  | stale {s ts₁ ts₂} {b : τ} {β : Type} {f : σ → β × σ} {k : β → Prog σ ε Unit} :
      b ≠ v s → v (f s).2 = v s → Step v start outside ⟨s, ts₁ ++ (some b, .act f k) :: ts₂⟩
        ⟨(f s).2, ts₁ ++ (some b, k (f s).1) :: ts₂⟩
  | outside {s s' ts} : outside s s' → Step v start outside ⟨s, ts⟩ ⟨s', ts⟩

/-- Reachable, from a state with nothing under way, without a stale write. -/
def Reachable (v : σ → τ) (init : σ → Prop) (start : σ → Prog σ ε Unit → Prop) (outside : σ → σ → Prop)
    (c : Watch σ ε τ) : Prop :=
  ∃ s, init s ∧ Relation.ReflTransGen (Step v start outside) ⟨s, []⟩ c

variable {v : σ → τ} {start : σ → Prog σ ε Unit → Prop} {outside : σ → σ → Prop} {c c' : Watch σ ε τ}

/-- These are steps of the pool. -/
theorem Step.pool (h : Step v start outside c c') : Pool.Step start outside c.pool c'.pool := by
  cases h with
  | start hp =>
    simp only [Watch.pool, List.map_append, List.map_cons, List.map_nil]
    exact .start hp
  | fresh h =>
    simp only [Watch.pool, List.map_append, List.map_cons]
    exact .act
  | stale hb hv =>
    simp only [Watch.pool, List.map_append, List.map_cons]
    exact .act
  | outside hs => exact .outside hs

theorem Reachable.pool {init : σ → Prop} (h : Reachable v init start outside c) :
    Pool.Reachable init start outside c.pool := by
  obtain ⟨s, hs, hrun⟩ := h
  refine ⟨s, hs, ?_⟩
  induction hrun with
  | refl => exact .refl
  | tail _ hstep ih => exact ih.tail hstep.pool

/-! ## The part goes along what each program does from the value it has seen -/

variable {G : τ → τ → Prop}

/-- Each program follows `G` from what it has seen. -/
def Good (v : σ → τ) (G : τ → τ → Prop) (c : Watch σ ε τ) : Prop :=
  ∀ t ∈ c.threads, match t.1 with
    | none => t.2.Begins v G
    | some b => t.2.Follows v G b

/-- **One step leaves the part alone or goes along `G`.** -/
theorem Step.along (h : Step v start outside c c') (hg : Good v G c)
    (hstart : ∀ s p, start s p → p.Begins v G) (hout : ∀ s s', outside s s' → v s' = v s) :
    (v c'.state = v c.state ∨ G (v c.state) (v c'.state)) ∧ Good v G c' := by
  cases h with
  | @start s ts p hp =>
    refine ⟨Or.inl rfl, fun t ht => ?_⟩
    rcases List.mem_append.1 ht with ht | ht
    · exact hg t ht
    · rw [List.mem_singleton.1 ht]
      exact hstart _ _ hp
  | @fresh s ts₁ ts₂ seen β f k hseen =>
    have hthread : (v (f s).2 = v s ∨ G (v s) (v (f s).2)) ∧ (k (f s).1).Follows v G (v (f s).2) := by
      have h := hg (seen, .act f k) (by simp)
      rcases hseen with rfl | rfl
      · exact h s
      · exact h.1 s rfl
    refine ⟨hthread.1, fun t ht => ?_⟩
    rcases List.mem_append.1 ht with ht | ht
    · exact hg t (by simp [ht])
    · rcases List.mem_cons.1 ht with rfl | ht
      · exact hthread.2
      · exact hg t (by simp [ht])
  | @stale s ts₁ ts₂ b β f k hb hv =>
    have hthread : (k (f s).1).Follows v G b := (hg (some b, .act f k) (by simp)).2 s (Ne.symm hb) hv
    refine ⟨Or.inl hv, fun t ht => ?_⟩
    rcases List.mem_append.1 ht with ht | ht
    · exact hg t (by simp [ht])
    · rcases List.mem_cons.1 ht with rfl | ht
      · exact hthread
      · exact hg t (by simp [ht])
  | outside hs => exact ⟨Or.inl (hout _ _ hs), hg⟩

/-- **In a run without stale writes the part goes along `G`.** -/
theorem run_along (hrun : Relation.ReflTransGen (Step v start outside) c c') (hg : Good v G c)
    (hstart : ∀ s p, start s p → p.Begins v G) (hout : ∀ s s', outside s s' → v s' = v s) :
    Relation.ReflTransGen G (v c.state) (v c'.state) ∧ Good v G c' := by
  induction hrun with
  | refl => exact ⟨.refl, hg⟩
  | tail _ hstep ih =>
    obtain ⟨halong, hgood⟩ := ih
    obtain ⟨hv, hgood'⟩ := hstep.along hgood hstart hout
    refine ⟨?_, hgood'⟩
    rcases hv with hv | hv
    · rw [hv]
      exact halong
    · exact halong.tail hv

theorem good_nil (s : σ) : Good v G (⟨s, []⟩ : Watch σ ε τ) := by simp [Good]

theorem Reachable.good {init : σ → Prop} (h : Reachable v init start outside c)
    (hstart : ∀ s p, start s p → p.Begins v G) (hout : ∀ s s', outside s s' → v s' = v s) : Good v G c := by
  obtain ⟨s, -, hrun⟩ := h
  exact (run_along hrun (good_nil s) hstart hout).2

/-! ## One after the other -/

/-- A program that runs alone never finds its view stale. -/
theorem run_alone (p : Prog σ ε Unit) (s : σ) (ts : List (Option τ × Prog σ ε Unit)) (seen : Option τ)
    (hseen : seen = none ∨ seen = some (v s)) :
    ∃ seen', Relation.ReflTransGen (Step v start outside) ⟨s, ts ++ [(seen, p)]⟩
      ⟨(p.exec s).2, ts ++ [(seen', .ofExcept (p.exec s).1)]⟩ := by
  induction p generalizing s seen with
  | ret a => exact ⟨seen, .refl⟩
  | fail e => exact ⟨seen, .refl⟩
  | act f k ih =>
    obtain ⟨seen', hrest⟩ := ih (f s).1 (f s).2 (some (v (f s).2)) (Or.inr rfl)
    exact ⟨seen', .head (Step.fresh hseen) hrest⟩

theorem start_alone {p : Prog σ ε Unit} (h : start c.state p) :
    ∃ seen, Relation.ReflTransGen (Step v start outside) c
      ⟨(p.exec c.state).2, c.threads ++ [(seen, .ofExcept (p.exec c.state).1)]⟩ := by
  obtain ⟨seen, hrun⟩ := @run_alone _ _ _ v start outside p c.state c.threads none (Or.inl rfl)
  exact ⟨seen, .head (Step.start h) hrun⟩

/-! ## A schedule -/

/-- The next action of the program at `i`, if it has one and does not write on a stale view. -/
def advance [DecidableEq τ] (v : σ → τ) (i : Nat) (c : Watch σ ε τ) : Watch σ ε τ :=
  match c.threads[i]? with
  | some (seen, .act f k) =>
    if seen = none ∨ seen = some (v c.state) then
      ⟨(f c.state).2, c.threads.set i (some (v (f c.state).2), k (f c.state).1)⟩
    else if v (f c.state).2 = v c.state then ⟨(f c.state).2, c.threads.set i (seen, k (f c.state).1)⟩
    else c
  | _ => c

def schedule [DecidableEq τ] (v : σ → τ) (is : List Nat) (c : Watch σ ε τ) : Watch σ ε τ :=
  is.foldl (fun c i => c.advance v i) c

theorem advance_step [DecidableEq τ] (i : Nat) (c : Watch σ ε τ) :
    c.advance v i = c ∨ Step v start outside c (c.advance v i) := by
  obtain ⟨s, ts⟩ := c
  unfold advance
  split
  · rename_i seen β f k hi
    split
    · rename_i hseen
      obtain ⟨hsplit, hset⟩ := Pool.split_at hi (some (v (f s).2), k (f s).1)
      have hstep : Step v start outside ⟨s, ts.take i ++ (seen, .act f k) :: ts.drop (i + 1)⟩
        ⟨(f s).2, ts.take i ++ (some (v (f s).2), k (f s).1) :: ts.drop (i + 1)⟩ := .fresh hseen
      rw [← hsplit, ← hset] at hstep
      exact Or.inr hstep
    · rename_i hseen
      split
      · rename_i hv
        obtain ⟨hnone, hsome⟩ := not_or.1 hseen
        obtain ⟨b, rfl⟩ := Option.ne_none_iff_exists'.1 hnone
        obtain ⟨hsplit, hset⟩ := Pool.split_at hi (some b, k (f s).1)
        have hstep : Step v start outside ⟨s, ts.take i ++ (some b, .act f k) :: ts.drop (i + 1)⟩
          ⟨(f s).2, ts.take i ++ (some b, k (f s).1) :: ts.drop (i + 1)⟩ := .stale (fun hb => hsome (by rw [hb])) hv
        rw [← hsplit, ← hset] at hstep
        exact Or.inr hstep
      · exact Or.inl rfl
  · exact Or.inl rfl

/-- Any schedule is a run without stale writes. -/
theorem schedule_run [DecidableEq τ] (is : List Nat) (c : Watch σ ε τ) :
    Relation.ReflTransGen (Step v start outside) c (c.schedule v is) := by
  induction is generalizing c with
  | nil => exact .refl
  | cons i is ih =>
    rcases @advance_step σ ε τ v start outside _ i c with h | h
    · have hrest := ih (c.advance v i)
      rw [h] at hrest
      rw [schedule, List.foldl_cons, h]
      exact hrest
    · exact (Relation.ReflTransGen.single h).trans (ih (c.advance v i))

end Watch
