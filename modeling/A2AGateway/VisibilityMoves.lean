import A2AGateway.Projects
import A2AGateway.Statements

/-!
# How visibility moves

`set_visibility` reads the project, checks that it is idle and one level away, and updates it:
two statements, the second with no condition. As shipped the read fails, and visibility stays as it is. With any
decoding, as long as a call's update finds visibility and activity as its read found them, visibility moves one level
at a time and only while the project is idle (`visibility_moves`); where columns are read, two calls that read the same
row can skip a level.
-/

namespace A2AGateway

open Gw

/-- lan-only, group, public. -/
def Visibility.level : Visibility → Nat
  | .lanOnly => 0
  | .group => 1
  | .public => 2

def OneLevel (a b : Visibility) : Prop := a.level + 1 = b.level ∨ b.level + 1 = a.level

theorem Visibility.canTransitionTo_iff {a b : Visibility} : a.canTransitionTo b = true ↔ OneLevel a b := by
  cases a <;> cases b <;> simp [canTransitionTo, OneLevel, level]

/-- What `set_visibility` looks at. -/
def guarded (id : String) (db : Db) : Option (Visibility × Bool) :=
  (Projects.byId db id).map fun p => (p.visibility, p.isActive)

/-- The calls on the project. -/
def Toggles (id : String) (_ : World) (p : Gw Unit) : Prop :=
  (∃ next, p = Projects.setVisibility id next) ∨ ∃ active, p = Projects.setActive id active

/-- The rest of the gateway leaves visibility and activity of the project alone. -/
def LeavesGuarded (id : String) (w w' : World) : Prop :=
  guarded id w'.db = guarded id w.db ∧ w'.db.engine = w.db.engine

/-- If visibility changes from one state to the next, it does so by one level and while idle. -/
def VisibilityMoves (id : String) (w w' : World) : Prop :=
  ∀ p p', Projects.byId w.db id = some p → Projects.byId w'.db id = some p' → p'.visibility ≠ p.visibility →
    OneLevel p.visibility p'.visibility ∧ p.isActive = false ∧ p'.isActive = false

section
variable {id : String}

/-- From one value of what is guarded to the next. -/
def GuardedMove (o o' : Option (Visibility × Bool)) : Prop :=
  ∀ x x', o = some x → o' = some x' → x'.1 ≠ x.1 → OneLevel x.1 x'.1 ∧ x.2 = false ∧ x'.2 = false

theorem guarded_update {f : Project → Project} {hf : ∀ a b, Constraints.clash (f a) b = Constraints.clash a b}
    (hid : ∀ p, (f p).id = p.id) (db : Db) :
    guarded id { db with projects := db.projects.update (·.id == id) f hf } =
      (Projects.byId db id).map fun p => ((f p).visibility, (f p).isActive) := by
  unfold guarded
  rw [Projects.byId_update hid, Option.map_map]
  rfl

theorem setVisibility_begins (next : Visibility) :
    (Projects.setVisibility id next).Begins (fun w => guarded id w.db) GuardedMove := by
  unfold Projects.setVisibility Projects.get
  simp only [Prog.bind_eq]
  refine begins_fetch_bind fun w o ho => ?_
  obtain ⟨rfl, -⟩ := Engine.decodeRow_eq_some.1 ho
  cases hp : Projects.byId w.db id with
  | none => trivial
  | some p =>
    have hseen : guarded id w.db = some (p.visibility, p.isActive) := by rw [guarded, hp]; rfl
    simp only [orThrow, Prog.ret_bind, hseen]
    split
    · trivial
    · rename_i hidle
      split
      · rename_i hnext
        refine follows_execute fun now db db' hdb hv => Or.inr ?_
        cases hdb
        rw [guarded_update (by intro p; rfl)]
        intro x x' hx hx' _
        -- The row is as it was read: idle, and one level from `next`.
        cases hx
        obtain ⟨q, hq, rfl⟩ := Option.map_eq_some_iff.1 hx'
        simp only [guarded, hq, Option.map_some, Option.some.injEq, Prod.mk.injEq] at hv
        have hidle : p.isActive = false := by simpa using hidle
        exact ⟨Visibility.canTransitionTo_iff.1 hnext, hidle, by rw [hv.2, hidle]⟩
      · trivial

theorem setActive_begins (active : Bool) :
    (Projects.setActive id active).Begins (fun w => guarded id w.db) GuardedMove := by
  refine begins_execute fun now db db' hdb => Or.inr ?_
  cases hdb
  rw [guarded_update (by intro p; rfl)]
  intro x x' hx hx' hne
  obtain ⟨p, hp, rfl⟩ := Option.map_eq_some_iff.1 hx'
  rw [guarded, hp] at hx
  cases hx
  exact absurd rfl hne

theorem toggles_begin {w : World} {p : Gw Unit} (h : Toggles id w p) :
    p.Begins (fun w => guarded id w.db) GuardedMove := by
  rcases h with ⟨next, rfl⟩ | ⟨active, rfl⟩
  · exact setVisibility_begins next
  · exact setActive_begins active

theorem visibilityMoves_watched {c c' : Watch World Err (Option (Visibility × Bool))}
    (h : Watch.Reachable (fun w => guarded id w.db) (fun _ => True) (Toggles id) (LeavesGuarded id) c)
    (hstep : Watch.Step (fun w => guarded id w.db) (Toggles id) (LeavesGuarded id) c c') :
    VisibilityMoves id c.state c'.state := by
  have hgood := h.good (fun _ _ => toggles_begin) fun _ _ hw => hw.1
  intro p p' hp hp' hne
  have hx : guarded id c.state.db = some (p.visibility, p.isActive) := by rw [guarded, hp]; rfl
  have hx' : guarded id c'.state.db = some (p'.visibility, p'.isActive) := by rw [guarded, hp']; rfl
  rcases (hstep.along hgood (fun _ _ => toggles_begin) fun _ _ hw => hw.1).1 with hsame | hmove
  · simp only [hx, hx', Option.some.injEq, Prod.mk.injEq] at hsame
    exact absurd hsame.1 hne
  · exact hmove _ _ hx hx' hne

/-! ## As shipped -/

/-- As shipped, and with the visibility that the project had at first. -/
def KeepsVisibility (id : String) (w₀ w : World) : Prop :=
  w.AsShipped ∧ (guarded id w.db).map (·.1) = (guarded id w₀.db).map (·.1)

theorem KeepsVisibility.tick {w₀ : World} (w : World) (h : KeepsVisibility id w₀ w) : KeepsVisibility id w₀ w.tick := h

theorem upholds_toggles {w w₀ : World} {p : Gw Unit} (h : Toggles id w p) :
    p.Upholds (KeepsVisibility id w₀) fun _ => True := by
  rcases h with ⟨next, rfl⟩ | ⟨active, rfl⟩
  · -- The read fails, or there is nothing to move.
    unfold Projects.setVisibility Projects.get
    rw [Prog.bind_eq]
    refine (upholds_fetch (P := fun o => o = none) KeepsVisibility.tick fun w o hw ho => ?_).bind ?_
    · obtain ⟨rfl, hnone⟩ := Engine.decodeRow_eq_some.1 ho
      exact hnone hw.1
    · rintro _ rfl
      trivial
  · refine upholds_execute KeepsVisibility.tick fun w db hw hdb => ?_
    cases hdb
    refine ⟨hw.1, ?_⟩
    rw [← hw.2]
    show (guarded id { w.db with projects := _ }).map _ = _
    rw [guarded_update (by intro p; rfl), guarded, Option.map_map, Option.map_map]
    rfl

theorem keepsVisibility {w₀ : World} {c : Pool World Err} (hship : w₀.AsShipped)
    (h : Pool.Reachable (· = w₀) (Toggles id) (LeavesGuarded id) c) : KeepsVisibility id w₀ c.state := by
  refine h.upheld ?_ (fun _ _ _ => upholds_toggles) fun w w' hw hleaves => ⟨?_, ?_⟩
  · rintro w rfl
    exact ⟨hship, rfl⟩
  · rw [World.AsShipped, hleaves.2]
    exact hw.1
  · rw [hleaves.1]
    exact hw.2

/-- **Visibility moves one level at a time and only while idle**: as shipped in every run, and with any decoding in every
run in which an update changes the project only while it is as the call has read it. -/
theorem visibility_moves (id : String) :
    (∀ c c', Pool.Reachable World.AsShipped (Toggles id) (LeavesGuarded id) c →
      Pool.Step (Toggles id) (LeavesGuarded id) c c' → VisibilityMoves id c.state c'.state) ∧
    ∀ c c' : Watch World Err (Option (Visibility × Bool)),
      Watch.Reachable (fun w => guarded id w.db) (fun _ => True) (Toggles id) (LeavesGuarded id) c →
      Watch.Step (fun w => guarded id w.db) (Toggles id) (LeavesGuarded id) c c' → VisibilityMoves id c.state c'.state := by
  refine ⟨?_, fun c c' => visibilityMoves_watched⟩
  rintro c c' ⟨w₀, hship, hrun⟩ hstep p p' hp hp' hne
  have hbefore := (keepsVisibility hship ⟨w₀, rfl, hrun⟩).2
  have hafter := (keepsVisibility hship ⟨w₀, rfl, hrun.tail hstep⟩).2
  rw [← hbefore, guarded, guarded, hp, hp'] at hafter
  exact absurd (Option.some.inj hafter) hne

end

/-! ## A project to move -/

namespace DemoVisibility

def project : Project := { id := "p", name := "p", visibility := .group }

def world (engine : Engine) : World :=
  { World.fresh with db := { Db.empty engine with projects := ⟨[project], List.pairwise_singleton _ _⟩ } }

/-- Two calls on it are under way. -/
def pool (engine : Engine) (p q : Gw Unit) : Pool World Err := ⟨world engine, [p, q]⟩

end DemoVisibility

/-- As shipped a call on its own leaves a project in its group. With the columns decoded it makes it public. -/
theorem visibility_moves_demo :
    (∃ c : Pool World Err, guarded "p" c.state.db = some (.group, false) ∧ c.threads.length = 1 ∧
      VisibilityMoves "p" c.state (c.advance 0).state) ∧
    ∃ c c' : Watch World Err (Option (Visibility × Bool)),
      guarded "p" c.state.db = some (.group, false) ∧ guarded "p" c'.state.db = some (.public, false) ∧
        VisibilityMoves "p" c.state c'.state := by
  have hp : ∀ w, Toggles "p" w (Projects.setVisibility "p" .public) := fun _ => Or.inl ⟨_, rfl⟩
  constructor
  · have hreach : Pool.Reachable World.AsShipped (Toggles "p") (LeavesGuarded "p")
        ⟨DemoVisibility.world .shipped, [Projects.setVisibility "p" .public]⟩ :=
      ⟨DemoVisibility.world .shipped, rfl, .single (.start (hp _))⟩
    have hread : ∃ (β : Type) (f : World → β × World) (k : β → Gw Unit),
        ([Projects.setVisibility "p" .public] : List (Gw Unit))[0]? = some (.act f k) := ⟨_, _, _, rfl⟩
    obtain ⟨β, f, k, hfirst⟩ := hread
    exact ⟨_, rfl, rfl, (visibility_moves "p").1 _ _ hreach (Pool.step_advance hfirst)⟩
  · have hreach : Watch.Reachable (fun w : World => guarded "p" w.db) (fun _ => True) (Toggles "p")
        (LeavesGuarded "p") (Watch.schedule (fun w : World => guarded "p" w.db) [0]
          ⟨DemoVisibility.world .widening, [(none, Projects.setVisibility "p" .public)]⟩) :=
      ⟨_, trivial, .head (.start (hp _)) (Watch.schedule_run _ _)⟩
    generalize hc : Watch.schedule (fun w : World => guarded "p" w.db) [0]
      ⟨DemoVisibility.world .widening, [(none, Projects.setVisibility "p" .public)]⟩ = c at hreach
    have hbefore : guarded "p" c.state.db = some (.group, false) := by
      rw [← hc]
      rfl
    have hafter : guarded "p" (c.advance (fun w : World => guarded "p" w.db) 0).state.db = some (.public, false) := by
      rw [← hc]
      rfl
    rcases Watch.advance_step 0 c with heq | hstep
    · rw [heq, hbefore] at hafter
      cases hafter
    · exact ⟨c, _, hbefore, hafter, (visibility_moves "p").2 _ _ hreach hstep⟩

-- With the columns decoded, two calls that read the same row, the second of which writes it first, take a project from
-- lan-only to public in one step.
example :
    let c := (DemoVisibility.pool .widening (Projects.setVisibility "p" .public) (Projects.setVisibility "p" .lanOnly)).schedule
      [0, 1, 1]
    guarded "p" c.state.db = some (.lanOnly, false) ∧ guarded "p" (c.advance 0).state.db = some (.public, false) :=
  ⟨rfl, rfl⟩

end A2AGateway
