import A2AGateway.Reconciler
import A2AGateway.Statements
import A2AGateway.Lib.Interrupted

/-!
# Announcing an assignment

A pass publishes what it has just assigned, and so does the next one: whether the row was there already is not
looked at. Nothing is announced twice as long as no pass comes to a todo that is alone under its task, that was
announced before, and whose agent still has a capability for it (`announced_once`).
-/

namespace A2AGateway

open Gw Interrupted

namespace Reconciler

/-- The todo has been announced to the agent. -/
def Announced (agent : String) (id : Int) (b : Board) : Prop := (agent, some id) ∈ b.published.map fun a => (a.agentName, a.todoId)

/-- No todo has been announced to an agent twice. -/
def AnnouncedOnce (b : Board) : Prop := (b.published.map fun a => (a.agentName, a.todoId)).Nodup

/-- Todos, agents and all else may change, but only the reconciler announces. -/
def Silently (b b' : Board) : Prop := b'.published = b.published

theorem silently_trans (a b c : Board) (h : Silently a b) (h' : Silently b c) : Silently a c := Eq.trans h' h

theorem silently_announcedOnce (b b' : Board) (h : Silently b b') (hb : AnnouncedOnce b) : AnnouncedOnce b' := by
  rw [AnnouncedOnce, h]
  exact hb

theorem Announced.of_silently {agent : String} {id : Int} {b b' : Board} (h : Silently b b') (hb : Announced agent id b') :
    Announced agent id b := by
  rw [Announced, h] at hb
  exact hb

theorem moves_gateway {α : Type} (p : Gw α) : (p.within Board.gateway).Moves Silently := Prog.moves_within (fun _ _ => rfl) p

section
variable [Lowercase] [SerdeStrings]

/-- What is left of the loop has come to a todo alone under this task. It was announced, and its agent has a
capability for the task. -/
def RenewsTask (task : String) (p : Prog Board Err Unit) (b : Board) : Prop :=
  ∃ now agent id counts, ∃ rest : Except Err Counts → Prog Board Err Unit,
    p = (reconcileTask now task [(agent, id)] counts).andThen rest ∧ Announced agent id b ∧
      hasCapability b.world.db agent task = true

/-- Such a todo, under whatever task. -/
def Renews (p : Prog Board Err Unit) (b : Board) : Prop := ∃ task, RenewsTask task p b

/-- Nothing is announced twice from here on. -/
abbrev Careful (p : Prog Board Err Unit) (b : Board) : Prop := Guards Silently Renews AnnouncedOnce p b

/-! ## One task -/

section
variable {α : Type} {g : Except Err α → Prog Board Err Unit} {b b' : Board}

/-- A part of the loop that works on the database. -/
theorem careful_gateway {p : Gw α} (hb : Silently b b') (hg : ∀ r b', Silently b b' → Careful (g r) b') :
    Careful ((p.within Board.gateway).andThen g) b' :=
  Guards.andThen silently_trans silently_announcedOnce (moves_gateway p) hb hg

/-- Announcing what was not announced before. -/
theorem careful_publish {agent projectId task : String} {id : Int} {g : Except Err Unit → Prog Board Err Unit}
    (hb : ¬ Announced agent id b) (hg : ∀ r b', Careful (g r) b') :
    Careful ((publishTaskAssigned agent projectId task (some id)).andThen g) b := by
  intro b' hb' honce _
  refine ⟨?_, hg _ _⟩
  have hnew : ¬ Announced agent id b' := fun h => hb (h.of_silently hb')
  rw [AnnouncedOnce, List.map_append, List.map_singleton, List.nodup_append]
  refine ⟨honce, List.nodup_singleton _, fun a ha c hc hac => hnew ?_⟩
  rw [List.mem_singleton] at hc
  rw [hac, hc] at ha
  exact ha

end

variable {rest : Except Err Counts → Prog Board Err Unit}

/-- A todo alone under its task: what the guard is about. -/
theorem careful_lone {now task agent : String} {id : Int} {counts : Counts} (hrest : ∀ r b, Careful (rest r) b) (b : Board) :
    Careful ((reconcileTask now task [(agent, id)] counts).andThen rest) b := by
  obtain ⟨F, hF, hrun⟩ := query_prim .sqlx fun db => hasCapability db agent task
  rw [reconcileTask, Prog.bind_eq, agentHasCapability, hF, Prog.within_prim]
  refine Guards.prim_bind ?_ ?_ ?_
  · intro b₁ _ honce
    exact honce
  · intro b₁ capable hb₁ hguard hcapable
    have hnew : capable = true → ¬ Announced agent id b₁ := by
      rintro rfl hann
      refine hguard ⟨task, now, agent, id, counts, rest, ?_, hann, ?_⟩
      · rw [reconcileTask, agentHasCapability, hF, Prog.within_prim]
        rfl
      · have hanswer : (F b₁.world).1 = .ok true := hcapable
        rcases hrun b₁.world with h | h
        · rw [h] at hanswer
          cases hanswer
        · rw [h] at hanswer
          exact Except.ok.inj hanswer
    split
    · rename_i hcan
      rw [Prog.bind_eq, Prog.bind_andThen]
      refine careful_gateway rfl fun r b₂ hb₂ => ?_
      cases r with
      | error e => exact hrest _ _
      | ok u =>
        rw [Prog.bind_eq, Prog.bind_andThen]
        refine careful_publish (fun h => hnew hcan (h.of_silently hb₂)) fun r b₃ => ?_
        cases r with
        | error e => exact hrest _ _
        | ok u => exact hrest _ _
    · rw [Prog.bind_eq, Prog.bind_andThen]
      refine careful_gateway rfl fun r b₂ hb₂ => ?_
      cases r with
      | error e => exact hrest _ _
      | ok u => exact hrest _ _
  · intro b₁ e _ _
    exact hrest _ _

/-! ## When a pass is not careful -/

/-- Where nothing disturbs it, the announcement is made. -/
theorem publishes {now task agent : String} {id : Int} {counts : Counts} {b : Board}
    (hcan : hasCapability b.world.db agent task = true) (hcalm : b.world.faults = []) (hkey : Storable b.world.db task) :
    ((reconcileTask now task [(agent, id)] counts).exec b).2.published = b.published ++ [⟨agent, "global", task, some id⟩] := by
  have hcalm' : (Board.gateway.set b.world.tick b).world.faults = [] := World.tick_faults hcalm
  obtain ⟨w, hrow, -⟩ := exec_upsertProjectTodo_calm hcalm' task (some agent) "pending" "" [id] now hkey
  rw [reconcileTask, Prog.bind_eq, agentHasCapability, Prog.exec_bind_of_ok (exec_query_calm hcalm _), if_pos hcan, Prog.bind_eq,
    Prog.exec_bind_of_ok hrow]
  rfl

/-- What the loop does on its own after a step that the guard forbids. -/
theorem announces_again {task : String} {p : Prog Board Err Unit} {b : Board} (h : RenewsTask task p b)
    (hcalm : b.world.faults = []) (hkey : Storable b.world.db task) :
    ∃ c, Run Silently (fun _ _ => False) (p, b) c ∧ ¬ AnnouncedOnce c.2 := by
  obtain ⟨now, agent, id, counts, rest, rfl, hann, hcan⟩ := h
  refine ⟨_, run_andThen _ rest b, fun honce => ?_⟩
  rw [AnnouncedOnce, publishes hcan hcalm hkey, List.map_append, List.nodup_append] at honce
  exact honce.2.2 _ hann _ (List.mem_singleton_self _) rfl

/-! ## The whole loop -/

theorem careful_reconcileTask {now task : String} {entries : List (String × Int)} {counts : Counts}
    (hrest : ∀ r b, Careful (rest r) b) (b : Board) : Careful ((reconcileTask now task entries counts).andThen rest) b := by
  match entries with
  | [] => exact hrest _ _
  | [(agent, id)] => exact careful_lone hrest b
  | first :: second :: others =>
    rw [reconcileTask, Prog.bind_eq, Prog.bind_andThen]
    refine careful_gateway rfl fun r b' _ => ?_
    cases r with
    | error e => exact hrest _ _
    | ok u => exact hrest _ _

theorem careful_reconcileAll {now : String} (hrest : ∀ r b, Careful (rest r) b) (gs : List Group) :
    ∀ counts b, Careful ((reconcileAll now gs counts).andThen rest) b := by
  induction gs with
  | nil => exact fun counts b => hrest _ _
  | cons g gs ih =>
    intro counts b
    rw [reconcileAll, Prog.bind_eq, Prog.bind_andThen]
    refine careful_reconcileTask (fun r b' => ?_) b
    cases r with
    | error e => exact hrest _ _
    | ok counts' => exact ih counts' b'

omit [Lowercase] [SerdeStrings] in
theorem moves_writeFile (md : String) : (writeFile md).Moves Silently := by
  refine ⟨fun b => ?_, fun _ => trivial⟩
  simp only [Silently]
  split <;> rfl

variable [Collation]

theorem careful_runOnce {order : Iteration} {now : String} {rest : Except Err Unit → Prog Board Err Unit}
    (hrest : ∀ r b, Careful (rest r) b) (b : Board) : Careful ((runOnce order now).andThen rest) b := by
  rw [runOnce, Prog.bind_eq, Prog.bind_andThen, reconcileTodos, Prog.bind_eq, Prog.bind_andThen]
  refine careful_gateway rfl fun r b₁ _ => ?_
  cases r with
  | error e => exact hrest _ _
  | ok rows =>
    refine careful_reconcileAll (fun r b₂ => ?_) _ _ _
    cases r with
    | error e => exact hrest _ _
    | ok counts =>
      have hmoves : (writeTodoMd).Moves Silently := (moves_gateway _).bind fun rows => moves_writeFile (todoMdText rows)
      exact Guards.andThen silently_trans silently_announcedOnce hmoves rfl fun r b₃ _ => hrest r b₃

theorem careful_spawn (passes : List (Iteration × String)) : ∀ b, Careful (spawn passes) b := by
  induction passes with
  | nil => exact fun _ => trivial
  | cons pass passes ih =>
    intro b
    rw [spawn, Prog.bind_eq, Prog.attempt_bind]
    exact careful_runOnce (fun _ b' => ih b') b

/-- **An assignment is announced once in every run in which no pass comes to a todo that is alone under its task, was
announced before, and whose agent has a capability for it**; where one does and no statement fails, the next three
actions announce it again. -/
theorem announced_once {passes : List (Iteration × String)} {b : Board} (hb : AnnouncedOnce b)
    {c : Prog Board Err Unit × Board} (hrun : Run Silently Renews (spawn passes, b) c) :
    AnnouncedOnce c.2 ∧ (∀ task, RenewsTask task c.1 c.2 → c.2.world.faults = [] → Storable c.2.world.db task →
      ∃ c', Run Silently (fun _ _ => False) c c' ∧ ¬ AnnouncedOnce c'.2) := by
  have hkept := Run.keeps silently_trans silently_announcedOnce hrun (fun _ => rfl) ⟨hb, careful_spawn passes b⟩
  exact ⟨hkept.1, fun task => announces_again⟩

end

/-! ## Two passes -/

namespace DemoReconciler

section
variable [Lowercase] [SerdeStrings]

theorem not_renews_of_silent {p : Prog Board Err Unit} {b : Board} (h : b.published = []) : ¬ Renews p b := by
  rintro ⟨task, now, agent, id, counts, rest, -, hann, -⟩
  rw [Announced, h] at hann
  cases hann

theorem not_renews_of_incapable {p : Prog Board Err Unit} {b : Board}
    (h : ∀ row ∈ b.world.db.agents.rows, SerdeStrings.fromText row.capabilities = some []) : ¬ Renews p b := by
  rintro ⟨task, now, agent, id, counts, rest, -, -, hcan⟩
  rw [hasCapability] at hcan
  split at hcan
  · rename_i row hrow
    rw [h row (Table.mem_of_find? hrow)] at hcan
    cases hcan
  · cases hcan

variable [Collation]

/-- Before the first of two passes. -/
def twoPasses : Prog Board Err Unit × Board :=
  (spawn [(order, "2026-01-02T00:00:00Z"), (order, "2026-01-02T00:00:30Z")], board "[\"search\"]" .empty)

/-- The first announcement has been made, and the agent registers again, without capabilities. -/
def reregistered : Prog Board Err Unit × Board :=
  let (rest, b) := advance^[4] twoPasses
  (rest, { b with world := { b.world with db := db "[]" b.world.db.projectTodos } })

theorem run_reregistered (hfirst : ∀ i < 4, (advance^[i] twoPasses).2.published = [])
    (hlater : ∀ i < 7, ∀ row ∈ (advance^[i] reregistered).2.world.db.agents.rows, SerdeStrings.fromText row.capabilities = some []) :
    Run Silently Renews twoPasses (advance^[7] reregistered) := by
  have hannounce : Run Silently Renews twoPasses (advance^[4] twoPasses) :=
    run_advance 4 fun i hi => not_renews_of_silent (hfirst i hi)
  have hregister : Interrupted.Step Silently Renews (advance^[4] twoPasses) reregistered := Step.others rfl
  exact (hannounce.tail hregister).trans (run_advance 7 fun i hi => not_renews_of_incapable (hlater i hi))

end

theorem before_announcement : letI := ascii; letI := byCodePoint; letI := serde
    ∀ i < 4, (advance^[i] twoPasses).2.published = [] := by
  decide +kernel

theorem after_registration : letI := ascii; letI := byCodePoint; letI := serde
    (∀ i < 7, ∀ row ∈ (advance^[i] reregistered).2.world.db.agents.rows, SerdeStrings.fromText row.capabilities = some []) ∧
      (advance^[7] reregistered).2.published = [⟨"agent-a", "global", "search for papers", some 1⟩] := by
  decide +kernel

theorem still_capable : letI := ascii; letI := byCodePoint; letI := serde
    (advance^[11] twoPasses).2.published =
      [⟨"agent-a", "global", "search for papers", some 1⟩, ⟨"agent-a", "global", "search for papers", some 1⟩] := by
  decide +kernel

end DemoReconciler

section
open DemoReconciler

/-- The agent has lost its capability when the second pass asks. -/
theorem announced_once_demo : letI := ascii; letI := byCodePoint; letI := serde
    ∃ c : Prog Board Err Unit × Board, c.2.published = [⟨"agent-a", "global", "search for papers", some 1⟩] ∧ AnnouncedOnce c.2 := by
  have hrun := @run_reregistered ascii serde byCodePoint before_announcement after_registration.1
  exact ⟨_, after_registration.2, (@announced_once ascii serde byCodePoint _ (board "[\"search\"]" .empty) List.nodup_nil _ hrun).1⟩

/-- The second pass announces the same todo to the same agent. -/
theorem announced_twice : letI := ascii; letI := byCodePoint; letI := serde
    ∃ (passes : List (Iteration × String)) (b : Board) (c : Prog Board Err Unit × Board), b.published = [] ∧ b.world.faults = [] ∧
      Run Silently (fun _ _ => False) (spawn passes, b) c ∧ ¬ AnnouncedOnce c.2 := by
  let := ascii; let := byCodePoint; let := serde
  refine ⟨_, _, advance^[11] twoPasses, rfl, rfl, run_advance 11 fun _ _ => id, ?_⟩
  rw [AnnouncedOnce, still_capable]
  decide

end

end Reconciler

end A2AGateway
