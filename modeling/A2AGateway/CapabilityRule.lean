import A2AGateway.StaleAssignments
import Mathlib.Data.List.Infix

/-!
# Capabilities, and tasks that are filed more than once

"Match tasks → agents by capability overlap": for a task with one todo `reconciler.rs:118` asks whether its
agent has a capability for it. A task with several is merged and given to the agent of the first one, and
nobody asks (`reconciler.rs:106-117`), not even if all of them are one agent's. So every pass over an empty
table goes by capability if and only if each task with several todos has a first agent that is capable of it
(`capability_rule_iff`).
-/

namespace A2AGateway

open Gw

namespace Reconciler

section
variable [Lowercase] [SerdeStrings]

/-- The agent has a capability that occurs in the text, in whatever case. -/
def Capable (db : Db) (agent text : String) : Prop :=
  ∃ row, Registry.rowNamed agent db = some row ∧ ∃ c ∈ (SerdeStrings.fromText row.capabilities).getD [],
    (Lowercase.toLowercase c).toList <:+: (Lowercase.toLowercase text).toList

omit [Lowercase] [SerdeStrings] in
theorem contains_iff {s piece : String} : contains s piece = true ↔ piece.toList <:+: s.toList := by
  rw [contains, List.any_eq_true, List.infix_iff_prefix_suffix]
  simp only [List.mem_tails, List.isPrefixOf_iff_prefix]
  exact exists_congr fun rest => and_comm

theorem hasCapability_iff {db : Db} {agent task : String} : hasCapability db agent task = true ↔ Capable db agent task := by
  rw [hasCapability, Capable]
  cases hrow : Registry.rowNamed agent db with
  | none => simp
  | some row => simp [contains_iff]

/-- Pending with an agent that is capable of the task, flagged with one that is not. -/
def GoesByCapability (db : Db) (row : ProjectTodo) : Prop :=
  ∃ agent ∈ row.assignedTo,
    row.status = "pending" ∧ Capable db agent row.task ∨ row.status = "flagged" ∧ ¬ Capable db agent row.task

theorem goesByCapability_iff {db : Db} {row : ProjectTodo} {entries : List (String × Int)} (hentries : entries ≠ [])
    (hassign : row.assignment = asked db row.task entries) :
    GoesByCapability db row ↔ (entries.length > 1 → firstCapable db row.task entries = true) := by
  obtain ⟨first, rest, rfl⟩ := List.exists_cons_of_ne_nil hentries
  have hagent : row.assignedTo = some first.1 := congrArg Assignment.assignedTo hassign
  have hstatus : row.status =
      if (first :: rest).length > 1 ∨ firstCapable db row.task (first :: rest) then "pending" else "flagged" :=
    congrArg Assignment.status hassign
  have hfirst : firstCapable db row.task (first :: rest) = true ↔ Capable db first.1 row.task := hasCapability_iff
  have hdiffer : "pending" ≠ "flagged" := by decide
  simp only [GoesByCapability, hagent, Option.mem_def, Option.some.injEq, exists_eq_left', hstatus, ← hfirst]
  by_cases hlength : (first :: rest).length > 1
  · simp only [hlength, true_or, if_true, hdiffer, true_and, false_and, or_false, true_implies]
  · by_cases hcan : firstCapable db row.task (first :: rest) = true
    · simp only [hlength, hcan, or_true, if_true, true_and, true_or, implies_true]
    · simp [hcan]

section
variable [Collation]

/-- However a pass over an empty table ends, each row is one that was asked for, and its key is indexed. -/
theorem asked_of_mem {order : Iteration} {now : String} {b b' : Board} {r : Except Err Unit}
    (h : (runOnce order now).exec b = (r, b')) (hempty : b.world.db.projectTodos = .empty) :
    ∀ row ∈ b'.world.db.projectTodos.rows, b.world.db.engine.indexes [row.task] = true ∧
      ∃ entries, (byTask (openTodos b.world.db)).lookup row.task = some entries ∧
        row.assignment = asked b.world.db row.task entries := by
  have hkeeps := @runOnce_keeps b _ _ _ (fun db => OnlyProjectTodos b.world.db db ∧
    ∀ row ∈ db.projectTodos.rows, b.world.db.engine.indexes [row.task] = true ∧
      ∃ entries, (byTask (openTodos b.world.db)).lookup row.task = some entries ∧
        row.assignment = asked b.world.db row.task entries) order now ⟨rfl, by simp [hempty]⟩ ?_
  · rw [h] at hkeeps
    exact hkeeps.2
  · rintro task entries hlookup db db' new ⟨honly, hrows⟩ hkey honly' - htask hassign hins
    refine ⟨honly.trans honly', fun row hrow => ?_⟩
    rw [hins] at hrow
    rcases Table.mem_of_insertIgnore hrow with hold | rfl
    · exact hrows row hold
    · have hindexed : b.world.db.engine.indexes [task] = true := by
        rcases hkey with hindexed | ⟨x, hx, hxtask⟩
        · rwa [honly] at hindexed
        · exact hxtask ▸ (hrows x hx).1
      refine ⟨htask ▸ hindexed, entries, htask ▸ hlookup, ?_⟩
      rw [hassign, htask, honly]
      rfl

/-- What the rows of a pass that comes to it first say of a task with several todos, if they go by capability. -/
theorem capable_of_goesByCapability {now task : String} {b : Board} {entries : List (String × Int)} {first second : Todo}
    {rest : List Todo} (hcalm : b.world.faults = []) (hempty : b.world.db.projectTodos = .empty)
    (hlookup : (byTask (openTodos b.world.db)).lookup task = some entries)
    (hfiled : filed (openTodos b.world.db) task = first :: second :: rest) (hkey : b.world.db.engine.indexes [task] = true)
    (hrule : ∀ row ∈ ((runOnce (.startingWith ⟨task, entries⟩) now).exec b).2.world.db.projectTodos.rows,
      GoesByCapability b.world.db row) : Capable b.world.db first.agentName task := by
  obtain ⟨hne, hentries⟩ := lookup_byTask.1 hlookup
  rw [hfiled, List.map_cons, List.map_cons] at hentries
  have hnone : projectRow task b.world.db = none := by rw [projectRow, hempty]; rfl
  obtain ⟨row, hrow, hassign⟩ := Option.map_eq_some_iff.1 (projectRow_startingWith now hcalm hlookup (Or.inl hkey) hnone)
  have htask : row.task = task := by simpa using List.find?_some hrow
  subst htask
  have hcan := (goesByCapability_iff hne hassign).1 (hrule row (List.mem_of_find?_eq_some hrow))
  rw [hentries] at hcan
  exact hasCapability_iff.1 (hcan (by simp))

/-- Whatever becomes of a pass over these todos, agents and capabilities, the rows that it leaves go by capability. -/
def ObeysCapabilityRule (db : Db) : Prop :=
  ∀ order now b r b', b.world.db = db → (runOnce order now).exec b = (r, b') →
    ∀ row ∈ b'.world.db.projectTodos.rows, GoesByCapability db row

/-- **The rule holds if and only if it holds of the first agents of the tasks that are filed more than once**, as far
as their rows can be stored. -/
theorem capability_rule_iff {db : Db} (hempty : db.projectTodos = .empty) :
    ObeysCapabilityRule db ↔ ∀ task first second rest, filed (openTodos db) task = first :: second :: rest →
      db.engine.indexes [task] = true → Capable db first.agentName task := by
  constructor
  · intro hrule task first second rest hfiled hkey
    -- A pass that nothing disturbs and that comes to this task first.
    have hlookup : (byTask (openTodos db)).lookup task =
        some ((filed (openTodos db) task).map fun t => (t.agentName, t.id)) := by
      refine lookup_byTask.2 ⟨?_, rfl⟩
      rw [hfiled]
      simp
    let b : Board := ⟨{ World.fresh with db }, [], none⟩
    have hrun : ∀ order, (runOnce order "").exec b = (((runOnce order "").exec b).1, ((runOnce order "").exec b).2) :=
      fun _ => rfl
    exact capable_of_goesByCapability (b := b) rfl hempty hlookup hfiled hkey (hrule _ _ b _ _ rfl (hrun _))
  · rintro hcapable order now b r b' rfl hrun row hrow
    obtain ⟨hkey, entries, hlookup, hassign⟩ := asked_of_mem hrun hempty row hrow
    obtain ⟨hne, hentries⟩ := lookup_byTask.1 hlookup
    refine (goesByCapability_iff hne hassign).2 fun hlength => ?_
    rw [hentries, List.length_map] at hlength
    obtain ⟨first, tail, hfiled⟩ := List.exists_cons_of_length_pos (Nat.lt_of_succ_lt hlength)
    have htail : 0 < tail.length := by
      rw [hfiled, List.length_cons] at hlength
      omega
    obtain ⟨second, rest, rfl⟩ := List.exists_cons_of_length_pos htail
    rw [hentries, hfiled]
    exact hasCapability_iff.2 (hcapable _ _ _ _ hfiled hkey)

end

end

/-! ## One agent, twice -/

namespace DemoReconciler

/-- The todo of `agent-a` once more, in another spelling. -/
def twice (capabilities : String) : Db :=
  { db capabilities .empty with
    todos := ((db capabilities .empty).todos).insertIgnore
      ⟨2, "agent-a", " search for papers", "pending", "", "2026-01-01T00:01:00Z", none⟩ }

def boardTwice (capabilities : String) : Board := ⟨{ World.fresh with db := twice capabilities }, [], none⟩

theorem twice_capable : letI := ascii; letI := byCodePoint; letI := serde
    (openTodos (twice "[\"search\"]")).length = 2 ∧ ∀ t ∈ openTodos (twice "[\"search\"]"),
      hasCapability (twice "[\"search\"]") t.agentName (normaliseTask t.task) = true := by
  decide +kernel

theorem twice_pending : letI := ascii; letI := byCodePoint; letI := serde
    (pass (boardTwice "[]")).1 = .ok () ∧
      (pass (boardTwice "[]")).2.world.db.projectTodos.rows.map (fun row => (row.task, row.assignedTo, row.status)) =
        [("search for papers", some "agent-a", "pending")] ∧
      hasCapability (twice "[]") "agent-a" "search for papers" = false := by
  decide +kernel

end DemoReconciler

section
open DemoReconciler

theorem capability_rule_demo : letI := ascii; letI := byCodePoint; letI := serde
    (openTodos (twice "[\"search\"]")).length = 2 ∧ ObeysCapabilityRule (twice "[\"search\"]") := by
  let := ascii; let := byCodePoint; let := serde
  refine ⟨twice_capable.1, (capability_rule_iff rfl).2 fun task first second rest hfiled _ => ?_⟩
  have hfirst : first ∈ filed (openTodos (twice "[\"search\"]")) task := by
    rw [hfiled]
    exact List.mem_cons_self
  obtain ⟨hopen, htask⟩ := List.mem_filter.1 hfirst
  rw [← beq_iff_eq.1 htask]
  exact hasCapability_iff.1 (twice_capable.2 first hopen)

/-- **An agent that can do nothing files the task twice, and it is no longer flagged.** -/
theorem filed_twice_pending : letI := ascii; letI := byCodePoint; letI := serde
    ∃ b b' row, b.world.faults = [] ∧ b.world.db.projectTodos = .empty ∧
      (runOnce order "2026-01-02T00:00:00Z").exec b = (.ok (), b') ∧ row ∈ b'.world.db.projectTodos.rows ∧
      row.status = "pending" ∧ row.assignedTo = some "agent-a" ∧ ¬ Capable b.world.db "agent-a" row.task := by
  let := ascii; let := byCodePoint; let := serde
  obtain ⟨hok, hrows, hcannot⟩ := twice_pending
  obtain ⟨row, hmem, hfields⟩ := List.mem_map.1 (List.mem_of_mem_head? (congrArg List.head? hrows))
  simp only [Prod.mk.injEq] at hfields
  refine ⟨boardTwice "[]", _, row, rfl, rfl, ?_, hmem, hfields.2.2, hfields.2.1, ?_⟩
  · exact Prog.exec_eq_of_fst hok
  · rw [hfields.1, ← hasCapability_iff]
    exact Bool.eq_false_iff.1 hcannot

end

end Reconciler

end A2AGateway
