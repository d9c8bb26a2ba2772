import A2AGateway.Reconciler
import Mathlib.Data.List.Induction

/-!
# What a pass makes of the rows of earlier passes

The reconciler writes `project_todos` with `ON CONFLICT DO NOTHING`, so a task that has a row keeps it, whatever
has become of its todos and of its agent's capabilities. A pass leaves what a pass over an empty table would
write in exactly the states in which the rows of the open tasks are up to date already (`reflects_iff`).
-/

namespace A2AGateway

open Gw

/-- What a pass decides about a task. -/
structure Assignment where
  assignedTo : Option String
  status : String
  notes : String
  sourceTodos : String
deriving DecidableEq

def ProjectTodo.assignment (row : ProjectTodo) : Assignment := ⟨row.assignedTo, row.status, row.notes, row.sourceTodos⟩

namespace Reconciler

/-- The row of a task. -/
def projectRow (task : String) (db : Db) : Option ProjectTodo := db.projectTodos.find? (·.task == task)

section
variable [Lowercase] [SerdeStrings]

/-- The agent of the first todo has a capability for the task. -/
def firstCapable (db : Db) (task : String) (entries : List (String × Int)) : Bool :=
  entries.head?.any fun e => hasCapability db e.1 task

/-- What the open todos of a task and the capabilities of its agent ask for. -/
def asked (db : Db) (task : String) (entries : List (String × Int)) : Assignment where
  assignedTo := entries.head?.map (·.1)
  status := if entries.length > 1 ∨ firstCapable db task entries then "pending" else "flagged"
  notes :=
    if entries.length > 1 then mergedNotes (entries.map (·.1))
    else if firstCapable db task entries then "" else mismatchNotes
  sourceTodos := sourceJson (entries.map (·.2))

end

/-! ## One task -/

/-- A database that differs in `project_todos` only. -/
def OnlyProjectTodos (db db' : Db) : Prop := db' = { db with projectTodos := db'.projectTodos }

theorem OnlyProjectTodos.trans {a b c : Db} (h : OnlyProjectTodos a b) (h' : OnlyProjectTodos b c) : OnlyProjectTodos a c := by
  rw [OnlyProjectTodos] at h h' ⊢
  rw [h', h]

theorem lt_nextId {db : Db} {row : ProjectTodo} (h : row ∈ db.projectTodos.rows) : row.id < nextId db := by
  have hmax : ∀ l : List Int, ∀ i ∈ l, i ≤ l.foldr max 0 := by
    intro l
    induction l with
    | nil => simp
    | cons j l ih =>
      intro i hi
      rw [List.foldr_cons]
      rcases List.mem_cons.1 hi with rfl | hi
      · exact Int.le_max_left _ _
      · exact Int.le_trans (ih i hi) (Int.le_max_right _ _)
  have hle := hmax _ _ (List.mem_map_of_mem (f := (·.id)) h)
  rw [nextId]
  omega

/-- A statement that succeeds had a task that can have a row. -/
theorem storable_of_insertProjectTodo {db db' : Db} {row : ProjectTodo} (hid : row.id = nextId db)
    (h : insertProjectTodo row db = some db') : Storable db row.task := by
  by_contra hnot
  obtain ⟨hkey, hnone⟩ := not_or.1 hnot
  push Not at hnone
  have hadmits : db.projectTodos.admits row = true := by
    refine Table.admits_iff.2 fun x hx => ?_
    have hlt := lt_nextId hx
    have hne : x.id ≠ row.id := by omega
    simp [Constraints.clash, hne, hnone x hx]
  simp [insertProjectTodo, hadmits, hkey] at h

/-- The new row goes in if and only if its task has none. -/
theorem projectRow_insertIgnore {db db' : Db} {row : ProjectTodo} (hid : row.id = nextId db)
    (h : db'.projectTodos = db.projectTodos.insertIgnore row) (task : String) :
    projectRow task db' = (projectRow task db).or (if row.task = task then some row else none) := by
  rw [projectRow, projectRow, h]
  rcases db.projectTodos.rows_insertIgnore row with ⟨hrows, x, hx, hclash⟩ | ⟨hrows, -⟩
  · rw [Table.ext hrows]
    -- The row that stands against it has its task; the ids differ.
    have hlt := lt_nextId hx
    have htask : x.task = row.task := by
      simp only [Constraints.clash, Bool.or_eq_true, beq_iff_eq] at hclash
      rcases hclash with hsame | htask
      · omega
      · exact htask
    by_cases hname : row.task = task
    · rw [if_pos hname]
      cases hfind : db.projectTodos.find? (·.task == task) with
      | some y => rfl
      | none =>
        have hno := List.find?_eq_none.1 hfind x hx
        simp [htask, hname] at hno
    · rw [if_neg hname, Option.or_none]
  · rw [Table.find?_of_rows_append hrows]
    simp

section
variable {now task : String} {entries : List (String × Int)} {counts counts' : Counts} {b b' : Board}

theorem exec_upsertProjectTodo_ok {assignedTo : Option String} {status notes : String} {ids : List Int} {u : Unit}
    (h : ((upsertProjectTodo task assignedTo status notes ids now).within Board.gateway).exec b = (.ok u, b')) :
    Storable b.world.db task ∧ OnlyProjectTodos b.world.db b'.world.db ∧ ∃ row : ProjectTodo,
      row.id = nextId b.world.db ∧ row.task = task ∧ row.assignment = ⟨assignedTo, status, notes, sourceJson ids⟩ ∧
        b'.world.db.projectTodos = b.world.db.projectTodos.insertIgnore row := by
  obtain ⟨w, hrun, rfl⟩ := Prog.exec_within_ok.1 h
  obtain ⟨db, hdb, rfl⟩ := exec_execute_ok hrun
  refine ⟨storable_of_insertProjectTodo rfl hdb, ?_⟩
  rw [insertProjectTodo_eq_some hdb]
  exact ⟨rfl, _, rfl, rfl, rfl, rfl⟩

variable [Lowercase] [SerdeStrings]

/-- What a task is given when its first agent is known to be capable of it or not. -/
def plan (first : String × Int) (rest : List (String × Int)) (capable : Bool) : Assignment where
  assignedTo := some first.1
  status := if rest ≠ [] ∨ capable then "pending" else "flagged"
  notes := if rest ≠ [] then mergedNotes ((first :: rest).map (·.1)) else if capable then "" else mismatchNotes
  sourceTodos := sourceJson ((first :: rest).map (·.2))

theorem asked_cons (db : Db) (task : String) (first : String × Int) (rest : List (String × Int)) :
    asked db task (first :: rest) = plan first rest (hasCapability db first.1 task) := by
  cases rest with
  | nil => cases h : hasCapability db first.1 task <;> simp [asked, plan, firstCapable, h]
  | cons => simp [asked, plan]

/-- The first step of a task: a todo that is alone has its agent looked up. -/
def checkFirst (task : String) (first : String × Int) (rest : List (String × Int)) : Prog Board Err Bool :=
  if rest = [] then (agentHasCapability first.1 task).within Board.gateway else .ret true

/-- The check, the row, and what may be announced at the end: for one todo and for several. -/
theorem reconcileTask_eq (now task : String) (first : String × Int) (rest : List (String × Int)) (counts : Counts) :
    ∃ finish : Bool → Prog Board Err Counts,
      (∀ capable b, ∃ counts' b', (finish capable).exec b = (.ok counts', b') ∧ b'.world = b.world) ∧
      reconcileTask now task (first :: rest) counts = (checkFirst task first rest).bind fun capable =>
        ((upsertProjectTodo task (some first.1) (plan first rest capable).status (plan first rest capable).notes
          ((first :: rest).map (·.2)) now).within Board.gateway).bind fun _ => finish capable := by
  obtain ⟨agent, id⟩ := first
  cases rest with
  | nil =>
    refine ⟨fun capable => if capable then
        (publishTaskAssigned agent "global" task (some id)).bind fun _ => .ret { counts with assigned := counts.assigned + 1 }
      else .ret { counts with flagged := counts.flagged + 1 }, fun capable b => ?_, ?_⟩
    · cases capable <;> exact ⟨_, _, rfl, rfl⟩
    · rw [reconcileTask]
      refine congrArg (Prog.bind _) (funext fun capable => ?_)
      cases capable <;> rfl
  | cons second rest => exact ⟨fun _ => .ret { counts with merged := counts.merged + 1 }, fun _ b => ⟨_, b, rfl, rfl⟩, rfl⟩

/-- The check writes nothing; what it says of a todo that is alone is so. -/
theorem exec_checkFirst_ok {first : String × Int} {rest : List (String × Int)} {capable : Bool}
    (h : (checkFirst task first rest).exec b = (.ok capable, b')) :
    b'.world.db = b.world.db ∧ plan first rest capable = asked b.world.db task (first :: rest) := by
  rw [asked_cons]
  rw [checkFirst] at h
  split at h
  · obtain ⟨w, hquery, rfl⟩ := Prog.exec_within_ok.1 h
    obtain ⟨-, rfl, rfl⟩ := exec_query_iff.1 hquery
    exact ⟨rfl, rfl⟩
  · rename_i hrest
    cases h
    exact ⟨rfl, by simp [plan, hrest]⟩

/-- **A task that goes well gets the row that is asked for, if it has none.** -/
theorem exec_reconcileTask (h : (reconcileTask now task entries counts).exec b = (.ok counts', b')) :
    Storable b.world.db task ∧ OnlyProjectTodos b.world.db b'.world.db ∧ ∃ row : ProjectTodo,
      row.id = nextId b.world.db ∧ row.task = task ∧ row.assignment = asked b.world.db task entries ∧
        b'.world.db.projectTodos = b.world.db.projectTodos.insertIgnore row := by
  cases entries with
  | nil => cases h
  | cons first rest =>
    obtain ⟨finish, hfinish, heq⟩ := reconcileTask_eq now task first rest counts
    rw [heq] at h
    obtain ⟨capable, b₁, hcheck, h⟩ := Prog.exec_bind_ok.1 h
    obtain ⟨u, b₂, hrow, h⟩ := Prog.exec_bind_ok.1 h
    obtain ⟨hdb, hplan⟩ := exec_checkFirst_ok hcheck
    obtain ⟨hkey, honly, row, hid, htask, hassign, hins⟩ := exec_upsertProjectTodo_ok hrow
    obtain ⟨counts'', b₃, hend, hworld⟩ := hfinish capable b₂
    rw [hend] at h
    cases h
    rw [hworld]
    rw [hdb] at hkey honly hid hins
    exact ⟨hkey, honly, row, hid, htask, hassign.trans hplan, hins⟩

/-- A task that fails has written nothing. -/
theorem reconcileTask_error {e : Err} (h : (reconcileTask now task entries counts).exec b = (.error e, b')) :
    b'.world.db = b.world.db := by
  cases entries with
  | nil =>
    cases h
    rfl
  | cons first rest =>
    obtain ⟨finish, hfinish, heq⟩ := reconcileTask_eq now task first rest counts
    rw [heq] at h
    rcases Prog.exec_bind_error h with hcheck | ⟨capable, b₁, hcheck, h⟩
    · rw [checkFirst] at hcheck
      split at hcheck
      · obtain ⟨w, hquery, rfl⟩ := Prog.exec_within_error hcheck
        rw [exec_query_error hquery]
        rfl
      · cases hcheck
    rcases Prog.exec_bind_error h with hrow | ⟨u, b₂, -, h⟩
    · obtain ⟨w, hrun, rfl⟩ := Prog.exec_within_error hrow
      rw [exec_execute_error hrun]
      exact (exec_checkFirst_ok hcheck).1
    · obtain ⟨counts'', b₃, hend, -⟩ := hfinish capable b₂
      rw [hend] at h
      cases h

end

section
variable [Lowercase] {task : String}

/-- The open todos of a task, in the order in which they are read. -/
def filed (rows : List Todo) (task : String) : List Todo := rows.filter fun t => normaliseTask t.task == task

theorem byTask_append_singleton (rows : List Todo) (row : Todo) :
    byTask (rows ++ [row]) = (byTask rows).insert (normaliseTask row.task)
      ((((byTask rows).lookup (normaliseTask row.task)).getD []) ++ [(row.agentName, row.id)]) := by
  rw [byTask, List.foldl_append]
  rfl

/-- **The map has an entry for each task that is filed: its todos.** -/
theorem lookup_byTask {rows : List Todo} {entries : List (String × Int)} :
    (byTask rows).lookup task = some entries ↔ entries ≠ [] ∧ entries = (filed rows task).map fun t => (t.agentName, t.id) := by
  have hmap : ∀ task, ((byTask rows).lookup task).getD [] = (filed rows task).map (fun t => (t.agentName, t.id)) ∧
      (byTask rows).lookup task ≠ some [] := by
    induction rows using List.reverseRecOn with
    | nil => simp [byTask, filed]
    | append_singleton rows row ih =>
      intro task
      rw [byTask_append_singleton, filed, List.filter_append, List.map_append]
      by_cases hkey : task = normaliseTask row.task
      · rw [hkey, AList.lookup_insert, Option.getD_some, (ih (normaliseTask row.task)).1]
        simp [filed]
      · have hkey' : ¬ normaliseTask row.task = task := fun h => hkey h.symm
        rw [AList.lookup_insert_ne hkey, (ih task).1]
        simpa [filed, hkey'] using (ih task).2
  have htask := hmap task
  cases hlookup : (byTask rows).lookup task with
  | none =>
    rw [hlookup] at htask
    grind
  | some entries' =>
    rw [hlookup] at htask
    grind

end

section
variable {now task : String} {entries : List (String × Int)} {counts counts' : Counts} {b b' : Board}
variable [Lowercase] [SerdeStrings]

/-! ## One pass -/

/-- The rows of all tasks, after those of a list of groups have had their turn. -/
theorem exec_reconcileAll (gs : List Group) : ∀ {counts counts' : Counts} {b b' : Board},
    (reconcileAll now gs counts).exec b = (.ok counts', b') →
      OnlyProjectTodos b.world.db b'.world.db ∧ ∀ task, (projectRow task b'.world.db).map (·.assignment) =
        ((projectRow task b.world.db).map (·.assignment)).or ((gs.dlookup task).map (asked b.world.db task)) := by
  induction gs with
  | nil =>
    intro counts counts' b b' h
    cases h
    refine ⟨rfl, fun task => ?_⟩
    rw [List.dlookup_nil, Option.map_none, Option.or_none]
  | cons g gs ih =>
    intro counts counts' b b' h
    rw [reconcileAll] at h
    obtain ⟨counts₁, b₁, hfirst, hrest⟩ := Prog.exec_bind_ok.1 h
    obtain ⟨-, honly, row, hid, htask, hassign, hins⟩ := exec_reconcileTask hfirst
    obtain ⟨honly', hrows⟩ := ih hrest
    refine ⟨honly.trans honly', fun task => ?_⟩
    have hsame : asked b₁.world.db task = asked b.world.db task := by
      rw [honly]
      rfl
    rw [hrows task, projectRow_insertIgnore hid hins task, hsame]
    obtain ⟨key, entries⟩ := g
    cases hold : projectRow task b.world.db with
    | some r => rfl
    | none =>
      by_cases hkey : key = task
      · subst hkey
        rw [if_pos htask, List.dlookup_cons_eq]
        simp [hassign]
      · rw [htask, if_neg hkey, List.dlookup_cons_ne _ _ (Ne.symm hkey)]
        rfl

/-- **What each row that is asked for preserves, a pass preserves, however it ends.** -/
theorem reconcileAll_keeps {P : Db → Prop} (gs : List Group)
    (hP : ∀ g ∈ gs, ∀ db db' row, P db → Storable db g.1 → OnlyProjectTodos db db' → row.id = nextId db →
      row.task = g.1 → row.assignment = asked db g.1 g.2 → db'.projectTodos = db.projectTodos.insertIgnore row → P db') :
    ∀ counts, (reconcileAll now gs counts).Keeps fun b => P b.world.db := by
  induction gs with
  | nil => exact fun counts => Prog.keeps_ret counts
  | cons g gs ih =>
    intro counts
    rw [List.forall_mem_cons] at hP
    refine Prog.Keeps.bind (fun b hb => ?_) (ih hP.2)
    rcases hrun : (reconcileTask now g.1 g.2 counts).exec b with ⟨r, b'⟩
    cases r with
    | error e =>
      rw [reconcileTask_error hrun]
      exact hb
    | ok counts' =>
      obtain ⟨hkey, honly, row, hid, htask, hassign, hins⟩ := exec_reconcileTask hrun
      exact hP.1 _ _ row hb hkey honly hid htask hassign hins

omit [Lowercase] [SerdeStrings] in
theorem writeFile_db (md : String) (b : Board) : ((writeFile md).exec b).2.world.db = b.world.db := by
  simp only [writeFile, Prog.exec]
  split <;> rfl

variable [Collation] {order : Iteration}

omit [Lowercase] [SerdeStrings] [Collation] in
/-- Walking through the map in another order finds the same entries. -/
theorem dlookup_arrange (order : Iteration) (groups : AList fun _ : String => List (String × Int)) (task : String) :
    (order.arrange groups.entries).dlookup task = groups.lookup task := by
  have hperm := order.perm groups.entries
  exact List.perm_dlookup task ((List.perm_nodupKeys hperm).2 groups.nodupKeys) hperm

omit [Lowercase] [SerdeStrings] [Collation] in
theorem query_keeps {P : Db → Prop} {α : Type} (f : Db → α) :
    ((query .sqlx f).within Board.gateway).Keeps fun b => P b.world.db := by
  refine Prog.Moves.keeps (Prog.Moves.within_of (T := fun w w' => w'.db = w.db) ?_ (moves_query fun w => rfl))
  intro b w hw hP
  exact hw.symm ▸ hP

omit [Lowercase] [SerdeStrings] [Collation] in
theorem writeTodoMd_keeps {P : Db → Prop} : writeTodoMd.Keeps fun b => P b.world.db := by
  unfold writeTodoMd
  refine (query_keeps _).bind fun rows b hb => ?_
  show P ((writeFile (todoMdText rows)).exec b).2.world.db
  rw [writeFile_db]
  exact hb

/-- **And so does all of `run_once`.** -/
theorem runOnce_keeps {P : Db → Prop} (order : Iteration) (now : String) (hb : P b.world.db)
    (hP : ∀ task entries, (byTask (openTodos b.world.db)).lookup task = some entries → ∀ db db' row, P db →
      Storable db task → OnlyProjectTodos db db' → row.id = nextId db → row.task = task →
      row.assignment = asked db task entries → db'.projectTodos = db.projectTodos.insertIgnore row → P db') :
    P ((runOnce order now).exec b).2.world.db := by
  have hpass : P ((reconcileTodos order now).exec b).2.world.db := by
    refine Prog.exec_bind_state (P := fun b : Board => P b.world.db) (query_keeps openTodos b hb) fun rows b₁ hrun hb₁ => ?_
    obtain ⟨w, hrows, -⟩ := Prog.exec_within_ok.1 hrun
    obtain ⟨-, rfl, -⟩ := exec_query_iff.1 hrows
    refine reconcileAll_keeps _ (fun g hg => ?_) {} b₁ hb₁
    rw [(order.perm _).mem_iff] at hg
    exact hP g.1 g.2 (AList.mem_lookup_iff.2 hg)
  exact Prog.exec_bind_state (P := fun b : Board => P b.world.db) hpass fun _ b₁ _ => writeTodoMd_keeps b₁

/-- **After a pass a task has the row it had, or else the one that is asked for.** -/
theorem exec_runOnce {u : Unit} (h : (runOnce order now).exec b = (.ok u, b')) (task : String) :
    (projectRow task b'.world.db).map (·.assignment) = ((projectRow task b.world.db).map (·.assignment)).or
      (((byTask (openTodos b.world.db)).lookup task).map (asked b.world.db task)) := by
  obtain ⟨counts, b₁, hpass, hmd⟩ := Prog.exec_bind_ok.1 h
  obtain ⟨rows, b₂, hquery, hall⟩ := Prog.exec_bind_ok.1 hpass
  obtain ⟨w, hrows, rfl⟩ := Prog.exec_within_ok.1 hquery
  obtain ⟨-, rfl, rfl⟩ := exec_query_iff.1 hrows
  obtain ⟨-, hafter⟩ := exec_reconcileAll _ hall
  have hdb : b'.world.db = b₁.world.db := by
    obtain ⟨rows, b₃, hread, hwrite⟩ := Prog.exec_bind_ok.1 hmd
    obtain ⟨w, hrows, rfl⟩ := Prog.exec_within_ok.1 hread
    obtain ⟨-, -, rfl⟩ := exec_query_iff.1 hrows
    have hkept := writeFile_db (todoMdText rows) (Board.gateway.set (Board.gateway.get b₁).tick b₁)
    rw [hwrite] at hkept
    exact hkept
  rw [hdb, hafter task, dlookup_arrange]
  rfl

/-! ## A pass that nothing disturbs -/

omit [Lowercase] [SerdeStrings] [Collation] in
/-- Tasks that can have a row still can after another row. -/
theorem Storable.insertIgnore {db db' : Db} {row : ProjectTodo} (h : Storable db task) (honly : OnlyProjectTodos db db')
    (hins : db'.projectTodos = db.projectTodos.insertIgnore row) : Storable db' task := by
  rcases h with hkey | ⟨x, hx, htask⟩
  · left
    rw [honly]
    exact hkey
  · right
    refine ⟨x, ?_, htask⟩
    rw [hins]
    rcases db.projectTodos.rows_insertIgnore row with ⟨hrows, -⟩ | ⟨hrows, -⟩
    · exact hrows ▸ hx
    · exact hrows ▸ List.mem_append_left _ hx

omit [Collation] in
theorem exec_reconcileTask_calm (hcalm : b.world.faults = []) (hentries : entries ≠ []) (hkey : Storable b.world.db task) :
    ∃ counts' b', (reconcileTask now task entries counts).exec b = (.ok counts', b') ∧ b'.world.faults = [] := by
  obtain ⟨first, rest, rfl⟩ := List.exists_cons_of_ne_nil hentries
  obtain ⟨finish, hfinish, heq⟩ := reconcileTask_eq now task first rest counts
  obtain ⟨capable, b₁, hcheck, hcalm₁⟩ : ∃ capable b₁, (checkFirst task first rest).exec b = (.ok capable, b₁) ∧
      b₁.world.faults = [] := by
    unfold checkFirst
    split
    · exact ⟨_, _, exec_query_calm hcalm _, World.tick_faults hcalm⟩
    · exact ⟨true, b, rfl, hcalm⟩
  rw [← (exec_checkFirst_ok hcheck).1] at hkey
  obtain ⟨w, hrow, hw⟩ := exec_upsertProjectTodo_calm hcalm₁ task (some first.1) (plan first rest capable).status
    (plan first rest capable).notes ((first :: rest).map (·.2)) now hkey
  obtain ⟨counts', b', hend, hworld⟩ := hfinish capable (Board.gateway.set w b₁)
  rw [heq, Prog.exec_bind_of_ok hcheck, Prog.exec_bind_of_ok hrow]
  refine ⟨counts', b', hend, ?_⟩
  rw [hworld]
  exact hw

omit [Collation] in
theorem exec_reconcileAll_calm (gs : List Group) (hgs : ∀ g ∈ gs, g.2 ≠ []) : ∀ {counts : Counts} {b : Board},
    b.world.faults = [] → (∀ g ∈ gs, Storable b.world.db g.1) →
      ∃ counts' b', (reconcileAll now gs counts).exec b = (.ok counts', b') ∧ b'.world.faults = [] := by
  induction gs with
  | nil =>
    intro counts b hcalm _
    exact ⟨_, _, rfl, hcalm⟩
  | cons g gs ih =>
    intro counts b hcalm hkeys
    rw [List.forall_mem_cons] at hgs hkeys
    obtain ⟨counts₁, b₁, hfirst, hcalm₁⟩ := @exec_reconcileTask_calm now g.1 g.2 counts b _ _ hcalm hgs.1 hkeys.1
    rw [reconcileAll, Prog.bind_eq, Prog.exec_bind_of_ok hfirst]
    obtain ⟨-, honly, row, -, -, -, hins⟩ := exec_reconcileTask hfirst
    exact ih hgs.2 hcalm₁ fun g hg => (hkeys.2 g hg).insertIgnore honly hins

omit [SerdeStrings] [Collation] in
/-- An entry of the map is made with its first todo. -/
theorem byTask_ne_nil (rows : List Todo) {task : String} {entries : List (String × Int)}
    (h : (byTask rows).lookup task = some entries) : entries ≠ [] := (lookup_byTask.1 h).1

theorem exec_runOnce_calm (order : Iteration) (now : String) (hcalm : b.world.faults = [])
    (hkeys : ∀ task entries, (byTask (openTodos b.world.db)).lookup task = some entries → Storable b.world.db task) :
    ∃ b', (runOnce order now).exec b = (.ok (), b') := by
  have hstorable : ∀ g ∈ order.arrange (byTask (openTodos b.world.db)).entries, Storable b.world.db g.1 := by
    intro g hg
    rw [(order.perm _).mem_iff] at hg
    exact hkeys g.1 g.2 (AList.mem_lookup_iff.2 hg)
  have hgroups : ∀ g ∈ order.arrange (byTask (openTodos b.world.db)).entries, g.2 ≠ [] := by
    intro g hg
    rw [(order.perm _).mem_iff] at hg
    exact byTask_ne_nil _ (AList.mem_lookup_iff.2 hg)
  obtain ⟨counts, b₁, hall, hcalm₁⟩ := @exec_reconcileAll_calm now _ _ _ hgroups {}
    (Board.gateway.set b.world.tick b) (World.tick_faults hcalm) hstorable
  have hpass : (reconcileTodos order now).exec b = (.ok counts, b₁) := by
    rw [reconcileTodos, Prog.bind_eq, Prog.exec_bind_of_ok (exec_query_calm hcalm _)]
    exact hall
  rw [runOnce, Prog.bind_eq, Prog.exec_bind_of_ok hpass, writeTodoMd, Prog.bind_eq, Prog.exec_bind_of_ok (exec_query_calm hcalm₁ _)]
  exact ⟨_, rfl⟩

/-! ## A pass that comes to a task first -/

/-- The given group before all others. -/
def Iteration.startingWith (g : Group) : Iteration where
  arrange l := if g ∈ l then g :: l.erase g else l
  perm l := by
    split
    · rename_i hg
      exact (List.perm_cons_erase hg).symm
    · exact .refl _

omit [Lowercase] [SerdeStrings] [Collation] in
theorem arrange_startingWith {groups : AList fun _ : String => List (String × Int)}
    (h : groups.lookup task = some entries) :
    (Iteration.startingWith ⟨task, entries⟩).arrange groups.entries = ⟨task, entries⟩ :: groups.entries.erase ⟨task, entries⟩ :=
  if_pos (AList.mem_lookup_iff.1 h)

/-- **What the first task has done to the tables stays, whatever the rest of the pass comes to**, if the rows of the
other tasks preserve it. -/
theorem runOnce_startingWith {P : Db → Prop} (now : String) (hcalm : b.world.faults = [])
    (hlookup : (byTask (openTodos b.world.db)).lookup task = some entries)
    (hfirst : ∀ {r : Except Err Counts} {b₁}, (reconcileTask now task entries {}).exec (Board.gateway.set b.world.tick b) =
      (r, b₁) → P b₁.world.db)
    (hP : ∀ db db' row, P db → row.id = nextId db → db'.projectTodos = db.projectTodos.insertIgnore row → P db') :
    P ((runOnce (.startingWith ⟨task, entries⟩) now).exec b).2.world.db := by
  refine Prog.exec_bind_state (P := fun b : Board => P b.world.db) ?_ fun _ b₁ _ => writeTodoMd_keeps b₁
  rw [reconcileTodos, Prog.bind_eq, Prog.exec_bind_of_ok (exec_query_calm hcalm _), arrange_startingWith hlookup, reconcileAll,
    Prog.bind_eq]
  refine Prog.exec_bind_state (P := fun b : Board => P b.world.db) (hfirst rfl) fun counts b₁ _ hb₁ => ?_
  exact reconcileAll_keeps _ (fun g _ db db' row hdb _ _ hid _ _ hins => hP db db' row hdb hid hins) counts b₁ hb₁

/-- A task that can have a row has one then. -/
theorem projectRow_startingWith (now : String) (hcalm : b.world.faults = [])
    (hlookup : (byTask (openTodos b.world.db)).lookup task = some entries) (hkey : Storable b.world.db task)
    (hnone : projectRow task b.world.db = none) :
    (projectRow task ((runOnce (.startingWith ⟨task, entries⟩) now).exec b).2.world.db).map (·.assignment) =
      some (asked b.world.db task entries) := by
  refine runOnce_startingWith (P := fun db => (projectRow task db).map (·.assignment) = some (asked b.world.db task entries))
    now hcalm hlookup (fun {r b₁} hrun => ?_) fun db db' row hdb hid hins => ?_
  · obtain ⟨counts', b', hok, -⟩ := @exec_reconcileTask_calm now task entries {}
      (Board.gateway.set b.world.tick b) _ _ (World.tick_faults hcalm) (byTask_ne_nil _ hlookup) hkey
    rw [hok] at hrun
    cases hrun
    obtain ⟨-, -, row, hid, htask, hassign, hins⟩ := exec_reconcileTask hok
    rw [projectRow_insertIgnore hid hins, if_pos htask]
    show ((projectRow task b.world.db).or (some row)).map (·.assignment) = _
    rw [hnone, Option.none_or, Option.map_some, hassign]
    rfl
  · obtain ⟨row', hrow', hassign⟩ := Option.map_eq_some_iff.1 hdb
    rw [projectRow_insertIgnore hid hins, hrow', Option.some_or, Option.map_some, hassign]

/-- A task that cannot have a row ends the pass at once. -/
theorem runOnce_startingWith_refused (now : String) (hcalm : b.world.faults = [])
    (hlookup : (byTask (openTodos b.world.db)).lookup task = some entries) (hkey : ¬ Storable b.world.db task) :
    ((runOnce (.startingWith ⟨task, entries⟩) now).exec b).2.world.db = b.world.db := by
  obtain ⟨e, b₁, hrun, hdb⟩ : ∃ e b₁, (reconcileTask now task entries {}).exec (Board.gateway.set b.world.tick b) =
      (.error e, b₁) ∧ b₁.world.db = b.world.db := by
    rcases hrun : (reconcileTask now task entries {}).exec (Board.gateway.set b.world.tick b) with ⟨r, b₁⟩
    cases r with
    | ok counts => exact absurd (exec_reconcileTask hrun).1 hkey
    | error e =>
      have hdb := reconcileTask_error hrun
      exact ⟨e, b₁, rfl, hdb⟩
  have hpass : (reconcileTodos (.startingWith ⟨task, entries⟩) now).exec b = (.error e, b₁) := by
    rw [reconcileTodos, Prog.bind_eq, Prog.exec_bind_of_ok (exec_query_calm hcalm _), arrange_startingWith hlookup,
      reconcileAll, Prog.bind_eq]
    exact Prog.exec_bind_of_error hrun
  rw [runOnce, Prog.bind_eq, Prog.exec_bind_of_error hpass]
  exact hdb

/-! ## From any state -/

/-- After the pass from `b` to `b'` each open task has the row that a pass would give it if there were none, whatever
the indexes take. -/
def ReflectsTodos (b b' : Board) : Prop :=
  ∀ task entries, (byTask (openTodos b.world.db)).lookup task = some entries →
    ∀ engine order now b₀ b₀', b₀.world.db = { b.world.db with engine, projectTodos := .empty } →
      (runOnce order now).exec b₀ = (.ok (), b₀') →
      ∃ row row₀, projectRow task b'.world.db = some row ∧ projectRow task b₀'.world.db = some row₀ ∧
        row.assignment = row₀.assignment

omit [Collation] in
/-- The row of an earlier pass fits the open todos of its task: it is assigned to the agent of the first, names
them all, and has the status and the notes for several todos or, of a single one, for an agent that has a
capability for it and for one that has none. -/
def UpToDate (db : Db) (task : String) (entries : List (String × Int)) (row : ProjectTodo) : Prop :=
  row.assignedTo = entries.head?.map (·.1) ∧ row.sourceTodos = sourceJson (entries.map (·.2)) ∧
    (entries.length > 1 → row.status = "pending" ∧ row.notes = mergedNotes (entries.map (·.1))) ∧
    (entries.length ≤ 1 → firstCapable db task entries = true → row.status = "pending" ∧ row.notes = "") ∧
    (entries.length ≤ 1 → firstCapable db task entries = false → row.status = "flagged" ∧ row.notes = mismatchNotes)

omit [Collation] in
theorem upToDate_iff {db : Db} {row : ProjectTodo} : UpToDate db task entries row ↔ row.assignment = asked db task entries := by
  simp only [UpToDate, ProjectTodo.assignment, asked, Assignment.mk.injEq]
  by_cases hlength : entries.length > 1
  · have hle : ¬ entries.length ≤ 1 := by omega
    simp only [hlength, hle, true_or, if_true, true_implies, false_implies, and_true]
    grind
  · have hle : entries.length ≤ 1 := by omega
    cases hcan : firstCapable db task entries with
    | true =>
      simp only [hlength, hle]
      grind
    | false =>
      simp only [hlength, hle]
      grind

/-- **A pass reflects the todos as they are if and only if the rows that are there do already.** -/
theorem reflects_iff {u : Unit} (h : (runOnce order now).exec b = (.ok u, b')) :
    ReflectsTodos b b' ↔ ∀ task entries, (byTask (openTodos b.world.db)).lookup task = some entries →
      ∀ row, projectRow task b.world.db = some row → UpToDate b.world.db task entries row := by
  have hafter := exec_runOnce h
  have hfresh : ∀ {engine order now b₀ b₀' task entries}, b₀.world.db = { b.world.db with engine, projectTodos := .empty } →
      (runOnce order now).exec b₀ = (.ok (), b₀') → (byTask (openTodos b.world.db)).lookup task = some entries →
      (projectRow task b₀'.world.db).map (·.assignment) = some (asked b.world.db task entries) := by
    intro engine order now b₀ b₀' task entries hb₀ hrun hlookup
    have hopen : openTodos b₀.world.db = openTodos b.world.db := by rw [hb₀]; rfl
    have hasked : asked b₀.world.db task = asked b.world.db task := by rw [hb₀]; rfl
    have hnone : projectRow task b₀.world.db = none := by rw [hb₀]; rfl
    rw [exec_runOnce hrun task, hopen, hasked, hnone, hlookup]
    rfl
  constructor
  · intro hreflects task entries hlookup row hrow
    -- A pass over the empty table that nothing disturbs, and whose keys are all indexed.
    obtain ⟨b₀', hrun⟩ := @exec_runOnce_calm
      { b with world := { b.world.calm with db := { b.world.db with engine := .shipped, projectTodos := .empty } } }
      _ _ _ ⟨fun l => l, fun _ => .refl _⟩ now rfl fun _ _ _ => Or.inl rfl
    obtain ⟨row', row₀, hrow', hrow₀, hsame⟩ := hreflects task entries hlookup _ _ _ _ _ rfl hrun
    have hkept := hafter task
    have hgiven := hfresh rfl hrun hlookup
    rw [hrow', hrow] at hkept
    rw [hrow₀] at hgiven
    simp only [Option.map_some, Option.some_or, Option.some.injEq] at hkept hgiven
    rw [upToDate_iff, ← hkept, hsame, hgiven]
  · intro hupToDate task entries hlookup engine order₀ now₀ b₀ b₀' hb₀ hrun
    have hgiven := hfresh hb₀ hrun hlookup
    have hkept := hafter task
    rw [hlookup] at hkept
    obtain ⟨row₀, hrow₀, hassign₀⟩ := Option.map_eq_some_iff.1 hgiven
    have hassign : (projectRow task b'.world.db).map (·.assignment) = some (asked b.world.db task entries) := by
      rw [hkept]
      cases hold : projectRow task b.world.db with
      | none => rfl
      | some r => exact congrArg some (upToDate_iff.1 (hupToDate task entries hlookup r hold))
    obtain ⟨row, hrow, hassign'⟩ := Option.map_eq_some_iff.1 hassign
    exact ⟨row, row₀, hrow, hrow₀, hassign'.trans hassign₀.symm⟩

/-- A status that a pass over the empty table would not have given. -/
theorem not_reflects {b₀ b₀' : Board} (hlookup : (byTask (openTodos b.world.db)).lookup task = some entries)
    (hb₀ : b₀.world.db = { b.world.db with projectTodos := .empty }) (hrun : (runOnce order now).exec b₀ = (.ok (), b₀'))
    (hstatus : (projectRow task b'.world.db).map (·.status) ≠ (projectRow task b₀'.world.db).map (·.status)) :
    ¬ ReflectsTodos b b' := by
  intro hreflects
  obtain ⟨row, row₀, hrow, hrow₀, hsame⟩ := hreflects task entries hlookup _ order now b₀ b₀' hb₀ hrun
  rw [hrow, hrow₀] at hstatus
  have hsame' : row.status = row₀.status := congrArg Assignment.status hsame
  exact hstatus (congrArg some hsame')

end

instance [Lowercase] [SerdeStrings] (db : Db) (task : String) (entries : List (String × Int)) (row : ProjectTodo) :
    Decidable (UpToDate db task entries row) :=
  inferInstanceAs (Decidable (_ ∧ _ ∧ (_ → _ ∧ _) ∧ (_ → _ → _ ∧ _) ∧ (_ → _ → _ ∧ _)))

/-! ## A capability gained between two passes -/

namespace DemoReconciler

theorem board_empty {capabilities : String} {projectTodos : Table ProjectTodo} :
    (board capabilities .empty).world.db = { (board capabilities projectTodos).world.db with projectTodos := .empty } := rfl

def pass [Lowercase] [SerdeStrings] [Collation] (b : Board) : Except Err Unit × Board := (runOnce order "2026-01-02T00:00:00Z").exec b

section
variable [Lowercase] [SerdeStrings] [Collation]

/-- What a pass writes while the agent can search. -/
def searching : Table ProjectTodo := (pass (board "[\"search\"]" .empty)).2.world.db.projectTodos

/-- And before it could. -/
def flagged : Table ProjectTodo := (pass (board "[]" .empty)).2.world.db.projectTodos

end

theorem passes_end : letI := ascii; letI := byCodePoint; letI := serde
    (pass (board "[\"search\"]" searching)).1 = .ok () ∧ (pass (board "[\"search\"]" flagged)).1 = .ok () ∧
      (pass (board "[\"search\"]" .empty)).1 = .ok () := by
  decide +kernel

theorem searching_upToDate : letI := ascii; letI := byCodePoint; letI := serde
    searching.rows.length = 1 ∧ ∀ g ∈ (byTask (openTodos (board "[\"search\"]" searching).world.db)).entries,
      ∀ row ∈ projectRow g.1 (board "[\"search\"]" searching).world.db,
        UpToDate (board "[\"search\"]" searching).world.db g.1 g.2 row := by
  decide +kernel

theorem still_flagged : letI := ascii; letI := byCodePoint; letI := serde
    (byTask (openTodos (board "[\"search\"]" flagged).world.db)).lookup "search for papers" = some [("agent-a", 1)] ∧
      (projectRow "search for papers" (pass (board "[\"search\"]" flagged)).2.world.db).map (·.status) = some "flagged" ∧
      (projectRow "search for papers" (pass (board "[\"search\"]" .empty)).2.world.db).map (·.status) = some "pending" := by
  decide +kernel

end DemoReconciler

section
open DemoReconciler

/-- A second pass over the same todos and capabilities. -/
theorem reflects_demo : letI := ascii; letI := byCodePoint; letI := serde
    searching.rows.length = 1 ∧ ReflectsTodos (board "[\"search\"]" searching) (pass (board "[\"search\"]" searching)).2 := by
  let := ascii; let := byCodePoint; let := serde
  refine ⟨searching_upToDate.1, (reflects_iff (Prog.exec_eq_of_fst passes_end.1)).2 ?_⟩
  intro task entries hlookup row hrow
  exact searching_upToDate.2 ⟨task, entries⟩ (AList.mem_lookup_iff.1 hlookup) row hrow

/-- The agent can search by now, and its todo stays flagged. -/
theorem flag_stays : letI := ascii; letI := byCodePoint; letI := serde
    ∃ b b' : Board, b.world.faults = [] ∧ (runOnce order "2026-01-02T00:00:00Z").exec b = (.ok (), b') ∧ ¬ ReflectsTodos b b' := by
  obtain ⟨hopen, hstays, hfresh⟩ := still_flagged
  have hb₀ := @board_empty "[\"search\"]" (@flagged ascii serde byCodePoint)
  have hstatus : some "flagged" ≠ some "pending" := by decide
  rw [← hstays, ← hfresh] at hstatus
  exact ⟨_, _, rfl, Prog.exec_eq_of_fst passes_end.2.1,
    @not_reflects _ _ _ _ _ ascii serde byCodePoint _ _ _ hopen hb₀ (Prog.exec_eq_of_fst passes_end.2.2) hstatus⟩

end

end Reconciler

end A2AGateway
