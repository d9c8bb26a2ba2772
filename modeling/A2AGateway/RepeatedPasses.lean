import A2AGateway.StaleAssignments

/-!
# Passes in any order, and a second one

The tasks of a pass are the entries of a `HashMap`, and each of them meets the rows that are there. Each task
has one row, so it does not matter whose turn comes first: what a row says is settled by the table that the
pass finds, the todos and the capabilities, and the order shows in the ids and times alone. It does matter where
some task is too long for the index of `project_todos.task`: its `INSERT` fails, `?` ends the pass there, and the
tasks that come before it in the map are the ones that get rows (`passes_agree`).
-/

namespace A2AGateway

open Gw

/-- What a row says, its id and its times aside. -/
def ProjectTodo.content (row : ProjectTodo) : String × Assignment := (row.task, row.assignment)

namespace Reconciler

def contents (db : Db) : List (String × Assignment) := db.projectTodos.rows.map (·.content)

/-- `task TEXT NOT NULL UNIQUE` -/
theorem tasks_nodup (db : Db) : (db.projectTodos.rows.map (·.task)).Nodup := by
  refine List.pairwise_map.2 (db.projectTodos.unique.imp fun {a b} hclash htask => ?_)
  simp [Constraints.clash, htask] at hclash

theorem contents_nodup (db : Db) : (contents db).Nodup := by
  have hmap : (contents db).map (·.1) = db.projectTodos.rows.map (·.task) := by
    rw [contents, List.map_map]
    rfl
  exact List.Nodup.of_map _ (hmap ▸ tasks_nodup db)

theorem projectRow_of_mem {db : Db} {row : ProjectTodo} (h : row ∈ db.projectTodos.rows) : projectRow row.task db = some row := by
  refine Table.find?_eq_some_of_mem h (beq_self_eq_true _) fun y hy htask => ?_
  simp [Constraints.clash, beq_iff_eq.1 htask]

theorem mem_contents {db : Db} {c : String × Assignment} :
    c ∈ contents db ↔ (projectRow c.1 db).map (·.assignment) = some c.2 := by
  rw [contents, List.mem_map, Option.map_eq_some_iff]
  constructor
  · rintro ⟨row, hrow, rfl⟩
    exact ⟨row, projectRow_of_mem hrow, rfl⟩
  · rintro ⟨row, hrow, hassign⟩
    have htask : row.task = c.1 := by simpa using Table.prop_of_find? hrow
    exact ⟨row, Table.mem_of_find? hrow, Prod.ext htask hassign⟩

section
variable [Lowercase] [SerdeStrings] [Collation] {order order' : Iteration} {now now' : String} {b b' c c' : Board}

/-- **Two passes over one database, in whatever order each of them goes, end with the same rows.** -/
theorem contents_perm (hdb : c.world.db = b.world.db) (h : (runOnce order now).exec b = (.ok (), b'))
    (h' : (runOnce order' now').exec c = (.ok (), c')) : (contents b'.world.db).Perm (contents c'.world.db) := by
  refine (List.perm_ext_iff_of_nodup (contents_nodup _) (contents_nodup _)).2 fun x => ?_
  rw [mem_contents, mem_contents, exec_runOnce h, exec_runOnce h', hdb]

/-- A pass leaves a row for each open task. -/
theorem exists_row (h : (runOnce order now).exec b = (.ok (), b')) {task : String} {entries : List (String × Int)}
    (hlookup : (byTask (openTodos b.world.db)).lookup task = some entries) : ∃ row, projectRow task b'.world.db = some row := by
  have hafter := exec_runOnce h task
  rw [hlookup, Option.map_some] at hafter
  cases hrow : projectRow task b'.world.db with
  | some row => exact ⟨row, rfl⟩
  | none =>
    rw [hrow] at hafter
    cases hold : projectRow task b.world.db <;> simp [hold] at hafter

/-- **A pass over the rows of one before it finds nothing to do**, and it does not matter how it ends. -/
theorem rows_second (h : (runOnce order now).exec b = (.ok (), b')) (htodos : c.world.db.todos = b.world.db.todos)
    (hrows : c.world.db.projectTodos = b'.world.db.projectTodos) (order' : Iteration) (now' : String) :
    ((runOnce order' now').exec c).2.world.db.projectTodos = b'.world.db.projectTodos := by
  refine runOnce_keeps (P := fun db => db.projectTodos = b'.world.db.projectTodos) order' now' hrows ?_
  intro task entries hlookup db db' new hdb _ _ _ htask _ hins
  have hopen : openTodos c.world.db = openTodos b.world.db := by
    rw [openTodos, htodos]
    rfl
  rw [hopen] at hlookup
  obtain ⟨row, hrow⟩ := exists_row h hlookup
  have hname : row.task = task := by simpa using Table.prop_of_find? hrow
  have hmem : row ∈ db.projectTodos.rows := by
    rw [hdb]
    exact Table.mem_of_find? hrow
  rw [hins, Table.insertIgnore_of_clash hmem (by simp [Constraints.clash, hname, htask]), hdb]

/-! ## Tasks without a row -/

/-- An open task that has no row yet. -/
def Unfiled (db : Db) (task : String) : Prop :=
  ((byTask (openTodos db)).lookup task).isSome = true ∧ projectRow task db = none

/-- **A pass that none of these tasks can get a row in adds nothing**, whatever else becomes of it. -/
theorem rows_of_refused (order : Iteration) (now : String)
    (hkeys : ∀ task, Unfiled b.world.db task → b.world.db.engine.indexes [task] = false) :
    ((runOnce order now).exec b).2.world.db.projectTodos = b.world.db.projectTodos := by
  refine (runOnce_keeps (P := fun db => OnlyProjectTodos b.world.db db ∧ db.projectTodos = b.world.db.projectTodos)
    order now ⟨rfl, rfl⟩ ?_).2
  rintro task entries hlookup db db' new ⟨honly, hsame⟩ hkey honly' - htask - hins
  refine ⟨honly.trans honly', ?_⟩
  -- The task has a row, or its key would not have been taken.
  obtain ⟨row, hrow, hname⟩ : ∃ row ∈ b.world.db.projectTodos.rows, row.task = task := by
    cases hfind : projectRow task b.world.db with
    | some row => exact ⟨row, Table.mem_of_find? hfind, by simpa using Table.prop_of_find? hfind⟩
    | none =>
      rcases hkey with hindexed | ⟨row, hrow, hname⟩
      · have hrefused := hkeys task ⟨by rw [hlookup]; rfl, hfind⟩
        rw [honly] at hindexed
        exact absurd hindexed (by rw [hrefused]; exact Bool.false_ne_true)
      · exact ⟨row, hsame ▸ hrow, hname⟩
  rw [hins, hsame]
  exact Table.insertIgnore_of_clash hrow (by simp [Constraints.clash, hname, htask])

/-- With all of them indexed, a pass that nothing disturbs ends well. -/
theorem ends_of_indexed (order : Iteration) (now : String) (hcalm : b.world.faults = [])
    (hkeys : ∀ task, Unfiled b.world.db task → b.world.db.engine.indexes [task] = true) :
    ∃ b', (runOnce order now).exec b = (.ok (), b') := by
  refine exec_runOnce_calm order now hcalm fun task entries hlookup => ?_
  cases hfind : projectRow task b.world.db with
  | none => exact Or.inl (hkeys task ⟨by rw [hlookup]; rfl, hfind⟩)
  | some row => exact Or.inr ⟨row, Table.mem_of_find? hfind, by simpa using Table.prop_of_find? hfind⟩

/-- **Where one of them can get a row and another cannot, the order shows**: the one that comes first decides. -/
theorem order_matters (now : String) {stored refused : String} (hcalm : b.world.faults = [])
    (hstored : Unfiled b.world.db stored) (hkey : b.world.db.engine.indexes [stored] = true)
    (hrefused : Unfiled b.world.db refused) (hnokey : b.world.db.engine.indexes [refused] = false) :
    ∃ order order', ¬ (contents ((runOnce order now).exec b).2.world.db).Perm
      (contents ((runOnce order' now).exec b).2.world.db) := by
  obtain ⟨entries, hlookup⟩ := Option.isSome_iff_exists.1 hstored.1
  obtain ⟨entries', hlookup'⟩ := Option.isSome_iff_exists.1 hrefused.1
  refine ⟨.startingWith ⟨stored, entries⟩, .startingWith ⟨refused, entries'⟩, fun hperm => ?_⟩
  have hrow := projectRow_startingWith now hcalm hlookup (Or.inl hkey) hstored.2
  have hcannot : ¬ Storable b.world.db refused := by
    rintro (hindexed | ⟨row, hrow, hname⟩)
    · rw [hnokey] at hindexed
      cases hindexed
    · have hnone := hrefused.2
      rw [← hname, projectRow_of_mem hrow] at hnone
      cases hnone
  have hmem := (hperm.mem_iff (a := (stored, _))).1 (mem_contents.2 hrow)
  rw [runOnce_startingWith_refused now hcalm hlookup' hcannot, mem_contents, hstored.2] at hmem
  cases hmem

/-! ## What passes agree on -/

/-- Passes that nothing disturbs leave the same rows, ids and times aside, in whatever order they go through the map; a
second one over the same todos and capabilities changes no row; and no two rows have the same task. -/
structure PassesAgree (db : Db) : Prop where
  anyOrder : ∀ b c order order' now now', b.world.db = db → c.world.db = db → b.world.faults = [] → c.world.faults = [] →
    (contents ((runOnce order now).exec b).2.world.db).Perm (contents ((runOnce order' now').exec c).2.world.db)
  again : ∀ b c order order' now now', b.world.db = db → b.world.faults = [] → c.world.faults = [] →
    c.world.db.engine = db.engine → c.world.db.todos = db.todos → c.world.db.agents = db.agents →
    c.world.db.projectTodos = ((runOnce order now).exec b).2.world.db.projectTodos →
      ((runOnce order' now').exec c).2.world.db.projectTodos = c.world.db.projectTodos
  oneRow : ∀ b order now, b.world.db = db →
    (((runOnce order now).exec b).2.world.db.projectTodos.rows.map (·.task)).Nodup

omit [SerdeStrings] in
/-- Rows that are as they were leave the same tasks without one. -/
theorem unfiled_congr {db db' : Db} (htodos : db'.todos = db.todos) (hrows : db'.projectTodos = db.projectTodos)
    {task : String} : Unfiled db' task ↔ Unfiled db task := by
  have hopen : openTodos db' = openTodos db := by
    rw [openTodos, htodos]
    rfl
  rw [Unfiled, Unfiled, hopen, projectRow, hrows]
  rfl

/-- Where every task can get its row, every pass ends well. -/
theorem passesAgree_of_indexed {db : Db} (hkeys : ∀ task, Unfiled db task → db.engine.indexes [task] = true) :
    PassesAgree db := by
  refine ⟨?_, ?_, fun _ _ _ _ => tasks_nodup _⟩
  · rintro b c order order' now now' rfl hc hcalm hcalm'
    obtain ⟨b', hrun⟩ := ends_of_indexed order now hcalm hkeys
    obtain ⟨c', hrun'⟩ := ends_of_indexed order' now' hcalm' (hc.symm ▸ hkeys)
    rw [hrun, hrun']
    exact contents_perm hc hrun hrun'
  · rintro b c order order' now now' rfl hcalm - - htodos - hrows
    obtain ⟨b', hrun⟩ := ends_of_indexed order now hcalm hkeys
    rw [hrun] at hrows
    exact (rows_second hrun htodos hrows order' now').trans hrows.symm

/-- Where none can, no pass adds a row. -/
theorem passesAgree_of_refused {db : Db} (hkeys : ∀ task, Unfiled db task → db.engine.indexes [task] = false) :
    PassesAgree db := by
  refine ⟨?_, ?_, fun _ _ _ _ => tasks_nodup _⟩
  · rintro b c order order' now now' rfl hc - -
    rw [contents, contents, rows_of_refused order now hkeys, rows_of_refused order' now' (hc.symm ▸ hkeys), hc]
  · rintro b c order order' now now' rfl - - hengine htodos - hrows
    rw [rows_of_refused order now hkeys] at hrows
    refine rows_of_refused order' now' fun task hunfiled => ?_
    rw [hengine]
    exact hkeys task ((unfiled_congr htodos hrows).1 hunfiled)

/-- **Passes agree if and only if the open tasks that have no row yet can all get one, or none of them can.** Passes that
end well agree in any case, whatever befalls them and whatever becomes of the one after. -/
theorem passes_agree (db : Db) :
    (PassesAgree db ↔ (∀ task, Unfiled db task → db.engine.indexes [task] = true) ∨
      ∀ task, Unfiled db task → db.engine.indexes [task] = false) ∧
    (∀ b b' c c' order order' now now', b.world.db = db → c.world.db = db → (runOnce order now).exec b = (.ok (), b') →
      (runOnce order' now').exec c = (.ok (), c') → (contents b'.world.db).Perm (contents c'.world.db)) ∧
    (∀ b b' c r c' order order' now now', b.world.db = db → (runOnce order now).exec b = (.ok (), b') →
      c.world.db.todos = db.todos → c.world.db.projectTodos = b'.world.db.projectTodos →
      (runOnce order' now').exec c = (r, c') → c'.world.db.projectTodos = b'.world.db.projectTodos) := by
  refine ⟨⟨fun hagree => ?_, ?_⟩, ?_, ?_⟩
  · by_contra hmixed
    push Not at hmixed
    obtain ⟨⟨refused, hrefused, hnokey⟩, stored, hstored, hkey⟩ := hmixed
    let b : Board := ⟨{ World.fresh with db }, [], none⟩
    obtain ⟨order, order', hdiffer⟩ := order_matters (b := b) "" rfl hstored (Bool.eq_true_of_not_eq_false hkey)
      hrefused (Bool.eq_false_of_not_eq_true hnokey)
    exact hdiffer (hagree.anyOrder b b order order' "" "" rfl rfl rfl rfl)
  · rintro (hkeys | hkeys)
    · exact passesAgree_of_indexed hkeys
    · exact passesAgree_of_refused hkeys
  · intro b b' c c' order order' now now' hb hc h h'
    exact contents_perm (hc.trans hb.symm) h h'
  · rintro b b' c r c' order order' now now' rfl h htodos hrows h'
    have hsecond := rows_second h htodos hrows order' now'
    rw [h'] at hsecond
    exact hsecond

end

/-! ## A task that is too long -/

namespace DemoReconciler

/-- Lower-case letters in no order that a compression would find. -/
def letter (i : Nat) : Char := Char.ofNat (97 + (i * i * 7919 + i * 104729) % 65537 % 26)

def longTask : String := String.ofList ((List.range 3000).map letter)

/-- Room for 2704 bytes, of ASCII texts that do not compress. -/
def bTree (key : List String) : Bool := (key.map (·.length)).sum ≤ 2704

def shortTodo : Todo := ⟨1, "agent-a", "Search for papers", "pending", "", "2026-01-01T00:00:00Z", none⟩

def longTodo : Todo := ⟨2, "agent-a", longTask, "pending", "", "2026-01-01T00:01:00Z", none⟩

/-- The todo of `agent-a`, and one whose text is too long. -/
def withLong : Db :=
  { db "[]" .empty with
    engine := { Engine.shipped with indexes := bTree }
    todos := (Table.empty.insertIgnore shortTodo).insertIgnore longTodo }

theorem letter_plain (i : Nat) : (letter i).toLower = letter i ∧ isWhitespace (letter i) = false := by
  have hall : ∀ k < 26, (Char.ofNat (97 + k)).toLower = Char.ofNat (97 + k) ∧ isWhitespace (Char.ofNat (97 + k)) = false := by
    decide
  exact hall _ (Nat.mod_lt _ (by decide))

/-- A text without white space and upper-case letters is a key as it is. -/
theorem normaliseTask_plain {l : List Char} (h : ∀ c ∈ l, c.toLower = c ∧ isWhitespace c = false) :
    @normaliseTask ascii (String.ofList l) = String.ofList l := by
  have hdrop : ∀ l : List Char, (∀ c ∈ l, c.toLower = c ∧ isWhitespace c = false) → l.dropWhile isWhitespace = l := by
    intro l hl
    cases l with
    | nil => rfl
    | cons c l => rw [List.dropWhile_cons_of_neg (by rw [(hl c List.mem_cons_self).2]; exact Bool.false_ne_true)]
  have hlower : l.map (·.toLower) = l := (List.map_congr_left fun c hc => (h c hc).1).trans (List.map_id l)
  have htrim : trim (String.ofList l) = String.ofList l := by
    rw [trim, String.toList_ofList, hdrop l h, hdrop l.reverse fun c hc => h c (List.mem_reverse.1 hc), List.reverse_reverse]
  show String.ofList ((trim (String.ofList l)).toList.map (·.toLower)) = _
  rw [htrim, String.toList_ofList, hlower]

end DemoReconciler

open DemoReconciler in
/-- **Over the same two todos a pass leaves a row or none, as the map has it.** -/
theorem long_task_ends_pass : letI := ascii; letI := byCodePoint; letI := serde
    ∃ b order order', b.world.db = withLong ∧ b.world.faults = [] ∧
      ¬ (contents ((runOnce order "2026-01-02T00:00:00Z").exec b).2.world.db).Perm
        (contents ((runOnce order' "2026-01-02T00:00:00Z").exec b).2.world.db) ∧ ¬ PassesAgree withLong := by
  let := ascii; let := byCodePoint; let := serde
  let b : Board := ⟨{ World.fresh with db := withLong }, [], none⟩
  have hunfiled : ∀ t ∈ [shortTodo, longTodo], ∀ task, t.status = "pending" → normaliseTask t.task = task →
      Unfiled withLong task := by
    intro t ht task hstatus htask
    have hmem : t ∈ withLong.todos.rows := ht
    have hfiled : t ∈ filed (openTodos withLong) task := by
      simp [filed, openTodos, hmem, htask, hstatus]
    refine ⟨Option.isSome_iff_exists.2 ⟨_, lookup_byTask.2 ⟨fun hnil => ?_, rfl⟩⟩, rfl⟩
    rw [List.map_eq_nil_iff.1 hnil] at hfiled
    cases hfiled
  have hshort : Unfiled withLong "search for papers" := hunfiled shortTodo (by simp) _ rfl (by decide +kernel)
  have hlong : Unfiled withLong longTask := by
    refine hunfiled longTodo (by simp) _ rfl (normaliseTask_plain fun c hc => ?_)
    obtain ⟨i, -, rfl⟩ := List.mem_map.1 hc
    exact letter_plain i
  have hindexes : b.world.db.engine.indexes = bTree := rfl
  have hkey : b.world.db.engine.indexes ["search for papers"] = true := by decide +kernel
  have hnokey : b.world.db.engine.indexes [longTask] = false := by
    rw [hindexes]
    simp [bTree, longTask]
  obtain ⟨order, order', hdiffer⟩ := order_matters (b := b) "2026-01-02T00:00:00Z" rfl hshort hkey hlong hnokey
  exact ⟨b, order, order', rfl, rfl, hdiffer, fun hagree => hdiffer (hagree.anyOrder b b order order' _ _ rfl rfl rfl rfl)⟩

end Reconciler

end A2AGateway
