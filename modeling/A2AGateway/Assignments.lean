import A2AGateway.Provenance
import A2AGateway.StaleAssignments

/-!
# What an assignment goes back to

The reconciler reads the open todos once and then works through them statement by statement, while agents register,
file todos and complete them. Whatever comes in between, each row of `project_todos` lists todos that were filed with
its text and is assigned to the agent of the first of them, and each assignment that is published is to the agent who
has filed that todo (`assignments_filed`).
-/

namespace A2AGateway

open Gw

namespace Reconciler

section
variable [Lowercase]

/-- The agent has filed the task, as the todo with that id. -/
def Filed (db : Db) (task : String) (e : String × Int) : Prop :=
  ∃ t ∈ db.todos.rows, t.agentName = e.1 ∧ t.id = e.2 ∧ normaliseTask t.task = task

def RowFiled (db : Db) (r : ProjectTodo) : Prop :=
  ∃ first rest, (∀ e ∈ first :: rest, Filed db r.task e) ∧ r.assignedTo = some first.1 ∧
    r.sourceTodos = sourceJson ((first :: rest).map (·.2))

structure AssignmentFiled (db : Db) (a : TaskAssigned) : Prop where
  todo : ∃ id, a.todoId = some id ∧ Filed db a.task (a.agentName, id)
  listed : ∃ r ∈ db.projectTodos.rows, r.task = a.task
  projectId : a.projectId = "global"

/-- All rows, and all that has been published. -/
structure AllFiled (db : Db) (published : List TaskAssigned) : Prop where
  rows : ∀ r ∈ db.projectTodos.rows, RowFiled db r
  published : ∀ a ∈ published, AssignmentFiled db a

/-! ## What is filed stays filed -/

/-- Nothing of what lasts has been lost. -/
def KeepsRows (db db' : Db) : Prop := ∀ t, ∀ r ∈ db.lasting t, r ∈ db'.lasting t

omit [Lowercase] in
theorem KeepsRows.trans {a b c : Db} (h : KeepsRows a b) (h' : KeepsRows b c) : KeepsRows a c :=
  fun t r hr => h' t r (h t r hr)

omit [Lowercase] in
theorem KeepsRows.of_frame {may : TableName → Prop} {fresh : Row → Prop} {w w' : World} (h : Frame may fresh w w') :
    KeepsRows w.db w'.db := fun t => (h.rows t).subset

variable {db db' : Db} {task : String} {e : String × Int}

theorem Filed.kept (h : KeepsRows db db') (hf : Filed db task e) : Filed db' task e := by
  obtain ⟨t, ht, hagent, hid, htask⟩ := hf
  obtain ⟨t', ht', hlast⟩ := List.mem_map.1 (h .todos _ (List.mem_map_of_mem ht))
  injection hlast with hid' hagent' htask'
  exact ⟨t', ht', hagent'.trans hagent, hid'.trans hid, by rw [htask', htask]⟩

theorem RowFiled.kept (h : KeepsRows db db') {r : ProjectTodo} (hr : RowFiled db r) : RowFiled db' r := by
  obtain ⟨first, rest, hall, hagent, hsource⟩ := hr
  exact ⟨first, rest, fun e he => (hall e he).kept h, hagent, hsource⟩

omit [Lowercase] in
/-- A row of `project_todos` is never rewritten. -/
theorem KeepsRows.listed (h : KeepsRows db db') (hr : ∃ r ∈ db.projectTodos.rows, r.task = task) :
    ∃ r ∈ db'.projectTodos.rows, r.task = task := by
  obtain ⟨r, hr, htask⟩ := hr
  obtain ⟨r', hr', hlast⟩ := List.mem_map.1 (h .projectTodos _ (List.mem_map_of_mem hr))
  injection hlast with hsame
  exact ⟨r', hr', by rw [hsame, htask]⟩

theorem AssignmentFiled.kept (h : KeepsRows db db') {a : TaskAssigned} (ha : AssignmentFiled db a) : AssignmentFiled db' a := by
  obtain ⟨id, hid, hf⟩ := ha.todo
  exact ⟨⟨id, hid, hf.kept h⟩, h.listed ha.listed, ha.projectId⟩

/-- Where `project_todos` is left alone. -/
theorem AllFiled.kept {published : List TaskAssigned} (h : KeepsRows db db') (hsame : db'.projectTodos = db.projectTodos)
    (hall : AllFiled db published) : AllFiled db' published := by
  refine ⟨fun r hr => ?_, fun a ha => (hall.published a ha).kept h⟩
  rw [hsame] at hr
  exact (hall.rows r hr).kept h

/-! ## The reconciler among the others -/

/-- Everyone keeps what is filed, and files what it assigns. -/
def filing : Discipline Board where
  inv b := AllFiled b.world.db b.published
  step b b' := KeepsRows b.world.db b'.world.db
  refl _ _ _ hr := hr
  trans _ _ _ := .trans

section
variable {b : Board} {now : String}

/-- What a read shows. -/
theorem yields_query {α : Type} {f : Db → α} (P : α → Db → Prop) (hP : ∀ db, KeepsRows b.world.db db → P (f db) db) :
    ((query .sqlx f).within Board.gateway).Yields filing (fun a b' => P a b'.world.db) b := by
  obtain ⟨F, hp, hF⟩ := query_prim .sqlx f
  rw [hp, Prog.within_prim]
  refine Prog.Obeys.prim fun b' hstep hinv => ?_
  rcases hF b'.world with h | h
  · simp only [Board.gateway, h]
    refine ⟨⟨filing.refl b', hinv⟩, fun a ha => ?_⟩
    cases ha
  · simp only [Board.gateway, h]
    refine ⟨⟨filing.refl b', hinv⟩, fun a ha => ?_⟩
    cases ha
    exact hP _ hstep

/-- The row goes in, or one of the task is there. -/
theorem yields_upsertProjectTodo {first : String × Int} {rest : List (String × Int)}
    (h : ∀ e ∈ first :: rest, Filed b.world.db task e) (status notes : String) :
    ((upsertProjectTodo task (some first.1) status notes ((first :: rest).map (·.2)) now).within Board.gateway).Yields filing
      (fun _ b' => KeepsRows b.world.db b'.world.db ∧ ∃ r ∈ b'.world.db.projectTodos.rows, r.task = task) b := by
  obtain ⟨F, hp, hF⟩ := execute_prim .sqlx _
  rw [upsertProjectTodo, hp, Prog.within_prim]
  refine Prog.Obeys.prim fun b' hstep hinv => ?_
  rcases hF b'.world with hfail | ⟨db, hdb, hok⟩
  · simp only [Board.gateway, hfail]
    refine ⟨⟨filing.refl b', hinv⟩, fun u hu => ?_⟩
    cases hu
  · simp only [Board.gateway, hok]
    obtain ⟨row, hid, htask, hagent, hsource, rfl⟩ : ∃ row : ProjectTodo, row.id = nextId b'.world.db ∧ row.task = task ∧
        row.assignedTo = some first.1 ∧ row.sourceTodos = sourceJson ((first :: rest).map (·.2)) ∧
        db = { b'.world.db with projectTodos := b'.world.db.projectTodos.insertIgnore row } := by
      rw [insertProjectTodo_eq_some hdb]
      exact ⟨_, rfl, rfl, rfl, rfl, rfl⟩
    have hputs : Puts (fun _ => True) .projectTodos b'.world.db
        { b'.world.db with projectTodos := b'.world.db.projectTodos.insertIgnore row } :=
      Puts.insertIgnore (t := .projectTodos) trivial trivial
    have hframe : Frame (fun _ => True) (fun _ => True) b'.world
        { b'.world.tick with db := { b'.world.db with projectTodos := b'.world.db.projectTodos.insertIgnore row } } :=
      .put trivial hputs
    have hkept := KeepsRows.of_frame hframe
    refine ⟨⟨hkept, ⟨fun r hr => ?_, fun a ha => (hinv.published a ha).kept hkept⟩⟩, fun u _ => ⟨hstep.trans hkept, ?_⟩⟩
    · rcases Table.mem_of_insertIgnore hr with hold | rfl
      · exact (hinv.rows r hold).kept hkept
      · refine ⟨first, rest, fun e he => ?_, hagent, hsource⟩
        rw [htask]
        exact (h e he).kept (hstep.trans hkept)
    · -- The row that is there already need not be the one that was to go in.
      have hrow : projectRow task { b'.world.db with projectTodos := b'.world.db.projectTodos.insertIgnore row } =
          (projectRow task b'.world.db).or (some row) := by
        rw [projectRow_insertIgnore hid rfl, if_pos htask]
      obtain ⟨r, hr⟩ : ∃ r, projectRow task { b'.world.db with projectTodos := b'.world.db.projectTodos.insertIgnore row } = some r := by
        cases hold : projectRow task b'.world.db with
        | none => exact ⟨row, by rw [hrow, hold]; rfl⟩
        | some r => exact ⟨r, by rw [hrow, hold]; rfl⟩
      exact ⟨r, List.mem_of_find?_eq_some hr, by simpa using List.find?_some hr⟩

variable [SerdeStrings]

/-- One task, whatever has come in since its todos were read. -/
theorem yields_reconcileTask {entries : List (String × Int)} (h : ∀ e ∈ entries, Filed b.world.db task e) (counts : Counts) :
    (reconcileTask now task entries counts).Yields filing (fun _ b' => KeepsRows b.world.db b'.world.db) b := by
  match entries with
  | [] => exact Prog.Yields.fail _
  | [(agent, id)] =>
    have hcheck : ((agentHasCapability agent task).within Board.gateway).Yields filing
        (fun _ b' => KeepsRows b.world.db b'.world.db) b := yields_query (fun _ db => KeepsRows b.world.db db) fun _ hkept => hkept
    refine hcheck.bind fun capable b₁ hb₁ => ?_
    have hfiled : ∀ e ∈ [(agent, id)], Filed b₁.world.db task e := fun e he => (h e he).kept hb₁
    split
    · refine (yields_upsertProjectTodo hfiled "pending" "").bind fun _ b₂ hb₂ => ?_
      obtain ⟨hkept, hlisted⟩ := hb₂
      refine Prog.Yields.bind (P := fun _ b' => KeepsRows b₂.world.db b'.world.db) ?_ fun _ b₃ hb₃ =>
        Prog.Yields.ret (hb₁.trans (hkept.trans hb₃))
      intro b₃ hb₃ hinv
      have hnew : AssignmentFiled b₃.world.db ⟨agent, "global", task, some id⟩ :=
        ⟨⟨id, rfl, (hfiled _ (List.mem_singleton_self _)).kept (hkept.trans hb₃)⟩, hb₃.listed hlisted, rfl⟩
      refine ⟨⟨filing.refl _, hinv.rows, fun a ha => ?_⟩, fun _ _ => hb₃⟩
      rcases List.mem_append.1 ha with ha | ha
      · exact hinv.published a ha
      · rw [List.mem_singleton.1 ha]
        exact hnew
    · refine (yields_upsertProjectTodo hfiled "flagged" mismatchNotes).bind fun _ b₂ hb₂ => ?_
      exact Prog.Yields.ret (hb₁.trans hb₂.1)
  | first :: second :: rest =>
    refine (yields_upsertProjectTodo h "pending" _).bind fun _ b₁ hb₁ => ?_
    exact Prog.Yields.ret hb₁.1

theorem yields_reconcileAll : ∀ {groups : List Group} {b : Board} {counts : Counts},
    (∀ g ∈ groups, ∀ e ∈ g.2, Filed b.world.db g.1 e) → (reconcileAll now groups counts).Yields filing (fun _ _ => True) b
  | [], _, _, _ => Prog.Yields.ret trivial
  | g :: _, _, counts, h => (yields_reconcileTask (h g (by simp)) counts).bind fun _ _ hkept =>
      yields_reconcileAll fun g' hg' e he => (h g' (by simp [hg']) e he).kept hkept

omit [SerdeStrings] in
/-- The entries of the map are todos that are there as it is made. -/
theorem filed_of_byTask {rows : List Todo} (hrows : ∀ t ∈ rows, t ∈ db.todos.rows) {g : Group}
    (hg : g ∈ (byTask rows).entries) : ∀ e ∈ g.2, Filed db g.1 e := by
  obtain ⟨-, hentries⟩ := lookup_byTask.1 (AList.mem_lookup_iff.2 hg)
  intro e he
  rw [hentries] at he
  obtain ⟨t, ht, rfl⟩ := List.mem_map.1 he
  have ht' := List.mem_filter.1 ht
  exact ⟨t, hrows t ht'.1, rfl, rfl, by simpa using ht'.2⟩

omit [SerdeStrings] in
/-- The file is none of the database. -/
theorem yields_writeFile (md : String) : (writeFile md).Yields filing (fun _ _ => True) b := by
  intro b' _ hinv
  refine ⟨?_, fun _ _ => trivial⟩
  simp only
  split
  · exact ⟨filing.refl b', hinv⟩
  · exact ⟨filing.refl b', hinv⟩

variable [Collation]

theorem yields_runOnce (order : Iteration) : (runOnce order now).Yields filing (fun _ _ => True) b := by
  unfold runOnce reconcileTodos writeTodoMd
  have hread : ((query .sqlx openTodos).within Board.gateway).Yields filing
      (fun rows b' => ∀ t ∈ rows, t ∈ b'.world.db.todos.rows) b := by
    refine yields_query (fun rows db => ∀ t ∈ rows, t ∈ db.todos.rows) fun db _ t ht => ?_
    have hopen := (List.perm_insertionSort _ _).mem_iff.1 ht
    exact (List.mem_filter.1 hopen).1
  refine Prog.Yields.bind (hread.bind fun rows b₁ hrows => yields_reconcileAll fun g hg => ?_) fun _ b₂ _ => ?_
  · exact filed_of_byTask hrows ((order.perm _).mem_iff.1 hg)
  · exact (yields_query (fun _ _ => True) fun _ _ => trivial).bind fun rows b₃ _ => yields_writeFile _

/-- All passes of the daemon. -/
theorem obeys_spawn : ∀ (passes : List (Iteration × String)) (b : Board), (spawn passes).Obeys filing (fun _ _ => True) b
  | [], _ => trivial
  | (order, now) :: passes, b => by
    have hpass : (runOnce order now).attempt.Obeys filing (fun _ _ => True) b :=
      Prog.Obeys.attempt (yields_runOnce order) fun _ _ _ => trivial
    exact hpass.bind (fun _ b' _ => obeys_spawn passes b') fun _ _ _ => trivial

end

end

end Reconciler

open Reconciler

/-! ## In the process -/

/-- Nothing has been published. -/
def Site.SamePublished (s s' : Site) : Prop := s'.published = s.published

theorem Site.SamePublished.refl (s : Site) : s.SamePublished s := rfl

section
variable [Sha256] [HmacSha256] [SerdeJson] [SerdeStrings] [Lowercase] [Collation] {d : Wiring} {v : Visitors}

omit [Sha256] [HmacSha256] [SerdeJson] [SerdeStrings] [Lowercase] [Collation] in
/-- A request that has to do with another part of the site. -/
theorem silent_request {τ ε α : Type} {L : Prog.Focus Site τ} (hL : ∀ s t, (L.set t s).published = s.published)
    (p : Prog τ ε α) : (request (p.within L)).Moves Site.SamePublished :=
  moves_request (Prog.moves_within hL p)

omit [Sha256] [HmacSha256] [SerdeJson] [SerdeStrings] [Lowercase] [Collation] in
theorem silent_withRegistry {τ ε α : Type} {L : Prog.Focus Site τ} (hL : ∀ s t, (L.set t s).published = s.published)
    (p : Registry → Prog τ ε α) :
    (withRegistry fun registry => request ((p registry).within L)).Moves Site.SamePublished :=
  (Prog.moves_look .refl _).bind fun registry => silent_request hL (p registry)

/-- Only the reconciler publishes. -/
theorem Runs.silent {i : Interface} {s : Site} {p : Prog Site Err Unit} (h : Runs d v s i p) (hi : i ≠ .reconciler) :
    p.Moves Site.SamePublished := by
  cases h with
  | startUp now => exact silent_request (fun _ _ => rfl) _
  | lan o c =>
    cases c with
    | call | stream => exact silent_withRegistry (fun _ _ => rfl) _
    | _ => exact silent_request (fun _ _ => rfl) _
  | peer o c htokens =>
    cases c with
    | delegate => exact silent_withRegistry (fun _ _ => rfl) _
    | handshake => exact moves_request (Prog.moves_look .refl _)
    | ping => exact (Prog.moves_look .refl _).bind fun _ => moves_request (Prog.moves_look .refl _)
    | _ => exact silent_request (fun _ _ => rfl) _
  | http o c =>
    cases c with
    | jsonrpc => exact silent_withRegistry (fun _ _ => rfl) _
    | _ => exact silent_request (fun _ _ => rfl) _
  | web o c hreq =>
    unfold WebCall.guarded
    split
    · cases c with
      | _ => exact silent_request (fun _ _ => rfl) _
    · trivial
  | builder o order hx => exact silent_withRegistry (fun _ _ => rfl) _
  | reconciler passes => exact absurd rfl hi
  | sync o rounds =>
    have hpeers : ∀ x ∈ d.peers.map fun p => (p, o.peer p),
        PeerSync.StepsAlong d.gateway.secret x.1 PeerSync.Steady ∧ x.2.Moves Site.SamePublished := by
      intro x hx
      obtain ⟨peer, -, rfl⟩ := List.mem_map.1 hx
      refine ⟨PeerSync.stepsAlong_steady _ _, (o.apart peer).mono fun s s' hsame => ?_⟩
      rw [hsame]
      exact .refl s
    exact moves_request (PeerSync.moves_daemon .refl (fun _ _ _ => rfl) hpeers rounds)
  | library c =>
    cases c with
    | _ => exact silent_request (fun _ _ => rfl) _

/-- What the site keeps of it. -/
abbrev filingSite : Discipline Site := filing.comap Site.board.get

/-- Every interface keeps what is filed. -/
theorem Runs.files {i : Interface} {s : Site} {p : Prog Site Err Unit} (h : Runs d v s i p) (hi : i ≠ .library) :
    p.Obeys filingSite (fun _ _ => True) s := by
  by_cases hrec : i = .reconciler
  · subst hrec
    cases h with
    | reconciler passes =>
      exact obeys_request (obeys_spawn passes (Site.board.get s)).within
  · have hwrites : ¬ Writes d v i .projectTodos := by
      intro hw
      cases hw with
      | projectTodos => exact hrec rfl
      | library => exact hi rfl
    have hmoves : p.Moves fun s s' => filingSite.inv s → filingSite.step s s' ∧ filingSite.inv s' := by
      refine (h.steps.both (h.silent hrec)).mono fun s s' hboth hinv => ?_
      obtain ⟨hframe, hsame⟩ := hboth
      have hkept := KeepsRows.of_frame hframe
      have hall : AllFiled s'.world.db s.published := hinv.kept hkept (hframe.others .projectTodos hwrites)
      refine ⟨hkept, ?_⟩
      rw [← hsame] at hall
      exact hall
    exact (hmoves.obeys (filingSite.refl s)).post fun _ _ _ => trivial

theorem Process.Starts.files (hlibrary : ¬ v.uses .library) {s : Site} {p : Prog Site Err Unit}
    (h : Process.Starts d v s p) : p.Obeys filingSite (fun _ _ => True) s := by
  obtain ⟨i, hused, hruns⟩ := h
  refine hruns.files fun hi => hlibrary ?_
  rw [← hi]
  exact hused

omit [Sha256] [HmacSha256] [SerdeJson] [SerdeStrings] [Collation] in
theorem filed_of_same {s s' : Site} (hall : AllFiled s.world.db s.published) (hsame : SameStored s.world s'.world)
    (hpublished : ∀ a ∈ s'.published, a ∈ s.published) :
    KeepsRows s.world.db s'.world.db ∧ AllFiled s'.world.db s'.published := by
  have hdb : s'.world.db = s.world.db := congrArg Prod.fst hsame
  rw [hdb]
  exact ⟨fun _ _ hr => hr, hall.rows, fun a ha => hall.published a (hpublished a ha)⟩

variable {init : Site → Prop} {c : Pool Site Err}

theorem Process.Reached.files (hinit : ∀ s, init s → AllFiled s.world.db s.published) (hlibrary : ¬ v.uses .library)
    (h : Process.Reached d v init c) : Pool.Good filingSite c := by
  refine h.good hinit (fun _ _ _ hp => hp.files hlibrary) ?_
  rintro s s' hinv ⟨world, pending, hsame, rfl⟩
  exact @filed_of_same _ s { s with world, pending } hinv hsame fun _ ha => ha

/-- **Each row of `project_todos` and each assignment that is published goes back to todos that were filed**, whatever
runs side by side. -/
theorem assignments_filed (hinit : ∀ s, init s → AllFiled s.world.db s.published) (hlibrary : ¬ v.uses .library)
    (h : Process.Reached d v init c) : AllFiled c.state.world.db c.state.published :=
  (h.files hinit hlibrary).1

end

/-! ## A todo that is assigned -/

namespace DemoSite

theorem start_allFiled [Lowercase] : AllFiled (Site.start .fresh).world.db (Site.start .fresh).published :=
  ⟨fun _ hr => absurd hr List.not_mem_nil, fun _ ha => absurd ha List.not_mem_nil⟩

/-- How the assignment below goes over the wire. -/
def wireText : String :=
  "\x7b\"project_id\":\"global\",\"task\":\"search for papers\",\"assigned_by\":\"gw-a\",\"todo_id\":1\x7d"

/-- An assignment of the gateway next door, to an agent of that name. -/
def otherText : String :=
  "\x7b\"project_id\":\"global\",\"task\":\"index papers\",\"assigned_by\":\"gw-b\",\"todo_id\":7\x7d"

/-- A codec that is known at these two and at `null`. -/
@[reducible] def codec : SerdeJson where
  toVec
    | .null => asBytes "null"
    | .obj [_, _, (_, .str "gw-b"), _] => asBytes otherText
    | _ => asBytes wireText
  fromSlice b :=
    if b = asBytes "null" then .ok .null
    else if b = asBytes wireText then .ok (.obj [("project_id", .str "global"), ("task", .str "search for papers"),
      ("assigned_by", .str "gw-a"), ("todo_id", .num 1)])
    else if b = asBytes otherText then .ok (.obj [("project_id", .str "global"), ("task", .str "index papers"),
      ("assigned_by", .str "gw-b"), ("todo_id", .num 7)])
    else .error "expected value"
  null_roundTrip := rfl

/-- An agent that can search. -/
def registered : Pool Site Err := letI := DemoReconciler.serde; letI := codec
  after (LanCall.prog wiring others (.register "2026-01-01T00:01:00Z" "2026-01-01T00:01:00Z"
    ⟨"agent-a", "0.1.0", "http://agent-a:8080", ["search"], ""⟩)) seeded

def filedSearch : Pool Site Err := letI := DemoReconciler.serde; letI := codec
  after (LanCall.prog wiring others (.appendTodo "agent-a" "Search for papers" "2026-01-01T00:02:00Z" 0)) registered

/-- After one pass. -/
def assigned : Pool Site Err := letI := DemoReconciler.serde; letI := DemoReconciler.ascii; letI := DemoReconciler.byCodePoint
  after (reconcilerRun [(DemoReconciler.order, "2026-01-01T00:03:00Z")]) filedSearch

theorem assigned_published : assigned.state.published = [⟨"agent-a", "global", "search for papers", some 1⟩] := by
  decide +kernel

theorem later_filedSearch [Sha256] [HmacSha256] : letI := DemoReconciler.serde; letI := codec
    letI := DemoReconciler.ascii; letI := DemoReconciler.byCodePoint
    Process.Later wiring visitors fresh filedSearch := by
  let _ := DemoReconciler.serde
  let _ := codec
  let _ := DemoReconciler.ascii
  let _ := DemoReconciler.byCodePoint
  have hseeded : Process.Later wiring visitors fresh seeded := later_after ⟨.startUp, Interface.noConfusion, .startUp _⟩
  have hregistered : Process.Later wiring visitors seeded registered :=
    later_after ⟨.lan, Interface.noConfusion, .lan others _⟩
  have hfiled : Process.Later wiring visitors registered filedSearch :=
    later_after ⟨.lan, Interface.noConfusion, .lan others _⟩
  exact hseeded.trans (hregistered.trans hfiled)

theorem reached_assigned [Sha256] [HmacSha256] : letI := DemoReconciler.serde; letI := codec
    letI := DemoReconciler.ascii; letI := DemoReconciler.byCodePoint
    Process.Reached wiring visitors (· = .start .fresh) assigned := by
  let _ := DemoReconciler.serde
  let _ := codec
  let _ := DemoReconciler.ascii
  let _ := DemoReconciler.byCodePoint
  have hpass : Process.Later wiring visitors filedSearch assigned :=
    later_after ⟨.reconciler, Interface.noConfusion, .reconciler _⟩
  exact ⟨_, rfl, later_filedSearch.trans hpass⟩

end DemoSite

open DemoSite

/-- The one assignment is to the agent whose todo it is. -/
theorem assignments_filed_demo : letI := DemoReconciler.ascii
    assigned.state.published.length = 1 ∧ ∀ a ∈ assigned.state.published, AssignmentFiled assigned.state.world.db a := by
  let _ := DemoReconciler.ascii
  have h := @assignments_filed demoSha256 demoLogHmac codec DemoReconciler.serde DemoReconciler.ascii
    DemoReconciler.byCodePoint wiring visitors (· = .start .fresh) _ (fun s hs => by rw [hs]; exact start_allFiled)
    (fun h => h rfl) (@reached_assigned demoSha256 demoLogHmac)
  exact ⟨by rw [assigned_published]; rfl, h.published⟩

end A2AGateway
