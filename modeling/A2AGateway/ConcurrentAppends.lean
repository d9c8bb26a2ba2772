import A2AGateway.TaskLog
import A2AGateway.Statements

/-!
# Appends that overlap

`append_with_status` is one `INSERT` with the next cursor computed by its sub-query. At READ
COMMITTED such a statement is two moments: it begins, and its sub-query sees the rows committed
by then; it commits, and its row is there for others. `Append.prog` has them as two actions; run
alone it is `appendWithStatus` (`exec_appendWithStatus`). As shipped the cursor of a committed row is not
read back, so that no call returns one, whatever overlaps. Where it is read, the calls whose statements no
other commit overlaps get the cursors after the head, each once, and two that overlap get the same one.
-/

namespace A2AGateway

open Gw TaskLog

/-- The arguments of one `append_with_status` call but for the project. -/
structure Append where
  id : Uuid
  gatewayName : String
  agentName : String
  entryType : EntryType
  content : String
  todoId : Option Int
  taskStatus : Option TaskStatus
  validTo : Option F64

/-- The rows of a project. -/
def logOf (projectId : String) (db : Db) : List LogRow := db.taskLog.rows.filter (·.projectId == projectId)

/-- `COALESCE(MAX(cursor), 0)`. -/
def headCursorOf (rows : List LogRow) : Int := (rows.map (·.cursor)).max?.getD 0

theorem maxCursor_eq (db : Db) (projectId : String) : maxCursor db projectId = headCursorOf (logOf projectId db) := rfl

section
variable [HmacSha256] (secret : Bytes) (projectId : String)

def Append.entry (a : Append) (now : F64) (cursor : Int) : LogEntry :=
  { id := a.id.text, projectId, gatewayName := a.gatewayName, agentName := a.agentName, entryType := a.entryType,
    content := a.content, cursor, createdAt := now, todoId := a.todoId,
    signature := some (sign secret a.id.text projectId a.gatewayName a.content now), taskStatus := a.taskStatus,
    validFrom := some now, validTo := a.validTo }

/-- The call. -/
def Append.alone (a : Append) : Gw LogEntry :=
  appendWithStatus secret a.id projectId a.gatewayName a.agentName a.entryType a.content a.todoId a.taskStatus a.validTo

/-- The call from `now_secs()` on. -/
def Append.prog (a : Append) (now : F64) : Gw LogEntry := do
  -- The statement begins.
  let cursor ← Prog.look fun w => maxCursor w.db projectId + 1
  -- It commits, and its row comes back.
  let cursor ← insertReturning (.msg "insert log entry") fun _ db =>
    (insertRow ((a.entry secret projectId now cursor).toRow projectId) db).map (cursor, ·)
  return a.entry secret projectId now cursor

/-- With nothing in between, the two moments are the one statement. -/
theorem exec_appendWithStatus (a : Append) (w : World) :
    (a.alone secret projectId).exec w = (a.prog secret projectId w.now).exec w := by
  simp only [Append.alone, appendWithStatus, Append.prog, nowSecs, Prog.bind_eq]
  rw [Prog.exec_bind_of_ok (Prog.exec_look _ w), Prog.exec_bind_of_ok (Prog.exec_look _ w), Prog.exec_bind,
    Prog.exec_bind]
  rfl

/-- What a call adds to the cursors that have been returned. -/
def cursorOf : Except Err LogEntry → List Int
  | .ok entry => [entry.cursor]
  | .error _ => []

/-- Calls on the project; each reads the clock as it starts. -/
def Appends (s : World × List Int) (p : Prog (World × List Int) Err Unit) : Prop :=
  ∃ a : Append, p = (a.prog secret projectId s.1.now).replying cursorOf

end

/-- The rest of the gateway leaves the project's log alone. -/
def LeavesLog (projectId : String) (s s' : World × List Int) : Prop :=
  logOf projectId s'.1.db = logOf projectId s.1.db ∧ s'.1.db.engine = s.1.db.engine ∧ s'.2 = s.2

/-- The project's log, how it is read, and the cursors that have been returned. -/
structure Logged where
  integers : IntegerDecoding
  rows : List LogRow
  cursors : List Int
deriving DecidableEq

def logged (projectId : String) (db : Db) (cursors : List Int) : Logged := ⟨db.engine.integers, logOf projectId db, cursors⟩

/-- A row is added with the cursor after the head, and that cursor is returned if it is read. -/
def Appending (x x' : Logged) : Prop :=
  ∃ r : LogRow, r.cursor = headCursorOf x.rows + 1 ∧ x'.integers = x.integers ∧ x'.rows = x.rows ++ [r] ∧
    (x.integers = .widened → x'.cursors = x.cursors ++ [r.cursor])

theorem logOf_insertRow {row : LogRow} {db db' : Db} (h : insertRow row db = some db') :
    logOf row.projectId db' = logOf row.projectId db ++ [row] := by
  rw [logOf, (insertRow_eq_some.1 h).2.2.2.2.2]
  simp [logOf]

theorem logOf_insertRow_of_ne {row : LogRow} {db db' : Db} {projectId : String} (h : insertRow row db = some db')
    (hne : row.projectId ≠ projectId) : logOf projectId db' = logOf projectId db := by
  rw [logOf, (insertRow_eq_some.1 h).2.2.2.2.2]
  simp [logOf, hne]

section
variable [HmacSha256] {secret : Bytes} {projectId : String}

theorem appends_begin {s : World × List Int} {p : Prog (World × List Int) Err Unit}
    (h : Appends secret projectId s p) : p.Begins (beside (logged projectId)) Appending := by
  obtain ⟨a, rfl⟩ := h
  unfold Append.prog
  simp only [Prog.bind_eq, Prog.pure_eq]
  refine Prog.Begins.replying_look_bind fun w l => ⟨rfl, follows_insertReturning_replying ?_ rfl⟩
  intro _ db cursor db' l' hf hv
  -- The log is as the statement has found it.
  obtain ⟨hengine, hlog, rfl⟩ := Logged.mk.inj hv
  obtain ⟨db₁, hins, hpair⟩ := Option.map_eq_some_iff.1 hf
  cases hpair
  have hrows := logOf_insertRow hins
  have hkept : db'.engine = db.engine := by rw [(insertRow_eq_some.1 hins).2.2.2.2.1]
  refine ⟨(a.entry secret projectId s.1.now (maxCursor w.db projectId + 1)).toRow projectId, rfl, ?_, ?_, ?_⟩
  · show db'.engine.integers = w.db.engine.integers
    rw [hkept, hengine]
  · show logOf projectId db' = logOf projectId w.db ++ _
    rw [← hlog]
    exact hrows
  · intro hwidened
    rw [Engine.decode_widened (hengine.trans hwidened)]
    rfl

/-- As shipped a call returns no cursor. -/
theorem appends_silent {s : World × List Int} {p : Prog (World × List Int) Err Unit} (h : Appends secret projectId s p) :
    p.Upholds (fun s => s.1.AsShipped ∧ s.2 = []) fun _ => True := by
  obtain ⟨a, rfl⟩ := h
  unfold Append.prog
  simp only [Prog.bind_eq, Prog.pure_eq]
  refine Prog.Upholds.replying (P := fun _ => False) ?_ (fun _ hfalse => hfalse.elim) fun _ => rfl
  refine Prog.Upholds.bind (Prog.upholds_look fun _ _ => trivial) fun cursor (_ : True) => ?_
  refine Prog.Upholds.bind (upholds_insertReturning (fun _ hw => hw) (fun _ hw => hw) ?_) fun _ hfalse => hfalse.elim
  intro w cursor' db hw hf
  obtain ⟨db₁, hins, hpair⟩ := Option.map_eq_some_iff.1 hf
  cases hpair
  show db.engine.integers = .refused
  rw [(insertRow_eq_some.1 hins).2.2.2.2.1]
  exact hw

end

/-- The call alone: nothing happens to the log of a project, or it gets one row more, with the cursor after its head. -/
theorem logOf_append_cases [HmacSha256] {projectId : String} (secret : Bytes) (a : Append) (target : String) (w : World) :
    logOf projectId ((a.alone secret target).exec w).2.db = logOf projectId w.db ∨
      ∃ row : LogRow, row.cursor = headCursorOf (logOf projectId w.db) + 1 ∧ fitsInteger row.cursor = true ∧
        (∀ r ∈ w.db.taskLog.rows, r.id ≠ row.id) ∧
        logOf projectId ((a.alone secret target).exec w).2.db = logOf projectId w.db ++ [row] := by
  unfold Append.alone
  rcases @exec_appendWithStatus_cases _ secret a.id target a.gatewayName a.agentName a.entryType a.content a.todoId w
    a.taskStatus a.validTo with hrun | ⟨db, hins, hrun⟩
  · rw [hrun]
    exact .inl rfl
  · rw [hrun]
    by_cases htarget : target = projectId
    · subst htarget
      obtain ⟨hfits, -, -, hid, -⟩ := insertRow_eq_some.1 hins
      exact .inr ⟨_, rfl, hfits, hid, logOf_insertRow hins⟩
    · exact .inl (logOf_insertRow_of_ne hins htarget)

/-! ## Along `Appending` -/

theorem le_headCursorOf {rows : List LogRow} {r : LogRow} (h : r ∈ rows) : r.cursor ≤ headCursorOf rows := by
  have hm : r.cursor ∈ rows.map (·.cursor) := List.mem_map_of_mem h
  unfold headCursorOf
  cases hx : (rows.map (·.cursor)).max? with
  | none =>
    rw [List.max?_eq_none_iff] at hx
    rw [hx] at hm
    cases hm
  | some m => exact (List.max?_eq_some_iff.1 hx).2 _ hm

theorem headCursorOf_append {rows : List LogRow} {r : LogRow} (h : headCursorOf rows ≤ r.cursor) :
    headCursorOf (rows ++ [r]) = r.cursor := by
  have hmax : ((rows ++ [r]).map (·.cursor)).max? = some r.cursor := by
    refine List.max?_eq_some_iff.2 ⟨by simp, fun b hb => ?_⟩
    simp only [List.map_append, List.map_cons, List.map_nil, List.mem_append, List.mem_map, List.mem_singleton] at hb
    rcases hb with ⟨x, hx, rfl⟩ | rfl
    · exact Int.le_trans (le_headCursorOf hx) h
    · exact Int.le_refl _
  rw [headCursorOf, hmax]
  rfl

/-- `m + 1`, `m + 2` and so on, each once. -/
def After (m : Int) (cursors : List Int) : Prop := cursors = (List.range cursors.length).map fun i : Nat => m + 1 + (i : Int)

instance (m : Int) (cursors : List Int) : Decidable (After m cursors) := inferInstanceAs (Decidable (_ = _))

/-- The cursors after `m`, as many as there are rows. -/
def GapFree (m : Int) (x : Logged) : Prop :=
  x.integers = .widened ∧ headCursorOf x.rows = m + x.cursors.length ∧ After m x.cursors

theorem Appending.gapFree {m : Int} {x x' : Logged} (h : Appending x x') (hx : GapFree m x) : GapFree m x' := by
  obtain ⟨r, hr, hintegers, hrows, hgiven⟩ := h
  obtain ⟨hwidened, hhead, hlist⟩ := hx
  have hcursors := hgiven hwidened
  have hlen : x'.cursors.length = x.cursors.length + 1 := by simp [hcursors]
  refine ⟨hintegers.trans hwidened, ?_, ?_⟩
  · rw [hrows, headCursorOf_append (by omega), hlen]
    omega
  · unfold After at hlist ⊢
    rw [hlen, hcursors, List.range_succ, List.map_append, ← hlist]
    simp only [List.map_cons, List.map_nil, List.append_cancel_left_eq, List.cons.injEq, and_true]
    omega

theorem Appending.gapFree_run {m : Int} {x x' : Logged} (h : Relation.ReflTransGen Appending x x') (hx : GapFree m x) :
    GapFree m x' := by
  induction h with
  | refl => exact hx
  | tail _ hstep ih => exact hstep.gapFree ih

/-- Nothing is under way, and the project's head cursor is `m`. -/
def Before (projectId : String) (m : Int) (s : World × List Int) : Prop := maxCursor s.1.db projectId = m ∧ s.2 = []

section
variable [HmacSha256] {secret : Bytes} {projectId : String} {m : Int}

/-- As shipped no cursor is returned, however the calls overlap. -/
theorem cursors_none {c : Pool (World × List Int) Err}
    (h : Pool.Reachable (fun s => s.1.AsShipped ∧ Before projectId m s) (Appends secret projectId) (LeavesLog projectId) c) :
    c.state.2 = [] := by
  refine (h.upheld (I := fun s => s.1.AsShipped ∧ s.2 = []) ?_ ?_ ?_).2
  · exact fun s hs => ⟨hs.1, hs.2.2⟩
  · exact fun s p _ hp => appends_silent hp
  · intro s s' hs hout
    refine ⟨?_, hout.2.2.trans hs.2⟩
    show s'.1.db.engine.integers = .refused
    rw [hout.2.1]
    exact hs.1

/-- Where the cursors are read, they follow `m` in every run in which each statement that commits finds the log as it was
when the statement began. -/
theorem cursors_after {c : Watch (World × List Int) Err Logged}
    (h : Watch.Reachable (beside (logged projectId)) (fun s => s.1.db.engine.integers = .widened ∧ Before projectId m s)
      (Appends secret projectId) (LeavesLog projectId) c) : After m c.state.2 := by
  obtain ⟨s, ⟨hwidened, hhead, hnone⟩, hrun⟩ := h
  have halong := (Watch.run_along hrun (Watch.good_nil s) (fun _ _ => appends_begin) fun s s' hs => by
    simp only [beside, logged, hs.1, hs.2.1, hs.2.2]).1
  have hbegin : GapFree m (beside (logged projectId) s) := by
    refine ⟨hwidened, ?_, ?_⟩
    · simp only [beside, logged, hnone, ← maxCursor_eq, hhead]
      simp
    · simp [After, beside, logged, hnone]
  exact (Appending.gapFree_run halong hbegin).2.2

/-- **Concurrent appends get distinct, gap-free cursors.** As shipped that is so in every run, since no call succeeds;
where cursors are read, in every run in which each statement that commits finds the log as it was when the statement
began. -/
theorem cursors_gap_free :
    (∀ c : Pool (World × List Int) Err, Pool.Reachable (fun s => s.1.AsShipped ∧ Before projectId m s)
      (Appends secret projectId) (LeavesLog projectId) c → After m c.state.2) ∧
    ∀ c : Watch (World × List Int) Err Logged, Watch.Reachable (beside (logged projectId))
      (fun s => s.1.db.engine.integers = .widened ∧ Before projectId m s) (Appends secret projectId) (LeavesLog projectId) c →
        After m c.state.2 := by
  refine ⟨fun c hc => ?_, fun c hc => cursors_after hc⟩
  rw [cursors_none hc]
  rfl

end

/-! ## A project to write to -/

namespace DemoAppends

/-- HMAC-SHA256 under `secret` of two notes of `gw-a`. -/
@[reducible] def hmac : HmacSha256 := .recorded
  [("00000000-0000-4000-8000-0000000000aa|p|gw-a|hello|1000",
    "3462a9b85880a83043916137211cafdf0793f08ced705ee5657fd714ca393ac9"),
   ("00000000-0000-4000-8000-0000000000bb|p|gw-a|hello|1000",
    "ed9ece9f97b4e3345104e8bbb2e6aa376b6f01b8ace939dfe3e66c49a58277dc")]

def secret : Bytes := asBytes "secret"

def state (engine : Engine) : World × List Int :=
  ({ World.fresh with
      now := .fin 1000
      db := { Db.empty engine with projects := ⟨[{ id := "p", name := "p" }], List.pairwise_singleton _ _⟩ } }, [])

def note (id : Uuid) : Append := ⟨id, "gw-a", "agent", .note, "hello", none, none, none⟩

def noteA : Append := note ⟨"00000000-0000-4000-8000-0000000000aa", Uuid.hex_aa⟩

def noteB : Append := note ⟨"00000000-0000-4000-8000-0000000000bb", Uuid.hex_bb⟩

section
variable [HmacSha256]

/-- A call that has read the clock. -/
def call (a : Append) : Prog (World × List Int) Err Unit := (a.prog secret "p" (.fin 1000)).replying cursorOf

theorem appends_call (engine : Engine) (a : Append) : Appends secret "p" (state engine) (call a) := ⟨a, rfl⟩

/-- Two calls in the given order of their actions. -/
def overlapping (engine : Engine) (order : List Nat) : Pool (World × List Int) Err :=
  Pool.schedule order ⟨state engine, [call noteA, call noteB]⟩

theorem reachable_overlapping {engine : Engine} {init : World × List Int → Prop} (h : init (state engine)) (order : List Nat) :
    Pool.Reachable init (Appends secret "p") (LeavesLog "p") (overlapping engine order) :=
  (((Pool.Reachable.initial h).started (appends_call engine noteA)).started (appends_call engine noteB)).scheduled order

end

end DemoAppends

/-- As shipped, two appends that overlap: both rows are there, at one cursor, and no call has returned it. Where cursors are
read, one append after the other: the cursors 1 and 2. -/
theorem cursors_gap_free_demo : letI := DemoAppends.hmac
    (After 0 (DemoAppends.overlapping .shipped [0, 1, 0, 1]).state.2 ∧
      (logOf "p" (DemoAppends.overlapping .shipped [0, 1, 0, 1]).state.1.db).map (·.cursor) = [1, 1]) ∧
    ∃ c : Watch (World × List Int) Err Logged, c.state.2 = [1, 2] ∧ After 0 c.state.2 := by
  let := DemoAppends.hmac
  have hshipped : Pool.Reachable (fun s => s.1.AsShipped ∧ Before "p" 0 s) (Appends DemoAppends.secret "p") (LeavesLog "p")
      (DemoAppends.overlapping .shipped [0, 1, 0, 1]) := DemoAppends.reachable_overlapping ⟨rfl, rfl, rfl⟩ _
  have hwidened : Watch.Reachable (beside (logged "p")) (fun s => s.1.db.engine.integers = .widened ∧ Before "p" 0 s)
      (Appends DemoAppends.secret "p") (LeavesLog "p") (Watch.schedule (beside (logged "p")) [0, 0, 1, 1]
        ⟨DemoAppends.state .widening, [(none, DemoAppends.call DemoAppends.noteA), (none, DemoAppends.call DemoAppends.noteB)]⟩) :=
    ⟨_, ⟨rfl, rfl, rfl⟩, ((Relation.ReflTransGen.single (.start (DemoAppends.appends_call _ _))).tail
      (.start (DemoAppends.appends_call _ _))).trans (Watch.schedule_run _ _)⟩
  exact ⟨⟨cursors_gap_free.1 _ hshipped, by decide +kernel⟩, _, by decide +kernel, cursors_gap_free.2 _ hwidened⟩

-- Where cursors are read, two appends that overlap are both given the cursor 1.
example : letI := DemoAppends.hmac
    (DemoAppends.overlapping .widening [0, 1, 0, 1]).state.2 = [1, 1] := by
  decide +kernel

end A2AGateway
