import A2AGateway.ConcurrentAppends
import A2AGateway.Federation
import A2AGateway.ShippedCalls
import A2AGateway.Lib.Credits

/-!
# Polling the log by cursor

The web UI polls the log of a project with `since` and goes on from the cursor of the last entry it got. As
shipped it gets none: an append leaves its row, and `since` cannot read the cursor in it. With the cursors decoded
polling works for what is appended here: each append takes the cursor after the highest there is. A round inserts
the entries of a peer under the cursors the peer gave them, and it has asked for those above the head *it read*; if
the reader has passed such a cursor in the meantime, the entry is there but never handed out. So a reader sees
every entry exactly once in exactly the runs in which no round inserts a row at or behind its cursor
(`polled_once`).

| here | there |
| --- | --- |
| `taskLogPartial`  | `web/projects.rs:169-190` |
-/

namespace A2AGateway

open Gw TaskLog PeerSync

/-! ## The reader -/

/-- `task_log_partial`: the entries it renders, and `next_cursor`. -/
def taskLogPartial (id : String) (after : Option Int) : Gw (List LogEntry × Int) := do
  let after := after.getD 0
  let entries ← since id after
  return (entries, (entries.getLast?.map (·.cursor)).getD after)

/-- Where the reader is, and what it has been given. -/
structure Reader where
  cursor : Int
  given : List LogEntry

/-- The gateway and its reader. -/
structure Watched where
  world : World
  reader : Reader

/-- The gateway's state in it. -/
def Watched.gateway : Prog.Focus Watched World where
  get s := s.world
  set w s := { s with world := w }
  get_set _ _ := rfl
  set_get _ := rfl
  set_set _ _ _ := rfl

/-- The reader polls and goes on from the cursor it is told. -/
def poll (projectId : String) : Prog Watched Err Unit := do
  let cursor ← Prog.look fun s : Watched => s.reader.cursor
  let (entries, next) ← (taskLogPartial projectId (some cursor)).within Watched.gateway
  Prog.act (fun s => ((), { s with reader := ⟨next, s.reader.given ++ entries⟩ })) Prog.ret

/-! ## The writers -/

/-- The log of the project, and where the reader is. -/
def logAndCursor (projectId : String) (s : Watched) : List LogRow × Int := (logOf projectId s.world.db, s.reader.cursor)

/-- One action of a round: the log before and after it, beside the reader's cursor. -/
abbrev RoundAction := Prog.Event Unit (List LogRow × Int) Err Unit

/-- With a list of what the rounds have done. -/
abbrev Recorded := Watched × List RoundAction

/-- What the action adds to the log is ahead of the reader. -/
def Ahead (e : RoundAction) : Prop := ∀ r ∈ e.after.1, r ∈ e.before.1 ∨ e.before.2 < r.cursor

section
variable [HmacSha256] [Sha256] (projectId : String)

/-- A round with any peer, which answers as it likes, for any of its projects. -/
def PeerRounds (_ : Recorded) (p : Prog Recorded Err Unit) : Prop :=
  ∃ (auth : JwtAuth) (peer : PeerConfig) (answers : Answers) (remote : RemoteProject) (secret : Bytes),
    p = (syncProject Watched.gateway ⟨.answering answers, auth, peer.name⟩ peer remote secret).traced ()
      (logAndCursor projectId)

omit [Sha256] in
/-- Besides the rounds somebody appends to the log of some project, the reader polls, or something happens that
does not concern this log. -/
inductive Meanwhile : Recorded → Recorded → Prop
  | append {s : Recorded} (secret : Bytes) (a : Append) (target : String) :
      Meanwhile s ({ s.1 with world := ((a.alone secret target).exec s.1.world).2 }, s.2)
  | poll {s : Recorded} : Meanwhile s (((poll projectId).exec s.1).2, s.2)
  | elsewhere {s : Recorded} {w : World} : w.db.engine = s.1.world.db.engine →
      logOf projectId w.db = logOf projectId s.1.world.db → Meanwhile s ({ s.1 with world := w }, s.2)

end

/-! ## What the log goes through -/

/-- The task log is as it was, or has one row more. -/
def LogGrows (w w' : World) : Prop :=
  w'.db.taskLog = w.db.taskLog ∨ ∃ row db, insertRow row w.db = some db ∧ w'.db.taskLog = db.taskLog

theorem LogGrows.of_logSame {w w' : World} (h : LogSame w w') : LogGrows w w' := Or.inl h.1

/-- The log of one project likewise. -/
theorem LogGrows.logOf {w w' : World} (h : LogGrows w w') (projectId : String) :
    logOf projectId w'.db = logOf projectId w.db ∨ ∃ row, fitsInteger row.cursor = true ∧
      (∀ r ∈ w.db.taskLog.rows, r.id ≠ row.id) ∧ logOf projectId w'.db = logOf projectId w.db ++ [row] := by
  rcases h with hsame | ⟨row, db, hins, hlog⟩
  · left
    rw [A2AGateway.logOf, hsame]
    rfl
  · obtain ⟨hfits, -, -, hid, -⟩ := insertRow_eq_some.1 hins
    have hview : A2AGateway.logOf projectId w'.db = A2AGateway.logOf projectId db := by
      rw [A2AGateway.logOf, hlog]
      rfl
    rw [hview]
    by_cases hproject : row.projectId = projectId
    · subst hproject
      exact .inr ⟨row, hfits, hid, logOf_insertRow hins⟩
    · exact .inl (logOf_insertRow_of_ne hins hproject)

/-- A round inserts row by row, wherever the state of its gateway is kept. -/
theorem moves_syncProject_grows [HmacSha256] [Sha256] {σ : Type} {L : Prog.Focus σ World} {R : σ → σ → Prop}
    (h₀ : ∀ s, R s s) (hT : ∀ s t, LogGrows (L.get s) t → R s (L.set t s)) (auth : JwtAuth) (peer : PeerConfig)
    (answers : Answers) (remote : RemoteProject) (secret : Bytes) :
    (syncProject L ⟨.answering answers, auth, peer.name⟩ peer remote secret).Moves R := by
  have ht : ∀ w : World, LogGrows w w.tick := fun _ => Or.inl rfl
  simp only [syncProject, Prog.bind_eq]
  refine ((moves_fetch ht).within_of hT).bind fun localCopy => Prog.Moves.bind ?_ fun _ => ?_
  · cases localCopy with
    | none => exact moves_syncLog_none h₀ (moves_answering answers) peer remote secret
    | some p =>
      refine moves_syncLog h₀ (moves_answering answers) hT ht (fun e _ => ?_) fun c =>
        (moves_updatePeerCursor_logSame _ _ c).mono fun _ _ => .of_logSame
      refine moves_execute ht fun w db hins => ?_
      rcases insertRowIgnore_eq_some hins with ⟨-, rfl⟩ | hrow
      · exact Or.inl rfl
      · exact Or.inr ⟨_, db, hrow, rfl⟩
  · exact moves_pullSnapshot h₀ (moves_answering answers) hT ht
      (fun data => (ObjectStore.moves_put data).mono fun _ _ h => .of_logSame (.of_objectsOnly h))
      fun p _ t => (moves_applyPeerSnapshot_logSame _ _ t _).mono fun _ _ => .of_logSame

/-- A round moves the reader nowhere. -/
theorem moves_syncProject_log [HmacSha256] [Sha256] (auth : JwtAuth) (peer : PeerConfig) (answers : Answers)
    (remote : RemoteProject) (secret : Bytes) :
    (syncProject Watched.gateway ⟨.answering answers, auth, peer.name⟩ peer remote secret).Moves
      fun s s' : Watched => LogGrows s.world s'.world ∧ s'.reader = s.reader :=
  moves_syncProject_grows (fun _ => ⟨Or.inl rfl, rfl⟩) (fun _ _ h => ⟨h, rfl⟩) auth peer answers remote secret

/-! ## A poll -/

section
variable {db : Db} {projectId : String} {after : Int}

theorem pairwise_rowsSince : (rowsSince db projectId after).Pairwise (·.cursor ≤ ·.cursor) := by
  have : Std.Total fun a b : LogRow => a.cursor ≤ b.cursor := ⟨fun a b => Int.le_total a.cursor b.cursor⟩
  have : IsTrans LogRow fun a b => a.cursor ≤ b.cursor := ⟨fun a b c => Int.le_trans⟩
  exact List.pairwise_insertionSort _ _

/-- The cursor of the last row is the highest. -/
theorem le_last_rowsSince {r last : LogRow} (hr : r ∈ rowsSince db projectId after)
    (hlast : (rowsSince db projectId after).getLast? = some last) : r.cursor ≤ last.cursor := by
  obtain ⟨init, hinit⟩ := List.getLast?_eq_some_iff.1 hlast
  have hsorted := @pairwise_rowsSince db projectId after
  rw [hinit] at hr hsorted
  rcases List.mem_append.1 hr with hr | hr
  · exact (List.pairwise_append.1 hsorted).2.2 r hr last (List.mem_singleton.2 rfl)
  · rw [List.mem_singleton.1 hr]

/-- No entry is handed out twice at once. -/
theorem nodup_rowsSince : ((rowsSince db projectId after).map (·.toEntry)).Nodup := by
  have hunique : (db.taskLog.rows.filter fun r => r.projectId == projectId && decide (after < r.cursor)).Pairwise
      fun a b => Constraints.clash a b = false := db.taskLog.unique.filter _
  have hids : (db.taskLog.rows.filter fun r => r.projectId == projectId && decide (after < r.cursor)).Pairwise
      fun a b => a.id ≠ b.id := by
    refine hunique.imp fun {a b} h => ?_
    simpa [Constraints.clash] using h
  have hsorted : (rowsSince db projectId after).Pairwise fun a b => a.id ≠ b.id :=
    (List.perm_insertionSort _ _).symm.pairwise hids fun h => h.symm
  refine List.pairwise_map.2 (hsorted.imp fun {a b} h hentry => h ?_)
  exact congrArg LogEntry.id hentry

end

/-- Where the reader is after a poll that goes well, and what it has been given by then. -/
def handed (projectId : String) (s : Watched) : Reader where
  cursor := (((rowsSince s.world.db projectId s.reader.cursor).map (·.toEntry)).getLast?.map (·.cursor)).getD s.reader.cursor
  given := s.reader.given ++ (rowsSince s.world.db projectId s.reader.cursor).map (·.toEntry)

section
variable {projectId : String} {s : Watched}

theorem exec_poll : (poll projectId).exec s = (.ok (), ⟨s.world.tick, handed projectId s⟩) ∧
      (s.world.AsShipped → rowsSince s.world.db projectId s.reader.cursor = []) ∨
    ∃ e, (poll projectId).exec s = (.error e, ⟨s.world.tick, s.reader⟩) := by
  have hsince : (since projectId s.reader.cursor).exec s.world =
        (.ok ((rowsSince s.world.db projectId s.reader.cursor).map (·.toEntry)), s.world.tick) ∧
          (s.world.AsShipped → rowsSince s.world.db projectId s.reader.cursor = []) ∨
      ∃ e, (since projectId s.reader.cursor).exec s.world = (.error e, s.world.tick) := by
    rcases exec_fetch_cases (.msg "fetch log entries")
      (fun db => db.engine.decodeRows ((rowsSince db projectId s.reader.cursor).map (·.toEntry))) s.world with h | ⟨entries, hrows, h⟩
    · exact Or.inr ⟨_, h⟩
    · obtain ⟨rfl, hnone⟩ := Engine.decodeRows_eq_some.1 hrows
      exact Or.inl ⟨h, fun hw => List.map_eq_nil_iff.1 (hnone hw)⟩
  simp only [poll, taskLogPartial, Prog.bind_eq, Option.getD_some]
  rw [Prog.exec_bind_of_ok (Prog.exec_look _ s)]
  rcases hsince with ⟨h, hnone⟩ | ⟨e, h⟩
  · refine Or.inl ⟨?_, hnone⟩
    rw [Prog.exec_bind_of_ok (by rw [Prog.exec_within, show Watched.gateway.get s = s.world from rfl, Prog.exec_bind_of_ok h]; rfl)]
    rfl
  · right
    refine ⟨e, ?_⟩
    rw [Prog.exec_bind_of_error (by rw [Prog.exec_within, show Watched.gateway.get s = s.world from rfl, Prog.exec_bind_of_error h])]
    rfl

/-- The reader goes to the highest cursor it has been handed, or stays. -/
theorem handed_cursor : (handed projectId s).cursor = s.reader.cursor ∧ rowsSince s.world.db projectId s.reader.cursor = [] ∨
    ∃ last ∈ rowsSince s.world.db projectId s.reader.cursor, (handed projectId s).cursor = last.cursor ∧
      ∀ r ∈ rowsSince s.world.db projectId s.reader.cursor, r.cursor ≤ last.cursor := by
  cases hlast : (rowsSince s.world.db projectId s.reader.cursor).getLast? with
  | none => 
    left
    rw [List.getLast?_eq_none_iff] at hlast
    simp [handed, hlast]
  | some last =>
    right
    refine ⟨last, List.mem_of_getLast? hlast, ?_, fun r hr => le_last_rowsSince hr hlast⟩
    simp [handed, hlast, LogRow.toEntry]

theorem le_handed : s.reader.cursor ≤ (handed projectId s).cursor := by
  rcases @handed_cursor projectId s with ⟨h, -⟩ | ⟨last, hlast, h, -⟩
  · rw [h]
  · rw [h]
    exact (mem_rowsSince.1 hlast).2.2.le

end

/-! ## What holds all the time -/

/-- What the reader has been given is there, once. A row that was inserted behind it stays behind it; if there
is none, the reader has been given all it has passed. -/
structure Polling (projectId : String) (s : Recorded) : Prop where
  once : s.1.reader.given.Nodup
  stored : ∀ e ∈ s.1.reader.given, ∃ r ∈ logOf projectId s.1.world.db, r.toEntry = e ∧ r.cursor ≤ s.1.reader.cursor
  missed : ∀ e ∈ s.2, ∀ r ∈ e.after.1, r ∉ e.before.1 → r.cursor ≤ e.before.2 →
    r ∈ logOf projectId s.1.world.db ∧ r.cursor ≤ s.1.reader.cursor ∧ r.toEntry ∉ s.1.reader.given
  caughtUp : (∀ e ∈ s.2, Ahead e) → s.1.reader.cursor ≤ headCursorOf (logOf projectId s.1.world.db) ∧
    ∀ r ∈ logOf projectId s.1.world.db, r.cursor ≤ s.1.reader.cursor → r.toEntry ∈ s.1.reader.given

section
variable {projectId : String} {s : Recorded} {w : World}

theorem mem_logOf {db : Db} {r : LogRow} : r ∈ logOf projectId db ↔ r ∈ db.taskLog.rows ∧ r.projectId = projectId := by
  simp [logOf]

/-- Ids are unique, so an entry tells its row. -/
theorem toEntry_inj {db : Db} {a b : LogRow} (ha : a ∈ logOf projectId db) (hb : b ∈ logOf projectId db)
    (h : a.toEntry = b.toEntry) : a = b :=
  Table.eq_of_clash _ (mem_logOf.1 ha).1 (mem_logOf.1 hb).1 (beq_iff_eq.2 (congrArg LogEntry.id h))

/-- The log and the reader are as before. -/
theorem Polling.same (hi : Polling projectId s) (hlog : logOf projectId w.db = logOf projectId s.1.world.db)
    {done : List RoundAction} (hdone : ∀ e ∈ done, e.after.1 = e.before.1) :
    Polling projectId ({ s.1 with world := w }, s.2 ++ done) where
  once := hi.once
  stored := by
    simp only [hlog]
    exact hi.stored
  missed e he r hr hnew hcursor := by
    simp only [hlog]
    rcases List.mem_append.1 he with he | he
    · exact hi.missed e he r hr hnew hcursor
    · rw [hdone e he] at hr
      exact absurd hr hnew
  caughtUp hall := by
    simp only [hlog]
    exact hi.caughtUp fun e he => hall e (List.mem_append_left _ he)

/-- A row is added. If nothing has been inserted behind the reader so far, this one is not either. -/
theorem Polling.row (hi : Polling projectId s) {row : LogRow} (hnew : ∀ r ∈ s.1.world.db.taskLog.rows, r.id ≠ row.id)
    (hlog : logOf projectId w.db = logOf projectId s.1.world.db ++ [row]) {done : List RoundAction}
    (hdone : ∀ e ∈ done, e.before = logAndCursor projectId s.1 ∧ e.after.1 = logOf projectId w.db)
    (hahead : (∀ e ∈ s.2 ++ done, Ahead e) → s.1.reader.cursor < row.cursor) :
    Polling projectId ({ s.1 with world := w }, s.2 ++ done) where
  once := hi.once
  stored e he := by
    obtain ⟨r, hr, h⟩ := hi.stored e he
    refine ⟨r, ?_, h⟩
    rw [hlog]
    exact List.mem_append_left _ hr
  missed e he r hr hold hcursor := by
    rw [hlog]
    rcases List.mem_append.1 he with he | he
    · obtain ⟨hthere, h⟩ := hi.missed e he r hr hold hcursor
      exact ⟨List.mem_append_left _ hthere, h⟩
    · -- The new row has a new id, so the reader has not been given it.
      obtain ⟨hbefore, hafter⟩ := hdone e he
      rw [hbefore] at hold hcursor
      rw [hafter, hlog] at hr
      have hrow : r = row := by
        rcases List.mem_append.1 hr with hr | hr
        · exact absurd hr hold
        · exact List.mem_singleton.1 hr
      subst hrow
      refine ⟨hr, hcursor, fun hgiven => ?_⟩
      obtain ⟨r₀, hr₀, hentry, -⟩ := hi.stored _ hgiven
      exact hnew r₀ (mem_logOf.1 hr₀).1 (congrArg LogEntry.id hentry)
  caughtUp hall := by
    have hlt := hahead hall
    obtain ⟨-, hpassed⟩ := hi.caughtUp fun e he => hall e (List.mem_append_left _ he)
    refine ⟨?_, fun r hr hcursor => ?_⟩
    · rw [hlog]
      exact hlt.le.trans (le_headCursorOf (List.mem_append_right _ (List.mem_singleton.2 rfl)))
    · rw [hlog] at hr
      rcases List.mem_append.1 hr with hr | hr
      · exact hpassed r hr hcursor
      · rw [List.mem_singleton.1 hr] at hcursor
        exact absurd hlt (not_lt.2 hcursor)

theorem mem_rowsSince_iff {db : Db} {after : Int} {r : LogRow} :
    r ∈ rowsSince db projectId after ↔ r ∈ logOf projectId db ∧ after < r.cursor := by
  rw [mem_rowsSince, mem_logOf, and_assoc]

/-- After a poll nothing is ahead of the reader. -/
theorem le_handed_of_mem {t : Watched} {r : LogRow} (hr : r ∈ logOf projectId t.world.db) :
    r.cursor ≤ (handed projectId t).cursor := by
  by_cases hcursor : r.cursor ≤ t.reader.cursor
  · exact hcursor.trans le_handed
  · have hahead := mem_rowsSince_iff.2 ⟨hr, not_le.1 hcursor⟩
    rcases @handed_cursor projectId t with ⟨-, hnone⟩ | ⟨last, -, hlast, hle⟩
    · rw [hnone] at hahead
      cases hahead
    · rw [hlast]
      exact hle r hahead

/-- What the reader is handed it has not been given before. -/
theorem Polling.new (hi : Polling projectId s) {r : LogRow}
    (hr : r ∈ rowsSince s.1.world.db projectId s.1.reader.cursor) : r.toEntry ∉ s.1.reader.given := by
  intro hgiven
  obtain ⟨hlog, hcursor⟩ := mem_rowsSince_iff.1 hr
  obtain ⟨r₀, hr₀, hentry, hpassed⟩ := hi.stored _ hgiven
  rw [toEntry_inj hr₀ hlog hentry] at hpassed
  exact absurd hcursor (not_lt.2 hpassed)

/-- The reader polls. -/
theorem Polling.polled (hi : Polling projectId s) (hdb : w.db = s.1.world.db) :
    Polling projectId (⟨w, handed projectId s.1⟩, s.2) where
  once := by
    refine List.nodup_append.2 ⟨hi.once, nodup_rowsSince, fun e he e' he' heq => ?_⟩
    obtain ⟨r, hr, hentry⟩ := List.mem_map.1 he'
    refine hi.new hr ?_
    rw [hentry, ← heq]
    exact he
  stored e he := by
    simp only [hdb]
    rcases List.mem_append.1 he with he | he
    · obtain ⟨r, hr, hentry, hcursor⟩ := hi.stored e he
      exact ⟨r, hr, hentry, hcursor.trans le_handed⟩
    · obtain ⟨r, hr, hentry⟩ := List.mem_map.1 he
      refine ⟨r, (mem_rowsSince_iff.1 hr).1, hentry, ?_⟩
      exact le_handed_of_mem (mem_rowsSince_iff.1 hr).1
  missed e he r hr hnew hcursor := by
    simp only [hdb]
    obtain ⟨hthere, hbehind, hnot⟩ := hi.missed e he r hr hnew hcursor
    refine ⟨hthere, hbehind.trans le_handed, fun hgiven => ?_⟩
    rcases List.mem_append.1 hgiven with hgiven | hgiven
    · exact hnot hgiven
    · obtain ⟨r', hr', hentry⟩ := List.mem_map.1 hgiven
      obtain ⟨hlog, hahead⟩ := mem_rowsSince_iff.1 hr'
      rw [toEntry_inj hlog hthere hentry] at hahead
      exact absurd hahead (not_lt.2 hbehind)
  caughtUp hall := by
    simp only [hdb]
    obtain ⟨hhead, hpassed⟩ := hi.caughtUp hall
    constructor
    · rcases @handed_cursor projectId s.1 with ⟨hcursor, -⟩ | ⟨last, hlast, hcursor, -⟩
      · rw [hcursor]
        exact hhead
      · rw [hcursor]
        exact le_headCursorOf (mem_rowsSince_iff.1 hlast).1
    · intro r hr _
      by_cases hcursor : r.cursor ≤ s.1.reader.cursor
      · exact List.mem_append_left _ (hpassed r hr hcursor)
      · exact List.mem_append_right _ (List.mem_map_of_mem (mem_rowsSince_iff.2 ⟨hr, not_le.1 hcursor⟩))

end

/-! ## Every run -/

section
variable {projectId : String}

/-- An action of a round. -/
theorem Polling.action {s s' : Recorded} (hi : Polling projectId s) (hlog : LogGrows s.1.world s'.1.world)
    (hreader : s'.1.reader = s.1.reader) {result : Option (Except Err Unit)}
    (htrace : s'.2 = s.2 ++ [⟨(), logAndCursor projectId s.1, logAndCursor projectId s'.1, result⟩]) :
    Polling projectId s' := by
  obtain ⟨⟨w, reader⟩, trace⟩ := s'
  simp only at hlog hreader htrace
  subst hreader htrace
  rcases hlog.logOf projectId with hsame | ⟨row, -, hnew, hgrown⟩
  · refine hi.same hsame fun e he => ?_
    rw [List.mem_singleton.1 he]
    exact hsame
  · refine hi.row hnew hgrown (fun e he => ?_) fun hall => ?_
    · rw [List.mem_singleton.1 he]
      exact ⟨rfl, rfl⟩
    · have hahead := hall _ (List.mem_append_right _ (List.mem_singleton.2 rfl)) row
      simp only [logAndCursor, hgrown] at hahead
      refine (hahead (List.mem_append_right _ (List.mem_singleton.2 rfl))).resolve_left fun hold => ?_
      exact hnew row (mem_logOf.1 hold).1 rfl

theorem Polling.unchanged {s : Recorded} {w : World} (hi : Polling projectId s)
    (hlog : logOf projectId w.db = logOf projectId s.1.world.db) : Polling projectId ({ s.1 with world := w }, s.2) := by
  have hsame := @Polling.same _ _ _ hi hlog [] (by simp)
  rwa [List.append_nil] at hsame

variable [HmacSha256]

/-- An append takes the cursor after the head, and the reader has not passed the head. -/
theorem Polling.append {s : Recorded} (hi : Polling projectId s) (secret : Bytes) (a : Append) (target : String) :
    Polling projectId ({ s.1 with world := ((a.alone secret target).exec s.1.world).2 }, s.2) := by
  rcases @logOf_append_cases _ projectId secret a target s.1.world with hsame | ⟨row, hcursor, -, hnew, hgrown⟩
  · exact hi.unchanged hsame
  · have hahead : (∀ e ∈ s.2 ++ [], Ahead e) → s.1.reader.cursor < row.cursor := by
      intro hall
      rw [List.append_nil] at hall
      rw [hcursor]
      exact Int.lt_add_one_of_le (hi.caughtUp hall).1
    have hrow := hi.row hnew hgrown (by simp) hahead
    rwa [List.append_nil] at hrow

theorem Meanwhile.polling {s s' : Recorded} (h : Meanwhile projectId s s') (hi : Polling projectId s) :
    Polling projectId s' := by
  cases h with
  | append secret a target => exact hi.append secret a target
  | poll =>
    rcases @exec_poll projectId s.1 with ⟨h, -⟩ | ⟨e, h⟩
    · rw [h]
      exact hi.polled rfl
    · rw [h]
      exact hi.unchanged rfl
  | elsewhere _ hlog => exact hi.unchanged hlog

/-- Nothing but the reader's invariant is agreed on. -/
def polling (projectId : String) : Discipline Recorded where
  inv := Polling projectId
  step _ _ := True
  refl _ := trivial
  trans _ _ _ _ _ := trivial

theorem PeerRounds.obeys [Sha256] {s : Recorded} {p : Prog Recorded Err Unit} (h : PeerRounds projectId s p) :
    p.Obeys (polling projectId) (fun _ _ => True) s := by
  obtain ⟨auth, peer, answers, remote, secret, rfl⟩ := h
  have hmoves := @Prog.Moves.traced _ _ _ _ _ () (logAndCursor projectId) _ _
    (moves_syncProject_log auth peer answers remote secret)
  have hkeeps := hmoves.mono fun s s' ⟨⟨hlog, hreader⟩, result, htrace⟩ hi =>
    (⟨trivial, Polling.action hi hlog hreader htrace⟩ : (polling projectId).step s s' ∧ (polling projectId).inv s')
  exact @Prog.Moves.obeys _ _ _ (polling projectId) _ hkeeps s s trivial

/-- The log is empty and the reader at the beginning. -/
def Untouched (projectId : String) (s : Recorded) : Prop :=
  logOf projectId s.1.world.db = [] ∧ s.1.reader = ⟨0, []⟩ ∧ s.2 = []

omit [HmacSha256] in
theorem Untouched.polling {s : Recorded} (h : Untouched projectId s) : Polling projectId s := by
  obtain ⟨⟨w, reader⟩, trace⟩ := s
  obtain ⟨hlog, hreader, htrace⟩ := h
  simp only at hlog hreader htrace
  subst hreader htrace
  refine ⟨List.nodup_nil, by simp, by simp, fun _ => ⟨?_, fun r hr _ => ?_⟩⟩
  · rw [hlog]
    exact Int.le_refl 0
  · rw [hlog] at hr
    cases hr

/-- The reader has been given every entry that is stored exactly once. -/
def AllGiven (projectId : String) (s : Watched) : Prop :=
  ∀ r ∈ logOf projectId s.world.db, s.reader.given.count r.toEntry = 1

/-- A poll that goes well, whenever it is made, shows the reader the rest, but for what a round has inserted at or
behind its cursor. -/
theorem seen_iff [Sha256] {pool : Pool Recorded Err} {s : Watched}
    (hpool : Pool.Reachable (Untouched projectId) (PeerRounds projectId) (Meanwhile projectId) pool)
    (hpoll : (poll projectId).exec pool.state.1 = (.ok (), s)) : AllGiven projectId s ↔ ∀ e ∈ pool.state.2, Ahead e := by
  have hi : Polling projectId pool.state := by
    refine (hpool.good (D := polling projectId) (fun s h => h.polling) (fun s p _ h => h.obeys) ?_).1
    exact fun s s' hi h => ⟨trivial, h.polling hi⟩
  rcases @exec_poll projectId pool.state.1 with ⟨h, -⟩ | ⟨e, h⟩
  · rw [hpoll, Prod.mk.injEq] at h
    obtain ⟨-, rfl⟩ := h
    have hpolled := hi.polled (w := pool.state.1.world.tick) rfl
    constructor
    · intro honce e he r hr
      by_contra hlate
      obtain ⟨hnew, hcursor⟩ := not_or.1 hlate
      obtain ⟨hthere, -, hnot⟩ := hpolled.missed e he r hr hnew (not_lt.1 hcursor)
      have hzero := List.count_eq_zero_of_not_mem hnot
      rw [honce r hthere] at hzero
      cases hzero
    · intro hall r hr
      exact List.count_eq_one_of_mem hpolled.once ((hpolled.caughtUp hall).2 r hr (le_handed_of_mem hr))
  · rw [hpoll] at h
    cases h

/-! ## As shipped -/

/-- Nothing is handed out, as no entry can be read. -/
def Unread (s : Watched) : Prop := s.world.AsShipped ∧ s.reader.given = []

omit [HmacSha256] in
theorem Unread.polled {s : Watched} (h : Unread s) : Unread ((poll projectId).exec s).2 := by
  rcases @exec_poll projectId s with ⟨hrun, hnone⟩ | ⟨e, hrun⟩
  · rw [hrun]
    refine ⟨h.1, ?_⟩
    rw [handed, hnone h.1, List.map_nil, List.append_nil]
    exact h.2
  · rw [hrun]
    exact h

theorem Meanwhile.unread {s s' : Recorded} (h : Meanwhile projectId s s') (hs : Unread s.1) : Unread s'.1 := by
  cases h with
  | append secret a target =>
    refine ⟨?_, hs.2⟩
    have hcall := upholds_append_shipped (I := World.AsShipped) (fun _ => id) (fun _ => id)
      (fun _ _ _ hw hins => (ShippedWrites.of_insertRow hins).asShipped hw) secret a.id target a.gatewayName a.agentName
      a.entryType a.content a.todoId a.taskStatus a.validTo
    exact (hcall.exec hs.1).1
  | poll => exact hs.polled
  | elsewhere hengine _ =>
    refine ⟨?_, hs.2⟩
    rw [World.AsShipped, hengine]
    exact hs.1

theorem PeerRounds.unread [Sha256] {s : Recorded} {p : Prog Recorded Err Unit} (h : PeerRounds projectId s p) :
    p.Upholds (fun s => Unread s.1) fun _ => True := by
  obtain ⟨auth, peer, answers, remote, secret, rfl⟩ := h
  refine Prog.Upholds.traced (upholds_syncProject_shipped (I := Unread) (fun s hs => hs.1) ?_ (moves_answering answers))
  exact fun s w hs h => ⟨(ShippedWrites.of_objects h).asShipped hs.1, hs.2⟩

/-- **As shipped the reader has seen every entry only if there is none: an append leaves its row, and no poll reads
it. With the cursors decoded it has, after a poll that goes well, whenever it is made, exactly if no round has
inserted a row at or behind the reader's cursor.** -/
theorem polled_once [Sha256] (pool : Pool Recorded Err) :
    (Pool.Reachable (fun s => Untouched projectId s ∧ s.1.world.AsShipped) (PeerRounds projectId) (Meanwhile projectId) pool →
      (AllGiven projectId ((poll projectId).exec pool.state.1).2 ↔ logOf projectId pool.state.1.world.db = [])) ∧
    (Pool.Reachable (Untouched projectId) (PeerRounds projectId) (Meanwhile projectId) pool →
      ∀ s, (poll projectId).exec pool.state.1 = (.ok (), s) → (AllGiven projectId s ↔ ∀ e ∈ pool.state.2, Ahead e)) := by
  refine ⟨fun hpool => ?_, fun hpool s => seen_iff hpool⟩
  have hunread : Unread pool.state.1 := by
    refine hpool.upheld (I := fun s => Unread s.1) (fun s hs => ⟨hs.2, ?_⟩) (fun s p _ => PeerRounds.unread)
      fun s s' hs h => h.unread hs
    rw [hs.1.2.1]
  have hafter : Unread ((poll projectId).exec pool.state.1).2 := hunread.polled
  have hnone := hafter.2
  have hlog : logOf projectId ((poll projectId).exec pool.state.1).2.world.db = logOf projectId pool.state.1.world.db := by
    rcases @exec_poll projectId pool.state.1 with ⟨hrun, -⟩ | ⟨e, hrun⟩ <;> rw [hrun] <;> rfl
  rw [AllGiven, hlog, hnone]
  simp [List.eq_nil_iff_forall_not_mem]

end

/-! ## An entry that comes too late -/

namespace DemoPolling

section
variable [HmacSha256] [Sha256]

/-- `gw-b`, with a reader of its project. -/
def start (engine : Engine) : Recorded := (⟨demoNet demoSetup demoSetupB engine "gw-b", ⟨0, []⟩⟩, [])

/-- The first entry of `gw-a`. -/
def entryA : ProtoLogEntry where
  id := "00000000-0000-4000-8000-0000000000aa"
  gatewayName := "gw-a"
  agentName := "agent"
  entryType := "note"
  content := "hello"
  cursor := 1
  createdAt := .fin 1000
  signature := "db280cbf293188c0ac79543cb9057dd1ef2acbf738738460e859db213f96cc60"

/-- `gw-a` answers from a log that has this one entry. -/
def answers : Answers where
  syncTaskLog r := .ok ⟨if r.afterCursor < 1 then [entryA] else [], 1, ""⟩
  fetchSnapshot _ := .error ⟨.notFound, "no snapshot"⟩
  fetchObject _ _ := .error ⟨.notFound, "no object"⟩

/-- The round of `gw-b` against it. -/
def round : Prog Recorded Err Unit :=
  (syncProject Watched.gateway ⟨.answering answers, demoB.auth, "gw-a"⟩ ⟨"gw-a"⟩ (demoListed "") demoB.secret).traced ()
    (logAndCursor demoIdB.text)

/-- The first entry of `gw-b` itself. -/
def note : Append where
  id := ⟨"00000000-0000-4000-8000-0000000000bb", Uuid.hex_bb⟩
  gatewayName := "gw-b"
  agentName := "agent"
  entryType := .note
  content := "hello"
  todoId := none
  taskStatus := none
  validTo := none

/-- The round as far as it has asked the peer. -/
def asked (engine : Engine) : Pool Recorded Err := Pool.schedule [0, 0, 0] ⟨start engine, [round]⟩

/-- Then somebody appends. -/
def appended (c : Pool Recorded Err) : Pool Recorded Err :=
  ⟨({ c.state.1 with world := ((note.alone demoB.secret demoIdB.text).exec c.state.1.world).2 }, c.state.2), c.threads⟩

/-- What a poll leads to. -/
def afterPoll (c : Pool Recorded Err) : Watched := ((poll demoIdB.text).exec c.state.1).2

/-- The reader polls. -/
def polled (c : Pool Recorded Err) : Pool Recorded Err := ⟨(afterPoll c, c.state.2), c.threads⟩

/-- The round goes on to its end. -/
def finished (c : Pool Recorded Err) : Pool Recorded Err := c.schedule (List.replicate 8 0)

variable {init : Recorded → Prop} {c : Pool Recorded Err}

/-- A run of the log's writers and its reader. -/
abbrev Runs (init : Recorded → Prop) (c : Pool Recorded Err) : Prop :=
  Pool.Reachable init (PeerRounds demoIdB.text) (Meanwhile demoIdB.text) c

theorem runs_asked {engine : Engine} (hstart : init (start engine)) : Runs init (asked engine) :=
  ⟨_, hstart, .head (.start ⟨demoB.auth, ⟨"gw-a"⟩, answers, demoListed "", demoB.secret, rfl⟩) (Pool.schedule_run _ _)⟩

theorem runs_appended (h : Runs init c) : Runs init (appended c) := h.moved (.append demoB.secret note demoIdB.text)

theorem runs_finished (h : Runs init c) : Runs init (finished c) := by
  exact h.scheduled _

end

instance (e : RoundAction) : Decidable (Ahead e) :=
  inferInstanceAs (Decidable (∀ r ∈ e.after.1, r ∈ e.before.1 ∨ e.before.2 < r.cursor))

instance (s : Watched) : Decidable (AllGiven demoIdB.text s) :=
  inferInstanceAs (Decidable (∀ r ∈ logOf demoIdB.text s.world.db, _))

/-- Nothing is under way, and the poll that follows goes well. -/
def Settled (c : Pool Recorded Err) : Prop :=
  (c.threads.all fun p => p.ended.isSome) = true ∧ ((poll demoIdB.text).exec c.state.1).1 = .ok ()

instance (c : Pool Recorded Err) : Decidable (Settled c) := inferInstanceAs (Decidable (_ ∧ _))

theorem Settled.poll {c : Pool Recorded Err} (h : Settled c) :
    (A2AGateway.poll demoIdB.text).exec c.state.1 = (.ok (), afterPoll c) := Prog.exec_eq_of_fst h.2

theorem untouched_start : letI := demoSha256; letI := demoLogHmac
    Untouched demoIdB.text (start .widening) := by
  refine ⟨?_, rfl, rfl⟩
  decide +kernel

theorem untouched_shipped : letI := demoSha256; letI := demoLogHmac
    Untouched demoIdB.text (start .shipped) ∧ (start .shipped).1.world.AsShipped := by
  refine ⟨⟨?_, rfl, rfl⟩, ?_⟩
  · decide +kernel
  · decide +kernel

theorem in_time : letI := demoSha256; letI := demoLogHmac
    Settled (appended (finished (asked .widening))) ∧ (∀ e ∈ (appended (finished (asked .widening))).state.2, Ahead e) ∧
      (logOf demoIdB.text (afterPoll (appended (finished (asked .widening)))).world.db).length = 2 := by
  decide +kernel

theorem unread : letI := demoSha256; letI := demoLogHmac
    (logOf demoIdB.text (appended ⟨start .shipped, []⟩).state.1.world.db).length = 1 ∧
      ¬ AllGiven demoIdB.text (afterPoll (appended ⟨start .shipped, []⟩)) := by
  decide +kernel

-- The round has asked for what is above 0; until it inserts the peer's entry 1, the reader has passed 1.
example : letI := demoSha256; letI := demoLogHmac
    Settled (finished (polled (appended (asked .widening)))) ∧
      ¬ AllGiven demoIdB.text (afterPoll (finished (polled (appended (asked .widening))))) := by
  decide +kernel

end DemoPolling

/-- As shipped the empty log has been seen; with the cursors decoded the entry of the peer is there before the reader
polls. -/
theorem polled_once_demo : letI := demoSha256; letI := demoLogHmac
    AllGiven demoIdB.text (DemoPolling.afterPoll ⟨DemoPolling.start .shipped, []⟩) ∧
      ∃ s : Watched, (logOf demoIdB.text s.world.db).length = 2 ∧ AllGiven demoIdB.text s := by
  obtain ⟨hsettled, hahead, htwo⟩ := DemoPolling.in_time
  have hr := @DemoPolling.runs_appended demoLogHmac demoSha256 _ _ (@DemoPolling.runs_finished demoLogHmac demoSha256 _ _
    (@DemoPolling.runs_asked demoLogHmac demoSha256 _ _ DemoPolling.untouched_start))
  have hstart := DemoPolling.untouched_shipped
  exact ⟨((@polled_once _ demoLogHmac demoSha256 _).1 ⟨_, hstart, .refl⟩).2 hstart.1.1, _, htwo,
    ((@polled_once _ demoLogHmac demoSha256 _).2 hr _ hsettled.poll).2 hahead⟩

/-- **The append has left its row, and the reader is never given it.** -/
theorem entry_never_given : letI := demoSha256; letI := demoLogHmac
    ∃ c : Pool Recorded Err,
      Pool.Reachable (fun s => Untouched demoIdB.text s ∧ s.1.world.AsShipped) (PeerRounds demoIdB.text)
        (Meanwhile demoIdB.text) c ∧ c.threads = [] ∧ (logOf demoIdB.text c.state.1.world.db).length = 1 ∧
        ¬ AllGiven demoIdB.text ((poll demoIdB.text).exec c.state.1).2 := by
  obtain ⟨hone, hunseen⟩ := DemoPolling.unread
  have hstart := DemoPolling.untouched_shipped
  exact ⟨_, @DemoPolling.runs_appended demoLogHmac demoSha256 _ _ ⟨_, hstart, .refl⟩, rfl, hone, hunseen⟩

end A2AGateway
