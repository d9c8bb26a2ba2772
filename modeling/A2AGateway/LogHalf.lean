import A2AGateway.ConcurrentAppends
import A2AGateway.Federation

/-!
# The log half of a round

| here | there |
| --- | --- |
| `logPart`    | `peer_sync.rs:123-197`, `sync_project` up to the snapshot |
| `answerFrom` | `peer_server.rs:285-314`, for any log |

Run twice against the same log, it leaves what running it once leaves (`logPart_twice`), however `INTEGER` columns
are decoded and whichever statements fail (`Outage`), as long as they fail in both runs: the second delta is a part
of the first one, and each of its entries has been refused for good or is there.
Whatever the peer answers, rows are only added, and each says that the peer wrote it and carries a
signature that verifies under the remote project's id (`logPart_adds`).
-/

namespace A2AGateway

open PeerSync TaskLog Gw

namespace PeerSync

def logPart {σ : Type} [HmacSha256] (L : Prog.Focus σ World) (client : PeerClient σ) (peer : PeerConfig)
    (remote : RemoteProject) (secret : Bytes) : Prog σ Err Unit := do
  let localCopy ← (Projects.getByName remote.projectName).within L
  syncLog L client peer remote secret localCopy

end PeerSync

/-! ## A peer with a log -/

/-- What `sync_task_log` answers with from the entries of a project. -/
def answerFrom (log : List ProtoLogEntry) (after : Int) : TaskLogSyncResponse where
  entries := (log.filter (after < ·.cursor)).insertionSort (·.cursor ≤ ·.cursor)
  headCursor := (log.map (·.cursor)).max?.getD 0
  error := ""

theorem mem_answerFrom {log : List ProtoLogEntry} {after : Int} {e : ProtoLogEntry} :
    e ∈ (answerFrom log after).entries ↔ e ∈ log ∧ after < e.cursor := by
  simp [answerFrom]

/-- The gateway's own handler answers so. -/
theorem answerFrom_serving (db : Db) (projectId : String) (after : Int) :
    (⟨PeerHandler.logAnswer db projectId after, maxCursor db projectId, ""⟩ : TaskLogSyncResponse) =
      answerFrom ((logOf projectId db).map (·.toEntry.toProto)) after := by
  have hentries : PeerHandler.logAnswer db projectId after =
      (answerFrom ((logOf projectId db).map (·.toEntry.toProto)) after).entries := by
    have hfilter : (db.taskLog.rows.filter fun r => r.projectId == projectId && decide (after < r.cursor)) =
        (logOf projectId db).filter fun r => decide (after < r.cursor) := by
      rw [logOf, List.filter_filter]
      simp only [Bool.and_comm]
    rw [PeerHandler.logAnswer, rowsSince, hfilter]
    simp only [answerFrom, List.filter_map]
    exact List.map_insertionSort _ _ _ _ fun _ _ _ _ => Iff.rfl
  have hhead : maxCursor db projectId = (answerFrom ((logOf projectId db).map (·.toEntry.toProto)) after).headCursor := by
    simp only [answerFrom, List.map_map]
    rfl
  rw [hentries, hhead]
  rfl

/-- A peer whose logs do not change; the other requests are answered in any way. -/
def Answers.ofLogs (logs : String → List ProtoLogEntry) (rest : Answers) : Answers :=
  { rest with syncTaskLog := fun r => .ok (answerFrom (logs r.projectId) r.afterCursor) }

/-! ## The delta, entry by entry -/

section
variable [HmacSha256] {secret : Bytes} {peer : PeerConfig} {remoteId localId : String} {db : Db} {e : ProtoLogEntry}
  {entries : List ProtoLogEntry}

/-- The entry is refused, or its id is taken. -/
def Settled (secret : Bytes) (peer : PeerConfig) (remoteId localId : String) (db : Db) (e : ProtoLogEntry) : Prop :=
  accepts secret peer remoteId e = true → fitsInteger e.cursor = true → db.hasProject localId = true →
    ∃ r ∈ db.taskLog.rows, r.id = e.id

/-- A settled entry changes nothing. -/
theorem Settled.takeEntry_eq (h : Settled secret peer remoteId localId db e) :
    takeEntry secret peer remoteId localId db e = db := by
  rcases takeEntry_cases secret peer remoteId localId db e with h' | ⟨hacc, hins⟩
  · exact h'
  · obtain ⟨hfits, hproject, -, hfresh, -, -⟩ := insertRow_eq_some.1 hins
    obtain ⟨r, hr, hid⟩ := h hacc hfits hproject
    exact absurd hid (hfresh r hr)

theorem takeDelta_eq_self (h : ∀ e ∈ entries, Settled secret peer remoteId localId db e) :
    takeDelta secret peer remoteId localId entries db = db := by
  induction entries with
  | nil => rfl
  | cons e entries ih =>
    have hhead := (h e List.mem_cons_self).takeEntry_eq
    have hrest := ih fun x hx => h x (List.mem_cons_of_mem e hx)
    rw [takeDelta, List.foldl_cons, hhead]
    exact hrest

end

/-! ## The cursor of the peer -/

/-- What a row says besides the time. -/
def PeerCursor.seen (c : PeerCursor) : String × String × Int := (c.peerName, c.projectId, c.lastCursor)

section
variable {peerName projectId : String} {cursor : Int} {now now' : F64} {db db' : Db}

/-- The last head seen of the peer is this one. -/
def CursorSeen (peerName projectId : String) (cursor : Int) (db : Db) : Prop :=
  ∃ c ∈ db.peerCursorState.rows, c.seen = (peerName, projectId, cursor)

theorem cursorSeen_upsert : CursorSeen peerName projectId cursor (upsertPeerCursor peerName projectId cursor now db) := by
  let row : PeerCursor := ⟨peerName, projectId, cursor, now⟩
  let ofPeer : PeerCursor → Bool := fun c => Constraints.clash c row
  have hfind : (upsertPeerCursor peerName projectId cursor now db).peerCursorState.find? ofPeer =
      some ((db.peerCursorState.find? ofPeer).elim row fun c => { c with lastCursor := cursor, updatedAt := now }) :=
    Table.find?_upsert_self (by simp [ofPeer, row, Constraints.clash]) fun _ => rfl
  refine ⟨_, Table.mem_of_find? hfind, ?_⟩
  cases hold : db.peerCursorState.find? ofPeer with
  | none => rfl
  | some c =>
    have hclash : ofPeer c = true := Table.prop_of_find? hold
    simp only [ofPeer, row, Constraints.clash, Bool.and_eq_true, beq_iff_eq] at hclash
    simp [PeerCursor.seen, hclash.1, hclash.2]

/-- Recording it once more changes the time only. -/
theorem seen_upsert (h : CursorSeen peerName projectId cursor db) :
    (upsertPeerCursor peerName projectId cursor now db).peerCursorState.rows.map PeerCursor.seen =
      db.peerCursorState.rows.map PeerCursor.seen := by
  obtain ⟨c, hc, hseen⟩ := h
  obtain ⟨hpeer, hproject, hcursor⟩ : c.peerName = peerName ∧ c.projectId = projectId ∧ c.lastCursor = cursor := by
    simpa [PeerCursor.seen] using hseen
  let row : PeerCursor := ⟨peerName, projectId, cursor, now⟩
  have hclash : Constraints.clash c row = true := by simp [row, Constraints.clash, hpeer, hproject]
  have hrefused : db.peerCursorState.insert row = none := Table.insert_eq_none.2 ⟨c, hc, hclash⟩
  have hupsert : (upsertPeerCursor peerName projectId cursor now db).peerCursorState.rows =
      db.peerCursorState.rows.map fun a =>
        if Constraints.clash a row then { a with lastCursor := cursor, updatedAt := now } else a := by
    simp only [upsertPeerCursor, Table.upsert]
    rw [hrefused]
    rfl
  rw [hupsert, List.map_map]
  apply List.map_congr_left
  intro a ha
  rw [Function.comp_apply]
  split
  · rename_i hrow
    simp only [row, Constraints.clash, Bool.and_eq_true, beq_iff_eq] at hrow
    have hac : a = c := by
      apply db.peerCursorState.eq_of_clash ha hc
      simp [Constraints.clash, hrow.1, hrow.2, hpeer, hproject]
    simp [PeerCursor.seen, hac, hcursor]
  · rfl

end

/-! ## Twice -/

theorem headCursorOf_le_append {rows new : List LogRow} (h : ∀ r ∈ new, headCursorOf rows ≤ r.cursor) :
    headCursorOf rows ≤ headCursorOf (rows ++ new) := by
  cases new with
  | nil => rw [List.append_nil]
  | cons r new =>
    calc headCursorOf rows ≤ r.cursor := h r List.mem_cons_self
      _ ≤ headCursorOf (rows ++ r :: new) := le_headCursorOf (List.mem_append_right rows List.mem_cons_self)

/-- Which statements of the log half fail, whenever they are run. -/
structure Outage where
  lookup : Bool
  head : Bool
  insert : ProtoLogEntry → Bool
  cursor : Bool

/-- How one statement ends, in `World.faults`. -/
def fails (b : Bool) : Option Nat := if b then some 0 else none

theorem exec_op_fails {α : Type} {e : Err} {f : World → Except Err α × World} {w : World} {b : Bool} {rest : List (Option Nat)}
    (hw : w.faults = fails b :: rest) : (op e f).exec w = if b then (.error e, w.tick) else f w.tick := by
  rw [op, Prog.exec_prim, hw]
  cases b <;> rfl

namespace Outage

variable (o : Outage)

/-- The local copy, if the lookup tells. -/
def found (name : String) (db : Db) : Option (Option Project) :=
  if o.lookup then none else db.engine.decodeRow (Projects.byName db name)

/-- The cursor that is sent, `unwrap_or(0)`. -/
def asks (p : Project) (db : Db) : Int := if o.head then 0 else maxCursor db p.id

/-- What is taken over from a delta is among these. -/
def taken (entries : List ProtoLogEntry) : List ProtoLogEntry := entries.filter fun e => !o.insert e

section
variable [HmacSha256] (peer : PeerConfig) (remote : RemoteProject) (secret : Bytes) (logs : String → List ProtoLogEntry)

/-- The inserts of a delta, one for each entry that is accepted. -/
def inserts (entries : List ProtoLogEntry) : List (Option Nat) :=
  (entries.filter (accepts secret peer remote.projectId)).map fun e => fails (o.insert e)

/-- The world in which the next run meets the outage. -/
def hit (w : World) : World :=
  { w with
    faults := match Projects.byName w.db remote.projectName with
      | some p => fails o.lookup :: fails o.head ::
          (o.inserts peer remote secret (answerFrom (logs remote.projectId) (o.asks p w.db)).entries ++ [fails o.cursor])
      | none => [fails o.lookup] }

/-- The database after an answer. -/
def afterAnswer (p : Project) (r : TaskLogSyncResponse) (now : F64) (db : Db) : Db :=
  let taken := takeDelta secret peer remote.projectId p.id (o.taken r.entries) db
  if o.asks p db < r.headCursor ∧ o.cursor = false then upsertPeerCursor peer.name p.id r.headCursor now taken else taken

/-- The database after the run. -/
def after (now : F64) (db : Db) : Db :=
  match o.found remote.projectName db with
  | some (some p) => o.afterAnswer peer remote secret p (answerFrom (logs remote.projectId) (o.asks p db)) now db
  | _ => db

end

section
variable {o} {w : World} {rest : List (Option Nat)} {name : String} {p : Project}

theorem exec_lookup (name : String) (hw : w.faults = fails o.lookup :: rest) : (Projects.getByName name).exec w =
    ((o.found name w.db).elim (.error (.msg "get project by name")) .ok, w.tick) := by
  rw [Projects.getByName, fetch, exec_op_fails hw, found]
  cases o.lookup with
  | true => rfl
  | false =>
    simp only [Bool.false_eq_true, if_false, World.tick_db]
    cases w.db.engine.decodeRow (Projects.byName w.db name) <;> rfl

theorem found_eq_some {localCopy : Option Project} (h : o.found name w.db = some localCopy) :
    Projects.byName w.db name = localCopy ∧ (localCopy.isSome → w.db.engine.integers = .widened) := by
  unfold found at h
  split at h
  · cases h
  · obtain ⟨rfl, hnone⟩ := Engine.decodeRow_eq_some.1 h
    refine ⟨rfl, fun hsome => IntegerDecoding.ne_refused.1 fun hrefused => ?_⟩
    rw [hnone hrefused] at hsome
    cases hsome

theorem exec_localCursor_hit (hw : w.faults = fails o.head :: rest) (hwidened : w.db.engine.integers = .widened) :
    (localCursor .whole (some p)).exec w = (.ok (o.asks p w.db), w.tick) := by
  have hhead : (headCursor p.id).exec w = (if o.head then .error (.msg "head cursor") else .ok (maxCursor w.db p.id), w.tick) := by
    rw [headCursor, fetch, exec_op_fails hw]
    simp only [World.tick_db, Engine.decode_widened hwidened]
    cases o.head <;> rfl
  simp only [localCursor, Prog.within_whole, Prog.bind_eq]
  rw [Prog.exec_bind, Prog.exec_attempt, hhead, asks]
  cases o.head <;> rfl

variable [HmacSha256] {peer : PeerConfig} {remote : RemoteProject} {secret : Bytes} {localId : String}

theorem takeDelta_taken_cons {e : ProtoLogEntry} {entries : List ProtoLogEntry} {db : Db} :
    takeDelta secret peer remote.projectId localId (o.taken (e :: entries)) db =
      takeDelta secret peer remote.projectId localId (o.taken entries)
        (if o.insert e then db else takeEntry secret peer remote.projectId localId db e) := by
  unfold taken
  cases hfail : o.insert e with
  | true => rw [List.filter_cons_of_neg (by simp [hfail]), if_pos rfl]
  | false =>
    rw [List.filter_cons_of_pos (by simp [hfail]), if_neg Bool.false_ne_true]
    rfl

/-- The inserts that do not fail. -/
theorem exec_forEach_hit {entries : List ProtoLogEntry} (hw : w.faults = o.inserts peer remote secret entries ++ rest) :
    (Prog.forEach entries (acceptEntry .whole peer remote secret localId)).exec w =
      (.ok (), { w with db := takeDelta secret peer remote.projectId localId (o.taken entries) w.db, faults := rest }) := by
  induction entries generalizing w with
  | nil =>
    have hrest : w.faults = rest := hw
    subst hrest
    rfl
  | cons e entries ih =>
    simp only [Prog.forEach]
    by_cases hacc : accepts secret peer remote.projectId e = true
    · have hfaults : w.faults = fails (o.insert e) :: (o.inserts peer remote secret entries ++ rest) := by
        rw [hw, inserts, List.filter_cons_of_pos hacc]
        rfl
      have hrest : w.tick.faults = o.inserts peer remote secret entries ++ rest := by
        rw [World.tick, hfaults]
        rfl
      have hstep : (acceptEntry .whole peer remote secret localId e).exec w = (.ok (), { w.tick with
          db := if o.insert e then w.db else takeEntry secret peer remote.projectId localId w.db e }) := by
        unfold acceptEntry takeEntry
        rw [if_pos hacc, if_pos hacc]
        simp only [Prog.bind_eq, Prog.within_whole]
        rw [Prog.exec_bind_of_ok (Prog.exec_attempt _ w), insertPeerEntry, execute, statement, exec_op_fails hfaults]
        cases o.insert e with
        | true => rfl
        | false =>
          simp only [Bool.false_eq_true, if_false, World.tick_db]
          cases insertRowIgnore ((reconstruct remote.projectId e).toRow localId) w.db <;> rfl
      rw [Prog.exec_bind_of_ok hstep, takeDelta_taken_cons]
      exact ih hrest
    · have hrest : w.faults = o.inserts peer remote secret entries ++ rest := by
        rw [hw, inserts, List.filter_cons_of_neg hacc]
        rfl
      have hstep : (acceptEntry .whole peer remote secret localId e).exec w = (.ok (), w) := by
        unfold acceptEntry
        rw [if_neg hacc]
        rfl
      have hsame : takeEntry secret peer remote.projectId localId w.db e = w.db := if_neg hacc
      rw [Prog.exec_bind_of_ok hstep, takeDelta_taken_cons, hsame, ite_self]
      exact ih hrest

variable {auth : JwtAuth} {logs : String → List ProtoLogEntry} {answers : Answers}

/-- **What a run leaves.** -/
theorem exec_logPart_hit (w : World) :
    ((logPart .whole (clientOf auth peer (.ofLogs logs answers)) peer remote secret).exec (o.hit peer remote secret logs w)).2.db =
      o.after peer remote secret logs w.now w.db := by
  obtain ⟨rest, hfaults⟩ : ∃ rest, (o.hit peer remote secret logs w).faults = fails o.lookup :: rest := by
    unfold hit
    cases Projects.byName w.db remote.projectName <;> exact ⟨_, rfl⟩
  have hlookup := exec_lookup remote.projectName hfaults
  have hdb : (o.hit peer remote secret logs w).db = w.db := rfl
  rw [hdb] at hlookup
  simp only [logPart, Prog.bind_eq, Prog.within_whole, after]
  cases hfound : o.found remote.projectName w.db with
  | none =>
    rw [hfound] at hlookup
    rw [Prog.exec_bind_of_error hlookup]
    rfl
  | some localCopy =>
    rw [hfound] at hlookup
    rw [Prog.exec_bind_of_ok hlookup]
    obtain ⟨hp, hwidened⟩ := found_eq_some hfound
    cases localCopy with
    | none =>
      simp only [syncLog, localCursor, Prog.bind_eq, Prog.pure_eq, Prog.ret_bind]
      rw [Prog.exec_bind_of_ok (exec_client_syncTaskLog ..)]
      rfl
    | some p =>
      let delta := answerFrom (logs remote.projectId) (o.asks p w.db)
      have hrest : (o.hit peer remote secret logs w).tick.faults =
          fails o.head :: (o.inserts peer remote secret delta.entries ++ [fails o.cursor]) := by
        unfold World.tick hit
        rw [hp]
        rfl
      have hcursor : (localCursor .whole (some p)).exec (o.hit peer remote secret logs w).tick =
          (.ok (o.asks p w.db), (o.hit peer remote secret logs w).tick.tick) := exec_localCursor_hit hrest (hwidened rfl)
      have hinserts : (o.hit peer remote secret logs w).tick.tick.faults =
          o.inserts peer remote secret delta.entries ++ [fails o.cursor] := by
        rw [World.tick, hrest]
        rfl
      simp only [syncLog, Prog.bind_eq]
      rw [Prog.exec_bind_of_ok hcursor, Prog.exec_bind_of_ok (exec_client_syncTaskLog ..)]
      simp only
      rw [Prog.exec_bind_of_ok (exec_forEach_hit hinserts)]
      unfold afterAnswer
      by_cases hahead : o.asks p w.db < (answerFrom (logs remote.projectId) (o.asks p w.db)).headCursor
      · rw [if_pos hahead, Prog.within_whole, Prog.exec_bind_of_ok (Prog.exec_attempt _ _), updatePeerCursor, execute, statement,
          exec_op_fails rfl]
        simp only [hahead, true_and]
        cases o.cursor <;> rfl
      · rw [if_neg hahead, if_neg fun h => hahead h.1]
        rfl

end

/-! ### Twice -/

section
variable {o} [HmacSha256] {peer : PeerConfig} {remote : RemoteProject} {secret : Bytes} {p : Project} {r : TaskLogSyncResponse}
  {now : F64} {db : Db}

theorem taskLog_afterAnswer : (o.afterAnswer peer remote secret p r now db).taskLog =
    (takeDelta secret peer remote.projectId p.id (o.taken r.entries) db).taskLog := by
  unfold afterAnswer
  split <;> rfl

/-- The log and the cursors of peers are all that changes. -/
theorem afterAnswer_frame : (o.afterAnswer peer remote secret p r now db).projects = db.projects ∧
    (o.afterAnswer peer remote secret p r now db).engine = db.engine := by
  have htaken := @takeDelta_frame _ secret peer remote.projectId p.id db (o.taken r.entries)
  have hprojects : (takeDelta secret peer remote.projectId p.id (o.taken r.entries) db).projects = db.projects := by rw [htaken]
  have hengine : (takeDelta secret peer remote.projectId p.id (o.taken r.entries) db).engine = db.engine := by rw [htaken]
  unfold afterAnswer
  split
  · exact ⟨hprojects, hengine⟩
  · exact ⟨hprojects, hengine⟩

theorem found_afterAnswer {name : String} :
    o.found name (o.afterAnswer peer remote secret p r now db) = o.found name db := by
  unfold found Projects.byName
  rw [afterAnswer_frame.1, afterAnswer_frame.2]

/-- What an answer leaves settles its entries. -/
theorem settled_afterAnswer {e : ProtoLogEntry} (he : e ∈ o.taken r.entries) :
    Settled secret peer remote.projectId p.id (o.afterAnswer peer remote secret p r now db) e := by
  intro hacc hfits hproject
  rw [taskLog_afterAnswer]
  refine takeDelta_has he hacc hfits ?_
  rwa [Db.hasProject, afterAnswer_frame.1] at hproject

/-- The cursor that is sent does not fall, as an answer has only higher ones. -/
theorem asks_afterAnswer (hr : ∀ e ∈ r.entries, o.asks p db < e.cursor) :
    o.asks p db ≤ o.asks p (o.afterAnswer peer remote secret p r now db) := by
  cases hhead : o.head with
  | true => simp [asks, hhead]
  | false =>
    simp only [asks, hhead, Bool.false_eq_true, if_false] at hr ⊢
    obtain ⟨new, hrows, hnew⟩ := rows_takeDelta secret peer remote.projectId p.id (o.taken r.entries) db
    have hlog : logOf p.id (o.afterAnswer peer remote secret p r now db) =
        logOf p.id db ++ new.filter (·.projectId == p.id) := by
      rw [logOf, taskLog_afterAnswer, hrows, List.filter_append]
      rfl
    rw [maxCursor_eq, maxCursor_eq, hlog]
    apply headCursorOf_le_append
    intro row hrow
    obtain ⟨e, he, -, rfl⟩ := hnew row (List.mem_filter.1 hrow).1
    exact (hr e (List.mem_of_mem_filter he)).le

/-- The second run finds its entries settled, and the head it would record recorded. -/
theorem after_twice (logs : String → List ProtoLogEntry) (now' : F64) :
    (o.after peer remote secret logs now' (o.after peer remote secret logs now db)).taskLog =
        (o.after peer remote secret logs now db).taskLog ∧
      (o.after peer remote secret logs now' (o.after peer remote secret logs now db)).peerCursorState.rows.map PeerCursor.seen =
        (o.after peer remote secret logs now db).peerCursorState.rows.map PeerCursor.seen := by
  rcases hfound : o.found remote.projectName db with _ | _ | p
  · simp [after, hfound]
  · simp [after, hfound]
  · let first := answerFrom (logs remote.projectId) (o.asks p db)
    let once := o.afterAnswer peer remote secret p first now db
    have honce : o.after peer remote secret logs now db = once := by
      simp only [after, hfound]
      rfl
    let second := answerFrom (logs remote.projectId) (o.asks p once)
    have htwice : o.after peer remote secret logs now' once = o.afterAnswer peer remote secret p second now' once := by
      have hfound' : o.found remote.projectName once = some (some p) := found_afterAnswer.trans hfound
      simp only [after, hfound']
      rfl
    have hhigher : o.asks p db ≤ o.asks p once := asks_afterAnswer fun e he => (mem_answerFrom.1 he).2
    -- The second delta is a part of the first, and that has been settled.
    have hsettled : takeDelta secret peer remote.projectId p.id (o.taken second.entries) once = once := by
      refine takeDelta_eq_self fun e he => settled_afterAnswer ?_
      obtain ⟨hsecond, htaken⟩ := List.mem_filter.1 he
      obtain ⟨hlog, hcursor⟩ := mem_answerFrom.1 hsecond
      exact List.mem_filter.2 ⟨mem_answerFrom.2 ⟨hlog, lt_of_le_of_lt hhigher hcursor⟩, htaken⟩
    rw [honce, htwice]
    unfold afterAnswer
    simp only [hsettled]
    split
    · rename_i hahead
      have hfirst : o.asks p db < first.headCursor ∧ o.cursor = false := ⟨lt_of_le_of_lt hhigher hahead.1, hahead.2⟩
      have hknown : CursorSeen peer.name p.id second.headCursor once := by
        show CursorSeen _ _ _ (o.afterAnswer peer remote secret p first now db)
        rw [afterAnswer, if_pos hfirst]
        exact cursorSeen_upsert
      exact ⟨rfl, seen_upsert hknown⟩
    · exact ⟨rfl, rfl⟩

end

end Outage

/-- **Against one log the second run changes nothing but the time of the peer's cursor**, from every state, with any
decoding and with any statements failing in both. -/
theorem logPart_twice [HmacSha256] (auth : JwtAuth) {peer : PeerConfig} {remote : RemoteProject} {secret : Bytes}
    (logs : String → List ProtoLogEntry) (rest : Answers) (o : Outage) (w : World) (now : F64) :
    let run := logPart .whole (clientOf auth peer (.ofLogs logs rest)) peer remote secret
    let once := (run.exec (o.hit peer remote secret logs w)).2
    let twice := (run.exec (o.hit peer remote secret logs { once with now })).2
    twice.db.taskLog = once.db.taskLog ∧
      twice.db.peerCursorState.rows.map PeerCursor.seen = once.db.peerCursorState.rows.map PeerCursor.seen := by
  intro run once twice
  have honce : once.db = o.after peer remote secret logs w.now w.db := Outage.exec_logPart_hit w
  have htwice : twice.db = o.after peer remote secret logs now once.db := Outage.exec_logPart_hit { once with now }
  rw [htwice, honce]
  exact Outage.after_twice logs now

/-! ## Whatever the peer answers -/

section
variable [HmacSha256] {secret : Bytes} {peer : PeerConfig} {remoteId localId : String}

/-- The row is the peer's own, verified under the remote project's id, and in the local project. -/
structure FromPeer (secret : Bytes) (peer : PeerConfig) (remoteId localId : String) (r : LogRow) : Prop where
  gatewayName : r.gatewayName = peer.name
  verified : verifyEntry secret { r.toEntry with projectId := remoteId } = true
  projectId : r.projectId = localId

/-- Rows are added to the log, each of them from the peer; no other is changed. -/
def AddsFrom (secret : Bytes) (peer : PeerConfig) (remoteId localId : String) (w w' : World) : Prop :=
  ∃ new, w'.db.taskLog.rows = w.db.taskLog.rows ++ new ∧ ∀ r ∈ new, FromPeer secret peer remoteId localId r

theorem AddsFrom.of_same {w w' : World} (h : w'.db.taskLog = w.db.taskLog) : AddsFrom secret peer remoteId localId w w' :=
  ⟨[], by rw [h, List.append_nil], by simp⟩

theorem AddsFrom.trans {a b c : World} (h : AddsFrom secret peer remoteId localId a b)
    (h' : AddsFrom secret peer remoteId localId b c) : AddsFrom secret peer remoteId localId a c := by
  obtain ⟨new, hrows, hnew⟩ := h
  obtain ⟨new', hrows', hnew'⟩ := h'
  refine ⟨new ++ new', by rw [hrows', hrows, List.append_assoc], fun r hr => ?_⟩
  rcases List.mem_append.1 hr with hr | hr
  · exact hnew r hr
  · exact hnew' r hr

/-- An accepted entry becomes such a row. -/
theorem fromPeer_of_accepts {e : ProtoLogEntry} (hacc : accepts secret peer remoteId e = true) :
    FromPeer secret peer remoteId localId ((reconstruct remoteId e).toRow localId) := by
  have hboth := hacc
  simp only [accepts, Bool.and_eq_true, beq_iff_eq] at hboth
  refine ⟨hboth.1, ?_, rfl⟩
  have hentry : { ((reconstruct remoteId e).toRow localId).toEntry with projectId := remoteId } = reconstruct remoteId e := by
    rw [LogEntry.toEntry_toRow]
    rfl
  rw [hentry]
  exact hboth.2

theorem moves_insert_accepted {e : ProtoLogEntry} (hacc : accepts secret peer remoteId e = true) :
    (insertPeerEntry localId (reconstruct remoteId e) peer.name).Moves (AddsFrom secret peer remoteId localId) := by
  refine moves_execute (fun _ => .of_same rfl) fun w db hins => ?_
  rcases insertRowIgnore_eq_some hins with ⟨-, rfl⟩ | hrow
  · exact .of_same rfl
  · refine ⟨[(reconstruct remoteId e).toRow localId], (insertRow_eq_some.1 hrow).2.2.2.2.2, fun r hr => ?_⟩
    rw [List.mem_singleton.1 hr]
    exact fromPeer_of_accepts hacc

end

section
variable [HmacSha256] (auth : JwtAuth) (peer : PeerConfig) (remote : RemoteProject) (secret : Bytes) (answers : Answers)

theorem syncLog_adds (p : Project) (w : World) :
    AddsFrom secret peer remote.projectId p.id w
      ((syncLog .whole (clientOf auth peer answers) peer remote secret (some p)).exec w).2 := by
  apply Prog.Moves.exec (fun _ => .of_same rfl) (fun _ _ _ => .trans)
  exact moves_syncLog (fun _ => .of_same rfl) (moves_answering answers) whole_of (fun _ => .of_same rfl)
    (fun _ hacc => moves_insert_accepted hacc)
    fun c => (moves_updatePeerCursor_logSame _ _ c).mono fun _ _ h => .of_same h.1

/-- **However the peer answers and whatever fails**: the rows that were there are still there, unchanged and in
their places; each further one is from the peer, verified, and in the project that has the remote one's
name; no two have one id. -/
theorem logPart_adds (w : World) :
    let w' := ((logPart .whole (clientOf auth peer answers) peer remote secret).exec w).2
    (∃ new, w'.db.taskLog.rows = w.db.taskLog.rows ++ new ∧
      ∀ r ∈ new, ∃ p, Projects.byName w.db remote.projectName = some p ∧ FromPeer secret peer remote.projectId p.id r) ∧
    w'.db.taskLog.rows.Pairwise fun a b => a.id ≠ b.id := by
  intro w'
  refine ⟨?_, w'.db.taskLog.unique.imp fun h => by simpa [Constraints.clash] using h⟩
  have hnothing : ∀ w₁ : World, w₁.db.taskLog = w.db.taskLog → ∃ new, w₁.db.taskLog.rows = w.db.taskLog.rows ++ new ∧
      ∀ r ∈ new, ∃ p, Projects.byName w.db remote.projectName = some p ∧ FromPeer secret peer remote.projectId p.id r :=
    fun w₁ h => ⟨[], by rw [h, List.append_nil], by simp⟩
  have hlookup : (Projects.getByName remote.projectName).Moves LogSame := moves_fetch LogSame.tick
  have hlog := (hlookup.exec LogSame.refl (fun _ _ _ => .trans) w).1
  simp only [w', logPart, Prog.bind_eq, Prog.within_whole]
  refine Prog.exec_bind_state (P := fun w₁ : World => ∃ new, w₁.db.taskLog.rows = w.db.taskLog.rows ++ new ∧
    ∀ r ∈ new, ∃ p, Projects.byName w.db remote.projectName = some p ∧ FromPeer secret peer remote.projectId p.id r)
    (hnothing _ hlog) fun localCopy w₁ hrun _ => ?_
  obtain ⟨hcopy, -⟩ := Engine.decodeRow_eq_some.1 (exec_fetch_ok hrun).1
  rw [hrun] at hlog
  cases localCopy with
  | none =>
    have hask : (syncLog .whole (clientOf auth peer answers) peer remote secret none).Moves LogSame :=
      moves_syncLog_none LogSame.refl (moves_answering answers) _ _ _
    have hsame := hask.exec LogSame.refl (fun _ _ _ => .trans) w₁
    exact hnothing _ (hsame.1.trans hlog)
  | some p =>
    obtain ⟨new, hrows, hnew⟩ := syncLog_adds auth peer remote secret answers p w₁
    exact ⟨new, by rw [hrows, hlog], fun r hr => ⟨p, hcopy.symm, hnew r hr⟩⟩

end

end A2AGateway
