import A2AGateway.CursorRange
import A2AGateway.Lib.Interrupted
import A2AGateway.PeerAccess

/-!
# The head that comes with a delta

`sync_task_log` reads the entries after the peer's cursor and then, in a statement of its own, the head
of the log. The peer records the head and asks for what comes after it the next time. As shipped an answer has no
entry and the head 0: the first read fails where there is something to hand out, the second always does and counts
as 0. With the cursors decoded an entry that is committed after the first read, at or below the head, is in neither
answer; the peer misses nothing if and only if there is no such entry (`delta_complete`).
-/

namespace A2AGateway

open Gw TaskLog Interrupted

/-- Others commit entries to the log, and whatever else; `append` and `insert_peer_entry` both add row after row. -/
abbrev LogCommits : World → World → Prop := Relation.ReflTransGen LogGrows

/-- One statement of an append, to this project or another. Its sub-query has seen the log as it was then, and the log
has only grown since. -/
def AppendCommit (projectId : String) (w w' : World) : Prop :=
  w'.db.engine = w.db.engine ∧ (logOf projectId w'.db = logOf projectId w.db ∨
    ∃ row seen, seen <+: logOf projectId w.db ∧ row.cursor = headCursorOf seen + 1 ∧
      logOf projectId w'.db = logOf projectId w.db ++ [row])

/-- Appends, as many as there are, and whatever else. -/
abbrev AppendCommits (projectId : String) : World → World → Prop := Relation.ReflTransGen (AppendCommit projectId)

/-- The log has come from appends. -/
def FromAppends (projectId : String) (w : World) : Prop :=
  ∃ w₀, logOf projectId w₀.db = [] ∧ AppendCommits projectId w₀ w

/-- The second read, if it succeeds. -/
def headRead (projectId : String) (w : World) : Option Int :=
  if Passes w then w.db.engine.decode (maxCursor w.db projectId) else none

/-- The head of the answer: no head counts as 0. -/
def advertised (projectId : String) (w : World) : Int := (headRead projectId w).getD 0

/-- Every entry of the log in the range of the answer is in the answer. -/
def CompleteToHead (r : TaskLogSyncRequest) (resp : TaskLogSyncResponse) (db : Db) : Prop :=
  ∀ row ∈ logOf r.projectId db, r.afterCursor < row.cursor → row.cursor ≤ resp.headCursor → row.toEntry.toProto ∈ resp.entries

/-- With this answer, and a later one to the request for what comes after the head, no entry is missed. -/
def MissesNothing (r : TaskLogSyncRequest) (resp : TaskLogSyncResponse) (db : Db) : Prop :=
  ∀ row ∈ logOf r.projectId db, r.afterCursor < row.cursor →
    row.toEntry.toProto ∈ resp.entries ∨ row.toEntry.toProto ∈ PeerHandler.logAnswer db r.projectId resp.headCursor

/-- No entry after the peer's cursor, up to the head, has come into the log. -/
def NoneBelowHead (r : TaskLogSyncRequest) (head : Int) (db db' : Db) : Prop :=
  ∀ row ∈ logOf r.projectId db', row ∉ logOf r.projectId db → row.cursor ≤ r.afterCursor ∨ head < row.cursor

/-! ## Appends -/

section
variable {projectId : String} {w w' : World}

theorem AppendCommits.prefix (h : AppendCommits projectId w w') : logOf projectId w.db <+: logOf projectId w'.db := by
  induction h with
  | refl => exact List.prefix_refl _
  | tail _ hstep ih =>
    rcases hstep.2 with hsame | ⟨row, _, -, -, hgrown⟩
    · rw [hsame]
      exact ih
    · rw [hgrown]
      exact ih.trans (List.prefix_append _ _)

theorem AppendCommits.engine (h : AppendCommits projectId w w') : w'.db.engine = w.db.engine := by
  induction h with
  | refl => rfl
  | tail _ hstep ih => exact hstep.1.trans ih

/-- The two moments of an append, and what others have appended between them: its commit is such a statement. -/
theorem appended_commit [HmacSha256] {secret : Bytes} {a : Append} {target : String} {now : F64} {db : Db}
    (hbetween : AppendCommits projectId w w')
    (hins : insertRow ((a.entry secret target now (maxCursor w.db target + 1)).toRow target) w'.db = some db) :
    AppendCommit projectId w' { w'.tick with db } := by
  refine ⟨?_, ?_⟩
  · show db.engine = w'.db.engine
    rw [(insertRow_eq_some.1 hins).2.2.2.2.1]
  · by_cases htarget : target = projectId
    · subst htarget
      exact .inr ⟨_, logOf target w.db, hbetween.prefix, rfl, logOf_insertRow hins⟩
    · exact .inl (logOf_insertRow_of_ne hins htarget)

theorem appendCommits_tick (w : World) : AppendCommits projectId w w.tick := .single ⟨rfl, .inl rfl⟩

section
variable [HmacSha256] (secret : Bytes) (a : Append) (target : String) (w : World)

/-- An append that nobody overlaps is one, too. -/
theorem appended_alone : AppendCommit projectId w ((a.alone secret target).exec w).2 := by
  unfold Append.alone
  rcases @exec_appendWithStatus_cases _ secret a.id target a.gatewayName a.agentName a.entryType a.content a.todoId w
    a.taskStatus a.validTo with h | ⟨db, hins, h⟩
  · rw [h]
    exact ⟨rfl, .inl rfl⟩
  · rw [h]
    exact appended_commit (w := w) (a := a) .refl hins

theorem logGrows_alone : LogGrows w ((a.alone secret target).exec w).2 := by
  unfold Append.alone
  rcases @exec_appendWithStatus_cases _ secret a.id target a.gatewayName a.agentName a.entryType a.content a.todoId w
    a.taskStatus a.validTo with h | ⟨db, hins, h⟩
  · rw [h]
    exact .inl rfl
  · rw [h]
    exact .inr ⟨_, db, hins, rfl⟩

end

/-- Cursors are counted up from 1. -/
theorem FromAppends.positive (h : FromAppends projectId w) {row : LogRow} (hrow : row ∈ logOf projectId w.db) :
    0 < row.cursor := by
  obtain ⟨w₀, hnone, hrun⟩ := h
  induction hrun generalizing row with
  | refl =>
    rw [hnone] at hrow
    cases hrow
  | @tail w₁ w₂ _ hstep ih =>
    rcases hstep.2 with hsame | ⟨new, seen, hseen, hcursor, hgrown⟩
    · rw [hsame] at hrow
      exact ih hrow
    · rw [hgrown] at hrow
      rcases List.mem_append.1 hrow with hrow | hrow
      · exact ih hrow
      · rw [List.mem_singleton.1 hrow, hcursor]
        rcases headCursorOf_cases seen with hzero | ⟨r, hr, hhead⟩
        · omega
        · have hpos := ih (hseen.subset hr)
          omega

theorem FromAppends.later (h : FromAppends projectId w) (hmore : AppendCommits projectId w w') : FromAppends projectId w' := by
  obtain ⟨w₀, hnone, hrun⟩ := h
  exact ⟨w₀, hnone, hrun.trans hmore⟩

end

/-! ## The two reads -/

section
variable {h : PeerHandler} {r : TaskLogSyncRequest} {resp : TaskLogSyncResponse} {w w' : World} {found : List World}
  {others : World → World → Prop}

theorem ends_fetch_iff {α : Type} {e : Err} {f : Db → Option α} {res : Except Err α} :
    Ends others (fetch e f) w found res w' ↔ ∃ w₁, others w w₁ ∧ found = [w₁] ∧ (fetch e f).exec w₁ = (res, w') :=
  Ends.prim_iff

theorem ends_authJwt {claims : PeerClaims} {jwt : String} : Ends others (h.authJwt jwt) w found (.ok claims) w' ↔
    others w w' ∧ found = [w'] ∧ h.auth.validateFor jwt h.gatewayName w'.now = .ok claims := by
  simp only [PeerHandler.authJwt, Prog.bind_eq, Ends.bind_ok_iff, Ends.look_iff]
  constructor
  · rintro ⟨now, _, _, _, ⟨hs, rfl, hnow⟩, hrest, rfl⟩
    cases hnow
    split at hrest
    · rename_i hvalid
      cases hrest
      exact ⟨hs, rfl, hvalid⟩
    · cases hrest
  · rintro ⟨hs, rfl, hvalid⟩
    refine ⟨_, _, _, [], ⟨hs, rfl, rfl⟩, ?_, rfl⟩
    rw [hvalid]
    exact .ret

theorem ends_since {projectId : String} {after : Int} {entries : List LogEntry} :
    Ends others ((since projectId after).mapErr PeerHandler.internal) w found (.ok entries) w' ↔
      ∃ w₁, others w w₁ ∧ found = [w₁] ∧ Passes w₁ ∧ (entries = (rowsSince w₁.db projectId after).map (·.toEntry) ∧
        (w₁.AsShipped → rowsSince w₁.db projectId after = [])) ∧ w' = w₁.tick := by
  rw [Ends.mapErr_iff]
  constructor
  · rintro ⟨res, hrun, hres⟩
    obtain ⟨w₁, hs, hfound, hexec⟩ := ends_fetch_iff.1 hrun
    cases res with
    | error e => cases hres
    | ok a =>
      cases hres
      exact ⟨w₁, hs, hfound, since_iff.1 hexec⟩
  · rintro ⟨w₁, hs, hfound, hexec⟩
    exact ⟨.ok entries, ends_fetch_iff.2 ⟨w₁, hs, hfound, since_iff.2 hexec⟩, rfl⟩

theorem ends_headCursor {projectId : String} {head : Option Int} :
    Ends others ((headCursor projectId).mapErr PeerHandler.internal).attempt w found (.ok head) w' ↔
      ∃ w₂, others w w₂ ∧ found = [w₂] ∧ head = headRead projectId w₂ ∧ w' = w₂.tick := by
  have hread : ∀ w₂, ∃ res, (headCursor projectId).exec w₂ = (res, w₂.tick) ∧
      (res.mapError PeerHandler.internal).toOption = headRead projectId w₂ := by
    intro w₂
    unfold headRead
    by_cases hpass : Passes w₂
    · rw [if_pos hpass]
      cases hd : w₂.db.engine.integers with
      | refused => exact ⟨_, headCursor_refused hd, by rw [Engine.decode_refused hd]; rfl⟩
      | widened => exact ⟨_, headCursor_iff.2 ⟨hpass, ⟨hd, rfl⟩, rfl⟩, by rw [Engine.decode_widened hd]; rfl⟩
    · exact ⟨_, exec_fetch_of_not_passes hpass, by rw [if_neg hpass]; rfl⟩
  simp only [Ends.attempt_iff, Ends.mapErr_iff]
  constructor
  · rintro ⟨_, ⟨res, hrun, rfl⟩, hhead⟩
    obtain ⟨w₂, hs, hfound, hexec⟩ := ends_fetch_iff.1 hrun
    obtain ⟨res', hexec', hsome⟩ := hread w₂
    cases hexec.symm.trans hexec'
    exact ⟨w₂, hs, hfound, (Except.ok.inj hhead).trans hsome, rfl⟩
  · rintro ⟨w₂, hs, hfound, rfl, rfl⟩
    obtain ⟨res, hexec, hsome⟩ := hread w₂
    exact ⟨_, ⟨res, ends_fetch_iff.2 ⟨w₂, hs, hfound, hexec⟩, rfl⟩, by rw [hsome]⟩

/-- The states that the three actions find, and the answer. -/
theorem ends_syncTaskLog : Ends others (h.syncTaskLog r) w found (.ok resp) w' ↔
    ∃ w₀ w₁ w₂ claims, found = [w₀, w₁, w₂] ∧ others w w₀ ∧ others w₀ w₁ ∧ others w₁.tick w₂ ∧
      h.auth.validateFor r.jwt h.gatewayName w₀.now = .ok claims ∧ Passes w₁ ∧
      (w₁.AsShipped → rowsSince w₁.db r.projectId r.afterCursor = []) ∧ w' = w₂.tick ∧
      resp = ⟨PeerHandler.logAnswer w₁.db r.projectId r.afterCursor, advertised r.projectId w₂, ""⟩ := by
  simp only [PeerHandler.syncTaskLog, Prog.bind_eq, Ends.bind_ok_iff, ends_authJwt, ends_since, ends_headCursor]
  constructor
  · rintro ⟨claims, _, w₀, _, ⟨hs₀, rfl, hvalid⟩, ⟨entries, _, _, _, ⟨w₁, hs₁, rfl, hpass, ⟨rfl, hnone⟩, rfl⟩,
      ⟨head, _, _, _, ⟨w₂, hs₂, rfl, rfl, rfl⟩, hret, rfl⟩, rfl⟩, rfl⟩
    cases hret
    refine ⟨w₀, w₁, w₂, claims, rfl, hs₀, hs₁, hs₂, hvalid, hpass, hnone, rfl, ?_⟩
    simp [PeerHandler.logAnswer, advertised]
  · rintro ⟨w₀, w₁, w₂, claims, rfl, hs₀, hs₁, hs₂, hvalid, hpass, hnone, rfl, rfl⟩
    refine ⟨claims, [w₀], w₀, [w₁, w₂], ⟨hs₀, rfl, hvalid⟩, ⟨_, [w₁], _, [w₂], ⟨w₁, hs₁, rfl, hpass, ⟨rfl, hnone⟩, rfl⟩,
      ⟨_, [w₂], _, [], ⟨w₂, hs₂, rfl, rfl, rfl⟩, ?_, rfl⟩, rfl⟩, rfl⟩
    have hanswer : PeerHandler.logAnswer w₁.db r.projectId r.afterCursor =
        ((rowsSince w₁.db r.projectId r.afterCursor).map (·.toEntry)).map (·.toProto) := by simp [PeerHandler.logAnswer]
    rw [hanswer]
    exact .ret

/-- As shipped there is nothing in an answer, and nothing below its head that could be. -/
theorem delta_shipped (hship : w.AsShipped) (hlog : FromAppends r.projectId w)
    (hrun : Ends (AppendCommits r.projectId) (h.syncTaskLog r) w found (.ok resp) w') :
    resp.entries = [] ∧ resp.headCursor = 0 ∧ ∀ w₃, AppendCommits r.projectId w' w₃ →
      CompleteToHead r resp w₃.db ∧ MissesNothing r resp w₃.db := by
  obtain ⟨w₀, w₁, w₂, claims, -, hs₀, hs₁, hs₂, -, -, hnone, rfl, rfl⟩ := ends_syncTaskLog.1 hrun
  have hbefore : AppendCommits r.projectId w w₁ := hs₀.trans hs₁
  have hafter : AppendCommits r.projectId w w₂ := (hbefore.trans (appendCommits_tick _)).trans hs₂
  have hhead : advertised r.projectId w₂ = 0 := by
    have hrefused : w₂.db.engine.integers = .refused := by
      rw [AppendCommits.engine hafter]
      exact hship
    rw [advertised, headRead, Engine.decode_refused hrefused, ite_self, Option.getD_none]
  have hentries : PeerHandler.logAnswer w₁.db r.projectId r.afterCursor = [] := by
    have hrefused : w₁.AsShipped := by
      rw [World.AsShipped, AppendCommits.engine hbefore]
      exact hship
    rw [PeerHandler.logAnswer, hnone hrefused, List.map_nil]
  refine ⟨hentries, hhead, fun w₃ hlater => ?_⟩
  have hpositive : ∀ row ∈ logOf r.projectId w₃.db, 0 < row.cursor := fun row hrow =>
    (hlog.later ((hafter.trans (appendCommits_tick _)).trans hlater)).positive hrow
  constructor
  · intro row hrow _ hle
    have hpos := hpositive row hrow
    rw [show (TaskLogSyncResponse.headCursor _) = advertised r.projectId w₂ from rfl, hhead] at hle
    omega
  · intro row hrow _
    refine .inr (List.mem_map_of_mem (mem_rowsSince_iff.2 ⟨hrow, ?_⟩))
    rw [show (TaskLogSyncResponse.headCursor _) = advertised r.projectId w₂ from rfl, hhead]
    exact hpositive row hrow

theorem LogCommits.mem (hcommits : LogCommits w w') {projectId : String} {row : LogRow} (hrow : row ∈ logOf projectId w.db) :
    row ∈ logOf projectId w'.db := by
  induction hcommits with
  | refl => exact hrow
  | tail _ hstep ih =>
    rcases hstep.logOf projectId with hsame | ⟨_, -, -, hrows⟩
    · rw [hsame]
      exact ih
    · rw [hrows]
      exact List.mem_append_left _ ih

/-- What an earlier answer has of an entry. -/
theorem mem_earlier_answer {projectId : String} {after : Int} {row : LogRow} (hcommits : LogCommits w w')
    (hrow : row ∈ logOf projectId w'.db) :
    row.toEntry.toProto ∈ PeerHandler.logAnswer w.db projectId after ↔ row ∈ logOf projectId w.db ∧ after < row.cursor := by
  unfold PeerHandler.logAnswer
  rw [List.mem_map]
  constructor
  · rintro ⟨other, hother, hsame⟩
    obtain ⟨hmem, hproject, hafter⟩ := mem_rowsSince.1 hother
    have hlog : other ∈ logOf projectId w.db := mem_logOf.2 ⟨hmem, hproject⟩
    have hid : other.id = row.id := congrArg ProtoLogEntry.id hsame
    have heq : other = row := Table.eq_of_clash _ (mem_logOf.1 (LogCommits.mem hcommits hlog)).1 (mem_logOf.1 hrow).1
      (beq_iff_eq.2 hid)
    subst heq
    exact ⟨hlog, hafter⟩
  · rintro ⟨hlog, hafter⟩
    exact ⟨row, mem_rowsSince.2 ⟨(mem_logOf.1 hlog).1, (mem_logOf.1 hlog).2, hafter⟩, rfl⟩

/-- At any later time the answer is complete up to its head, and its reader misses nothing, if and only if no entry
in its range has been committed since its entries were read. -/
theorem delta_iff (hrun : Ends LogCommits (h.syncTaskLog r) w found (.ok resp) w') :
    ∃ w₀ w₁ w₂, found = [w₀, w₁, w₂] ∧ ∀ w₃, LogCommits w₂ w₃ →
      (CompleteToHead r resp w₃.db ↔ NoneBelowHead r (advertised r.projectId w₂) w₁.db w₃.db) ∧
        (MissesNothing r resp w₃.db ↔ NoneBelowHead r (advertised r.projectId w₂) w₁.db w₃.db) := by
  obtain ⟨w₀, w₁, w₂, claims, hfound, -, -, hbetween, -, -, -, -, rfl⟩ := ends_syncTaskLog.1 hrun
  refine ⟨w₀, w₁, w₂, hfound, fun w₃ hlater => ?_⟩
  have hcommits : LogCommits w₁.tick w₃ := hbetween.trans hlater
  have hanswered : ∀ row ∈ logOf r.projectId w₃.db, row.toEntry.toProto ∈ PeerHandler.logAnswer w₁.db r.projectId r.afterCursor ↔
      row ∈ logOf r.projectId w₁.db ∧ r.afterCursor < row.cursor := fun row hrow =>
    mem_earlier_answer (w := w₁.tick) hcommits hrow
  have hcomplete : CompleteToHead r ⟨PeerHandler.logAnswer w₁.db r.projectId r.afterCursor, advertised r.projectId w₂, ""⟩ w₃.db ↔
      NoneBelowHead r (advertised r.projectId w₂) w₁.db w₃.db := by
    constructor
    · intro hall row hrow hnew
      by_contra hrange
      obtain ⟨hafter, hhead⟩ := not_or.1 hrange
      exact hnew ((hanswered row hrow).1 (hall row hrow (Int.not_le.1 hafter) (Int.not_lt.1 hhead))).1
    · intro hnone row hrow hafter hhead
      refine (hanswered row hrow).2 ⟨?_, hafter⟩
      by_contra hnew
      rcases hnone row hrow hnew with hle | hlt
      · omega
      · exact absurd hlt (Int.not_lt.2 hhead)
  refine ⟨hcomplete, ?_⟩
  rw [← hcomplete]
  have hnext : ∀ row ∈ logOf r.projectId w₃.db,
      row.toEntry.toProto ∈ PeerHandler.logAnswer w₃.db r.projectId (advertised r.projectId w₂) ↔
        advertised r.projectId w₂ < row.cursor := fun row hrow =>
    (mem_earlier_answer .refl hrow).trans (and_iff_right hrow)
  constructor
  · intro hall row hrow hafter hhead
    exact (hall row hrow hafter).resolve_right fun hlater => absurd ((hnext row hrow).1 hlater) (Int.not_lt.2 hhead)
  · intro hall row hrow hafter
    by_cases hhead : row.cursor ≤ advertised r.projectId w₂
    · exact .inl (hall row hrow hafter hhead)
    · exact .inr ((hnext row hrow).2 (Int.not_le.1 hhead))

/-- **As shipped, whatever is appended before, between and after the two reads, the answer is complete up to its head
and its reader misses nothing. With any decoding and any commits it is, at any later time, if and only if no entry in
its range has been committed since its entries were read.** -/
theorem delta_complete (h : PeerHandler) (r : TaskLogSyncRequest) (resp : TaskLogSyncResponse) (w w' : World)
    (found : List World) :
    (w.AsShipped → FromAppends r.projectId w → Ends (AppendCommits r.projectId) (h.syncTaskLog r) w found (.ok resp) w' →
      resp.entries = [] ∧ resp.headCursor = 0 ∧ ∀ w₃, AppendCommits r.projectId w' w₃ →
        CompleteToHead r resp w₃.db ∧ MissesNothing r resp w₃.db) ∧
    (Ends LogCommits (h.syncTaskLog r) w found (.ok resp) w' → ∃ w₀ w₁ w₂, found = [w₀, w₁, w₂] ∧ ∀ w₃, LogCommits w₂ w₃ →
      (CompleteToHead r resp w₃.db ↔ NoneBelowHead r (advertised r.projectId w₂) w₁.db w₃.db) ∧
        (MissesNothing r resp w₃.db ↔ NoneBelowHead r (advertised r.projectId w₂) w₁.db w₃.db)) :=
  ⟨delta_shipped, delta_iff⟩

end

namespace DemoDelta

def request : TaskLogSyncRequest := ⟨"p", 0, "token"⟩

def before (engine : Engine) : World := (DemoAppends.state engine).1

section
variable [HmacSha256] {engine : Engine}

/-- An append has been committed. -/
def after (engine : Engine) : World := ((DemoAppends.noteA.alone DemoAppends.secret "p").exec (before engine)).2

omit [HmacSha256] in
theorem valid : demoHandler.auth.validateFor request.jwt demoHandler.gatewayName (before engine).now =
    .ok ⟨"gw-b", "gw-a", 4600, 1000, "sync"⟩ := by
  show demoHandler.auth.validateFor request.jwt demoHandler.gatewayName (.fin 1000) = _
  decide +kernel

omit [HmacSha256] in
/-- The two reads find these states. -/
theorem run {others : World → World → Prop} {w₁ w₂ : World} (hrefl : others (before engine) (before engine))
    (hbefore : others (before engine) w₁) (hbetween : others w₁.tick w₂) (hpass : Passes w₁)
    (hnone : w₁.AsShipped → rowsSince w₁.db "p" 0 = []) :
    Ends others (demoHandler.syncTaskLog request) (before engine) [before engine, w₁, w₂]
      (.ok ⟨PeerHandler.logAnswer w₁.db "p" 0, advertised "p" w₂, ""⟩) w₂.tick :=
  ends_syncTaskLog.2 ⟨_, _, _, _, rfl, hrefl, hbefore, hbetween, valid, hpass, hnone, rfl, rfl⟩

end

-- With the cursors decoded an append between the reads leaves the answer with the head 1 and no entry.
example : letI := DemoAppends.hmac
    PeerHandler.logAnswer (before .widening).db "p" 0 = [] ∧ advertised "p" (after .widening) = 1 ∧
      (logOf "p" (after .widening).db).map (·.cursor) = [1] := by
  decide +kernel

end DemoDelta

open DemoDelta in
/-- As shipped the append comes between the reads. With the cursors decoded it comes before both. -/
theorem delta_complete_demo : letI := DemoAppends.hmac
    ((logOf "p" (after .shipped).db).map (·.cursor) = [1] ∧
      CompleteToHead request ⟨[], 0, ""⟩ (after .shipped).db ∧ MissesNothing request ⟨[], 0, ""⟩ (after .shipped).db) ∧
    (logOf "p" (after .widening).db).map (·.cursor) = [1] ∧
      CompleteToHead request ⟨PeerHandler.logAnswer (after .widening).db "p" 0, 1, ""⟩ (after .widening).db ∧
      MissesNothing request ⟨PeerHandler.logAnswer (after .widening).db "p" 0, 1, ""⟩ (after .widening).db := by
  let := DemoAppends.hmac
  refine ⟨⟨by decide +kernel, ?_⟩, by decide +kernel, ?_⟩
  · have hempty : PeerHandler.logAnswer (before .shipped).db "p" 0 = [] := by decide +kernel
    have hhead : advertised "p" (after .shipped) = 0 := by decide +kernel
    have hquiet : Passes (before .shipped) := by decide +kernel
    have hrows : rowsSince (before .shipped).db "p" 0 = [] := by decide +kernel
    have hbetween : AppendCommits "p" (before .shipped).tick (after .shipped) := by
      rw [World.tick_of_calm (by decide +kernel)]
      exact .single (appended_alone _ _ _ _)
    have hrun := run .refl .refl hbetween hquiet fun _ => hrows
    rw [hempty, hhead] at hrun
    have hstart : FromAppends request.projectId (before .shipped) := ⟨_, by decide +kernel, .refl⟩
    obtain ⟨-, -, hall⟩ := (delta_complete _ _ _ (before .shipped) _ _).1 rfl hstart hrun
    exact hall _ .refl
  · have hquiet : LogCommits (after .widening).tick (after .widening) := by
      rw [World.tick_of_calm (by decide +kernel)]
    have hhead : advertised "p" (after .widening) = 1 := by decide +kernel
    have hgrows : LogCommits (before .widening) (after .widening) := .single (logGrows_alone _ _ _ _)
    have hrun := run .refl hgrows hquiet (by decide +kernel) fun h => absurd h (by decide +kernel)
    rw [hhead] at hrun
    obtain ⟨w₀, w₁, w₂, hfound, hiff⟩ := (delta_complete _ _ _ _ _ _).2 hrun
    cases hfound
    have hnone : ∀ head, NoneBelowHead request head (after .widening).db (after .widening).db := fun _ row hrow hnew =>
      absurd hrow hnew
    exact ⟨(hiff (after .widening) .refl).1.2 (hnone _), (hiff (after .widening) .refl).2.2 (hnone _)⟩

end A2AGateway
