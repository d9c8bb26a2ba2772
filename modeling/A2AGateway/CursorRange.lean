import A2AGateway.CursorPolling
import A2AGateway.Lib.Logged

/-!
# The range of the cursors

`task_log.cursor` is an `INTEGER`, and an append takes the cursor after the highest there is. What is appended
here is never far up: the n-th row has a cursor of at most n. As shipped a round inserts no row, and the cursor of
every append fits, up to 2^31 - 1 rows. With the columns decoded a row that a round inserts has the cursor the peer
gave it, which the signature does not cover: one entry with the cursor 2^31 - 1, and no append to the project goes
in any more. The cursors then fit in exactly the runs in which no round inserts a row with a cursor above the number
of rows (`cursors_fit`).
-/

namespace A2AGateway

open Gw TaskLog PeerSync

/-! ## The writers -/

/-- One action of a round: the log before and after it. -/
abbrev Insertion := Prog.Event Unit (List LogRow) Err Unit

/-- The gateway, with a list of what the rounds have done. -/
abbrev Stored := World × List Insertion

def Stored.gateway : Prog.Focus Stored World where
  get s := s.1
  set w s := (w, s.2)
  get_set _ _ := rfl
  set_get _ := rfl
  set_set _ _ _ := rfl

/-- What the action adds to the log has a cursor of at most the number of rows. -/
def Ranked (e : Insertion) : Prop := ∀ r ∈ e.after, r ∈ e.before ∨ r.cursor ≤ e.after.length

/-- Everything that has been added. -/
def AllRanked (s : Stored) : Prop := ∀ e ∈ s.2, Ranked e

section
variable [HmacSha256] [Sha256] (projectId : String)

/-- A round with any peer, which answers as it likes, for any of its projects; or an append, to any project,
whose statement others may overlap. -/
inductive LogWriter (s : Stored) : Prog Stored Err Unit → Prop
  | round (auth : JwtAuth) (peer : PeerConfig) (answers : Answers) (remote : RemoteProject) (secret : Bytes) :
      LogWriter s ((syncProject .whole ⟨.answering answers, auth, peer.name⟩ peer remote secret).traced () fun w =>
        logOf projectId w.db)
  | append (secret : Bytes) (a : Append) (target : String) :
      LogWriter s (((a.prog secret target s.1.now).bind fun _ => .ret ()).within Stored.gateway)

omit [HmacSha256] [Sha256] in
/-- The rest of the gateway leaves this log alone. -/
def KeepsLog (s s' : Stored) : Prop :=
  logOf projectId s'.1.db = logOf projectId s.1.db ∧ s'.1.db.engine = s.1.db.engine ∧ s'.2 = s.2

omit [HmacSha256] [Sha256] in
/-- Nothing has been written yet. -/
def Unwritten (s : Stored) : Prop := logOf projectId s.1.db = [] ∧ s.2 = []

omit [Sha256] in
/-- The next cursor fits into its column, and the row of an append that is otherwise in order goes in. The call returns
it where the cursor can be read. -/
def Appendable (w : World) : Prop :=
  fitsInteger (maxCursor w.db projectId + 1) = true ∧ ∀ (secret : Bytes) (a : Append), Passes w →
    w.db.hasProject projectId = true → w.db.hasTodo a.todoId = true → (∀ r ∈ w.db.taskLog.rows, r.id ≠ a.id.text) →
      (∃ row : LogRow, row.id = a.id.text ∧ row.cursor = maxCursor w.db projectId + 1 ∧
        logOf projectId ((a.alone secret projectId).exec w).2.db = logOf projectId w.db ++ [row]) ∧
      (w.db.engine.integers = .widened → ∃ entry, ((a.alone secret projectId).exec w).1 = .ok entry)

omit [Sha256] in
/-- More is appended, to whatever project, or something happens that does not concern this log. -/
inductive Fills : World → World → Prop
  | append {w : World} (secret : Bytes) (a : Append) (target : String) :
      Fills w ((a.alone secret target).exec w).2
  | elsewhere {w w' : World} : logOf projectId w'.db = logOf projectId w.db → Fills w w'

omit [Sha256] in
/-- Appends go in until the log has 2^31 - 1 rows. -/
def Fillable (w : World) : Prop := ∀ w', Relation.ReflTransGen (Fills projectId) w w' →
  (logOf projectId w'.db).length < 2 ^ 31 - 1 → Appendable projectId w'

end

/-! ## Cursors and rows -/

/-- Every cursor is one that its column can hold. -/
def InRange (rows : List LogRow) : Prop := ∀ r ∈ rows, fitsInteger r.cursor = true

/-- There are as many rows as the highest cursor says, or more. -/
def WithinLength (rows : List LogRow) : Prop := ∀ r ∈ rows, r.cursor ≤ rows.length

section
variable {rows : List LogRow} {row : LogRow}

theorem InRange.append (h : InRange rows) (hrow : fitsInteger row.cursor = true) : InRange (rows ++ [row]) := by
  intro r hr
  rcases List.mem_append.1 hr with hr | hr
  · exact h r hr
  · rw [List.mem_singleton.1 hr]
    exact hrow

theorem WithinLength.append (h : WithinLength rows) (hrow : row.cursor ≤ rows.length + 1) : WithinLength (rows ++ [row]) := by
  intro r hr
  rw [List.length_append, List.length_singleton]
  rcases List.mem_append.1 hr with hr | hr
  · have hle := h r hr
    omega
  · rw [List.mem_singleton.1 hr]
    omega

/-- The head is 0 or the cursor of a row. -/
theorem headCursorOf_cases (rows : List LogRow) : headCursorOf rows = 0 ∨ ∃ r ∈ rows, headCursorOf rows = r.cursor := by
  unfold headCursorOf
  cases hmax : (rows.map (·.cursor)).max? with
  | none => exact .inl rfl
  | some m =>
    obtain ⟨r, hr, hcursor⟩ := List.mem_map.1 (List.max?_eq_some_iff.1 hmax).1
    exact .inr ⟨r, hr, hcursor.symm⟩

theorem WithinLength.head (h : WithinLength rows) : headCursorOf rows ≤ rows.length := by
  rcases headCursorOf_cases rows with hzero | ⟨r, hr, hcursor⟩
  · omega
  · rw [hcursor]
    exact h r hr

theorem InRange.head (h : InRange rows) : -2 ^ 31 ≤ headCursorOf rows ∧ headCursorOf rows < 2 ^ 31 := by
  rcases headCursorOf_cases rows with hzero | ⟨r, hr, hcursor⟩
  · rw [hzero]
    decide
  · rw [hcursor]
    exact fitsInteger_iff.1 (h r hr)

/-- The next cursor fits as long as there are fewer rows than cursors. -/
theorem fits_next (hrange : InRange rows) (hlength : WithinLength rows) (hfew : rows.length < 2 ^ 31 - 1) :
    fitsInteger (headCursorOf rows + 1) = true := by
  have hlow := hrange.head.1
  have hhead := hlength.head
  exact fitsInteger_iff.2 ⟨by omega, by omega⟩

end

/-! ## Every run -/

/-- The log only grows, and as long as `K` holds, all its rows are within its length. -/
def ranking (projectId : String) (I K : Stored → Prop) : Discipline Stored where
  inv s := I s ∧ InRange (logOf projectId s.1.db) ∧ (K s → WithinLength (logOf projectId s.1.db))
  step s s' := (K s' → K s) ∧ (logOf projectId s.1.db).length ≤ (logOf projectId s'.1.db).length
  refl _ := ⟨id, Nat.le_refl _⟩
  trans _ _ _ h h' := ⟨h.1 ∘ h'.1, h.2.trans h'.2⟩

section
variable {projectId : String} {I K : Stored → Prop} {s s' : Stored}

/-- The log is as it was. -/
theorem ranking_same (hi : (ranking projectId I K).inv s) (hI : I s') (hK : K s' → K s)
    (hlog : logOf projectId s'.1.db = logOf projectId s.1.db) :
    (ranking projectId I K).step s s' ∧ (ranking projectId I K).inv s' := by
  refine ⟨⟨hK, by rw [hlog]⟩, hI, by rw [hlog]; exact hi.2.1, fun hk => ?_⟩
  rw [hlog]
  exact hi.2.2 (hK hk)

/-- A row is added. -/
theorem ranking_row (hi : (ranking projectId I K).inv s) (hI : I s') (hK : K s' → K s) {row : LogRow}
    (hfits : fitsInteger row.cursor = true) (hlog : logOf projectId s'.1.db = logOf projectId s.1.db ++ [row])
    (hrow : K s' → row.cursor ≤ (logOf projectId s.1.db).length + 1) :
    (ranking projectId I K).step s s' ∧ (ranking projectId I K).inv s' := by
  refine ⟨⟨hK, by rw [hlog]; simp⟩, hI, by rw [hlog]; exact hi.2.1.append hfits, fun hk => ?_⟩
  rw [hlog]
  exact (hi.2.2 (hK hk)).append (hrow hk)

/-- An action of a round. -/
theorem ranking_action (hi : (ranking projectId (fun _ => True) AllRanked).inv s) (hgrows : LogGrows s.1 s'.1)
    {result : Option (Except Err Unit)}
    (htrace : s'.2 = s.2 ++ [⟨(), logOf projectId s.1.db, logOf projectId s'.1.db, result⟩]) :
    (ranking projectId (fun _ => True) AllRanked).step s s' ∧ (ranking projectId (fun _ => True) AllRanked).inv s' := by
  have hdone : AllRanked s' → AllRanked s := by
    intro hall e he
    refine hall e ?_
    rw [htrace]
    exact List.mem_append_left _ he
  rcases hgrows.logOf projectId with hsame | ⟨row, hfits, hnew, hgrown⟩
  · exact ranking_same hi trivial hdone hsame
  · refine ranking_row hi trivial hdone hfits hgrown fun hall => ?_
    have hranked := hall ⟨(), logOf projectId s.1.db, logOf projectId s'.1.db, result⟩ (by rw [htrace]; simp) row
    simp only [hgrown, List.length_append, List.length_singleton] at hranked
    -- Its id is new, so the row was not there before.
    have hthere : row ∉ logOf projectId s.1.db := fun hold => hnew row (mem_logOf.1 hold).1 rfl
    have hle := (hranked (List.mem_append_right _ (List.mem_singleton.2 rfl))).resolve_left hthere
    omega

/-- A cursor that an append has computed is still within the length of the log when it commits. -/
def NextOf (target projectId : String) (K : Stored → Prop) (cursor : Int) (s : Stored) : Prop :=
  target = projectId → K s → cursor ≤ (logOf projectId s.1.db).length + 1

theorem NextOf.stable {target : String} {cursor : Int} (h : NextOf target projectId K cursor s)
    (hstep : (ranking projectId I K).step s s') : NextOf target projectId K cursor s' := by
  intro htarget hk
  have hle := h htarget (hstep.1 hk)
  have hmore := hstep.2
  omega

variable [HmacSha256]

/-- An append changes neither what is read how nor what is written down. -/
theorem obeys_append (hI : ∀ s w, I s → w.db.engine = s.1.db.engine → I (w, s.2)) (hK : ∀ s w, K (w, s.2) → K s)
    (secret : Bytes) (a : Append) (target : String) (now : F64) :
    (((a.prog secret target now).bind fun _ => .ret ()).within Stored.gateway).Obeys (ranking projectId I K)
      (fun _ _ => True) s := by
  simp only [Append.prog, Prog.bind_eq, Prog.pure_eq, Prog.bind_assoc, Prog.within_bind, Prog.within_look]
  refine Prog.Obeys.bind (Q := fun r s' => ∀ cursor, r = .ok cursor → NextOf target projectId K cursor s')
    (.look fun s₁ _ hi cursor hcursor htarget hk => ?_) (fun cursor s₁ hnext => ?_) fun _ _ _ => trivial
  · cases hcursor
    subst htarget
    have hhead := (hi.2.2 hk).head
    rw [← maxCursor_eq] at hhead
    show maxCursor s₁.1.db target + 1 ≤ _
    omega
  · obtain ⟨F, hprim, hF⟩ := insertReturning_prim (.msg "insert log entry") fun _ db =>
      (insertRow ((a.entry secret target now cursor).toRow target) db).map (cursor, ·)
    rw [hprim, Prog.within_prim]
    refine Prog.Obeys.bind (Q := fun _ _ => True) (.prim fun s₂ hstep hi => ⟨?_, trivial⟩) (fun _ _ _ => trivial)
      fun _ _ _ => trivial
    have hnext₂ := (hnext cursor rfl).stable hstep
    show (ranking projectId I K).step s₂ ((F s₂.1).2, s₂.2) ∧ (ranking projectId I K).inv ((F s₂.1).2, s₂.2)
    rcases hF s₂.1 with hfail | ⟨_, db, hrow, hdone⟩
    · rw [hfail]
      exact ranking_same hi (hI _ _ hi.1 rfl) (hK _ _) rfl
    · obtain ⟨_, hins, hpair⟩ := Option.map_eq_some_iff.1 hrow
      cases hpair
      have hengine : db.engine = s₂.1.db.engine := by rw [(insertRow_eq_some.1 hins).2.2.2.2.1]
      have hfits : fitsInteger cursor = true := (insertRow_eq_some.1 hins).1
      rw [hdone]
      by_cases htarget : target = projectId
      · subst htarget
        refine @ranking_row _ _ _ _ _ hi (hI _ _ hi.1 hengine) (hK _ _) ((a.entry secret target now cursor).toRow target) hfits
          (logOf_insertRow hins) fun hk => ?_
        exact hnext₂ rfl (hK _ _ hk)
      · exact ranking_same hi (hI _ _ hi.1 hengine) (hK _ _) (logOf_insertRow_of_ne hins htarget)

variable [Sha256]

/-- What a round does to the log, and what it writes down. -/
theorem moves_round (auth : JwtAuth) (peer : PeerConfig) (answers : Answers) (remote : RemoteProject) (secret : Bytes) :
    ((syncProject .whole ⟨.answering answers, auth, peer.name⟩ peer remote secret).traced () fun w => logOf projectId w.db).Moves
      fun s s' : Stored => LogGrows s.1 s'.1 ∧
        ∃ result, s'.2 = s.2 ++ [⟨(), logOf projectId s.1.db, logOf projectId s'.1.db, result⟩] :=
  @Prog.Moves.traced _ _ _ _ _ () (fun w : World => logOf projectId w.db) _ _
    (moves_syncProject_grows (fun _ => .inl rfl) whole_of auth peer answers remote secret)

theorem LogWriter.obeys {p : Prog Stored Err Unit} (h : LogWriter projectId s p) :
    p.Obeys (ranking projectId (fun _ => True) AllRanked) (fun _ _ => True) s := by
  cases h with
  | round auth peer answers remote secret =>
    have hkeeps := (moves_round auth peer answers remote secret).mono fun s s' ⟨hgrows, result, htrace⟩ hi =>
      @ranking_action projectId s s' hi hgrows result htrace
    exact (Prog.Moves.obeys hkeeps (Discipline.refl _ s)).post fun _ _ _ => trivial
  | append secret a target => exact obeys_append (fun _ _ _ _ => trivial) (fun _ _ => id) secret a target s.1.now

/-- As shipped every row is within the length of the log. -/
abbrev shippedRanking (projectId : String) : Discipline Stored := ranking projectId (fun s => s.1.AsShipped) fun _ => True

theorem LogWriter.obeys_shipped {p : Prog Stored Err Unit} (h : LogWriter projectId s p) :
    p.Obeys (shippedRanking projectId) (fun _ _ => True) s := by
  cases h with
  | round auth peer answers remote secret =>
    have hround : (syncProject .whole ⟨.answering answers, auth, peer.name⟩ peer remote secret).Upholds
        (fun w => (shippedRanking projectId).inv (w, [])) fun _ => True := by
      refine upholds_syncProject_shipped (fun _ hs => hs.1) (fun w w' hs hobjects => ?_) (moves_answering answers)
      refine (ranking_same hs ((ShippedWrites.of_objects hobjects).asShipped hs.1) id ?_).2
      show logOf projectId w'.db = logOf projectId w.db
      rw [hobjects.1]
      rfl
    refine hround.traced.obeys_along ((moves_round auth peer answers remote secret).mono ?_) s
    rintro s s' ⟨hgrows, -⟩
    refine ⟨fun _ => trivial, ?_⟩
    rcases hgrows.logOf projectId with hsame | ⟨row, -, -, hgrown⟩
    · rw [hsame]
    · simp [hgrown]
  | append secret a target =>
    refine obeys_append (fun s w hs hengine => ?_) (fun _ _ => id) secret a target s.1.now
    show w.db.engine.integers = .refused
    rw [hengine]
    exact hs

/-- A round writes down what it has done, an append does not. -/
theorem LogWriter.moves {p : Prog Stored Err Unit} (h : LogWriter projectId s p) :
    p.Moves fun s s' => s'.2 = s.2 ∨ ∃ e, s'.2 = s.2 ++ [e] ∧ e.after = logOf projectId s'.1.db := by
  cases h with
  | round auth peer answers remote secret =>
    exact (moves_round auth peer answers remote secret).mono fun s s' ⟨_, result, htrace⟩ => .inr ⟨_, htrace, rfl⟩
  | append secret a target => exact Prog.moves_within (fun _ _ => .inl rfl) _

end

/-! ## More and more appends -/

section
variable [HmacSha256] {projectId : String} {w w' : World}

/-- Where nothing keeps the row out, it goes in, and the call returns it if its cursor can be read. -/
theorem exec_alone_of_passes {secret : Bytes} {a : Append} {db : Db} (hpasses : Passes w)
    (hins : insertRow (statusRow secret a.id projectId a.gatewayName a.agentName a.entryType a.content a.todoId a.taskStatus
      a.validTo w.now w.db) w.db = some db) :
    ((a.alone secret projectId).exec w).2 = { w.tick with db } ∧
      (w.db.engine.integers = .widened → ∃ entry, ((a.alone secret projectId).exec w).1 = .ok entry) := by
  have hstatement := exec_insertReturning_of_passes (e := .msg "insert log entry")
    (f := fun _ db => (insertRow (statusRow secret a.id projectId a.gatewayName a.agentName a.entryType a.content a.todoId
      a.taskStatus a.validTo w.now db) db).map (maxCursor db projectId + 1, ·)) hpasses (Option.map_eq_some_iff.2 ⟨db, hins, rfl⟩)
  simp only [Append.alone, appendWithStatus, nowSecs, Prog.bind_eq]
  rw [Prog.exec_bind_of_ok (Prog.exec_look _ w)]
  cases hd : w.db.engine.integers with
  | refused =>
    rw [Engine.decode_refused hd] at hstatement
    refine ⟨congrArg Prod.snd (Prog.exec_bind_of_error hstatement), fun hwide => ?_⟩
    cases hwide
  | widened =>
    rw [Engine.decode_widened hd] at hstatement
    exact ⟨congrArg Prod.snd (Prog.exec_bind_of_ok hstatement), fun _ => ⟨_, congrArg Prod.fst (Prog.exec_bind_of_ok hstatement)⟩⟩

/-- Nothing but the column type depends on the cursor. -/
theorem appendable_of_fits (hfits : fitsInteger (maxCursor w.db projectId + 1) = true) : Appendable projectId w := by
  refine ⟨hfits, fun secret a hpasses hproject htodo hid => ?_⟩
  obtain ⟨db, hins⟩ := @insertRow_of_fresh w.db (statusRow secret a.id projectId a.gatewayName a.agentName a.entryType
    a.content a.todoId a.taskStatus a.validTo w.now w.db) hfits hproject htodo hid
  obtain ⟨hexec, hentry⟩ := exec_alone_of_passes hpasses hins
  refine ⟨⟨statusRow secret a.id projectId a.gatewayName a.agentName a.entryType a.content a.todoId a.taskStatus a.validTo
    w.now w.db, rfl, rfl, ?_⟩, hentry⟩
  rw [hexec]
  exact logOf_insertRow hins

/-- Whatever is appended, the rows stay within the length of the log. -/
theorem Fills.steady (h : Fills projectId w w') (hrange : InRange (logOf projectId w.db))
    (hlength : WithinLength (logOf projectId w.db)) :
    InRange (logOf projectId w'.db) ∧ WithinLength (logOf projectId w'.db) := by
  cases h with
  | append secret a target =>
    rcases @logOf_append_cases _ projectId secret a target w with hsame | ⟨row, hcursor, hfits, -, hgrown⟩
    · rw [hsame]
      exact ⟨hrange, hlength⟩
    · have hhead := hlength.head
      rw [hgrown]
      exact ⟨hrange.append hfits, hlength.append (by omega)⟩
  | elsewhere hlog =>
    rw [hlog]
    exact ⟨hrange, hlength⟩

/-- A log whose rows are within its length can be filled. -/
theorem fillable_of_withinLength (hrange : InRange (logOf projectId w.db)) (hlength : WithinLength (logOf projectId w.db)) :
    Fillable projectId w := by
  intro w' hfills hfew
  have hall : InRange (logOf projectId w'.db) ∧ WithinLength (logOf projectId w'.db) := by
    clear hfew
    induction hfills with
    | refl => exact ⟨hrange, hlength⟩
    | tail _ hstep ih => exact hstep.steady ih.1 ih.2
  exact appendable_of_fits (fits_next hall.1 hall.2 hfew)

/-- One append in a calm world. -/
theorem fills_once (hcalm : w.faults = []) (hproject : w.db.hasProject projectId = true)
    (hfits : fitsInteger (maxCursor w.db projectId + 1) = true) :
    ∃ w', Fills projectId w w' ∧ w'.faults = [] ∧ w'.db.hasProject projectId = true ∧
      maxCursor w'.db projectId = maxCursor w.db projectId + 1 ∧
      (logOf projectId w'.db).length = (logOf projectId w.db).length + 1 := by
  obtain ⟨id, hid⟩ := Uuid.exists_fresh (w.db.taskLog.rows.map (·.id))
  have hfresh : ∀ r ∈ w.db.taskLog.rows, r.id ≠ id.text := fun r hr h => hid (List.mem_map.2 ⟨r, hr, h⟩)
  let a : Append := ⟨id, "", "", .note, "", none, none, none⟩
  obtain ⟨db, hins⟩ := @insertRow_of_fresh w.db (statusRow [] a.id projectId a.gatewayName a.agentName a.entryType a.content
    a.todoId a.taskStatus a.validTo w.now w.db) hfits hproject rfl hfresh
  obtain ⟨hexec, -⟩ := exec_alone_of_passes (a := a) (by simp [Passes, hcalm]) hins
  have hgrown : logOf projectId db = logOf projectId w.db ++ [_] := logOf_insertRow hins
  refine ⟨{ w.tick with db }, ?_, World.tick_faults hcalm, ?_, ?_, ?_⟩
  · have hstep := @Fills.append _ projectId w [] a projectId
    rwa [hexec] at hstep
  · show db.hasProject projectId = true
    rw [(insertRow_eq_some.1 hins).2.2.2.2.1]
    exact hproject
  · show maxCursor db projectId = _
    rw [maxCursor_eq, hgrown, headCursorOf_append]
    · rfl
    · show headCursorOf (logOf projectId w.db) ≤ maxCursor w.db projectId + 1
      rw [maxCursor_eq]
      omega
  · show (logOf projectId db).length = _
    rw [hgrown, List.length_append]
    rfl

/-- Appends, one after the other, until the head is where it is wanted. -/
theorem fills_up : ∀ (k : Nat) {w : World}, w.faults = [] → w.db.hasProject projectId = true → -2 ^ 31 ≤ maxCursor w.db projectId →
    maxCursor w.db projectId + k < 2 ^ 31 → ∃ w', Relation.ReflTransGen (Fills projectId) w w' ∧
      maxCursor w'.db projectId = maxCursor w.db projectId + k ∧
      (logOf projectId w'.db).length = (logOf projectId w.db).length + k
  | 0, w, _, _, _, _ => ⟨w, .refl, by omega, rfl⟩
  | k + 1, w, hcalm, hproject, hlow, hhigh => by
    obtain ⟨w₁, hstep, hcalm₁, hproject₁, hhead₁, hlength₁⟩ := fills_once hcalm hproject (fitsInteger_iff.2 ⟨by omega, by omega⟩)
    obtain ⟨w₂, hrest, hhead₂, hlength₂⟩ := fills_up k hcalm₁ hproject₁ (by omega) (by omega)
    exact ⟨w₂, .head hstep hrest, by omega, by omega⟩

/-- Where a cursor is above the number of rows, appends reach the end of the range first. -/
theorem not_fillable {r : LogRow} (hrange : InRange (logOf projectId w.db)) (hr : r ∈ logOf projectId w.db)
    (habove : (logOf projectId w.db).length < r.cursor) : ¬ Fillable projectId w := by
  intro hfillable
  let projects : Table Project := ⟨[{ id := projectId, name := "" }], List.pairwise_singleton _ _⟩
  let start : World := { w.calm with db := { w.db with projects } }
  have hhead : r.cursor ≤ maxCursor start.db projectId := le_headCursorOf hr
  have hrangeHead : -2 ^ 31 ≤ maxCursor start.db projectId ∧ maxCursor start.db projectId < 2 ^ 31 := hrange.head
  have hproject : start.db.hasProject projectId = true := by simp [start, projects, Db.hasProject]
  -- So many appends that the head is the highest number there is.
  obtain ⟨w', hfills, hmax, hlength⟩ := @fills_up _ projectId (2 ^ 31 - 1 - maxCursor start.db projectId).toNat start rfl hproject
    hrangeHead.1 (by omega)
  have hrows : (logOf projectId start.db).length = (logOf projectId w.db).length := rfl
  have hstart : Fills projectId w start := .elsewhere rfl
  have happendable := hfillable w' (.head hstart hfills) (by omega)
  have hfits := fitsInteger_iff.1 happendable.1
  omega

end

section
variable [HmacSha256] [Sha256] {projectId : String} {c : Pool Stored Err}

omit [HmacSha256] [Sha256] in
theorem Unwritten.ranking {I K : Stored → Prop} {s : Stored} (h : Unwritten projectId s) (hI : I s) :
    (ranking projectId I K).inv s := by
  have hnone : logOf projectId s.1.db = [] := h.1
  refine ⟨hI, ?_, fun _ => ?_⟩
  · rw [hnone]
    simp [InRange]
  · rw [hnone]
    simp [WithinLength]

omit [HmacSha256] [Sha256] in
theorem KeepsLog.ranking {s s' : Stored} (h : KeepsLog projectId s s')
    (hi : (ranking projectId (fun _ => True) AllRanked).inv s) :
    (A2AGateway.ranking projectId (fun _ => True) AllRanked).step s s' ∧
      (A2AGateway.ranking projectId (fun _ => True) AllRanked).inv s' :=
  ranking_same hi trivial (by rw [AllRanked, h.2.2]; exact id) h.1

omit [HmacSha256] [Sha256] in
theorem KeepsLog.shipped {s s' : Stored} (h : KeepsLog projectId s s') (hi : (shippedRanking projectId).inv s) :
    (shippedRanking projectId).step s s' ∧ (shippedRanking projectId).inv s' := by
  refine ranking_same hi ?_ id h.1
  rw [World.AsShipped, h.2.1]
  exact hi.1

/-- The run so far, from an empty log. -/
abbrev LogRun (projectId : String) (init : Stored → Prop) (c : Pool Stored Err) : Prop :=
  Pool.Reachable (fun s => Unwritten projectId s ∧ init s) (LogWriter projectId) (KeepsLog projectId) c

theorem fillable_shipped (hc : LogRun projectId (fun s => s.1.AsShipped) c) : Fillable projectId c.state.1 := by
  have hi := (hc.good (D := shippedRanking projectId) (fun _ h => h.1.ranking h.2) (fun _ _ _ h => h.obeys_shipped)
    fun _ _ hi h => h.shipped hi).1
  exact fillable_of_withinLength hi.2.1 (hi.2.2 trivial)

theorem ranking_reachable (hc : LogRun projectId (fun _ => True) c) :
    (ranking projectId (fun _ => True) AllRanked).inv c.state :=
  (hc.good (fun _ h => h.1.ranking trivial) (fun _ _ _ h => h.obeys) fun _ _ hi h => h.ranking hi).1

/-- In every state of a run the next cursor fits, and goes on to fit until the log has 2^31 - 1 rows, if and only if
no row that a round has inserted in this run has a cursor above the number of rows. -/
theorem fillable_iff (hc : LogRun projectId (fun _ => True) c) :
    (∀ c₁, LogRun projectId (fun _ => True) c₁ →
        Relation.ReflTransGen (Pool.Step (LogWriter projectId) (KeepsLog projectId)) c₁ c → Fillable projectId c₁.state.1) ↔
      AllRanked c.state := by
  constructor
  · intro hfillable e he r hr
    obtain ⟨c₁, hreach, hto, hafter⟩ := hc.seen (fun w => logOf projectId w.db) (fun _ h => h.1.2)
      (fun _ _ h => h.moves) (fun _ _ h => h.2.2) e he
    rw [hafter] at hr ⊢
    by_contra hrange
    obtain ⟨-, habove⟩ := not_or.1 hrange
    exact not_fillable (ranking_reachable hreach).2.1 hr (Int.not_le.1 habove) (hfillable c₁ hreach hto)
  · intro hall c₁ hreach hto
    obtain ⟨-, hrange, hlength⟩ := ranking_reachable hreach
    have hdone : AllRanked c.state → AllRanked c₁.state :=
      (hreach.along hto (fun _ h => h.1.ranking trivial) (fun _ _ _ h => h.obeys) fun _ _ hi h => h.ranking hi).1
    exact fillable_of_withinLength hrange (hlength (hdone hall))

/-- **In every state of a run as shipped the next cursor fits, and goes on to fit until the log has 2^31 - 1 rows.
With any decoding it does if and only if no row that a round has inserted in this run has a cursor above the number of
rows.** -/
theorem cursors_fit (c : Pool Stored Err) :
    (LogRun projectId (fun s => s.1.AsShipped) c → Fillable projectId c.state.1) ∧
    (LogRun projectId (fun _ => True) c →
      ((∀ c₁, LogRun projectId (fun _ => True) c₁ →
        Relation.ReflTransGen (Pool.Step (LogWriter projectId) (KeepsLog projectId)) c₁ c → Fillable projectId c₁.state.1) ↔
      AllRanked c.state)) :=
  ⟨fillable_shipped, fillable_iff⟩

end

/-! ## One entry, and the log is full -/

namespace DemoRange

/-- `gw-a` answers from a log whose one entry has this cursor. -/
def answers (cursor : Int) : Answers where
  syncTaskLog r := .ok ⟨if r.afterCursor < cursor then [{ DemoPolling.entryA with cursor }] else [], cursor, ""⟩
  fetchSnapshot _ := .error ⟨.notFound, "no snapshot"⟩
  fetchObject _ _ := .error ⟨.notFound, "no object"⟩

section
variable [HmacSha256] [Sha256]

/-- `gw-b`, which has the project of `gw-a`. -/
def start (engine : Engine) : Stored := (demoNet demoSetup demoSetupB engine "gw-b", [])

/-- A round of `gw-b` against it. -/
def round (cursor : Int) : Prog Stored Err Unit :=
  (syncProject .whole ⟨.answering (answers cursor), demoB.auth, "gw-a"⟩ ⟨"gw-a"⟩ (demoListed "") demoB.secret).traced ()
    fun w => logOf demoIdB.text w.db

/-- The round is at its end. -/
def finished (engine : Engine) (cursor : Int) : Pool Stored Err :=
  Pool.schedule (List.replicate 11 0) ⟨start engine, [round cursor]⟩

/-- Nothing is under way, and the log has these cursors. -/
def Ended (cursors : List Int) (c : Pool Stored Err) : Prop :=
  (c.threads.all fun p => p.ended.isSome) = true ∧ (logOf demoIdB.text c.state.1.db).map (·.cursor) = cursors

instance (cursors : List Int) (c : Pool Stored Err) : Decidable (Ended cursors c) := inferInstanceAs (Decidable (_ ∧ _))

theorem writes_finished (init : Stored → Prop) {engine : Engine} (hstart : Unwritten demoIdB.text (start engine))
    (hinit : init (start engine)) (cursor : Int) : LogRun demoIdB.text init (finished engine cursor) :=
  ⟨_, ⟨hstart, hinit⟩, .head (.start (.round demoB.auth ⟨"gw-a"⟩ (answers cursor) (demoListed "") demoB.secret))
    (Pool.schedule_run _ _)⟩

end

instance (e : Insertion) : Decidable (Ranked e) :=
  inferInstanceAs (Decidable (∀ r ∈ e.after, r ∈ e.before ∨ r.cursor ≤ e.after.length))

instance (s : Stored) : Decidable (AllRanked s) := inferInstanceAs (Decidable (∀ e ∈ s.2, _))

theorem unwritten_start : letI := demoSha256; letI := demoLogHmac
    Unwritten demoIdB.text (start .widening) ∧ Unwritten demoIdB.text (start .shipped) ∧ (start .shipped).1.AsShipped := by
  refine ⟨⟨?_, rfl⟩, ⟨?_, rfl⟩, ?_⟩
  all_goals decide +kernel

theorem first : letI := demoSha256; letI := demoLogHmac
    Ended [1] (finished .widening 1) ∧ AllRanked (finished .widening 1).state := by
  decide +kernel

theorem refused : letI := demoSha256; letI := demoLogHmac
    Ended [] (finished .shipped 2147483647) := by
  decide +kernel

-- With the columns decoded the peer's entry, signed as it should be, goes in with the cursor 2^31 - 1, and no append
-- after it.
example : letI := demoSha256; letI := demoLogHmac
    Ended [2147483647] (finished .widening 2147483647) ∧
      ((DemoPolling.note.alone demoB.secret demoIdB.text).exec (finished .widening 2147483647).state.1).1 =
        .error (.msg "insert log entry") := by
  decide +kernel

end DemoRange

open DemoRange in
/-- As shipped the entry with the cursor 2^31 - 1 stays out; with the columns decoded an entry with the cursor 1
goes in. -/
theorem cursors_fit_demo : letI := demoSha256; letI := demoLogHmac
    (∃ c, Ended [] c ∧ c.state.1.db.engine = .shipped ∧ Fillable demoIdB.text c.state.1) ∧
      ∃ c, Ended [1] c ∧ c.state.1.db.engine = .widening ∧ Fillable demoIdB.text c.state.1 := by
  let := demoSha256
  let := demoLogHmac
  obtain ⟨hwidened, hstart, hshipped⟩ := unwritten_start
  obtain ⟨hone, hranked⟩ := first
  have hrefused := writes_finished (fun s => s.1.AsShipped) hstart hshipped 2147483647
  have hwrites := writes_finished (fun _ => True) hwidened trivial 1
  exact ⟨⟨_, refused, rfl, (cursors_fit _).1 hrefused⟩, _, hone, rfl, ((cursors_fit _).2 hwrites).2 hranked _ hwrites .refl⟩

end A2AGateway
