import A2AGateway.Onboarding

/-!
# The order of onboarding

The stored step is written by whichever call is made, never read: `answer` goes by the submitted
form, `context_ready` by nothing at all. A call keeps the order exactly when the step it writes is
the stored one or the next one, or when it ends before it writes (`call_moves_iff`); so does a
sequence of calls, and then a project is done only after a folder and a glob have been accepted
and stays done (`orderly_iff`). One form out of turn skips the folder (`glob_without_folder`). As shipped
a call that reads the project before it writes the step never writes it (`Call.Reaches`).
-/

namespace A2AGateway

open Gw

namespace Onboarding

/-! ## The steps -/

inductive Stage
  | awaitingFolder
  | awaitingFiles
  | buildingContext
  | awaitingUserInput
  | done
deriving DecidableEq

/-- The stage as `projects.onboarding_step` has it. -/
def Stage.column : Stage → Option String
  | .awaitingFolder => some "awaiting_folder"
  | .awaitingFiles => some "awaiting_files"
  | .buildingContext => some "building_context"
  | .awaitingUserInput => some "awaiting_user_input"
  | .done => none

def Stage.next : Stage → Option Stage
  | .awaitingFolder => some .awaitingFiles
  | .awaitingFiles => some .buildingContext
  | .buildingContext => some .awaitingUserInput
  | .awaitingUserInput => some .done
  | .done => none

theorem Stage.column_inj {s t : Stage} (h : s.column = t.column) : s = t := by
  revert h
  cases s <;> cases t <;> simp [column]

/-- The stored step stays the same or moves to its successor. -/
def StepMoves (o o' : Option (Option String)) : Prop :=
  o' = o ∨ ∃ s t : Stage, s.next = some t ∧ o = some s.column ∧ o' = some t.column

/-! ## The calls -/

/-- A call about a project. -/
inductive Call
  | start
  | answer (entryId : Uuid) (step value : String)
  | contextReady (summary : String)

section
variable [HmacSha256] (m : Manager) (id : String)

def Call.prog : Call → OnDesk Unit
  | .start => Onboarding.start m id
  | .answer entryId step value => Onboarding.answer m entryId id step value
  | .contextReady summary => Onboarding.contextReady m id summary

end

/-- The stage that a call writes. -/
def Call.writes : Call → Option Stage
  | .start => none
  | .answer _ step _ =>
    if step = "awaiting_folder" then some .awaitingFiles
    else if step = "awaiting_files" then some .buildingContext
    else if step = "awaiting_user_input" then some .done
    else none
  | .contextReady _ => some .awaitingUserInput

/-- The stored step of a project that is there. -/
def storedStep (id : String) (d : Desk) : Option (Option String) :=
  (Projects.byId d.world.db id).map (·.onboardingStep)

/-- Nothing from outside fails the next `n` operations. -/
def Clear : Nat → World → Prop
  | 0, _ => True
  | n + 1, w => Passes w ∧ Clear n w.tick

/-- The path is that of a directory. -/
def IsDirectory (w : World) (path : String) : Prop :=
  ∃ dir, w.canonical path = some dir ∧ (w.folders dir).isSome = true

section
variable [HmacSha256] (m : Manager) (id : String)

/-- The call gets as far as writing the step. -/
def Call.Reaches (d : Desk) : Call → Prop
  | .start => False
  | .answer entryId step value =>
    if step = "awaiting_folder" then
      if trim value = "" then
        Clear 5 d.world ∧ d.world.db.engine.integers = .widened ∧ ∃ p, Projects.byId d.world.db id = some p ∧
          IsDirectory d.world s!"data/projects/{p.name}"
      else Clear 4 d.world ∧ IsDirectory d.world (trim value)
    else if step = "awaiting_files" then Clear 2 d.world
    else if step = "awaiting_user_input" then
      trim value ≠ "" ∧ Clear 3 d.world ∧ d.world.db.engine.integers = .widened ∧
        ∃ db, TaskLog.insertRow (TaskLog.appendRow m.secret entryId id m.gatewayName
          "user" .focus value none d.world.now d.world.db) d.world.db = some db
    else False
  | .contextReady _ => Clear 1 d.world

end

/-! ## What leaves a column of the project alone -/

section
variable {β : Type} {g : Project → β} {id : String}

/-- The column `g` of the project is as before, and columns are decoded as before. -/
def SameColumn (g : Project → β) (id : String) (w w' : World) : Prop :=
  (Projects.byId w'.db id).map g = (Projects.byId w.db id).map g ∧ w'.db.engine = w.db.engine

theorem SameColumn.refl (w : World) : SameColumn g id w w := ⟨rfl, rfl⟩

theorem SameColumn.tick (w : World) : SameColumn g id w w.tick := ⟨rfl, rfl⟩

def SameOnDesk (g : Project → β) (id : String) (d d' : Desk) : Prop := SameColumn g id d.world d'.world

theorem SameOnDesk.trans {a b c : Desk} (h : SameOnDesk g id a b) (h' : SameOnDesk g id b c) : SameOnDesk g id a c :=
  ⟨h'.1.trans h.1, h'.2.trans h.2⟩

theorem SameOnDesk.exec {α : Type} {p : OnDesk α} (hp : p.Moves (SameOnDesk g id)) (d : Desk) :
    SameOnDesk g id d (p.exec d).2 := by
  apply Prog.Moves.exec _ _ hp
  · intro d
    exact SameColumn.refl d.world
  · intro a b c
    exact SameOnDesk.trans

theorem moves_lift {α : Type} {p : Gw α} (hp : p.Moves (SameColumn g id)) : (lift p).Moves (SameOnDesk g id) := by
  apply Prog.Moves.within_of _ hp
  intro d w h
  exact h

theorem moves_modify {f : Desk → Desk} (hf : ∀ d, (f d).world = d.world) : (modify f).Moves (SameOnDesk g id) := by
  refine ⟨fun d => ?_, fun _ => trivial⟩
  show SameColumn g id d.world (f d).world
  rw [hf]
  exact SameColumn.refl d.world

theorem moves_theProject (projectId : String) : (theProject projectId).Moves (SameColumn g id) := by
  unfold theProject
  apply Prog.Moves.bind
  · exact moves_fetch SameColumn.tick
  · intro o
    exact moves_orThrow

theorem moves_nowSecs : nowSecs.Moves (SameColumn g id) := Prog.moves_look SameColumn.refl _

/-- An update of the project that keeps the column. -/
theorem SameColumn.update {f : Project → Project} {hf : ∀ a b, Constraints.clash (f a) b = Constraints.clash a b}
    (hid : ∀ p, (f p).id = p.id) (hg : ∀ p, g (f p) = g p) (w : World) :
    SameColumn g id w { w.tick with db := { w.db with projects := w.db.projects.update (·.id == id) f hf } } := by
  refine ⟨?_, rfl⟩
  show (Projects.byId _ id).map g = (Projects.byId w.db id).map g
  rw [Projects.byId_update hid, Option.map_map]
  congr 1
  ext p
  exact hg p

theorem moves_updateProject {e : Err} {f : Project → Project}
    {hf : ∀ a b, Constraints.clash (f a) b = Constraints.clash a b} (hid : ∀ p, (f p).id = p.id)
    (hg : ∀ p, g (f p) = g p) :
    (execute e fun _ db => some { db with projects := db.projects.update (·.id == id) f hf }).Moves
      (SameColumn g id) := by
  apply moves_execute SameColumn.tick
  intro w db hdb
  cases hdb
  exact SameColumn.update hid hg w

theorem moves_setFolderPath (hg : ∀ p dir, g { p with folderPath := dir } = g p) (path : String) :
    (Projects.setFolderPath id path).Moves (SameColumn g id) := by
  apply Projects.moves_setFolderPath SameColumn.tick
  intro w dir
  apply SameColumn.update
  · intro p
    rfl
  · intro p
    exact hg p dir

theorem moves_setFileGlob (hg : ∀ p glob, g { p with fileGlob := glob } = g p) (glob : String) :
    (Projects.setFileGlob id glob).Moves (SameColumn g id) :=
  moves_updateProject (fun _ => rfl) fun p => hg p _

theorem moves_setOnboardingStep (hg : ∀ p step, g { p with onboardingStep := step } = g p) (step : Option String) :
    (Projects.setOnboardingStep id step).Moves (SameColumn g id) :=
  moves_updateProject (fun _ => rfl) fun p => hg p _

theorem moves_append [HmacSha256] {secret : Bytes} {entryId : Uuid} {projectId gatewayName agentName : String}
    {entryType : EntryType} {content : String} {todoId : Option Int} :
    (TaskLog.append secret entryId projectId gatewayName agentName entryType content todoId).Moves
      (SameColumn g id) := by
  apply TaskLog.moves_append SameColumn.refl SameColumn.tick
  intro w row db hins
  show (Projects.byId db id).map _ = (Projects.byId w.db id).map _ ∧ db.engine = w.db.engine
  rw [(TaskLog.insertRow_eq_some.1 hins).2.2.2.2.1]
  exact ⟨rfl, rfl⟩

theorem moves_answeredPath (folderPath : String) : (answeredPath id folderPath).Moves (SameColumn g id) := by
  unfold answeredPath
  split
  · exact (moves_theProject id).bind fun _ => trivial
  · trivial

theorem moves_pushNotification (m : Manager) (message eventType : String) :
    (pushNotification m message eventType).Moves (SameOnDesk g id) := by
  apply moves_modify
  intro d
  split <;> rfl

theorem moves_emitPrompt (m : Manager) (prompt : OnboardingPrompt) : (emitPrompt m prompt).Moves (SameOnDesk g id) := by
  apply Prog.Moves.bind
  · apply moves_modify
    intro d
    rfl
  · intro u
    exact moves_pushNotification m _ _

/-- The last prompt of a handler. -/
theorem moves_prompt (m : Manager) (prompt : Project → F64 → OnboardingPrompt) :
    ((lift (theProject id)).bind fun project => (lift nowSecs).bind fun now =>
      emitPrompt m (prompt project now)).Moves (SameOnDesk g id) := by
  apply Prog.Moves.bind (moves_lift (moves_theProject id))
  intro project
  apply Prog.Moves.bind (moves_lift moves_nowSecs)
  intro now
  exact moves_emitPrompt m _

/-- What the handler of the glob ends with: the log entry, the dispatch and the notification. -/
theorem moves_dispatch [HmacSha256] (m : Manager) (entryId : Uuid) (glob : String) :
    ((lift (theProject id)).bind fun project =>
      (lift (TaskLog.append m.secret entryId id m.gatewayName "gateway" .note
        s!"Onboarding: building context for '{project.name}' with glob '{glob}'" none)).bind fun _ =>
      (modify fun d => if m.contextBuilder then { d with dispatched := d.dispatched ++ [(id, project.name)] } else d).bind
        fun _ => pushNotification m
          s!"Building context for '{project.name}' — your agent is analysing the project now." "onboarding").Moves
      (SameOnDesk g id) := by
  apply Prog.Moves.bind (moves_lift (moves_theProject id))
  intro project
  apply Prog.Moves.bind (moves_lift moves_append)
  intro entry
  apply Prog.Moves.bind
  · apply moves_modify
    intro d
    split <;> rfl
  · intro u
    exact moves_pushNotification m _ _

end

section
variable {id : String}

/-- The update of the step takes effect if nothing from outside fails it. -/
theorem exec_setOnboardingStep {d : Desk} {o step : Option String} (hd : storedStep id d = some o) :
    Passes d.world ∧ (∃ d', (lift (Projects.setOnboardingStep id step)).exec d = (.ok (), d') ∧
        storedStep id d' = some step) ∨
      ¬ Passes d.world ∧ ∃ e d', (lift (Projects.setOnboardingStep id step)).exec d = (.error e, d') ∧
        storedStep id d' = some o := by
  obtain ⟨p, hp, hstep⟩ := Option.map_eq_some_iff.1 hd
  rw [lift, Prog.exec_within]
  by_cases hpass : Passes d.world
  · left
    have hset : (Projects.setOnboardingStep id step).exec d.world = (.ok (), _) :=
      exec_execute_iff.2 ⟨hpass, _, rfl, rfl⟩
    have hrow : (Projects.byId d.world.db id).map (fun p => { p with onboardingStep := step }) =
        some { p with onboardingStep := step } := by
      rw [hp]
      rfl
    rw [← Projects.byId_update (by intro p; rfl)] at hrow
    show Passes d.world ∧ ∃ d', (((Projects.setOnboardingStep id step).exec d.world).1,
      Desk.gateway.set ((Projects.setOnboardingStep id step).exec d.world).2 d) = (.ok (), d') ∧ _
    rw [hset]
    refine ⟨hpass, _, rfl, ?_⟩
    exact congrArg (Option.map (·.onboardingStep)) hrow
  · right
    refine ⟨hpass, ?_⟩
    show ∃ e d', (((Projects.setOnboardingStep id step).exec d.world).1,
      Desk.gateway.set ((Projects.setOnboardingStep id step).exec d.world).2 d) = (.error e, d') ∧ _
    rw [Projects.setOnboardingStep, execute, exec_statement_of_not_passes hpass]
    exact ⟨_, _, rfl, hd⟩

/-! ## How far a call gets -/

theorem exec_lift_iff {α : Type} {p : Gw α} {d d' : Desk} {a : α} :
    (lift p).exec d = (.ok a, d') ↔ ∃ w, p.exec d.world = (.ok a, w) ∧ d' = { d with world := w } := by
  rw [lift]
  exact Prog.exec_within_ok

theorem exec_theProject_iff {projectId : String} {w w' : World} {p : Project} :
    (theProject projectId).exec w = (.ok p, w') ↔
      Passes w ∧ w.db.engine.integers = .widened ∧ Projects.byId w.db projectId = some p ∧ w' = w.tick := by
  unfold theProject
  rw [Prog.bind_eq, Prog.exec_bind_ok]
  constructor
  · rintro ⟨o, w₁, hget, hthrow⟩
    obtain ⟨hpass, ⟨rfl, hread⟩, rfl⟩ := Projects.get_iff.1 hget
    obtain ⟨hp, rfl⟩ := exec_orThrow_iff.1 hthrow
    refine ⟨hpass, IntegerDecoding.ne_refused.1 fun hrefused => ?_, hp, rfl⟩
    rw [hread hrefused] at hp
    cases hp
  · rintro ⟨hpass, hwidened, hp, rfl⟩
    refine ⟨_, _, Projects.get_iff.2 ⟨hpass, ⟨rfl, fun hrefused => ?_⟩, rfl⟩, exec_orThrow_iff.2 ⟨hp, rfl⟩⟩
    rw [hwidened] at hrefused
    cases hrefused

/-- The row of the project once the folder is stored. -/
def folderStored (id dir : String) (db : Db) : Db :=
  { db with projects := db.projects.update (·.id == id) (fun p => { p with folderPath := dir }) (Projects.clash_folderPath dir) }

theorem exec_setFolderPath_ok {path : String} {w w' : World} {u : Unit}
    (h : (Projects.setFolderPath id path).exec w = (.ok u, w')) :
    Clear 3 w ∧ ∃ dir, w.canonical path = some dir ∧ (w.folders dir).isSome = true ∧
      w' = { w.tick.tick.tick with db := folderStored id dir w.db } := by
  unfold Projects.setFolderPath at h
  simp only [Prog.bind_eq, Prog.exec_bind_ok] at h
  obtain ⟨o, w₁, hread, dir, w₂, hdir, isDir, w₃, hisDir, hset⟩ := h
  obtain ⟨hpass₀, rfl, rfl⟩ := exec_ioRead_iff.1 hread
  obtain ⟨hcanonical, rfl⟩ := exec_orThrow_iff.1 hdir
  rw [Prog.exec_attempt] at hisDir
  cases hisDir
  split at hset
  · rename_i hfolder
    obtain ⟨hpass₂, db, hdb, rfl⟩ := exec_execute_iff.1 hset
    cases hdb
    rcases hmeta : (ioRead .io fun w => (w.folders dir).isSome).exec w.tick with ⟨r, w₃⟩
    rw [hmeta] at hfolder hpass₂
    cases r with
    | error e => cases hfolder
    | ok b =>
      obtain ⟨hpass₁, rfl, rfl⟩ := exec_ioRead_iff.1 hmeta
      exact ⟨⟨hpass₀, hpass₁, hpass₂, trivial⟩, dir, hcanonical, hfolder, rfl⟩
  · cases hset

/-- A folder is accepted where its path is that of a directory. -/
theorem exec_setFolderPath_of_dir {path dir : String} {w : World} (hclear : Clear 3 w)
    (hcanonical : w.canonical path = some dir) (hfolder : (w.folders dir).isSome = true) :
    (Projects.setFolderPath id path).exec w = (.ok (), { w.tick.tick.tick with db := folderStored id dir w.db }) := by
  obtain ⟨hpass₀, hpass₁, hpass₂, -⟩ := hclear
  unfold Projects.setFolderPath
  simp only [Prog.bind_eq, Prog.exec_bind_ok]
  have hmeta : (ioRead .io fun w => (w.folders dir).isSome).exec w.tick = (.ok true, w.tick.tick) :=
    exec_ioRead_iff.2 ⟨hpass₁, hfolder.symm, rfl⟩
  refine ⟨_, _, exec_ioRead_iff.2 ⟨hpass₀, rfl, rfl⟩, dir, _, exec_orThrow_iff.2 ⟨hcanonical, rfl⟩, some true,
    w.tick.tick, ?_, exec_execute_iff.2 ⟨hpass₂, _, rfl, rfl⟩⟩
  rw [Prog.exec_attempt, hmeta]
  rfl

/-- A folder that is accepted, and `n` more operations that nothing from outside fails. -/
theorem exec_setFolderPath_iff {path : String} {n : Nat} {w : World} :
    (∃ w', (Projects.setFolderPath id path).exec w = (.ok (), w') ∧ Clear n w') ↔
      Clear (n + 3) w ∧ IsDirectory w path := by
  have hclear : Clear (n + 3) w ↔ Clear 3 w ∧ Clear n w.tick.tick.tick := by simp [Clear, and_assoc]
  have hdb : ∀ (k : Nat) (w : World) (db : Db), Clear k { w with db } ↔ Clear k w := by
    intro k
    induction k with
    | zero => exact fun _ _ => Iff.rfl
    | succ k ih => exact fun w db => and_congr Iff.rfl (ih w.tick db)
  rw [hclear]
  constructor
  · rintro ⟨w', hset, hrest⟩
    obtain ⟨hthree, dir, hcanonical, hfolder, rfl⟩ := exec_setFolderPath_ok hset
    exact ⟨⟨hthree, (hdb _ _ _).1 hrest⟩, dir, hcanonical, hfolder⟩
  · rintro ⟨⟨hthree, hrest⟩, dir, hcanonical, hfolder⟩
    exact ⟨_, exec_setFolderPath_of_dir hthree hcanonical hfolder, (hdb _ _ _).2 hrest⟩

theorem exec_answeredPath_iff {value path : String} {w w' : World} :
    (answeredPath id value).exec w = (.ok path, w') ↔
      if trim value = "" then
        Passes w ∧ w.db.engine.integers = .widened ∧
          ∃ p, Projects.byId w.db id = some p ∧ path = s!"data/projects/{p.name}" ∧ w' = w.tick
      else path = trim value ∧ w' = w := by
  unfold answeredPath
  split
  · rw [Prog.bind_eq, Prog.exec_bind_ok]
    constructor
    · rintro ⟨p, w₁, hp, hret⟩
      obtain ⟨hpass, hwidened, hrow, rfl⟩ := exec_theProject_iff.1 hp
      cases hret
      exact ⟨hpass, hwidened, p, hrow, rfl, rfl⟩
    · rintro ⟨hpass, hwidened, p, hrow, rfl, rfl⟩
      exact ⟨p, _, exec_theProject_iff.2 ⟨hpass, hwidened, hrow, rfl⟩, rfl⟩
  · constructor
    · intro h
      cases h
      exact ⟨rfl, rfl⟩
    · rintro ⟨rfl, rfl⟩
      rfl

/-! ## What a call writes -/

/-- From where the step is `o`, the program reaches its update and writes `step`, or leaves it at `o`. -/
def Writes (id : String) (p : OnDesk Unit) (d : Desk) (step o : Option String) (reaches : Prop) : Prop :=
  storedStep id d = some o →
    storedStep id (p.exec d).2 = some step ∧ reaches ∨ storedStep id (p.exec d).2 = some o ∧ ¬ reaches

section
variable {d : Desk} {o step : Option String}

theorem Writes.congr {p : OnDesk Unit} {q r : Prop} (h : Writes id p d step o q)
    (hqr : storedStep id d = some o → (q ↔ r)) : Writes id p d step o r := by
  intro hd
  rw [← hqr hd]
  exact h hd

/-- The update, and after it nothing that touches the step. -/
theorem Writes.update {tail : Unit → OnDesk Unit} (htail : ∀ u, (tail u).Moves (SameOnDesk (·.onboardingStep) id)) :
    Writes id ((lift (Projects.setOnboardingStep id step)).bind tail) d step o (Passes d.world) := by
  intro hd
  rcases exec_setOnboardingStep hd with ⟨hpass, d₁, hset, hd₁⟩ | ⟨hfail, e, d₁, hset, hd₁⟩
  · left
    rw [Prog.exec_bind_of_ok hset]
    have hrest := SameOnDesk.exec (htail ()) d₁
    exact ⟨hrest.1.trans hd₁, hpass⟩
  · right
    rw [Prog.exec_bind_of_error hset]
    exact ⟨hd₁, hfail⟩

/-- Before it, something that does not touch the step and may fail. -/
theorem Writes.bind {α : Type} {q : OnDesk α} {g : α → OnDesk Unit} {reaches : α → Desk → Prop}
    (hq : q.Moves (SameOnDesk (·.onboardingStep) id)) (hg : ∀ a d₁, Writes id (g a) d₁ step o (reaches a d₁)) :
    Writes id (q.bind g) d step o (∃ a d₁, q.exec d = (.ok a, d₁) ∧ reaches a d₁) := by
  intro hd
  have hsame : storedStep id (q.exec d).2 = some o := (SameOnDesk.exec hq d).1.trans hd
  refine Prog.exec_bind_reaches (P := fun d' => storedStep id d' = some o) (Q := fun d' => storedStep id d' = some step)
    hsame fun a d₁ hrun => hg a d₁ ?_
  rw [hrun] at hsame
  exact hsame

/-- A program that never touches the step. -/
theorem Writes.nothing {p : OnDesk Unit} (hp : p.Moves (SameOnDesk (·.onboardingStep) id)) : Writes id p d step o False := by
  intro hd
  right
  exact ⟨(SameOnDesk.exec hp d).1.trans hd, fun h => h⟩

variable (m : Manager)

theorem writes_handleFolderAnswer (value : String) :
    Writes id (handleFolderAnswer m id value) d (some "awaiting_files") o
      (∃ path w, (answeredPath id value).exec d.world = (.ok path, w) ∧ Clear 4 w ∧ IsDirectory w path) := by
  unfold handleFolderAnswer
  simp only [Prog.bind_eq]
  apply Writes.congr
  · apply Writes.bind (moves_lift (moves_answeredPath value))
    intro path d₁
    apply Writes.bind (moves_lift (moves_setFolderPath (fun _ _ => rfl) path))
    intro u d₂
    apply Writes.update
    intro u
    exact moves_prompt m _
  intro hd
  constructor
  · rintro ⟨path, d₁, hlift, u, d₂, hfolder, hpass⟩
    obtain ⟨w, hpath, rfl⟩ := exec_lift_iff.1 hlift
    obtain ⟨w', hset, rfl⟩ := exec_lift_iff.1 hfolder
    exact ⟨path, w, hpath, exec_setFolderPath_iff.1 ⟨w', hset, hpass, trivial⟩⟩
  · rintro ⟨path, w, hpath, hdir⟩
    obtain ⟨w', hset, hpass, -⟩ := exec_setFolderPath_iff.2 hdir
    have hlift : (lift (answeredPath id value)).exec d = (.ok path, { d with world := w }) :=
      exec_lift_iff.2 ⟨w, hpath, rfl⟩
    have hfolder : (lift (Projects.setFolderPath id path)).exec { d with world := w } =
        (.ok (), { d with world := w' }) := exec_lift_iff.2 ⟨w', hset, rfl⟩
    exact ⟨path, _, hlift, (), _, hfolder, hpass⟩

theorem writes_contextReady (summary : String) :
    Writes id (contextReady m id summary) d (some "awaiting_user_input") o (Clear 1 d.world) := by
  unfold contextReady
  simp only [Prog.bind_eq]
  apply Writes.congr
  · apply Writes.update
    intro u
    exact moves_prompt m _
  · intro hd
    simp [Clear]

theorem exec_setFileGlob_iff {glob : String} {w : World} :
    (∃ w', (Projects.setFileGlob id glob).exec w = (.ok (), w') ∧ Passes w') ↔ Clear 2 w := by
  unfold Projects.setFileGlob
  simp only [exec_execute_iff]
  constructor
  · rintro ⟨w', ⟨hpass, db, -, rfl⟩, hpass₁⟩
    exact ⟨hpass, hpass₁, trivial⟩
  · rintro ⟨hpass, hpass₁, -⟩
    exact ⟨_, ⟨hpass, _, rfl, rfl⟩, hpass₁⟩

theorem writes_handleFilesAnswer [HmacSha256] (entryId : Uuid) (value : String) :
    Writes id (handleFilesAnswer m entryId id value) d (some "building_context") o (Clear 2 d.world) := by
  unfold handleFilesAnswer
  simp only [Prog.bind_eq]
  apply Writes.congr
  · apply Writes.bind (moves_lift (moves_setFileGlob (fun _ _ => rfl) _))
    intro u d₁
    apply Writes.update
    intro u
    exact moves_dispatch m entryId _
  intro hd
  constructor
  · rintro ⟨u, d₁, hglob, hpass⟩
    obtain ⟨w, hset, rfl⟩ := exec_lift_iff.1 hglob
    exact exec_setFileGlob_iff.1 ⟨w, hset, hpass⟩
  · intro hclear
    obtain ⟨w, hset, hpass⟩ := exec_setFileGlob_iff.2 hclear
    exact ⟨(), _, exec_lift_iff.2 ⟨w, hset, rfl⟩, hpass⟩

theorem exec_append_iff [HmacSha256] {secret : Bytes} {entryId : Uuid} {gatewayName agentName : String}
    {entryType : EntryType} {content : String} {todoId : Option Int} {w : World} :
    (∃ entry w', (TaskLog.append secret entryId id gatewayName agentName entryType content todoId).exec w =
        (.ok entry, w') ∧ Passes w') ↔
      Clear 2 w ∧ w.db.engine.integers = .widened ∧ ∃ db, TaskLog.insertRow (TaskLog.appendRow secret entryId id gatewayName
        agentName entryType content todoId w.now w.db) w.db = some db := by
  unfold TaskLog.append TaskLog.appendWithStatus
  simp only [Prog.bind_eq, nowSecs]
  rw [Prog.exec_bind_of_ok (Prog.exec_look _ w)]
  simp only [Prog.exec_bind_ok, exec_insertReturning_iff]
  constructor
  · rintro ⟨entry, w', ⟨cursor, w₁, ⟨hwidened, hpass, db, hins, rfl⟩, hret⟩, hpass₁⟩
    cases hret
    obtain ⟨db', hrow, hpair⟩ := Option.map_eq_some_iff.1 hins
    cases hpair
    exact ⟨⟨hpass, hpass₁, trivial⟩, hwidened, db, hrow⟩
  · rintro ⟨⟨hpass, hpass₁, -⟩, hwidened, db, hrow⟩
    refine ⟨_, _, ⟨TaskLog.maxCursor w.db id + 1, { w.tick with db := db }, ⟨hwidened, hpass, db, ?_, rfl⟩, rfl⟩, hpass₁⟩
    exact Option.map_eq_some_iff.2 ⟨db, hrow, rfl⟩

/-- The last form gets to its update of the step once its entry is in the log. -/
theorem userTask_reaches [HmacSha256] {entryId : Uuid} {value : String} (hd : storedStep id d ≠ none) :
    (∃ project d₁, (lift (theProject id)).exec d = (.ok project, d₁) ∧ ∃ entry d₂,
        (lift (TaskLog.append m.secret entryId id m.gatewayName "user" .focus value none)).exec d₁ = (.ok entry, d₂) ∧
          Passes d₂.world) ↔
      Clear 3 d.world ∧ d.world.db.engine.integers = .widened ∧ ∃ db, TaskLog.insertRow (TaskLog.appendRow m.secret entryId id
        m.gatewayName "user" .focus value none d.world.now d.world.db) d.world.db = some db := by
  obtain ⟨o, ho⟩ := Option.ne_none_iff_exists'.1 hd
  obtain ⟨p, hp, -⟩ := Option.map_eq_some_iff.1 ho
  constructor
  · rintro ⟨project, d₁, hget, entry, d₂, happend, hpass⟩
    obtain ⟨w, hproject, rfl⟩ := exec_lift_iff.1 hget
    obtain ⟨w', hentry, rfl⟩ := exec_lift_iff.1 happend
    obtain ⟨hpass₀, -, -, rfl⟩ := exec_theProject_iff.1 hproject
    obtain ⟨hclear, hrow⟩ := exec_append_iff.1 ⟨entry, w', hentry, hpass⟩
    exact ⟨⟨hpass₀, hclear⟩, hrow⟩
  · rintro ⟨⟨hpass₀, hclear⟩, hwidened, hrow⟩
    obtain ⟨entry, w', hentry, hpass⟩ := exec_append_iff.2 ⟨hclear, hwidened, hrow⟩
    have hget : (lift (theProject id)).exec d = (.ok p, { d with world := d.world.tick }) :=
      exec_lift_iff.2 ⟨_, exec_theProject_iff.2 ⟨hpass₀, hwidened, hp, rfl⟩, rfl⟩
    exact ⟨p, _, hget, entry, _, exec_lift_iff.2 ⟨w', hentry, rfl⟩, hpass⟩

theorem writes_handleUserTask [HmacSha256] (entryId : Uuid) (value : String) :
    Writes id (handleUserTask m entryId id value) d none o
      (trim value ≠ "" ∧ Clear 3 d.world ∧ d.world.db.engine.integers = .widened ∧
        ∃ db, TaskLog.insertRow (TaskLog.appendRow m.secret entryId id m.gatewayName
          "user" .focus value none d.world.now d.world.db) d.world.db = some db) := by
  unfold handleUserTask
  split
  · rename_i hblank
    apply Writes.congr
    · apply Writes.nothing
      trivial
    · intro hd
      simp [hblank]
  · rename_i htask
    simp only [Prog.bind_eq]
    apply Writes.congr
    · apply Writes.bind (moves_lift (moves_theProject id))
      intro project d₁
      apply Writes.bind (moves_lift moves_append)
      intro entry d₂
      apply Writes.update
      intro u
      apply Prog.Moves.bind
      · apply moves_modify
        intro d
        rfl
      · intro u
        exact moves_pushNotification m _ _
    intro hd
    rw [userTask_reaches m (by rw [hd]; simp)]
    simp [htask]

theorem moves_start {β : Type} {g : Project → β} : (Onboarding.start m id).Moves (SameOnDesk g id) := by
  unfold Onboarding.start
  exact moves_prompt m _

theorem answeredPath_iff {value : String} {n : Nat} {w : World} :
    (∃ path w', (answeredPath id value).exec w = (.ok path, w') ∧ Clear n w' ∧ IsDirectory w' path) ↔
      if trim value = "" then
        Clear (n + 1) w ∧ w.db.engine.integers = .widened ∧
          ∃ p, Projects.byId w.db id = some p ∧ IsDirectory w s!"data/projects/{p.name}"
      else Clear n w ∧ IsDirectory w (trim value) := by
  simp only [exec_answeredPath_iff]
  split
  · constructor
    · rintro ⟨path, w', ⟨hpass, hwidened, p, hp, rfl, rfl⟩, hclear, hdir⟩
      exact ⟨⟨hpass, hclear⟩, hwidened, p, hp, hdir⟩
    · rintro ⟨⟨hpass, hclear⟩, hwidened, p, hp, hdir⟩
      exact ⟨_, _, ⟨hpass, hwidened, p, hp, rfl, rfl⟩, hclear, hdir⟩
  · constructor
    · rintro ⟨path, w', ⟨rfl, rfl⟩, hclear, hdir⟩
      exact ⟨hclear, hdir⟩
    · rintro ⟨hclear, hdir⟩
      exact ⟨_, _, ⟨rfl, rfl⟩, hclear, hdir⟩

/-- A call that writes a stage writes it if it gets that far, and otherwise leaves the step. -/
theorem call_writes [HmacSha256] {c : Call} {s : Stage} (hs : c.writes = some s) :
    Writes id (c.prog m id) d s.column o (c.Reaches m id d) := by
  cases c with
  | start => cases hs
  | contextReady summary =>
    cases hs
    exact writes_contextReady m summary
  | answer entryId step value =>
    simp only [Call.writes] at hs
    show Writes id (answer m entryId id step value) d _ o _
    unfold answer Call.Reaches
    by_cases hfolder : step = "awaiting_folder"
    · simp only [hfolder, if_true, Option.some.injEq] at hs ⊢
      cases hs
      apply (writes_handleFolderAnswer m value).congr
      intro hd
      exact answeredPath_iff
    · by_cases hfiles : step = "awaiting_files"
      · simp only [hfiles, if_true, if_neg (by decide : "awaiting_files" ≠ "awaiting_folder"), Option.some.injEq] at hs ⊢
        cases hs
        exact writes_handleFilesAnswer m entryId value
      · by_cases htask : step = "awaiting_user_input"
        · simp only [htask, if_true, if_neg (by decide : "awaiting_user_input" ≠ "awaiting_folder"),
            if_neg (by decide : "awaiting_user_input" ≠ "awaiting_files"), Option.some.injEq] at hs ⊢
          cases hs
          exact writes_handleUserTask m entryId value
        · simp only [if_neg hfolder, if_neg hfiles, if_neg htask] at hs
          cases hs

/-- Any other call leaves it. -/
theorem call_writes_nothing [HmacSha256] {c : Call} (hs : c.writes = none) :
    storedStep id ((c.prog m id).exec d).2 = storedStep id d := by
  cases c with
  | start => exact (SameOnDesk.exec (moves_start m) d).1
  | contextReady summary => cases hs
  | answer entryId step value =>
    simp only [Call.writes] at hs
    have hfolder : step ≠ "awaiting_folder" := by
      rintro rfl
      simp at hs
    have hfiles : step ≠ "awaiting_files" := by
      rintro rfl
      simp at hs
    have htask : step ≠ "awaiting_user_input" := by
      rintro rfl
      simp at hs
    show storedStep id ((answer m entryId id step value).exec d).2 = storedStep id d
    unfold answer
    rw [if_neg hfolder, if_neg hfiles, if_neg htask]
    rfl

end

end

/-! ## One call -/

section
variable [HmacSha256] (m : Manager) (id : String)

/-- The stored step is the stage that the call writes or the one before it, or the call ends before it
writes. -/
def Timely (d : Desk) (c : Call) : Prop :=
  ∀ s, c.writes = some s →
    storedStep id d = some s.column ∨ (∃ s₀ : Stage, s₀.next = some s ∧ storedStep id d = some s₀.column) ∨
      ¬ c.Reaches m id d

variable {m id}

/-- A call about a project that is there keeps the order if and only if it is timely. -/
theorem call_moves_iff {d : Desk} {c : Call} {o : Option String} (hd : storedStep id d = some o) :
    StepMoves (storedStep id d) (storedStep id ((c.prog m id).exec d).2) ↔ Timely m id d c := by
  cases hs : c.writes with
  | none =>
    constructor
    · intro _ s hs'
      rw [hs] at hs'
      cases hs'
    · intro _
      exact Or.inl (call_writes_nothing m hs)
  | some s =>
    rcases call_writes m hs hd with ⟨hafter, hreach⟩ | ⟨hafter, hreach⟩
    · rw [hafter, hd]
      constructor
      · rintro (hsame | ⟨s₀, t, hnext, ho, ht⟩) s' hs'
        · rw [hs, Option.some.injEq] at hs'
          subst hs'
          exact Or.inl (Eq.trans hd hsame.symm)
        · rw [hs, Option.some.injEq] at hs'
          subst hs'
          have : s = t := Stage.column_inj (Option.some.inj ht)
          subst this
          exact Or.inr (Or.inl ⟨s₀, hnext, Eq.trans hd ho⟩)
      · intro htimely
        rcases htimely s hs with hsame | ⟨s₀, hnext, ho⟩ | hno
        · exact Or.inl (Eq.trans hsame.symm hd)
        · exact Or.inr ⟨s₀, s, hnext, Eq.trans hd.symm ho, rfl⟩
        · exact absurd hreach hno
    · rw [hafter, hd]
      constructor
      · intro _ s' hs'
        rw [hs, Option.some.injEq] at hs'
        subst hs'
        exact Or.inr (Or.inr hreach)
      · intro _
        exact Or.inl rfl

end

/-! ## What a call has accepted -/

/-- A call, with the state before it and the state after it. -/
structure Made where
  call : Call
  before : Desk
  after : Desk

/-- The call has set the project's folder to a directory. -/
def FolderAccepted (id : String) (x : Made) : Prop :=
  ∃ entryId value path w w' dir, x.call = .answer entryId "awaiting_folder" value ∧
    (answeredPath id value).exec x.before.world = (.ok path, w) ∧
    (Projects.setFolderPath id path).exec w = (.ok (), w') ∧ w.canonical path = some dir ∧
    (w.folders dir).isSome = true ∧ (Projects.byId x.after.world.db id).map (·.folderPath) = some dir

/-- The call has set the project's glob. -/
def GlobAccepted (id : String) (x : Made) : Prop :=
  ∃ entryId value w', x.call = .answer entryId "awaiting_files" value ∧
    (Projects.setFileGlob id (answeredGlob value)).exec x.before.world = (.ok (), w') ∧
    (Projects.byId x.after.world.db id).map (·.fileGlob) = some (answeredGlob value)

/-- What has been accepted by the time the project is at a stage. -/
def Backed (id : String) (h : List Made) : Stage → Prop
  | .awaitingFolder => True
  | .awaitingFiles => ∃ x, [x].Sublist h ∧ FolderAccepted id x
  | _ => ∃ x y, [x, y].Sublist h ∧ FolderAccepted id x ∧ GlobAccepted id y

section
variable {id : String} {h : List Made}

theorem Backed.append {h' : List Made} {s : Stage} (hb : Backed id h s) : Backed id (h ++ h') s := by
  have hsub : h.Sublist (h ++ h') := List.sublist_append_left h h'
  cases s with
  | awaitingFolder => trivial
  | awaitingFiles =>
    obtain ⟨x, hx, hfolder⟩ := hb
    exact ⟨x, hx.trans hsub, hfolder⟩
  | buildingContext | awaitingUserInput | done =>
    obtain ⟨x, y, hxy, hfolder, hglob⟩ := hb
    exact ⟨x, y, hxy.trans hsub, hfolder, hglob⟩

/-- One stage further, by the call that has just been made. -/
theorem Backed.next {x : Made} {s t : Stage} (hb : Backed id h s) (hnext : s.next = some t)
    (hfolder : t = .awaitingFiles → FolderAccepted id x) (hglob : t = .buildingContext → GlobAccepted id x) :
    Backed id (h ++ [x]) t := by
  cases s with
  | awaitingFolder =>
    cases hnext
    exact ⟨x, List.sublist_append_right h [x], hfolder rfl⟩
  | awaitingFiles =>
    cases hnext
    obtain ⟨y, hy, hfolder⟩ := hb
    exact ⟨y, x, hy.append (List.Sublist.refl [x]), hfolder, hglob rfl⟩
  | buildingContext | awaitingUserInput =>
    cases hnext
    exact Backed.append (s := .awaitingUserInput) hb
  | done => cases hnext

end

section
variable {m : Manager} {id : String} {d d' : Desk} {o : Option String}

/-- After the folder is stored the handler leaves it alone. -/
theorem handleFolderAnswer_eq (value : String) : ∃ rest : String → OnDesk Unit,
    handleFolderAnswer m id value = (lift (answeredPath id value)).bind (fun path =>
      (lift (Projects.setFolderPath id path)).bind fun _ => rest path) ∧
    ∀ path, (rest path).Moves (SameOnDesk (·.folderPath) id) := by
  refine ⟨_, rfl, fun path => ?_⟩
  apply Prog.Moves.bind (moves_lift (moves_setOnboardingStep (fun _ _ => rfl) _))
  intro u
  exact moves_prompt m _

/-- So does the handler of the glob. -/
theorem handleFilesAnswer_eq [HmacSha256] (entryId : Uuid) (value : String) : ∃ rest : OnDesk Unit,
    handleFilesAnswer m entryId id value =
      (lift (Projects.setFileGlob id (answeredGlob value))).bind (fun _ => rest) ∧
    rest.Moves (SameOnDesk (·.fileGlob) id) := by
  refine ⟨_, rfl, ?_⟩
  apply Prog.Moves.bind (moves_lift (moves_setOnboardingStep (fun _ _ => rfl) _))
  intro u
  exact moves_dispatch m entryId _

theorem answeredPath_row {value path : String} {w : World} (hpath : (answeredPath id value).exec d.world = (.ok path, w)) :
    Projects.byId w.db id = Projects.byId d.world.db id := by
  have hanswered : (answeredPath id value).Moves (SameColumn (fun p => p) id) := moves_answeredPath value
  have hmoves := (hanswered.exec SameColumn.refl (fun _ _ _ h h' => ⟨h'.1.trans h.1, h'.2.trans h.2⟩) d.world).1
  rw [hpath, Option.map_id', Option.map_id'] at hmoves
  exact hmoves

theorem folder_stored {value path dir : String} {w w' : World} {p : Project}
    (hd' : ((handleFolderAnswer m id value).exec d).2 = d') (hp : Projects.byId w.db id = some p)
    (hpath : (answeredPath id value).exec d.world = (.ok path, w))
    (hset : (Projects.setFolderPath id path).exec w = (.ok (), w')) (hdir : w'.db = folderStored id dir w.db) :
    (Projects.byId d'.world.db id).map (·.folderPath) = some dir := by
  obtain ⟨rest, heq, hrest⟩ := @handleFolderAnswer_eq m id value
  rw [heq, Prog.exec_bind_of_ok (exec_lift_iff.2 ⟨w, hpath, rfl⟩), Prog.exec_bind_of_ok (exec_lift_iff.2 ⟨w', hset, rfl⟩)]
    at hd'
  have hkeep := (SameOnDesk.exec (hrest path) { d with world := w' }).1
  rw [hd'] at hkeep
  rw [hkeep, hdir, folderStored, Projects.byId_update (by intro p; rfl), hp]
  rfl

theorem folder_accepted {entryId : Uuid} {value : String} (hd' : ((handleFolderAnswer m id value).exec d).2 = d')
    (hd : storedStep id d = some o)
    (h : ∃ path w, (answeredPath id value).exec d.world = (.ok path, w) ∧ Clear 4 w ∧ IsDirectory w path) :
    FolderAccepted id ⟨.answer entryId "awaiting_folder" value, d, d'⟩ := by
  obtain ⟨path, w, hpath, ⟨hpass₀, hpass₁, hpass₂, -⟩, dir, hcanonical, hfolder⟩ := h
  obtain ⟨p, hp, -⟩ := Option.map_eq_some_iff.1 hd
  obtain ⟨w', hset, hdb⟩ : ∃ w', (Projects.setFolderPath id path).exec w = (.ok (), w') ∧
      w'.db = folderStored id dir w.db :=
    ⟨_, exec_setFolderPath_of_dir ⟨hpass₀, hpass₁, hpass₂, trivial⟩ hcanonical hfolder, rfl⟩
  have hrow : Projects.byId w.db id = some p := by rw [answeredPath_row hpath, hp]
  exact ⟨entryId, value, path, w, w', dir, rfl, hpath, hset, hcanonical, hfolder, folder_stored hd' hrow hpath hset hdb⟩

theorem glob_accepted [HmacSha256] {entryId : Uuid} {value : String}
    (hd' : ((handleFilesAnswer m entryId id value).exec d).2 = d') (hd : storedStep id d = some o) (h : Clear 2 d.world) :
    GlobAccepted id ⟨.answer entryId "awaiting_files" value, d, d'⟩ := by
  obtain ⟨p, hp, -⟩ := Option.map_eq_some_iff.1 hd
  obtain ⟨w', hset, hrow⟩ : ∃ w', (Projects.setFileGlob id (answeredGlob value)).exec d.world = (.ok (), w') ∧
      (Projects.byId w'.db id).map (·.fileGlob) = some (answeredGlob value) := by
    refine ⟨_, exec_execute_iff.2 ⟨h.1, _, rfl, rfl⟩, ?_⟩
    rw [Projects.byId_update (by intro p; rfl), hp]
    rfl
  refine ⟨entryId, value, w', rfl, hset, ?_⟩
  obtain ⟨rest, heq, hrest⟩ := @handleFilesAnswer_eq m id _ entryId value
  rw [heq, Prog.exec_bind_of_ok (exec_lift_iff.2 ⟨w', hset, rfl⟩)] at hd'
  have hkeep := (SameOnDesk.exec hrest { d with world := w' }).1
  rw [hd'] at hkeep
  rw [hkeep, hrow]

/-- A call that takes the step on has accepted what its form is about. -/
theorem call_accepts [HmacSha256] {c : Call} (hd' : ((c.prog m id).exec d).2 = d') (hd : storedStep id d = some o)
    (hreach : c.Reaches m id d) :
    (c.writes = some .awaitingFiles → FolderAccepted id ⟨c, d, d'⟩) ∧
      (c.writes = some .buildingContext → GlobAccepted id ⟨c, d, d'⟩) := by
  cases c with
  | start => simp [Call.writes]
  | contextReady summary => simp [Call.writes]
  | answer entryId step value =>
    unfold Call.Reaches at hreach
    constructor
    · intro hs
      have hstep : step = "awaiting_folder" := by
        by_contra hne
        simp only [Call.writes, if_neg hne] at hs
        split at hs
        · cases hs
        · split at hs <;> cases hs
      subst hstep
      simp only [Call.prog, answer, if_true] at hd' hreach
      exact folder_accepted hd' hd (answeredPath_iff.2 hreach)
    · intro hs
      have hstep : step = "awaiting_files" := by
        by_contra hne
        simp only [Call.writes, if_neg hne] at hs
        split at hs
        · cases hs
        · split at hs <;> cases hs
      subst hstep
      have hfiles : "awaiting_files" ≠ "awaiting_folder" := by decide
      simp only [Call.prog, answer, if_neg hfiles, if_true] at hd' hreach
      exact glob_accepted hd' hd hreach

end

/-! ## Every sequence of calls -/

section
variable [HmacSha256] (m : Manager) (id : String)

/-- Calls one after the other. Between them the rest of the gateway may do anything but write the step. -/
inductive Run (d₀ : Desk) : List Made → Desk → Prop
  | nil : Run d₀ [] d₀
  | idle {h : List Made} {d d' : Desk} : Run d₀ h d → storedStep id d' = storedStep id d → Run d₀ h d'
  | call {h : List Made} {d : Desk} (c : Call) :
      Run d₀ h d → Run d₀ (h ++ [⟨c, d, ((c.prog m id).exec d).2⟩]) ((c.prog m id).exec d).2

/-- The project is a peer's and as `create` leaves it. -/
def Fresh (d : Desk) : Prop :=
  ∃ p, Projects.byId d.world.db id = some p ∧ p.peerGateway ≠ "" ∧ p.onboardingStep = some "awaiting_folder"

/-- Onboarding is not skipped, repeated or reopened. -/
structure Orderly (h : List Made) (d : Desk) : Prop where
  moves : ∀ x ∈ h, StepMoves (storedStep id x.before) (storedStep id x.after)
  accepted : storedStep id d = some Stage.done.column →
    ∃ x y, [x, y].Sublist h ∧ FolderAccepted id x ∧ GlobAccepted id y
  stays : ∀ x ∈ h, storedStep id x.before = some Stage.done.column → storedStep id d = some Stage.done.column

variable {m id} {h : List Made} {d₀ d : Desk}

/-- The calls of a run were made about a project that was there. -/
theorem Run.made (hrun : Run m id d₀ h d) (h₀ : storedStep id d₀ ≠ none) :
    storedStep id d ≠ none ∧ ∀ x ∈ h, storedStep id x.before ≠ none ∧ x.after = ((x.call.prog m id).exec x.before).2 := by
  induction hrun with
  | nil => exact ⟨h₀, by simp⟩
  | idle _ hsame ih => exact ⟨hsame ▸ ih.1, ih.2⟩
  | @call h d c _ ih =>
    constructor
    · obtain ⟨o, ho⟩ := Option.ne_none_iff_exists'.1 ih.1
      cases hs : c.writes with
      | none =>
        rw [call_writes_nothing m hs]
        exact ih.1
      | some s =>
        rcases call_writes m hs ho with ⟨hafter, -⟩ | ⟨hafter, -⟩ <;> rw [hafter] <;> simp
    · intro x hx
      rcases List.mem_append.1 hx with hx | hx
      · exact ih.2 x hx
      · rw [List.mem_singleton] at hx
        subst hx
        exact ⟨ih.1, rfl⟩

/-- Where every call is timely, the project is at one of the stages, with what that stage rests on. -/
theorem Run.backed (hrun : Run m id d₀ h d) (h₀ : storedStep id d₀ = some Stage.awaitingFolder.column)
    (htimely : ∀ x ∈ h, Timely m id x.before x.call) :
    ∃ s : Stage, storedStep id d = some s.column ∧ Backed id h s ∧
      ∀ x ∈ h, storedStep id x.before = some Stage.done.column → s = .done := by
  induction hrun with
  | nil => exact ⟨.awaitingFolder, h₀, trivial, by simp⟩
  | idle _ hsame ih =>
    obtain ⟨s, hs, hb, hdone⟩ := ih htimely
    exact ⟨s, Eq.trans hsame hs, hb, hdone⟩
  | @call h d c _ ih =>
    obtain ⟨s, hd, hb, hdone⟩ := ih fun x hx => htimely x (List.mem_append_left _ hx)
    have hlast : Timely m id d c := htimely ⟨c, d, _⟩ (List.mem_append_right _ (List.mem_singleton.2 rfl))
    have hsame : storedStep id ((c.prog m id).exec d).2 = some s.column →
        ∃ t : Stage, storedStep id ((c.prog m id).exec d).2 = some t.column ∧
          Backed id (h ++ [⟨c, d, ((c.prog m id).exec d).2⟩]) t ∧
          ∀ x ∈ h ++ [⟨c, d, ((c.prog m id).exec d).2⟩], storedStep id x.before = some Stage.done.column → t = .done := by
      intro hafter
      refine ⟨s, hafter, hb.append, fun x hx hx' => ?_⟩
      rcases List.mem_append.1 hx with hx | hx
      · exact hdone x hx hx'
      · rw [List.mem_singleton] at hx
        subst hx
        exact Stage.column_inj (Option.some.inj (Eq.trans hd.symm hx'))
    cases hw : c.writes with
    | none => exact hsame (Eq.trans (call_writes_nothing m hw) hd)
    | some t =>
      rcases call_writes m hw hd with ⟨hafter, hreach⟩ | ⟨hafter, -⟩
      · rcases hlast t hw with hst | ⟨s₀, hnext, hst⟩ | hno
        · exact hsame (by rw [hafter, ← hd, hst])
        · have : s = s₀ := Stage.column_inj (Option.some.inj (Eq.trans hd.symm hst))
          subst this
          obtain ⟨hfolder, hglob⟩ := call_accepts rfl hd hreach
          refine ⟨t, hafter, hb.next hnext (fun ht => hfolder (ht ▸ hw)) (fun ht => hglob (ht ▸ hw)), fun x hx hx' => ?_⟩
          -- Nothing follows `done`.
          have hs : s = .done := by
            rcases List.mem_append.1 hx with hx | hx
            · exact hdone x hx hx'
            · rw [List.mem_singleton] at hx
              subst hx
              exact Stage.column_inj (Option.some.inj (Eq.trans hd.symm hx'))
          subst hs
          cases hnext
        · exact absurd hreach hno
      · exact hsame hafter

/-- **Onboarding keeps its order in exactly the runs whose calls are all timely.** -/
theorem orderly_iff (h₀ : Fresh id d₀) (hrun : Run m id d₀ h d) :
    Orderly id h d ↔ ∀ x ∈ h, Timely m id x.before x.call := by
  obtain ⟨p, hp, -, hstep⟩ := h₀
  have hfresh : storedStep id d₀ = some Stage.awaitingFolder.column := by
    rw [storedStep, hp, Option.map_some, hstep]
    rfl
  obtain ⟨-, hmade⟩ := hrun.made (by rw [hfresh]; simp)
  constructor
  · intro horder x hx
    obtain ⟨hbefore, hafter⟩ := hmade x hx
    obtain ⟨o, ho⟩ := Option.ne_none_iff_exists'.1 hbefore
    rw [← call_moves_iff ho, ← hafter]
    exact horder.moves x hx
  · intro htimely
    obtain ⟨s, hs, hb, hdone⟩ := hrun.backed hfresh htimely
    refine ⟨fun x hx => ?_, fun hd => ?_, fun x hx hx' => ?_⟩
    · obtain ⟨hbefore, hafter⟩ := hmade x hx
      obtain ⟨o, ho⟩ := Option.ne_none_iff_exists'.1 hbefore
      rw [hafter, call_moves_iff ho]
      exact htimely x hx
    · have : s = .done := Stage.column_inj (Option.some.inj (Eq.trans hs.symm hd))
      subst this
      exact hb
    · rw [hs, hdone x hx hx']

/-- Calls with nothing in between. -/
def perform (m : Manager) (id : String) : List Call → Desk → List Made × Desk
  | [], d => ([], d)
  | c :: cs, d =>
    let d' := ((c.prog m id).exec d).2
    (⟨c, d, d'⟩ :: (perform m id cs d').1, (perform m id cs d').2)

theorem Run.perform (cs : List Call) :
    ∀ {h : List Made} {d : Desk}, Run m id d₀ h d → Run m id d₀ (h ++ (perform m id cs d).1) (perform m id cs d).2 := by
  induction cs with
  | nil =>
    intro h d hrun
    rw [Onboarding.perform, List.append_nil]
    exact hrun
  | cons c cs ih =>
    intro h d hrun
    have hrest := ih (hrun.call c)
    rw [List.append_assoc] at hrest
    exact hrest

omit [HmacSha256] in
/-- `create` leaves a peer's project at the first step, whether or not it can read it back. -/
theorem fresh_of_create {uid : Uuid} {name repoUrl description origin peer peerProjectId : String} {w w' : World}
    {r : Except Err Project} (h : (Projects.create uid name repoUrl description origin peer peerProjectId).exec w = (r, w'))
    (hnew : Projects.byId w.db uid.text = none) (hrow : Projects.byId w'.db uid.text ≠ none) (hpeer : peer ≠ "")
    (hd : d.world = w') : Fresh uid.text d := by
  unfold Projects.create at h
  simp only [Prog.bind_eq, nowSecs] at h
  rw [Prog.exec_bind_of_ok (Prog.exec_look _ w), Prog.exec_bind] at h
  rcases hins : (execute (.msg "insert project") _).exec w with ⟨res, w₁⟩
  rw [hins] at h
  cases res with
  | error e =>
    -- Nothing has been inserted.
    cases h
    rw [exec_execute_error hins] at hrow
    exact absurd hnew hrow
  | ok u =>
    have hget : (Projects.get uid.text).Moves SameStored := moves_fetch SameStored.tick
    have hread : (Prog.bind (Projects.get uid.text) (orThrow (.msg "project not found after insert"))).Moves SameStored :=
      hget.bind fun _ => moves_orThrow
    have hstored := hread.exec SameStored.refl (fun _ _ _ => SameStored.trans) w₁
    have hend : ((Prog.bind (Projects.get uid.text) (orThrow (.msg "project not found after insert"))).exec w₁).2 = w' :=
      congrArg Prod.snd h
    rw [hend] at hstored
    have hsame : w'.db = w₁.db := congrArg Prod.fst hstored
    obtain ⟨-, db, hdb, rfl⟩ := exec_execute_iff.1 hins
    obtain ⟨projects, hinserted, rfl⟩ := Option.map_eq_some_iff.1 hdb
    have hin := Table.mem_of_insert hinserted
    have hprojects : d.world.db.projects = projects := by
      rw [hd]
      exact congrArg (·.projects) hsame
    rw [← hprojects] at hin
    exact ⟨_, Projects.byId_eq_some.2 ⟨hin, rfl⟩, hpeer, if_neg hpeer⟩

end

/-! ## A project to set up -/

namespace DemoOnboarding

/-- HMAC-SHA256 under `secret` of the two log entries. -/
@[reducible] def hmac : HmacSha256 := .recorded
  [("00000000-0000-4000-8000-000000000002|p|gw-a|Onboarding: building context for 'p' with glob '**/*'|1000",
    "a18c1b50bbe9424b065ea843dcdd3ccfa6c1e8b68e7c7f575ce87115bfa5924b"),
   ("00000000-0000-4000-8000-000000000003|p|gw-a|add authentication|1000",
    "ab05b4677858f78ba8057652ca4dd8016d631dae073e4437e2cff66fec39e5b8")]

def manager : Manager := ⟨"gw-a", asBytes "secret", false, true⟩

def project : Project :=
  { id := "p", name := "p", originGateway := "gw-a", peerGateway := "gw-b", onboardingStep := some "awaiting_folder" }

def desk (engine : Engine := .shipped) : Desk where
  world :=
    { World.fresh with
      now := .fin 1000
      db := { Db.empty engine with projects := ⟨[project], List.pairwise_singleton _ _⟩ }
      folders := fun path => if path = "/srv/p" then some .done else none
      canonical := fun path => if path = "/srv/p" then some path else none }
  pending _ := none
  pushed := []
  dispatched := []

def taskForm : Call :=
  .answer ⟨"00000000-0000-4000-8000-000000000003", by decide +kernel⟩ "awaiting_user_input" "add authentication"

/-- The default glob. -/
def globForm : Call := .answer ⟨"00000000-0000-4000-8000-000000000002", Uuid.hex_two⟩ "awaiting_files" ""

/-- Each form in its turn. -/
def inTurn : List Call :=
  [.start, .answer ⟨"00000000-0000-4000-8000-000000000001", Uuid.hex_one⟩ "awaiting_folder" "/srv/p", globForm,
    .contextReady "a gateway", taskForm]

theorem fresh_desk : Fresh "p" desk := ⟨project, rfl, by decide, rfl⟩

end DemoOnboarding

/-- Set up form by form. As shipped the last form does not get to its update. -/
theorem orderly_iff_demo : letI := DemoOnboarding.hmac
    ∃ h d, storedStep "p" d = some (some "awaiting_user_input") ∧ Orderly "p" h d := by
  let := DemoOnboarding.hmac
  refine ⟨_, _, ?_, (orderly_iff DemoOnboarding.fresh_desk
    (Run.perform (m := DemoOnboarding.manager) DemoOnboarding.inTurn .nil)).2 ?_⟩
  · decide +kernel
  · intro x hx s hs
    have hsteps : (perform DemoOnboarding.manager "p" DemoOnboarding.inTurn DemoOnboarding.desk).1.map
        (fun x => (storedStep "p" x.before, x.call.writes)) =
          [(some (some "awaiting_folder"), none), (some (some "awaiting_folder"), some .awaitingFiles),
            (some (some "awaiting_files"), some .buildingContext),
            (some (some "building_context"), some .awaitingUserInput),
            (some (some "awaiting_user_input"), some .done)] := by decide +kernel
    have hmem := List.mem_map_of_mem (f := fun x : Made => (storedStep "p" x.before, x.call.writes)) hx
    rw [List.nil_append, hsteps] at hmem
    simp only [hs, List.mem_cons, Prod.mk.injEq, Option.some.injEq, reduceCtorEq, and_false, false_or, List.not_mem_nil,
      or_false] at hmem
    right
    left
    rcases hmem with ⟨hstep, rfl⟩ | ⟨hstep, rfl⟩ | ⟨hstep, rfl⟩ | ⟨hstep, rfl⟩
    · exact ⟨.awaitingFolder, rfl, hstep⟩
    · exact ⟨.awaitingFiles, rfl, hstep⟩
    · exact ⟨.buildingContext, rfl, hstep⟩
    · exact ⟨.awaitingUserInput, rfl, hstep⟩

/-- **One form out of turn and the folder is skipped.** -/
theorem glob_without_folder : letI := DemoOnboarding.hmac
    ∃ x d, Run DemoOnboarding.manager "p" DemoOnboarding.desk [x] d ∧ Fresh "p" DemoOnboarding.desk ∧
      storedStep "p" d = some (some "building_context") ∧ ¬ Orderly "p" [x] d := by
  let := DemoOnboarding.hmac
  refine ⟨_, _, Run.call DemoOnboarding.globForm .nil, DemoOnboarding.fresh_desk, by decide +kernel, fun h => ?_⟩
  have hmoves := h.moves _ (List.mem_singleton.2 rfl)
  rw [show storedStep "p" DemoOnboarding.desk = some (some "awaiting_folder") by decide +kernel,
    show storedStep "p" ((DemoOnboarding.globForm.prog DemoOnboarding.manager "p").exec DemoOnboarding.desk).2 =
      some (some "building_context") by decide +kernel] at hmoves
  rcases hmoves with hsame | ⟨s, t, hnext, hs, ht⟩
  · exact absurd hsame (by decide)
  · have hfolder : Stage.awaitingFolder = s := Stage.column_inj (Option.some.inj hs)
    have hcontext : Stage.buildingContext = t := Stage.column_inj (Option.some.inj ht)
    rw [← hfolder, ← hcontext] at hnext
    cases hnext

end Onboarding

end A2AGateway
