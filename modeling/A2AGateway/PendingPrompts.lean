import A2AGateway.OnboardingOrder

/-!
# The prompt and the stored step

The step of a project is kept in `projects.onboarding_step`, and once more in the prompt that waits in
memory for the web UI. `start`, the folder form and `context_ready` read the project and then put up a prompt
for the step: as shipped the read fails, there is never a prompt, and none is for another step. With the
column decoded the last form takes the prompt away, but the form with the glob moves the step to
`building_context` and leaves the old prompt where it is (`onboarding.rs:211-250`). The two agree in exactly the
sessions in which no call that moves the step leaves an old prompt behind (`prompts_match`).
-/

namespace A2AGateway

open Gw

namespace Onboarding

/-- The prompt that is up for the project is for its stored step. -/
def PromptMatches (id : String) (d : Desk) : Prop :=
  ∀ prompt, d.pending id = some prompt → storedStep id d = some (some prompt.step)

section
variable [HmacSha256] (m : Manager) (id : String)

/-- The call gets as far as putting up its prompt. -/
def Call.Prompts (d : Desk) : Call → Prop
  | .start => Passes d.world ∧ d.world.db.engine.integers = .widened
  | .answer _ step value =>
    if step = "awaiting_folder" then
      (if trim value = "" then
        Clear 6 d.world ∧ ∃ p, Projects.byId d.world.db id = some p ∧
          IsDirectory d.world s!"data/projects/{p.name}"
      else Clear 5 d.world ∧ IsDirectory d.world (trim value)) ∧ d.world.db.engine.integers = .widened
    else False
  | .contextReady _ => Clear 2 d.world ∧ d.world.db.engine.integers = .widened

/-- The call comes in its turn: the first prompt and the context for a project that waits for them, a form for
the stored step. -/
def InTurn (d : Desk) : Call → Prop
  | .start => storedStep id d = some (some "awaiting_folder")
  | .answer _ step _ => storedStep id d = some (some step)
  | .contextReady _ => storedStep id d = some (some "building_context")

/-- If the call moves the step it takes the old prompt away, or there is none: the last form does, and so do
the folder form and `context_ready` unless the database fails them after the update. -/
def LeavesNoPrompt (d : Desk) (c : Call) : Prop :=
  c.Reaches m id d → c.writes = some .done ∨ c.Prompts id d ∨ d.pending id = none

end

/-! ## What is put up -/

/-- The prompt of the project is as before. -/
def SamePrompt (id : String) (d d' : Desk) : Prop := d'.pending id = d.pending id

theorem SamePrompt.trans {id : String} {a b c : Desk} (h : SamePrompt id a b) (h' : SamePrompt id b c) :
    SamePrompt id a c := Eq.trans h' h

theorem SamePrompt.exec {id : String} {α : Type} {p : OnDesk α} (hp : p.Moves (SamePrompt id)) (d : Desk) :
    SamePrompt id d (p.exec d).2 := by
  apply Prog.Moves.exec _ _ hp
  · intro d
    rfl
  · intro a b c
    exact SamePrompt.trans

/-- What happens in the gateway leaves the prompts alone. -/
theorem samePrompt_lift {id : String} {α : Type} (p : Gw α) : (lift p).Moves (SamePrompt id) :=
  Prog.moves_within (fun _ _ => rfl) p

theorem samePrompt_pushNotification {id : String} (m : Manager) (message eventType : String) :
    (pushNotification m message eventType).Moves (SamePrompt id) := by
  refine ⟨fun d => ?_, fun _ => trivial⟩
  show (if m.webhook then _ else d : Desk).pending id = d.pending id
  split <;> rfl

/-- The program puts up `o` (or takes the prompt away), or leaves the prompt as it was. -/
def PutsUp (id : String) (p : OnDesk Unit) (d : Desk) (Q : Option OnboardingPrompt → Prop) (reaches : Prop) : Prop :=
  Q ((p.exec d).2.pending id) ∧ reaches ∨ SamePrompt id d (p.exec d).2 ∧ ¬ reaches

section
variable {id : String} {d : Desk} {Q : Option OnboardingPrompt → Prop}

theorem PutsUp.congr {p : OnDesk Unit} {q r : Prop} (h : PutsUp id p d Q q) (hqr : q ↔ r) : PutsUp id p d Q r := by
  rw [PutsUp, ← hqr]
  exact h

/-- Before it, something that leaves the prompts alone and may fail. -/
theorem PutsUp.bind {α : Type} {q : OnDesk α} {g : α → OnDesk Unit} {reaches : α → Desk → Prop}
    (hq : q.Moves (SamePrompt id)) (hg : ∀ a d₁, q.exec d = (.ok a, d₁) → PutsUp id (g a) d₁ Q (reaches a d₁)) :
    PutsUp id (q.bind g) d Q (∃ a d₁, q.exec d = (.ok a, d₁) ∧ reaches a d₁) := by
  have hsame := SamePrompt.exec hq d
  refine Prog.exec_bind_reaches (P := SamePrompt id d) (Q := fun d' => Q (d'.pending id)) hsame fun a d₁ hrun => ?_
  rw [hrun] at hsame
  rcases hg a d₁ hrun with hput | ⟨hkept, hreach⟩
  · exact Or.inl hput
  · exact Or.inr ⟨hsame.trans hkept, hreach⟩

theorem PutsUp.nothing {p : OnDesk Unit} (hp : p.Moves (SamePrompt id)) : PutsUp id p d Q False :=
  Or.inr ⟨SamePrompt.exec hp d, not_false⟩

variable (m : Manager)

theorem putsUp_emitPrompt {prompt : OnboardingPrompt} (hid : prompt.projectId = id) :
    PutsUp id (emitPrompt m prompt) d (· = some prompt) True := by
  refine Or.inl ⟨?_, trivial⟩
  have hput : (modify fun d => { d with pending := Function.update d.pending prompt.projectId (some prompt) }).exec d =
      (.ok (), { d with pending := Function.update d.pending prompt.projectId (some prompt) }) := rfl
  unfold emitPrompt
  rw [Prog.bind_eq, Prog.exec_bind_of_ok hput]
  have hkept := SamePrompt.exec (@samePrompt_pushNotification id m prompt.message prompt.step)
    { d with pending := Function.update d.pending prompt.projectId (some prompt) }
  rw [hkept, hid]
  exact Function.update_self _ _ _

/-- What `start`, the folder form and `context_ready` end with: the project is read and a prompt put up. -/
theorem putsUp_prompt {step : String} {prompt : Project → F64 → OnboardingPrompt}
    (hid : ∀ p now, p.id = id → (prompt p now).projectId = id) (hstep : ∀ p now, (prompt p now).step = step)
    (hd : storedStep id d ≠ none) :
    PutsUp id ((lift (theProject id)).bind fun project => (lift nowSecs).bind fun now => emitPrompt m (prompt project now))
      d (fun o => ∃ prompt, o = some prompt ∧ prompt.step = step)
      (Passes d.world ∧ d.world.db.engine.integers = .widened) := by
  apply PutsUp.congr
  · apply PutsUp.bind (samePrompt_lift _)
    intro p d₁ hread
    obtain ⟨w, hrow, -⟩ := exec_lift_iff.1 hread
    have hp := (Projects.byId_eq_some.1 (exec_theProject_iff.1 hrow).2.2.1).2
    have hnow : (lift nowSecs).exec d₁ = (.ok d₁.world.now, d₁) := rfl
    have hemit := putsUp_emitPrompt (d := d₁) m (hid p d₁.world.now hp)
    rw [PutsUp, Prog.exec_bind_of_ok hnow]
    rcases hemit with ⟨hput, -⟩ | ⟨-, hno⟩
    · exact Or.inl ⟨⟨_, hput, hstep _ _⟩, trivial⟩
    · exact absurd trivial hno
  constructor
  · rintro ⟨p, d₁, hread, -⟩
    obtain ⟨w, hrow, -⟩ := exec_lift_iff.1 hread
    obtain ⟨hpass, hwidened, -⟩ := exec_theProject_iff.1 hrow
    exact ⟨hpass, hwidened⟩
  · rintro ⟨hpass, hwidened⟩
    obtain ⟨o, ho⟩ := Option.ne_none_iff_exists'.1 hd
    obtain ⟨p, hp, -⟩ := Option.map_eq_some_iff.1 ho
    exact ⟨p, _, exec_lift_iff.2 ⟨_, exec_theProject_iff.2 ⟨hpass, hwidened, hp, rfl⟩, rfl⟩, trivial⟩

/-! ## The handlers -/

theorem exec_setOnboardingStep_iff {step : Option String} :
    (∃ u d', (lift (Projects.setOnboardingStep id step)).exec d = (.ok u, d') ∧ Passes d'.world ∧
        d'.world.db.engine.integers = .widened) ↔ Clear 2 d.world ∧ d.world.db.engine.integers = .widened := by
  constructor
  · rintro ⟨u, d', hset, hpass, hwidened⟩
    obtain ⟨w, hstored, rfl⟩ := exec_lift_iff.1 hset
    obtain ⟨hpass₀, db, hdb, rfl⟩ := exec_execute_iff.1 hstored
    cases hdb
    exact ⟨⟨hpass₀, hpass, trivial⟩, hwidened⟩
  · rintro ⟨⟨hpass₀, hpass, -⟩, hwidened⟩
    exact ⟨(), _, exec_lift_iff.2 ⟨_, exec_execute_iff.2 ⟨hpass₀, _, rfl, rfl⟩, rfl⟩, hpass, hwidened⟩

/-- What leaves the step alone leaves the project there. -/
theorem storedStep_ne_none {α : Type} {p : Gw α} {d' : Desk} {a : α} (hp : p.Moves (SameColumn (·.onboardingStep) id))
    (hrun : (lift p).exec d = (.ok a, d')) (hd : storedStep id d ≠ none) : storedStep id d' ≠ none := by
  have hsame := SameOnDesk.exec (moves_lift hp) d
  rw [hrun] at hsame
  have hstep : storedStep id d' = storedStep id d := hsame.1
  rwa [hstep]

/-- What leaves the step alone leaves the decoding alone. -/
theorem decoding_of_lift {α : Type} {p : Gw α} {d' : Desk} {a : α} (hp : p.Moves (SameColumn (·.onboardingStep) id))
    (hrun : (lift p).exec d = (.ok a, d')) : d'.world.db.engine = d.world.db.engine := by
  have hsame := SameOnDesk.exec (moves_lift hp) d
  rw [hrun] at hsame
  exact hsame.2

/-- The step is stored, the project read and its prompt put up. -/
theorem putsUp_step {o : Option String} {step : String} {prompt : Project → F64 → OnboardingPrompt}
    (hid : ∀ p now, p.id = id → (prompt p now).projectId = id) (hstep : ∀ p now, (prompt p now).step = step)
    (hd : storedStep id d ≠ none) :
    PutsUp id ((lift (Projects.setOnboardingStep id o)).bind fun _ => (lift (theProject id)).bind fun project =>
      (lift nowSecs).bind fun now => emitPrompt m (prompt project now)) d
      (fun o => ∃ prompt, o = some prompt ∧ prompt.step = step)
      (Clear 2 d.world ∧ d.world.db.engine.integers = .widened) := by
  apply PutsUp.congr
  · apply PutsUp.bind (samePrompt_lift _)
    intro u d₁ hset
    apply putsUp_prompt m hid hstep
    obtain ⟨o', ho⟩ := Option.ne_none_iff_exists'.1 hd
    rcases @exec_setOnboardingStep _ _ _ o ho with ⟨-, d', hset', hd'⟩ | ⟨-, e, d', hset', -⟩
    · rw [hset] at hset'
      cases hset'
      rw [hd']
      simp
    · rw [hset] at hset'
      cases hset'
  · exact exec_setOnboardingStep_iff

theorem putsUp_start (hd : storedStep id d ≠ none) :
    PutsUp id (Onboarding.start m id) d (fun o => ∃ prompt, o = some prompt ∧ prompt.step = "awaiting_folder")
      (Passes d.world ∧ d.world.db.engine.integers = .widened) := by
  unfold Onboarding.start
  exact putsUp_prompt m (fun _ _ hp => hp) (fun _ _ => rfl) hd

theorem putsUp_contextReady (summary : String) (hd : storedStep id d ≠ none) :
    PutsUp id (contextReady m id summary) d (fun o => ∃ prompt, o = some prompt ∧ prompt.step = "awaiting_user_input")
      (Clear 2 d.world ∧ d.world.db.engine.integers = .widened) := by
  unfold contextReady
  exact putsUp_step m (fun _ _ _ => rfl) (fun _ _ => rfl) hd

theorem putsUp_handleFolderAnswer (value : String) (hd : storedStep id d ≠ none) :
    PutsUp id (handleFolderAnswer m id value) d (fun o => ∃ prompt, o = some prompt ∧ prompt.step = "awaiting_files")
      ((if trim value = "" then
        Clear 6 d.world ∧ ∃ p, Projects.byId d.world.db id = some p ∧
          IsDirectory d.world s!"data/projects/{p.name}"
      else Clear 5 d.world ∧ IsDirectory d.world (trim value)) ∧ d.world.db.engine.integers = .widened) := by
  have hanswered : ((if trim value = "" then Clear 6 d.world ∧ ∃ p, Projects.byId d.world.db id = some p ∧
      IsDirectory d.world s!"data/projects/{p.name}" else Clear 5 d.world ∧ IsDirectory d.world (trim value)) ∧
        d.world.db.engine.integers = .widened) ↔ (∃ path w, (answeredPath id value).exec d.world = (.ok path, w) ∧
          Clear 5 w ∧ IsDirectory w path) ∧ d.world.db.engine.integers = .widened := by
    refine and_congr_left fun hwidened => ?_
    rw [answeredPath_iff, hwidened]
    simp
  rw [hanswered]
  unfold handleFolderAnswer
  simp only [Prog.bind_eq]
  apply PutsUp.congr
  · apply PutsUp.bind (samePrompt_lift _)
    intro path d₁ hpath
    have hd₁ := storedStep_ne_none (moves_answeredPath value) hpath hd
    apply PutsUp.bind (samePrompt_lift _)
    intro u d₂ hfolder
    have hd₂ := storedStep_ne_none (moves_setFolderPath (fun _ _ => rfl) path) hfolder hd₁
    exact putsUp_step m (fun _ _ _ => rfl) (fun _ _ => rfl) hd₂
  constructor
  · rintro ⟨path, d₁, hlift, u, d₂, hfolder, hclear, hwidened⟩
    have hengine := (decoding_of_lift (moves_setFolderPath (fun _ _ => rfl) path) hfolder).trans
      (decoding_of_lift (moves_answeredPath value) hlift)
    obtain ⟨w, hpath, rfl⟩ := exec_lift_iff.1 hlift
    obtain ⟨w', hset, rfl⟩ := exec_lift_iff.1 hfolder
    rw [hengine] at hwidened
    exact ⟨⟨path, w, hpath, exec_setFolderPath_iff.1 ⟨w', hset, hclear⟩⟩, hwidened⟩
  · rintro ⟨⟨path, w, hpath, hdir⟩, hwidened⟩
    obtain ⟨w', hset, hclear⟩ := exec_setFolderPath_iff.2 hdir
    have hlift : (lift (answeredPath id value)).exec d = (.ok path, { d with world := w }) :=
      exec_lift_iff.2 ⟨w, hpath, rfl⟩
    have hfolder : (lift (Projects.setFolderPath id path)).exec { d with world := w } =
        (.ok (), { d with world := w' }) := exec_lift_iff.2 ⟨w', hset, rfl⟩
    have hengine := (decoding_of_lift (moves_setFolderPath (fun _ _ => rfl) path) hfolder).trans
      (decoding_of_lift (moves_answeredPath value) hlift)
    rw [← hengine] at hwidened
    exact ⟨path, _, hlift, (), _, hfolder, hclear, hwidened⟩

/-- The form with the glob puts nothing up and takes nothing away. -/
theorem samePrompt_handleFilesAnswer [HmacSha256] (entryId : Uuid) (value : String) :
    (handleFilesAnswer m entryId id value).Moves (SamePrompt id) := by
  unfold handleFilesAnswer
  simp only [Prog.bind_eq]
  apply Prog.Moves.bind (samePrompt_lift _)
  intro _
  apply Prog.Moves.bind (samePrompt_lift _)
  intro _
  apply Prog.Moves.bind (samePrompt_lift _)
  intro project
  apply Prog.Moves.bind (samePrompt_lift _)
  intro _
  apply Prog.Moves.bind
  · refine ⟨fun d => ?_, fun _ => trivial⟩
    show (if m.contextBuilder then _ else d : Desk).pending id = d.pending id
    split <;> rfl
  · intro _
    exact samePrompt_pushNotification m _ _

/-- The step is cleared, and then the prompt is taken away. -/
theorem putsUp_cleared (message : String) :
    PutsUp id ((lift (Projects.setOnboardingStep id none)).bind fun _ => (clearPrompt id).bind fun _ =>
      pushNotification m message "onboarding") d (· = none) (Passes d.world) := by
  apply PutsUp.congr
  · apply @PutsUp.bind _ _ _ _ _ _ (fun _ _ => True) (samePrompt_lift _)
    intro u d₁ _
    left
    have hclear : (clearPrompt id).exec d₁ = (.ok (), { d₁ with pending := Function.update d₁.pending id none }) := rfl
    rw [Prog.exec_bind_of_ok hclear]
    have hkept := SamePrompt.exec (@samePrompt_pushNotification id m message "onboarding")
      { d₁ with pending := Function.update d₁.pending id none }
    rw [hkept]
    exact ⟨Function.update_self _ _ _, trivial⟩
  constructor
  · rintro ⟨u, d₁, hset, -⟩
    obtain ⟨w, hstored, -⟩ := exec_lift_iff.1 hset
    exact (exec_execute_iff.1 hstored).1
  · intro hpass
    exact ⟨(), _, exec_lift_iff.2 ⟨_, exec_execute_iff.2 ⟨hpass, _, rfl, rfl⟩, rfl⟩, trivial⟩

/-- The last form takes the prompt away if it gets as far as clearing the step. -/
theorem putsUp_handleUserTask [HmacSha256] (entryId : Uuid) (value : String) (hd : storedStep id d ≠ none) :
    PutsUp id (handleUserTask m entryId id value) d (· = none)
      (Call.Reaches m id d (.answer entryId "awaiting_user_input" value)) := by
  have hreaches : Call.Reaches m id d (.answer entryId "awaiting_user_input" value) ↔ trim value ≠ "" ∧
      Clear 3 d.world ∧ d.world.db.engine.integers = .widened ∧ ∃ db, TaskLog.insertRow (TaskLog.appendRow m.secret entryId id
        m.gatewayName "user" .focus value none d.world.now d.world.db) d.world.db = some db := by simp [Call.Reaches]
  apply PutsUp.congr _ hreaches.symm
  unfold handleUserTask
  split
  · rename_i hblank
    apply PutsUp.congr (PutsUp.nothing (Prog.moves_ret ()))
    simp [hblank]
  · rename_i htask
    simp only [Prog.bind_eq]
    apply PutsUp.congr
    · apply PutsUp.bind (samePrompt_lift _)
      intro project d₁ _
      apply PutsUp.bind (samePrompt_lift _)
      intro entry d₂ _
      exact putsUp_cleared m _
    · rw [userTask_reaches m hd]
      simp [htask]

end

/-! ## One call -/

section
variable {m : Manager} {id : String} {d : Desk}

/-- A call that moves the step and may put up a prompt for the new one: the old prompt, which is for the old
step, must not stay. -/
theorem matches_iff_of_moves {p : OnDesk Unit} {old new : String} {R P : Prop} (hd : storedStep id d = some (some old))
    (hm : PromptMatches id d) (hne : old ≠ new) (hPR : P → R)
    (hstep : storedStep id (p.exec d).2 = some (some new) ∧ R ∨ storedStep id (p.exec d).2 = some (some old) ∧ ¬ R)
    (hput : PutsUp id p d (fun o => ∃ prompt, o = some prompt ∧ prompt.step = new) P) :
    PromptMatches id (p.exec d).2 ↔ (R → P ∨ d.pending id = none) := by
  rcases hput with ⟨⟨prompt, hprompt, hnew⟩, hP⟩ | ⟨hsame, hP⟩
  · rcases hstep with ⟨hstored, -⟩ | ⟨-, hR⟩
    · refine ⟨fun _ _ => Or.inl hP, fun _ prompt' h' => ?_⟩
      rw [hprompt, Option.some.injEq] at h'
      rw [hstored, ← h', hnew]
    · exact absurd (hPR hP) hR
  · rcases hstep with ⟨hstored, hR⟩ | ⟨hstored, hR⟩
    · constructor
      · intro hmatch _
        right
        cases hpending : d.pending id with
        | none => rfl
        | some prompt =>
          -- The old prompt is for the old step.
          have hold := hm prompt hpending
          have hnew := hmatch prompt (Eq.trans hsame hpending)
          rw [hd, Option.some.injEq, Option.some.injEq] at hold
          rw [hstored, Option.some.injEq, Option.some.injEq] at hnew
          exact absurd (hold.trans hnew.symm) hne
      · intro h prompt hprompt
        rw [hsame, (h hR).resolve_left hP] at hprompt
        cases hprompt
    · refine ⟨fun _ h => absurd h hR, fun _ prompt hprompt => ?_⟩
      rw [hsame] at hprompt
      rw [hstored, ← hd]
      exact hm prompt hprompt

theorem Clear.pred {n : Nat} {w : World} (h : Clear (n + 1) w) : Clear n w := by
  induction n generalizing w with
  | zero => trivial
  | succ n ih => exact ⟨h.1, ih h.2⟩

variable [HmacSha256]

theorem prog_awaitingFolder (entryId : Uuid) (value : String) :
    (Call.answer entryId "awaiting_folder" value).prog m id = handleFolderAnswer m id value := by
  rw [Call.prog, answer, if_pos rfl]

theorem prog_awaitingFiles (entryId : Uuid) (value : String) :
    (Call.answer entryId "awaiting_files" value).prog m id = handleFilesAnswer m entryId id value := by
  rw [Call.prog, answer, if_neg (by decide), if_pos rfl]

theorem prog_awaitingUserInput (entryId : Uuid) (value : String) :
    (Call.answer entryId "awaiting_user_input" value).prog m id = handleUserTask m entryId id value := by
  rw [Call.prog, answer, if_neg (by decide), if_neg (by decide), if_pos rfl]

theorem folderForm_matches_iff {entryId : Uuid} {value : String} (hd : storedStep id d = some (some "awaiting_folder"))
    (hm : PromptMatches id d) :
    PromptMatches id (((Call.answer entryId "awaiting_folder" value).prog m id).exec d).2 ↔
      LeavesNoPrompt m id d (.answer entryId "awaiting_folder" value) := by
  have hPR : Call.Prompts id d (.answer entryId "awaiting_folder" value) →
      Call.Reaches m id d (.answer entryId "awaiting_folder" value) := by
    simp only [Call.Prompts, Call.Reaches, if_true]
    rintro ⟨hreach, hwidened⟩
    split
    · rename_i hblank
      rw [if_pos hblank] at hreach
      exact ⟨hreach.1.pred, hwidened, hreach.2⟩
    · rename_i hnamed
      rw [if_neg hnamed] at hreach
      exact ⟨hreach.1.pred, hreach.2⟩
  have hprompts := @PutsUp.congr _ _ _ _ _ (Call.Prompts id d (.answer entryId "awaiting_folder" value))
    (putsUp_handleFolderAnswer m value (by rw [hd]; simp)) (by simp [Call.Prompts])
  rw [← prog_awaitingFolder entryId value] at hprompts
  have hwrites := call_writes m (c := .answer entryId "awaiting_folder" value) rfl hd
  have hiff := matches_iff_of_moves hd hm (by decide) hPR hwrites hprompts
  rw [hiff, LeavesNoPrompt]
  refine imp_congr_right fun _ => ?_
  simp [Call.writes]

/-- The glob form puts up nothing. -/
theorem filesForm_matches_iff {entryId : Uuid} {value : String} (hd : storedStep id d = some (some "awaiting_files"))
    (hm : PromptMatches id d) :
    PromptMatches id (((Call.answer entryId "awaiting_files" value).prog m id).exec d).2 ↔
      LeavesNoPrompt m id d (.answer entryId "awaiting_files" value) := by
  have hput : PutsUp id (handleFilesAnswer m entryId id value) d
      (fun o => ∃ prompt, o = some prompt ∧ prompt.step = "building_context") False :=
    PutsUp.nothing (samePrompt_handleFilesAnswer m entryId value)
  rw [← prog_awaitingFiles entryId value] at hput
  have hwrites := call_writes m (c := .answer entryId "awaiting_files" value) rfl hd
  have hiff := matches_iff_of_moves hd hm (by decide) False.elim hwrites hput
  rw [hiff, LeavesNoPrompt]
  refine imp_congr_right fun _ => ?_
  simp [Call.writes, Call.Prompts]

/-- The task form takes the prompt away when it ends the onboarding. -/
theorem taskForm_matches_iff {entryId : Uuid} {value : String} (hd : storedStep id d = some (some "awaiting_user_input"))
    (hm : PromptMatches id d) :
    PromptMatches id (((Call.answer entryId "awaiting_user_input" value).prog m id).exec d).2 ↔
      LeavesNoPrompt m id d (.answer entryId "awaiting_user_input" value) := by
  have hput := putsUp_handleUserTask m entryId value (by rw [hd]; simp)
  have hwrites := call_writes m (c := .answer entryId "awaiting_user_input" value) rfl hd
  rw [prog_awaitingUserInput] at hwrites ⊢
  refine ⟨fun _ _ => Or.inl (by simp [Call.writes]), fun _ prompt hprompt => ?_⟩
  rcases hput with ⟨hnone, -⟩ | ⟨hsame, hno⟩
  · rw [hnone] at hprompt
    cases hprompt
  · rcases hwrites with ⟨-, hreach⟩ | ⟨hstored, -⟩
    · exact absurd hreach hno
    · rw [hstored, ← hd]
      rw [hsame] at hprompt
      exact hm prompt hprompt

/-- **A call in its turn keeps prompt and step together if and only if it leaves no old prompt behind.** -/
theorem call_matches_iff {c : Call} (hturn : InTurn id d c) (hm : PromptMatches id d) :
    PromptMatches id ((c.prog m id).exec d).2 ↔ LeavesNoPrompt m id d c := by
  cases c with
  | start =>
    have hd : storedStep id d = some (some "awaiting_folder") := hturn
    refine ⟨fun _ h => h.elim, fun _ prompt hprompt => ?_⟩
    rw [call_writes_nothing m rfl]
    rcases putsUp_start m (by rw [hd]; simp) with ⟨⟨prompt', hput, hstep⟩, -⟩ | ⟨hsame, -⟩
    · have heq : prompt = prompt' := Option.some.inj (hprompt.symm.trans hput)
      rw [heq, hstep, hd]
    · exact hm prompt (Eq.trans (Eq.symm hsame) hprompt)
  | contextReady summary =>
    have hd : storedStep id d = some (some "building_context") := hturn
    have hiff := matches_iff_of_moves hd hm (by decide) (fun h => h.1.pred) (call_writes m (c := .contextReady summary) rfl hd)
      (putsUp_contextReady m summary (by rw [hd]; simp))
    rw [hiff, LeavesNoPrompt]
    refine imp_congr_right fun _ => ?_
    simp [Call.writes, Call.Prompts]
  | answer entryId step value =>
    have hd : storedStep id d = some (some step) := hturn
    by_cases hfolder : step = "awaiting_folder"
    · subst hfolder
      exact folderForm_matches_iff hd hm
    · by_cases hfiles : step = "awaiting_files"
      · subst hfiles
        exact filesForm_matches_iff hd hm
      · by_cases htask : step = "awaiting_user_input"
        · subst htask
          exact taskForm_matches_iff hd hm
        · have hnothing : ((Call.answer entryId step value).prog m id).exec d = (.ok (), d) := by
            rw [Call.prog, answer, if_neg hfolder, if_neg hfiles, if_neg htask]
            rfl
          rw [hnothing]
          refine ⟨fun _ h => ?_, fun _ => hm⟩
          rw [Call.Reaches, if_neg hfolder, if_neg hfiles, if_neg htask] at h
          exact h.elim

section
variable {β : Type} {g : Project → β} (hstep : ∀ p step, g { p with onboardingStep := step } = g p)
include hstep

omit [HmacSha256] in
/-- The step is stored, the project read and its prompt put up. -/
theorem moves_step (step : Option String) (prompt : Project → F64 → OnboardingPrompt) :
    ((lift (Projects.setOnboardingStep id step)).bind fun _ => (lift (theProject id)).bind fun project =>
      (lift nowSecs).bind fun now => emitPrompt m (prompt project now)).Moves (SameOnDesk g id) := by
  apply Prog.Moves.bind (moves_lift (moves_setOnboardingStep hstep step))
  intro u
  exact moves_prompt m prompt

omit [HmacSha256] in
theorem moves_handleFolderAnswer (hfolder : ∀ p dir, g { p with folderPath := dir } = g p) (value : String) :
    (handleFolderAnswer m id value).Moves (SameOnDesk g id) := by
  unfold handleFolderAnswer
  simp only [Prog.bind_eq]
  apply Prog.Moves.bind (moves_lift (moves_answeredPath value))
  intro path
  apply Prog.Moves.bind (moves_lift (moves_setFolderPath hfolder path))
  intro u
  exact moves_step hstep _ _

theorem moves_handleFilesAnswer (hglob : ∀ p glob, g { p with fileGlob := glob } = g p) (entryId : Uuid) (value : String) :
    (handleFilesAnswer m entryId id value).Moves (SameOnDesk g id) := by
  unfold handleFilesAnswer
  simp only [Prog.bind_eq]
  apply Prog.Moves.bind (moves_lift (moves_setFileGlob hglob _))
  intro u
  apply Prog.Moves.bind (moves_lift (moves_setOnboardingStep hstep _))
  intro u
  exact moves_dispatch m entryId _

theorem moves_handleUserTask (entryId : Uuid) (value : String) :
    (handleUserTask m entryId id value).Moves (SameOnDesk g id) := by
  unfold handleUserTask
  split
  · trivial
  · simp only [Prog.bind_eq]
    apply Prog.Moves.bind (moves_lift (moves_theProject id))
    intro project
    apply Prog.Moves.bind (moves_lift moves_append)
    intro entry
    apply Prog.Moves.bind (moves_lift (moves_setOnboardingStep hstep _))
    intro u
    apply Prog.Moves.bind
    · apply moves_modify
      intro d
      rfl
    · intro u
      exact moves_pushNotification m _ _

end

/-- A call about a project leaves it there and its columns decoded as they were. -/
theorem moves_call (m : Manager) (id : String) (c : Call) : (c.prog m id).Moves (SameOnDesk (fun _ => ()) id) := by
  cases c with
  | start => exact moves_start m
  | contextReady summary => exact moves_step (fun _ _ => rfl) _ _
  | answer entryId step value =>
    by_cases hfolder : step = "awaiting_folder"
    · rw [hfolder, prog_awaitingFolder]
      exact moves_handleFolderAnswer (fun _ _ => rfl) (fun _ _ => rfl) value
    · by_cases hfiles : step = "awaiting_files"
      · rw [hfiles, prog_awaitingFiles]
        exact moves_handleFilesAnswer (fun _ _ => rfl) (fun _ _ => rfl) entryId value
      · by_cases htask : step = "awaiting_user_input"
        · rw [htask, prog_awaitingUserInput]
          exact moves_handleUserTask (fun _ _ => rfl) entryId value
        · rw [Call.prog, answer, if_neg hfolder, if_neg hfiles, if_neg htask]
          trivial

/-- As shipped the read of the project that comes before every prompt fails. -/
theorem call_puts_nothing {c : Call} (hshipped : d.world.AsShipped) (hturn : InTurn id d c) (hnone : d.pending id = none) :
    ((c.prog m id).exec d).2.pending id = none := by
  have hunread : d.world.db.engine.integers ≠ .widened := by
    rw [show d.world.db.engine.integers = .refused from hshipped]
    exact IntegerDecoding.noConfusion
  have hkept : ∀ {p : OnDesk Unit} {Q : Option OnboardingPrompt → Prop} {R : Prop},
      PutsUp id p d Q (R ∧ d.world.db.engine.integers = .widened) → (p.exec d).2.pending id = none := by
    rintro p Q R (⟨-, -, hwidened⟩ | ⟨hsame, -⟩)
    · exact absurd hwidened hunread
    · exact Eq.trans hsame hnone
  cases c with
  | start => exact hkept (putsUp_start m (by rw [show storedStep id d = _ from hturn]; simp))
  | contextReady summary =>
    exact hkept (putsUp_contextReady m summary (by rw [show storedStep id d = _ from hturn]; simp))
  | answer entryId step value =>
    have hd : storedStep id d ≠ none := by rw [show storedStep id d = _ from hturn]; simp
    by_cases hfolder : step = "awaiting_folder"
    · subst hfolder
      have hput := putsUp_handleFolderAnswer m value hd
      rw [← prog_awaitingFolder entryId value] at hput
      exact hkept hput
    · by_cases hfiles : step = "awaiting_files"
      · subst hfiles
        have hsame := SamePrompt.exec (@samePrompt_handleFilesAnswer id m _ entryId value) d
        rw [← prog_awaitingFiles entryId value] at hsame
        exact Eq.trans hsame hnone
      · by_cases htask : step = "awaiting_user_input"
        · subst htask
          have hput := putsUp_handleUserTask m entryId value hd
          rw [← prog_awaitingUserInput entryId value] at hput
          rcases hput with ⟨hgone, -⟩ | ⟨hsame, -⟩
          · exact hgone
          · exact Eq.trans hsame hnone
        · rw [Call.prog, answer, if_neg hfolder, if_neg hfiles, if_neg htask]
          exact hnone

end

/-! ## Every session -/

section
variable [HmacSha256] (m : Manager) (id : String)

/-- Calls in their turn, and looks at the prompt, one after the other, with the states on the way. Between them
the rest of the gateway may do anything but write this project's step or prompt; how columns are decoded is the
driver's, and stays. -/
inductive Session (d₀ : Desk) : List Made → List Desk → Desk → Prop
  | nil : Session d₀ [] [d₀] d₀
  | idle {h : List Made} {ds : List Desk} {d d' : Desk} :
      Session d₀ h ds d → storedStep id d' = storedStep id d → SamePrompt id d d' →
      d'.world.db.engine = d.world.db.engine → Session d₀ h (ds ++ [d']) d'
  | call {h : List Made} {ds : List Desk} {d : Desk} (c : Call) :
      Session d₀ h ds d → InTurn id d c →
      Session d₀ (h ++ [⟨c, d, ((c.prog m id).exec d).2⟩]) (ds ++ [((c.prog m id).exec d).2]) ((c.prog m id).exec d).2
  | take {h : List Made} {ds : List Desk} {d : Desk} :
      Session d₀ h ds d → Session d₀ h (ds ++ [((takePrompt id).exec d).2]) ((takePrompt id).exec d).2
  | peek {h : List Made} {ds : List Desk} {d : Desk} :
      Session d₀ h ds d → Session d₀ h (ds ++ [((peekPrompt id).exec d).2]) ((peekPrompt id).exec d).2

variable {m id} {h : List Made} {ds : List Desk} {d₀ d : Desk}

theorem Session.mem (hs : Session m id d₀ h ds d) : d ∈ ds := by
  cases hs with
  | nil => exact List.mem_singleton.2 rfl
  | _ => exact List.mem_append_right _ (List.mem_singleton.2 rfl)

omit [HmacSha256] in
theorem forall_states {d' : Desk} : (∀ x ∈ ds ++ [d'], PromptMatches id x) ↔
    (∀ x ∈ ds, PromptMatches id x) ∧ PromptMatches id d' := by
  rw [List.forall_mem_append, List.forall_mem_singleton]

/-- Calls with nothing in between, each in its turn. -/
theorem Session.perform (cs : List Call) : ∀ {h : List Made} {ds : List Desk} {d : Desk}, Session m id d₀ h ds d →
    (∀ x ∈ (perform m id cs d).1, InTurn id x.before x.call) →
    Session m id d₀ (h ++ (perform m id cs d).1) (ds ++ (perform m id cs d).1.map (·.after)) (perform m id cs d).2 := by
  induction cs with
  | nil =>
    intro h ds d hs _
    rw [Onboarding.perform, List.map_nil, List.append_nil, List.append_nil]
    exact hs
  | cons c cs ih =>
    intro h ds d hs hturn
    rw [Onboarding.perform, List.forall_mem_cons] at hturn
    have hrest := ih (hs.call c hturn.1) hturn.2
    rw [List.append_assoc, List.append_assoc] at hrest
    exact hrest

/-- As shipped no prompt is ever put up. -/
theorem Session.as_shipped (hs : Session m id d₀ h ds d) (hshipped : d₀.world.AsShipped) (h₀ : d₀.pending id = none) :
    d.world.AsShipped ∧ ∀ x ∈ ds, x.pending id = none := by
  induction hs with
  | nil =>
    refine ⟨hshipped, fun x hx => ?_⟩
    rw [List.mem_singleton.1 hx]
    exact h₀
  | idle hrun hstep hsame hengine ih =>
    obtain ⟨hdecoding, hnone⟩ := ih
    rw [List.forall_mem_append, List.forall_mem_singleton]
    exact ⟨(congrArg Engine.integers hengine).trans hdecoding, hnone, Eq.trans hsame (hnone _ hrun.mem)⟩
  | @call h ds d c hrun hturn ih =>
    obtain ⟨hdecoding, hnone⟩ := ih
    rw [List.forall_mem_append, List.forall_mem_singleton]
    have hengine := (SameOnDesk.exec (moves_call m id c) d).2
    exact ⟨(congrArg Engine.integers hengine).trans hdecoding, hnone, call_puts_nothing hdecoding hturn (hnone _ hrun.mem)⟩
  | take hrun ih =>
    rw [List.forall_mem_append, List.forall_mem_singleton]
    exact ⟨ih.1, ih.2, Function.update_self _ _ _⟩
  | peek hrun ih =>
    rw [List.forall_mem_append, List.forall_mem_singleton]
    exact ⟨ih.1, ih.2, ih.2 _ hrun.mem⟩

/-- **As shipped prompt and step agree throughout every session. Whatever is decoded, they agree if and only if no
call leaves an old prompt behind.** -/
theorem prompts_match (h₀ : d₀.pending id = none) (hs : Session m id d₀ h ds d) :
    (d₀.world.AsShipped → ∀ x ∈ ds, PromptMatches id x) ∧
      ((∀ x ∈ ds, PromptMatches id x) ↔ ∀ x ∈ h, LeavesNoPrompt m id x.before x.call) := by
  constructor
  · intro hshipped x hx prompt hprompt
    rw [(hs.as_shipped hshipped h₀).2 x hx] at hprompt
    cases hprompt
  induction hs with
  | nil =>
    refine ⟨fun _ => by simp, fun _ x hx prompt hprompt => ?_⟩
    rw [List.mem_singleton.1 hx, h₀] at hprompt
    cases hprompt
  | idle hrun hstep hsame _ ih =>
    rw [forall_states, ← ih]
    refine and_iff_left_of_imp fun hall prompt hprompt => ?_
    rw [hsame] at hprompt
    rw [hstep]
    exact hall _ hrun.mem prompt hprompt
  | call c hrun hturn ih =>
    rw [forall_states, List.forall_mem_append, List.forall_mem_singleton, ← ih]
    exact and_congr_right fun hall => call_matches_iff hturn (hall _ hrun.mem)
  | @take h ds d hrun ih =>
    rw [forall_states, ← ih]
    refine and_iff_left_of_imp fun _ prompt hprompt => ?_
    have htaken : Function.update d.pending id none id = some prompt := hprompt
    rw [Function.update_self] at htaken
    cases htaken
  | peek hrun ih =>
    rw [forall_states, ← ih]
    exact and_iff_left_of_imp fun hall => hall _ hrun.mem

end

instance {id : String} (d : Desk) : (c : Call) → Decidable (InTurn id d c)
  | .start => inferInstanceAs (Decidable (storedStep id d = _))
  | .answer .. => inferInstanceAs (Decidable (storedStep id d = _))
  | .contextReady _ => inferInstanceAs (Decidable (storedStep id d = _))

namespace DemoOnboarding

def folderForm : Call := .answer ⟨"00000000-0000-4000-8000-000000000001", Uuid.hex_one⟩ "awaiting_folder" "/srv/p"

end DemoOnboarding

/-- Form by form, as shipped; and with the column decoded, each prompt taken before it is answered. -/
theorem prompts_match_demo : letI := DemoOnboarding.hmac
    (∃ h ds d, h.length = 4 ∧ storedStep "p" d = some (some "awaiting_user_input") ∧
      Session DemoOnboarding.manager "p" DemoOnboarding.desk h ds d ∧ ∀ x ∈ ds, PromptMatches "p" x) ∧
    ∃ h ds d, h.length = 5 ∧ storedStep "p" d = some none ∧
      Session DemoOnboarding.manager "p" (DemoOnboarding.desk .widening) h ds d ∧ ∀ x ∈ ds, PromptMatches "p" x := by
  let := DemoOnboarding.hmac
  constructor
  · have hs : Session DemoOnboarding.manager "p" DemoOnboarding.desk [] [DemoOnboarding.desk] DemoOnboarding.desk := .nil
    have hs := hs.perform [.start, DemoOnboarding.folderForm, DemoOnboarding.globForm, .contextReady "a gateway"]
      (by decide +kernel)
    exact ⟨_, _, _, by decide +kernel, by decide +kernel, hs, (prompts_match rfl hs).1 rfl⟩
  · have hs : Session DemoOnboarding.manager "p" (DemoOnboarding.desk .widening) [] [DemoOnboarding.desk .widening]
        (DemoOnboarding.desk .widening) := .nil
    have hs := hs.perform [.start] (by decide +kernel)
    have hs := hs.take.perform [DemoOnboarding.folderForm] (by decide +kernel)
    have hs := hs.take.perform [DemoOnboarding.globForm, .contextReady "a gateway", DemoOnboarding.taskForm] (by decide +kernel)
    refine ⟨_, _, _, by decide +kernel, by decide +kernel, hs, (prompts_match rfl hs).2.2 ?_⟩
    have hgone : ∀ x : Made, x.call.writes = some .done ∨ x.before.pending "p" = none →
        LeavesNoPrompt DemoOnboarding.manager "p" x.before x.call := fun _ hx _ => hx.imp_right Or.inr
    refine fun x hx => hgone x ?_
    revert x
    decide +kernel

-- With the column decoded the prompt for the glob is up again after the glob is accepted.
example : letI := DemoOnboarding.hmac
    let d := (perform DemoOnboarding.manager "p" [.start, DemoOnboarding.folderForm, DemoOnboarding.globForm]
      (DemoOnboarding.desk .widening)).2
    storedStep "p" d = some (some "building_context") ∧ (d.pending "p").map (·.step) = some "awaiting_files" := by
  decide +kernel

end Onboarding

end A2AGateway
