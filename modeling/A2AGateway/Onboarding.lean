import A2AGateway.Projects
import A2AGateway.TaskLog

/-!
# Onboarding of peer projects (`onboarding.rs`)

| here | there |
| --- | --- |
| `Manager`, `Desk`                  | `onboarding.rs:66-104`, `OnboardingManager` |
| `start`, `answer`                  | `onboarding.rs:109-141` |
| `takePrompt`, `peekPrompt`         | `onboarding.rs:144-151` |
| `contextReady`                     | `onboarding.rs:162-179` |
| `handleFolderAnswer`               | `onboarding.rs:183-209` |
| `handleFilesAnswer`                | `onboarding.rs:211-250` |
| `handleUserTask`                   | `onboarding.rs:252-281` |
| `emitPrompt`, `clearPrompt`, `pushNotification` | `onboarding.rs:283-319` |

The UUID of a log entry is a parameter. The messages posted to the webhook and the context builds
handed to the user's agent are recorded in the order they are sent; neither can fail a call.
-/

namespace A2AGateway

open Gw

/-- `char::is_whitespace`. -/
def isWhitespace (c : Char) : Bool :=
  (0x09 ≤ c.toNat && c.toNat ≤ 0x0D) || c.toNat == 0x20 || c.toNat == 0x85 || c.toNat == 0xA0 || c.toNat == 0x1680 ||
    (0x2000 ≤ c.toNat && c.toNat ≤ 0x200A) || c.toNat == 0x2028 || c.toNat == 0x2029 || c.toNat == 0x202F ||
    c.toNat == 0x205F || c.toNat == 0x3000

/-- `str::trim`. -/
def trim (s : String) : String :=
  String.ofList ((s.toList.dropWhile isWhitespace).reverse.dropWhile isWhitespace).reverse

namespace Onboarding

structure OnboardingPrompt where
  projectId : String
  projectName : String
  step : String
  message : String
  defaultValue : String
  createdAt : F64
deriving DecidableEq

/-- What an `OnboardingManager` is built with. -/
structure Manager where
  gatewayName : String
  secret : Bytes
  /-- Whether `entropy_webhook` is set. -/
  webhook : Bool
  /-- Whether a `ContextBuilder` has been attached. -/
  contextBuilder : Bool

/-- What onboarding works on. -/
structure Desk where
  world : World
  /-- The prompts the web UI polls for, by project. -/
  pending : String → Option OnboardingPrompt
  /-- `event` and `message` of what has been posted to the webhook. -/
  pushed : List (String × String)
  /-- Project id and name of the context builds that have been dispatched. -/
  dispatched : List (String × String)

/-- The gateway's state in it. -/
def Desk.gateway : Prog.Focus Desk World where
  get d := d.world
  set w d := { d with world := w }
  get_set _ _ := rfl
  set_get _ := rfl
  set_set _ _ _ := rfl

abbrev OnDesk := Prog Desk Err

/-- An operation of the gateway. -/
def lift {α : Type} (p : Gw α) : OnDesk α := p.within Desk.gateway

/-- A change of what is kept in memory. -/
def modify (f : Desk → Desk) : OnDesk Unit := Prog.act (fun d => ((), f d)) Prog.ret

/-- `get(..).await?.context("project not found")?`. -/
def theProject (projectId : String) : Gw Project := do
  orThrow (.msg "project not found") (← Projects.get projectId)

variable (m : Manager)

def pushNotification (message eventType : String) : OnDesk Unit :=
  modify fun d => if m.webhook then { d with pushed := d.pushed ++ [(eventType, message)] } else d

def emitPrompt (prompt : OnboardingPrompt) : OnDesk Unit := do
  modify fun d => { d with pending := Function.update d.pending prompt.projectId (some prompt) }
  pushNotification m prompt.message prompt.step

def clearPrompt (projectId : String) : OnDesk Unit :=
  modify fun d => { d with pending := Function.update d.pending projectId none }

/-- "Retrieve and clear the pending prompt for the web UI." -/
def takePrompt (projectId : String) : OnDesk (Option OnboardingPrompt) :=
  Prog.act (fun d => (d.pending projectId, { d with pending := Function.update d.pending projectId none })) Prog.ret

/-- "Peek at the prompt without consuming." -/
def peekPrompt (projectId : String) : OnDesk (Option OnboardingPrompt) := Prog.look (·.pending projectId)

def start (projectId : String) : OnDesk Unit := do
  let project ← lift (theProject projectId)
  let defaultPath := s!"data/projects/{project.name}"
  let now ← lift nowSecs
  emitPrompt m
    { projectId := project.id
      projectName := project.name
      step := "awaiting_folder"
      message := s!"New peer project '{project.name}' added from {project.peerGateway}. Where should the project folder be placed on this gateway$1"
      defaultValue := defaultPath
      createdAt := now }

/-- The folder that an answer names; a blank one names the default. -/
def answeredPath (projectId folderPath : String) : Gw String :=
  if trim folderPath = "" then do
    let p ← theProject projectId
    return s!"data/projects/{p.name}"
  else return trim folderPath

/-- The glob that an answer names. -/
def answeredGlob (glob : String) : String := if trim glob = "" then "**/*" else trim glob

def handleFolderAnswer (projectId folderPath : String) : OnDesk Unit := do
  let path ← lift (answeredPath projectId folderPath)
  lift (Projects.setFolderPath projectId path)
  lift (Projects.setOnboardingStep projectId (some "awaiting_files"))
  let project ← lift (theProject projectId)
  let now ← lift nowSecs
  emitPrompt m
    { projectId
      projectName := project.name
      step := "awaiting_files"
      message := s!"Project folder set to '{path}'. Which files should be included in the sync$1 Use a glob pattern (e.g. **/*.rs, **/*.md, **/*)"
      defaultValue := "**/*"
      createdAt := now }

section
variable [HmacSha256]

def handleFilesAnswer (entryId : Uuid) (projectId glob : String) : OnDesk Unit := do
  lift (Projects.setFileGlob projectId (answeredGlob glob))
  lift (Projects.setOnboardingStep projectId (some "building_context"))
  -- "Log the context-building task for the user's own agent"
  let project ← lift (theProject projectId)
  let _ ← lift (TaskLog.append m.secret entryId projectId m.gatewayName "gateway" .note
    s!"Onboarding: building context for '{project.name}' with glob '{answeredGlob glob}'" none)
  -- "Fire-and-forget: dispatch to the user's configured agent"
  modify fun d => if m.contextBuilder then { d with dispatched := d.dispatched ++ [(projectId, project.name)] } else d
  pushNotification m s!"Building context for '{project.name}' — your agent is analysing the project now." "onboarding"

def handleUserTask (entryId : Uuid) (projectId task : String) : OnDesk Unit :=
  if trim task = "" then return ()
  else do
    -- "Write the user's stated task intention to the task log"
    let project ← lift (theProject projectId)
    let _ ← lift (TaskLog.append m.secret entryId projectId m.gatewayName "user" .focus task none)
    -- "Onboarding complete"
    lift (Projects.setOnboardingStep projectId none)
    clearPrompt projectId
    pushNotification m s!"Onboarding complete for '{project.name}'. Task logged: {task}" "onboarding"

/-- `answer`; a step that nothing handles is only warned about. -/
def answer (entryId : Uuid) (projectId step value : String) : OnDesk Unit :=
  if step = "awaiting_folder" then handleFolderAnswer m projectId value
  else if step = "awaiting_files" then handleFilesAnswer m entryId projectId value
  else if step = "awaiting_user_input" then handleUserTask m entryId projectId value
  else return ()

end

def contextReady (projectId summary : String) : OnDesk Unit := do
  lift (Projects.setOnboardingStep projectId (some "awaiting_user_input"))
  let project ← lift (theProject projectId)
  let now ← lift nowSecs
  emitPrompt m
    { projectId
      projectName := project.name
      step := "awaiting_user_input"
      message := s!"Context analysis complete for '{project.name}'.\n\n{summary}\n\nWhat would you like to work on or contribute$1"
      defaultValue := ""
      createdAt := now }

end Onboarding

end A2AGateway
