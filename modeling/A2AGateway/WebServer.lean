import A2AGateway.Contributions
import A2AGateway.Containers
import A2AGateway.Groups
import A2AGateway.Onboarding

/-!
# The web UI (`web/mod.rs`, `web/projects.rs`)

| here | there |
| --- | --- |
| `AppError`                          | `web/mod.rs:258-280` |
| `lxcClient`, `lxcList`, `lxcSpawn`, `lxcStop` | `web/mod.rs:223-254` |
| `onboardPrompt`, `onboardAnswer`    | `web/projects.rs:116-160` |
| `openContribution`, `contributionDetail` | `web/projects.rs:194-247` |
| `castVote`, `reviewPr`              | `web/projects.rs:249-291` |

A handler returns what its template is filled with; the templates and their errors are left out. The project id in the
path of a vote or a review is not looked at.
-/

namespace A2AGateway

open Gw

inductive AppError
  | notFound (msg : String)
  | internal (e : Err)
deriving DecidableEq

/-- `IntoResponse`: the status code and the text. -/
def AppError.response : AppError → Nat × String
  | notFound msg => (404, msg)
  | internal e => (500, s!"internal error: {e.text}")

namespace Web

/-! ## Onboarding -/

/-- What `onboard_prompt.html` is filled with. -/
structure PromptPartial where
  projectId : String
  step : String
  message : String
  defaultValue : String
deriving DecidableEq

open Onboarding in
/-- The prompt of the project, if there is one. -/
def onboardPrompt (id : String) : Prog Desk AppError (Option PromptPartial) := do
  let prompt ← (peekPrompt id).mapErr .internal
  return prompt.map fun p => ⟨id, p.step, p.message, p.defaultValue⟩

structure OnboardForm where
  step : String
  value : String
deriving DecidableEq

open Onboarding in
/-- `none` is shown as "Onboarding complete." -/
def onboardAnswer [HmacSha256] (m : Manager) (entryId : Uuid) (id : String) (form : OnboardForm) :
    Prog Desk AppError (Option PromptPartial) := do
  (answer m entryId id form.step form.value).mapErr .internal
  onboardPrompt id

/-! ## Contributions -/

/-- What `contribution.html` is filled with. -/
structure ProposalView where
  id : String
  projectId : String
  status : String
  description : String
  gatewayCount : Int
deriving DecidableEq

def proposalView (p : Proposal) : ProposalView := ⟨p.id, p.projectId, p.status.asStr, p.description, p.gatewayCount⟩

structure ContributionForm where
  snapshotId : String
  description : String
  agentName : String
deriving DecidableEq

/-- The proposer is this gateway. Gateways that cannot be counted count as two. -/
def openContribution (gatewayName : String) (proposalId : Uuid) (id : String) (form : ContributionForm) :
    Prog World AppError ProposalView := do
  let gwCount ← ((Groups.gatewayCountForProject id).mapErr .internal).attempt
  let proposal ← (Contributions.open proposalId id gatewayName form.agentName form.snapshotId form.description
    (gwCount.getD 2)).mapErr .internal
  return proposalView proposal

def contributionDetail (propId : String) : Prog World AppError ProposalView := do
  match ← (Contributions.get propId).mapErr .internal with
  | none => Prog.fail (.notFound s!"proposal {propId} not found")
  | some proposal => return proposalView proposal

structure VoteForm where
  vote : String
  agentName : String
  reason : String
deriving DecidableEq

/-- Whatever is not "reject" approves. -/
def VoteForm.kind (form : VoteForm) : VoteKind := if form.vote = "reject" then .reject else .approve

def voteMessage : VoteOutcome → String
  | .accepted => "Proposal accepted by majority vote."
  | .rejected => "Proposal rejected by majority vote."
  | .pending .. => "Vote recorded. Waiting for majority."

def castVote (gatewayName : String) (voteId : Uuid) (propId : String) (form : VoteForm) : Prog World AppError String := do
  let outcome ← (Contributions.castVote voteId propId gatewayName form.agentName form.kind form.reason).mapErr .internal
  return voteMessage outcome

/-- Whatever is not "accept" rejects. -/
def reviewPr (gatewayName propId action : String) : Prog World AppError String :=
  if action = "accept" then do
    (Contributions.acceptPr propId gatewayName).mapErr .internal
    return "PR accepted. Contribution merged."
  else do
    (Contributions.rejectPr propId gatewayName).mapErr .internal
    return "PR rejected."

/-! ## Containers -/

section
variable (server : List HttpRequest → HttpRequest → Except String HttpResponse)
  (parse : HttpResponse → Except String (List RawLxc)) (b : Build)

def lxcClient (lxc : Option LxcClient) : Prog (Outbox Unit) AppError LxcClient :=
  match lxc with
  | some client => return client
  | none => Prog.fail (.notFound "LXC not configured — add [lxc] section to gateway.toml")

def lxcList (lxc : Option LxcClient) : Prog (Outbox Unit) AppError (List LxcContainer) := do
  let client ← lxcClient lxc
  (client.list server parse).mapErr .internal

def lxcSpawn (lxc : Option LxcClient) (agentName : String) : Prog (Outbox Unit) AppError SpawnedContainer := do
  let client ← lxcClient lxc
  (client.spawn server parse b agentName).mapErr .internal

def lxcStop (lxc : Option LxcClient) (vmid : UInt32) : Prog (Outbox Unit) AppError Json := do
  let client ← lxcClient lxc
  (client.stop server vmid).mapErr .internal
  return .obj [("ok", .bool true), ("vmid", .num vmid.toNat)]

end

end Web

end A2AGateway
