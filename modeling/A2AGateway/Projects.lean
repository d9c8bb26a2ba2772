import A2AGateway.World
import Mathlib.Data.List.Sort

/-!
# The project registry (`projects.rs`)

| here | there |
| --- | --- |
| `create`                        | `projects.rs:93-133` |
| `get`, `getByName`, `list`      | `projects.rs:136-166` |
| `Visibility.canTransitionTo`    | `projects.rs:45-59` |
| `setVisibility`                 | `projects.rs:192-212` |
| `setFolderPath`, `setFileGlob`  | `projects.rs:213-245` |
| `setOnboardingStep`, `setActive` | `projects.rs:247-273` |

The UUID that `create` draws is its parameter. A project row has the `INTEGER` column `is_active`, so that the reads
depend on the database's `Engine`: as shipped they never return a project (`get_refused`, `getByName_refused`).
-/

namespace A2AGateway

open Gw

/-- "Returns true if transition from self → next is a valid single step." -/
def Visibility.canTransitionTo : Visibility → Visibility → Bool
  | .lanOnly, .group | .group, .lanOnly | .group, .public | .public, .group => true
  | _, _ => false

namespace Projects

/-- `SELECT * FROM projects WHERE id = $1`. -/
def byId (db : Db) (id : String) : Option Project := db.projects.find? (·.id == id)

/-- `SELECT * FROM projects WHERE name = $1`. -/
def byName (db : Db) (name : String) : Option Project := db.projects.find? (·.name == name)

def get (id : String) : Gw (Option Project) := fetch (.msg "get project") fun db => db.engine.decodeRow (byId db id)

def getByName (name : String) : Gw (Option Project) :=
  fetch (.msg "get project by name") fun db => db.engine.decodeRow (byName db name)

/-- Newest first. -/
def list : Gw (List Project) :=
  fetch (.msg "list projects") fun db =>
    db.engine.decodeRows (db.projects.rows.insertionSort fun a b => b.createdAt.le a.createdAt)

def create (id : Uuid) (name repoUrl description originGateway peerGateway peerProjectId : String) :
    Gw Project := do
  let now ← nowSecs
  -- Peer projects wait for a folder, local ones have no onboarding step.
  let onboardingStep := if peerGateway = "" then none else some "awaiting_folder"
  execute (.msg "insert project") fun _ db =>
    (db.projects.insert { id := id.text, name, repoUrl, description, createdAt := now,
                          onboardingStep, originGateway, peerGateway, peerProjectId }).map
      fun projects => { db with projects }
  orThrow (.msg "project not found after insert") (← get id.text)

theorem clash_folderPath (dir : String) (p q : Project) :
    Constraints.clash { p with folderPath := dir } q = Constraints.clash p q := rfl

def setFolderPath (id path : String) : Gw Unit := do
  let canonical ← orThrow (.msg s!"folder path does not exist or is inaccessible: {path}")
    (← ioRead (.msg s!"folder path does not exist or is inaccessible: {path}") (·.canonical path))
  let isDir ← (ioRead .io fun w => (w.folders canonical).isSome).attempt
  if isDir.getD false then
    execute (.msg "set folder path") fun _ db =>
      some { db with projects :=
        db.projects.update (·.id == id) (fun p => { p with folderPath := canonical }) fun _ _ => rfl }
  else
    throw (.msg s!"folder path is not a directory: {canonical}")

def setFileGlob (id glob : String) : Gw Unit :=
  execute (.msg "set file glob") fun _ db =>
    some { db with projects :=
      db.projects.update (·.id == id) (fun p => { p with fileGlob := glob }) fun _ _ => rfl }

def setVisibility (id : String) (next : Visibility) : Gw Unit := do
  -- "Guard: project must be idle"
  let project ← orThrow (.msg "project not found") (← get id)
  if project.isActive then
    throw (.msg "cannot change visibility while project is active")
  else if project.visibility.canTransitionTo next then
    execute (.msg "set visibility") fun _ db =>
      some { db with projects :=
        db.projects.update (·.id == id) (fun p => { p with visibility := next }) fun _ _ => rfl }
  else
    throw (.msg s!"project is already at visibility '{next.asStr}'")

def setOnboardingStep (id : String) (step : Option String) : Gw Unit :=
  execute (.msg "set onboarding step") fun _ db =>
    some { db with projects :=
      db.projects.update (·.id == id) (fun p => { p with onboardingStep := step }) fun _ _ => rfl }

def setActive (id : String) (active : Bool) : Gw Unit :=
  execute (.msg "set active") fun _ db =>
    some { db with projects :=
      db.projects.update (·.id == id) (fun p => { p with isActive := active }) fun _ _ => rfl }

/-- Names are unique: the row found by a name is the only one that carries it. -/
theorem byName_eq_some {db : Db} {name : String} {p : Project} :
    byName db name = some p ↔ p ∈ db.projects.rows ∧ p.name = name := by
  constructor
  · intro h
    exact ⟨Table.mem_of_find? h, by simpa using Table.prop_of_find? h⟩
  · rintro ⟨hp, rfl⟩
    refine Table.find?_eq_some_of_mem hp (by simp) fun q _ hq => ?_
    simp only [Constraints.clash, Bool.or_eq_true]
    exact Or.inr hq

theorem byId_eq_some {db : Db} {id : String} {p : Project} :
    byId db id = some p ↔ p ∈ db.projects.rows ∧ p.id = id := by
  constructor
  · intro h
    exact ⟨Table.mem_of_find? h, by simpa using Table.prop_of_find? h⟩
  · rintro ⟨hp, rfl⟩
    refine Table.find?_eq_some_of_mem hp (by simp) fun q _ hq => ?_
    simp only [Constraints.clash, Bool.or_eq_true]
    exact Or.inl hq

/-- An update of a project shows in its row. -/
theorem byId_update {id : String} {f : Project → Project} {hf : ∀ a b, Constraints.clash (f a) b = Constraints.clash a b}
    (hid : ∀ p, (f p).id = p.id) (db : Db) :
    byId { db with projects := db.projects.update (·.id == id) f hf } id = (byId db id).map f := by
  unfold byId
  rw [Table.find?_update fun p => by rw [hid]]

/-- `setFolderPath` takes the state where its update does. -/
theorem moves_setFolderPath {R : World → World → Prop} (ht : ∀ w, R w w.tick) {id path : String}
    (hset : ∀ w dir, R w { w.tick with
      db := { w.db with
        projects := w.db.projects.update (·.id == id) (fun p => { p with folderPath := dir }) fun _ _ => rfl } }) :
    (setFolderPath id path).Moves R := by
  unfold setFolderPath
  simp only [Prog.bind_eq]
  apply Prog.Moves.bind (moves_ioRead ht)
  intro o
  apply Prog.Moves.bind moves_orThrow
  intro canonical
  apply Prog.Moves.bind (Prog.Moves.attempt (moves_ioRead ht))
  intro isDir
  split
  · apply moves_execute ht
    intro w db hdb
    cases hdb
    exact hset w canonical
  · trivial

/-! ## Reads of a stored project -/

section
variable {name id : String} {o : Option Project} {w w' : World}

theorem getByName_iff : (getByName name).exec w = (.ok o, w') ↔
    Passes w ∧ (o = byName w.db name ∧ (w.db.engine.integers = .refused → byName w.db name = none)) ∧ w' = w.tick := by
  rw [getByName, exec_fetch_iff, Engine.decodeRow_eq_some]

theorem get_iff : (get id).exec w = (.ok o, w') ↔
    Passes w ∧ (o = byId w.db id ∧ (w.db.engine.integers = .refused → byId w.db id = none)) ∧ w' = w.tick := by
  rw [get, exec_fetch_iff, Engine.decodeRow_eq_some]

/-- **As shipped a project that is there is not found by its name, but an error.** -/
theorem getByName_refused (h : w.db.engine.integers = .refused) {p : Project} (hp : byName w.db name = some p) :
    (getByName name).exec w = (.error (.msg "get project by name"), w.tick) :=
  exec_fetch_of_none (by rw [hp, Engine.decodeRow_refused h])

theorem get_refused (h : w.db.engine.integers = .refused) {p : Project} (hp : byId w.db id = some p) :
    (get id).exec w = (.error (.msg "get project"), w.tick) :=
  exec_fetch_of_none (by rw [hp, Engine.decodeRow_refused h])

theorem getByName_calm (hw : w.faults = []) (h : w.db.engine.integers = .refused → byName w.db name = none) :
    (getByName name).exec w = (.ok (byName w.db name), w) :=
  exec_fetch_of_some hw (Engine.decodeRow_eq_some.2 ⟨rfl, h⟩)

end

/-- A project that is there can be referenced. -/
theorem hasProject_of_mem {db : Db} {p : Project} (h : p ∈ db.projects.rows) :
    db.hasProject p.id = true := by
  simp only [Db.hasProject, List.any_eq_true]
  exact ⟨p, h, by simp⟩

end Projects

end A2AGateway
