import A2AGateway.Assignments
import A2AGateway.Lib.Crashes
import A2AGateway.ProposalRules
import A2AGateway.VettedEndpoints

/-!
# Crashes and restarts

The gateway opens no transaction, so a crash may leave any routine half done: a todo's row without its event, a vote
without the resolution it brings about, an agent without a soul. All that is left of the process is the database,
the object files and `TODO.md`, and `main` starts from them again. What one process keeps, it keeps statement by
statement; so it holds in every life, however often the process is cut off (`crashes_survived`).

A statement is committed or not. What a crash makes of a file that is just being written is left out.
-/

namespace A2AGateway

open Contributions Reconciler

/-- What a new process finds. -/
def Site.Restarted (s s' : Site) : Prop :=
  ∃ world, SameStored s.world world ∧ s' = { Site.start world with todoMd := s.todoMd }

section
variable [Sha256] [HmacSha256] [SerdeJson] [SerdeStrings] [Lowercase] [Collation] (d : Wiring) (v : Visitors)

namespace Process

/-- What has come of a site in any number of lives. -/
def Survived (init : Site → Prop) (c : Pool Site Err) : Prop :=
  Pool.Survived init (Starts d v) Site.Outside Site.Restarted c

/-- The one state comes after the other, in the same life or in a later one. -/
def Outlives (c c' : Pool Site Err) : Prop :=
  Relation.ReflTransGen (Pool.CrashStep (Starts d v) Site.Outside Site.Restarted) c c'

/-- What every life keeps. -/
structure Sound (s : Site) : Prop where
  intact : Intact s.world.db
  vetted : OnlyVetted d s
  filed : AllFiled s.world.db s.published
  ruled : Ruled d.gateway.name s.world.db

end Process

end

section
variable [Sha256] [HmacSha256] [SerdeJson] [SerdeStrings] [Lowercase] [Collation] {d : Wiring} {v : Visitors}
  {init : Site → Prop} {c c' : Pool Site Err}

/-! ## One restart -/

omit [Sha256] [HmacSha256] [SerdeJson] [SerdeStrings] [Lowercase] [Collation] in
theorem OnlyVetted.restarted {s s' : Site} (h : OnlyVetted d s) (hr : Site.Restarted s s') : OnlyVetted d s' := by
  obtain ⟨world, hsame, rfl⟩ := hr
  have hagents : world.db.agents = s.world.db.agents := congrArg (·.1.agents) hsame
  exact ⟨rowsVetted_of_table h.rows hagents, fun _ he => absurd he List.not_mem_nil, fun _ hf => absurd hf List.not_mem_nil,
    fun _ hb => absurd hb List.not_mem_nil⟩

/-! ## Any number of lives -/

theorem Process.Survived.frame (h : Process.Survived d v init c) (hl : Process.Outlives d v c c') :
    Frame (MayWrite d v) (MayAdd d v) c.state.world c'.state.world := by
  refine Pool.Survived.along (D := storing d v) h hl (fun _ _ => trivial) (fun _ _ _ hp => obeys_storing hp) ?_ ?_
  · rintro s s' - ⟨world, pending, hsame, rfl⟩
    exact ⟨.of_same hsame, trivial⟩
  · rintro s s' - ⟨world, hsame, rfl⟩
    exact ⟨.of_same hsame, trivial⟩

theorem Process.Survived.intact (hinit : ∀ s, init s → Intact s.world.db) (h : Process.Survived d v init c) :
    Intact c.state.world.db := by
  obtain ⟨s, hs, hrun⟩ := h
  have hfirst : Process.Survived d v (· = s) ⟨s, []⟩ := ⟨s, rfl, .refl⟩
  exact (hinit s hs).of_frame (hfirst.frame hrun)

theorem Process.Survived.vetted (hinit : ∀ s, init s → OnlyVetted d s) (hlibrary : ¬ v.uses .library)
    (h : Process.Survived d v init c) : OnlyVetted d c.state :=
  (h.good (D := Prog.upholding (OnlyVetted d)) hinit (fun s _ _ hp => (hp.upholds hlibrary).obeys s)
    (fun _ _ hs hout => ⟨trivial, hs.outside hout⟩) fun _ _ hs hr => hs.restarted hr).1

theorem Process.Survived.files (hinit : ∀ s, init s → AllFiled s.world.db s.published) (hlibrary : ¬ v.uses .library)
    (h : Process.Survived d v init c) : AllFiled c.state.world.db c.state.published := by
  refine (Pool.Survived.good (D := filingSite) h hinit (fun _ _ _ hp => hp.files hlibrary) ?_ ?_).1
  · rintro s s' hinv ⟨world, pending, hsame, rfl⟩
    exact @filed_of_same _ s { s with world, pending } hinv hsame fun _ ha => ha
  · rintro s s' hinv ⟨world, hsame, rfl⟩
    exact (@filed_of_same _ s { Site.start world with todoMd := s.todoMd } hinv hsame fun _ ha => absurd ha List.not_mem_nil).2

theorem Process.Survived.ruled (hinit : ∀ s, init s → Ruled d.gateway.name s.world.db) (hlibrary : ¬ v.uses .library)
    (h : Process.Survived d v init c) (hl : Process.Outlives d v c c') :
    Ruled d.gateway.name c'.state.world.db ∧ Onward c.state.world.db c'.state.world.db := by
  have hstart : ∀ s p, (rulingSite d.gateway.name).inv s → Process.Starts d v s p →
      p.Obeys (rulingSite d.gateway.name) (fun _ _ => True) s := fun _ _ _ hp => hp.ruled hlibrary
  have hout : ∀ s s', (rulingSite d.gateway.name).inv s → Site.Outside s s' →
      (rulingSite d.gateway.name).step s s' ∧ (rulingSite d.gateway.name).inv s' := by
    rintro s s' hi ⟨world, pending, hsame, rfl⟩
    exact ruled_of_sameStored hi hsame
  have hrestart : ∀ s s', (rulingSite d.gateway.name).inv s → Site.Restarted s s' →
      (rulingSite d.gateway.name).step s s' ∧ (rulingSite d.gateway.name).inv s' := by
    rintro s s' hi ⟨world, hsame, rfl⟩
    exact ruled_of_sameStored hi hsame
  exact ⟨((Pool.Survived.later h hl).good hinit hstart hout fun s s' hi hr => (hrestart s s' hi hr).2).1,
    Pool.Survived.along h hl hinit hstart hout hrestart⟩

end

/-! ## A pass that is cut off -/

namespace DemoSite

/-- The pass, three actions on: the row of the task is there, its assignment has not been published. -/
def cutOff : Pool Site Err := letI := DemoReconciler.serde; letI := DemoReconciler.ascii; letI := DemoReconciler.byCodePoint
  Pool.schedule (List.replicate 3 filedSearch.threads.length)
    ⟨filedSearch.state, filedSearch.threads ++ [reconcilerRun [(DemoReconciler.order, "2026-01-01T00:03:00Z")]]⟩

/-- The next process, which has started up. -/
def restarted : Pool Site Err := letI := DemoReconciler.serde
  after (startUp wiring "2026-01-01T00:04:00Z") ⟨{ Site.start cutOff.state.world with todoMd := cutOff.state.todoMd }, []⟩

end DemoSite

open DemoSite

end A2AGateway
