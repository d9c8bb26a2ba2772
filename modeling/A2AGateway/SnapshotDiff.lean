import A2AGateway.FileSync
import A2AGateway.Lib.Keyed
import Mathlib.Data.String.Basic

/-!
# Diffs of snapshots (`file_sync.rs`)

| here | there |
| --- | --- |
| `SnapshotDiff`, `.isEmpty`, `.requiredObjects` | `file_sync.rs:33-53` |
| `entryMap`, `computeDiff`                      | `file_sync.rs:255-289` |

The entries of either transcript go into a `HashMap` from paths, so that the last line of a path
stays; the maps are walked through in any order. The main result is `computeDiff_exact`.
-/

namespace A2AGateway

open Gw Keyed

structure SnapshotDiff where
  added : List TranscriptEntry
  removed : List TranscriptEntry
  modified : List (TranscriptEntry × TranscriptEntry)
deriving DecidableEq

namespace SnapshotDiff

def isEmpty (d : SnapshotDiff) : Bool := d.added.isEmpty && d.removed.isEmpty && d.modified.isEmpty

/-- "All object hashes that must be fetched to apply this diff." -/
def requiredObjects (d : SnapshotDiff) : List String := d.added.map (·.sha256) ++ d.modified.map (·.2.sha256)

end SnapshotDiff

namespace FileSync

abbrev EntryMap := AList fun _ : String => TranscriptEntry

def entryMap (text : String) : EntryMap := collect (·.path) (parseTranscript text)

/-- The first loop: an entry of the new map. -/
def compareEntry (oldEntries : EntryMap) (diff : SnapshotDiff) (e : Sigma fun _ : String => TranscriptEntry) :
    SnapshotDiff :=
  match oldEntries.lookup e.1 with
  | none => { diff with added := diff.added ++ [e.2] }
  | some old =>
    if old.sha256 ≠ e.2.sha256 then { diff with modified := diff.modified ++ [(old, e.2)] } else diff

/-- The second loop: an entry of the old map. -/
def missingEntry (newEntries : EntryMap) (diff : SnapshotDiff) (e : Sigma fun _ : String => TranscriptEntry) :
    SnapshotDiff :=
  if e.1 ∉ newEntries then { diff with removed := diff.removed ++ [e.2] } else diff

def computeDiff (newOrder oldOrder : Iteration (Sigma fun _ : String => TranscriptEntry)) (oldText : Option String)
    (newText : String) : SnapshotDiff :=
  let oldEntries := (oldText.map entryMap).getD ∅
  let newEntries := entryMap newText
  let diff := (newOrder.arrange newEntries.entries).foldl (compareEntry oldEntries) ⟨[], [], []⟩
  let diff := (oldOrder.arrange oldEntries.entries).foldl (missingEntry newEntries) diff
  -- "Sort for determinism"
  { added := sortBy (·.path) diff.added
    removed := sortBy (·.path) diff.removed
    modified := sortBy (·.1.path) diff.modified }

/-! ## The maps -/

/-- The entry of each path in a transcript, the last line of the path; there may be no transcript. -/
def entryAt (text : Option String) (path : String) : Option TranscriptEntry :=
  text.bind fun t => last (·.path) (parseTranscript t) path

/-- The map from paths to hashes. -/
def hashAt (text : Option String) (path : String) : Option String := (entryAt text path).map (·.sha256)

theorem proper_entryAt (text : Option String) : Proper (·.path) (entryAt text) := by
  intro path e h
  obtain ⟨t, -, he⟩ := Option.bind_eq_some_iff.1 h
  exact key_of_last he

theorem lookup_entryMap (text : String) (path : String) : (entryMap text).lookup path = entryAt (some text) path :=
  lookup_collect

theorem lookup_oldEntries (text : Option String) (path : String) :
    ((text.map entryMap).getD ∅).lookup path = entryAt text path := by
  cases text with
  | none => rfl
  | some t => exact lookup_entryMap t path

/-! ## The loops -/

def addedIn (old : EntryMap) (e : Sigma fun _ : String => TranscriptEntry) : Option TranscriptEntry :=
  if old.lookup e.1 = none then some e.2 else none

def modifiedIn (old : EntryMap) (e : Sigma fun _ : String => TranscriptEntry) :
    Option (TranscriptEntry × TranscriptEntry) :=
  (old.lookup e.1).bind fun o => if o.sha256 ≠ e.2.sha256 then some (o, e.2) else none

def removedIn (new : EntryMap) (e : Sigma fun _ : String => TranscriptEntry) : Option TranscriptEntry :=
  if e.1 ∉ new then some e.2 else none

section
variable {old new m : EntryMap} {entries : List (Sigma fun _ : String => TranscriptEntry)} {diff : SnapshotDiff}

theorem compareEntry_eq (e : Sigma fun _ : String => TranscriptEntry) : compareEntry old diff e =
    ⟨diff.added ++ (addedIn old e).toList, diff.removed, diff.modified ++ (modifiedIn old e).toList⟩ := by
  unfold compareEntry addedIn modifiedIn
  cases old.lookup e.1 with
  | none => simp
  | some o => by_cases h : o.sha256 = e.2.sha256 <;> simp [h]

theorem missingEntry_eq (e : Sigma fun _ : String => TranscriptEntry) : missingEntry new diff e =
    ⟨diff.added, diff.removed ++ (removedIn new e).toList, diff.modified⟩ := by
  unfold missingEntry removedIn
  by_cases h : e.1 ∈ new <;> simp [h]

theorem foldl_compareEntry : entries.foldl (compareEntry old) diff =
    ⟨diff.added ++ entries.filterMap (addedIn old), diff.removed, diff.modified ++ entries.filterMap (modifiedIn old)⟩ := by
  induction entries generalizing diff with
  | nil => simp
  | cons e entries ih =>
    rw [List.foldl_cons, ih, compareEntry_eq, List.filterMap_cons, List.filterMap_cons]
    cases addedIn old e <;> cases modifiedIn old e <;> simp

theorem foldl_missingEntry : entries.foldl (missingEntry new) diff =
    ⟨diff.added, diff.removed ++ entries.filterMap (removedIn new), diff.modified⟩ := by
  induction entries generalizing diff with
  | nil => simp
  | cons e entries ih =>
    rw [List.foldl_cons, ih, missingEntry_eq, List.filterMap_cons]
    cases removedIn new e <;> simp

end

/-! ## Walking through a map -/

section
variable {γ : Type} {m : EntryMap} {text : Option String} (order : Iteration (Sigma fun _ : String => TranscriptEntry))
  {f : (Sigma fun _ : String => TranscriptEntry) → Option γ}

theorem mem_walk (hm : ∀ path, m.lookup path = entryAt text path) {b : γ} :
    b ∈ (order.arrange m.entries).filterMap f ↔ ∃ path e, entryAt text path = some e ∧ f ⟨path, e⟩ = some b := by
  rw [List.mem_filterMap]
  constructor
  · rintro ⟨⟨path, e⟩, he, hf⟩
    refine ⟨path, e, ?_, hf⟩
    rw [← hm]
    exact AList.mem_lookup_iff.2 ((order.perm _).mem_iff.1 he)
  · rintro ⟨path, e, he, hf⟩
    rw [← hm] at he
    exact ⟨⟨path, e⟩, (order.perm _).mem_iff.2 (AList.mem_lookup_iff.1 he), hf⟩

/-- Each path comes once. -/
theorem pairwise_walk {key : γ → String} (hm : ∀ path, m.lookup path = entryAt text path)
    (hf : ∀ path e b, entryAt text path = some e → f ⟨path, e⟩ = some b → key b = path) :
    ((order.arrange m.entries).filterMap f).Pairwise fun a b => key a ≠ key b := by
  have hkeys : (order.arrange m.entries).Pairwise fun a b => a.1 ≠ b.1 :=
    (order.perm _).symm.pairwise (List.nodupKeys_iff_pairwise.1 m.nodupKeys) fun h => h.symm
  have hkey : ∀ e ∈ order.arrange m.entries, ∀ b, f e = some b → key b = e.1 := by
    rintro ⟨path, e⟩ he b hb
    refine hf path e b ?_ hb
    rw [← hm]
    exact AList.mem_lookup_iff.2 ((order.perm _).mem_iff.1 he)
  rw [List.pairwise_filterMap]
  refine hkeys.imp_of_mem fun {a b} ha hb hab a' ha' b' hb' => ?_
  rw [hkey a ha a' ha', hkey b hb b' hb']
  exact hab

end

/-! ## The diff -/

section
variable (newOrder oldOrder : Iteration (Sigma fun _ : String => TranscriptEntry)) (oldText : Option String)
  (newText : String)

theorem addedIn_eq_some {old : EntryMap} {path : String} {e a : TranscriptEntry} (he : e.path = path) :
    addedIn old ⟨path, e⟩ = some a ↔ e = a ∧ old.lookup a.path = none := by
  subst he
  unfold addedIn
  constructor
  · intro h
    obtain ⟨hn, ha⟩ := Option.ite_none_right_eq_some.1 h
    cases ha
    exact ⟨rfl, hn⟩
  · rintro ⟨rfl, hn⟩
    exact if_pos hn

theorem removedIn_eq_some {new : EntryMap} {path : String} {e a : TranscriptEntry} (he : e.path = path) :
    removedIn new ⟨path, e⟩ = some a ↔ e = a ∧ new.lookup a.path = none := by
  subst he
  unfold removedIn
  rw [Option.ite_none_right_eq_some, Option.some.injEq, ← AList.lookup_eq_none]
  constructor
  · rintro ⟨hn, rfl⟩
    exact ⟨rfl, hn⟩
  · rintro ⟨rfl, hn⟩
    exact ⟨hn, rfl⟩

theorem modifiedIn_eq_some {old : EntryMap} {path : String} {e a b : TranscriptEntry} :
    modifiedIn old ⟨path, e⟩ = some (a, b) ↔ old.lookup path = some a ∧ e = b ∧ a.sha256 ≠ b.sha256 := by
  unfold modifiedIn
  rw [Option.bind_eq_some_iff]
  constructor
  · rintro ⟨o, ho, h⟩
    obtain ⟨hne, h⟩ := Option.ite_none_right_eq_some.1 h
    cases h
    exact ⟨ho, rfl, hne⟩
  · rintro ⟨ho, rfl, hne⟩
    exact ⟨a, ho, if_pos hne⟩

/-- What `computeDiff` gives, before the three lists are sorted. -/
theorem computeDiff_eq : computeDiff newOrder oldOrder oldText newText =
    ⟨sortBy (·.path) ((newOrder.arrange (entryMap newText).entries).filterMap
        (addedIn ((oldText.map entryMap).getD ∅))),
      sortBy (·.path) ((oldOrder.arrange ((oldText.map entryMap).getD ∅).entries).filterMap
        (removedIn (entryMap newText))),
      sortBy (·.1.path) ((newOrder.arrange (entryMap newText).entries).filterMap
        (modifiedIn ((oldText.map entryMap).getD ∅)))⟩ := by
  simp only [computeDiff, foldl_compareEntry, foldl_missingEntry, List.nil_append]

theorem computeDiff_differs : Differs (·.path) (·.sha256) (entryAt oldText) (entryAt (some newText))
    (computeDiff newOrder oldOrder oldText newText).added (computeDiff newOrder oldOrder oldText newText).removed
    (computeDiff newOrder oldOrder oldText newText).modified := by
  rw [computeDiff_eq]
  constructor
  case mem_added =>
    intro a
    rw [mem_sortBy, mem_walk newOrder (lookup_entryMap newText)]
    constructor
    · rintro ⟨path, e, he, hf⟩
      obtain ⟨rfl, hn⟩ := (addedIn_eq_some (proper_entryAt _ _ _ he)).1 hf
      rw [lookup_oldEntries] at hn
      cases proper_entryAt _ _ _ he
      exact ⟨he, hn⟩
    · rintro ⟨he, hn⟩
      rw [← lookup_oldEntries] at hn
      exact ⟨a.path, a, he, (addedIn_eq_some rfl).2 ⟨rfl, hn⟩⟩
  case mem_removed =>
    intro a
    rw [mem_sortBy, mem_walk oldOrder (lookup_oldEntries oldText)]
    constructor
    · rintro ⟨path, e, he, hf⟩
      obtain ⟨rfl, hn⟩ := (removedIn_eq_some (proper_entryAt _ _ _ he)).1 hf
      rw [lookup_entryMap] at hn
      cases proper_entryAt _ _ _ he
      exact ⟨he, hn⟩
    · rintro ⟨he, hn⟩
      rw [← lookup_entryMap] at hn
      exact ⟨a.path, a, he, (removedIn_eq_some rfl).2 ⟨rfl, hn⟩⟩
  case mem_modified =>
    intro a b
    rw [mem_sortBy, mem_walk newOrder (lookup_entryMap newText)]
    constructor
    · rintro ⟨path, e, he, hf⟩
      obtain ⟨ho, rfl, hne⟩ := modifiedIn_eq_some.1 hf
      rw [lookup_oldEntries] at ho
      exact ⟨path, ho, he, hne⟩
    · rintro ⟨path, ho, hn, hne⟩
      rw [← lookup_oldEntries] at ho
      exact ⟨path, b, hn, modifiedIn_eq_some.2 ⟨ho, rfl, hne⟩⟩

/-- Each list ascends by path, without repetition. -/
structure Ascending (d : SnapshotDiff) : Prop where
  added : d.added.Pairwise fun a b => a.path < b.path
  removed : d.removed.Pairwise fun a b => a.path < b.path
  modified : d.modified.Pairwise fun a b => a.1.path < b.1.path

theorem computeDiff_ascending : Ascending (computeDiff newOrder oldOrder oldText newText) := by
  rw [computeDiff_eq]
  constructor
  case added =>
    refine strict_sortBy (pairwise_walk newOrder (lookup_entryMap newText) fun path e b he hf => ?_)
    obtain ⟨rfl, -⟩ := (addedIn_eq_some (proper_entryAt _ _ _ he)).1 hf
    exact proper_entryAt _ _ _ he
  case removed =>
    refine strict_sortBy (pairwise_walk oldOrder (lookup_oldEntries oldText) fun path e b he hf => ?_)
    obtain ⟨rfl, -⟩ := (removedIn_eq_some (proper_entryAt _ _ _ he)).1 hf
    exact proper_entryAt _ _ _ he
  case modified =>
    refine strict_sortBy (pairwise_walk newOrder (lookup_entryMap newText) fun path e b he hf => ?_)
    obtain ⟨a, b⟩ := b
    obtain ⟨ho, -, -⟩ := modifiedIn_eq_some.1 hf
    rw [lookup_oldEntries] at ho
    exact proper_entryAt _ _ _ ho

/-- Removes, adds and replaces the hashes at the paths of a diff. -/
def applyDiff (d : SnapshotDiff) (hashes : String → Option String) : String → Option String :=
  patch (·.path) (·.sha256) d.added d.removed d.modified hashes

/-- **The diff is exact**, in whatever order the maps are walked through: it holds what was added,
removed and modified, in ascending order, and nothing else; it takes the old hashes to the new ones, is
empty exactly if these agree, and asks for every object that the old transcript does not name. -/
theorem computeDiff_exact :
    Differs (·.path) (·.sha256) (entryAt oldText) (entryAt (some newText))
        (computeDiff newOrder oldOrder oldText newText).added (computeDiff newOrder oldOrder oldText newText).removed
        (computeDiff newOrder oldOrder oldText newText).modified ∧
      Ascending (computeDiff newOrder oldOrder oldText newText) ∧
      applyDiff (computeDiff newOrder oldOrder oldText newText) (hashAt oldText) = hashAt (some newText) ∧
      ((computeDiff newOrder oldOrder oldText newText).isEmpty = true ↔ hashAt oldText = hashAt (some newText)) ∧
      ∀ path e, entryAt (some newText) path = some e →
        (∃ path' e', entryAt oldText path' = some e' ∧ e'.sha256 = e.sha256) ∨
          e.sha256 ∈ (computeDiff newOrder oldOrder oldText newText).requiredObjects := by
  have hdiffers := computeDiff_differs newOrder oldOrder oldText newText
  refine ⟨hdiffers, computeDiff_ascending newOrder oldOrder oldText newText, ?_, ?_, fun path e he => ?_⟩
  · exact hdiffers.patch_eq (proper_entryAt _) (proper_entryAt _)
  · rw [SnapshotDiff.isEmpty, Bool.and_eq_true, Bool.and_eq_true, List.isEmpty_iff, List.isEmpty_iff, List.isEmpty_iff,
      and_assoc]
    exact hdiffers.empty_iff (proper_entryAt _) (proper_entryAt _)
  · rcases hdiffers.covered (proper_entryAt _) he with ⟨path', e', he', hsha⟩ | hadded | ⟨e', hmodified⟩
    · exact .inl ⟨path', e', he', hsha⟩
    · exact .inr (List.mem_append_left _ (List.mem_map.2 ⟨e, hadded, rfl⟩))
    · exact .inr (List.mem_append_right _ (List.mem_map.2 ⟨(e', e), hmodified, rfl⟩))

end

end FileSync

end A2AGateway
