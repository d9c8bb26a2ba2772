import A2AGateway.TranscriptRoundTrip
import A2AGateway.Lib.Delimited

/-!
# Which files a pattern selects

| here | there |
| --- | --- |
| `Pattern`        | the prompt of `onboarding.rs:199-204`, the doc of `scan_directory` |
| `matchesGlob`    | `object_store.rs:182-192` |

Onboarding offers `**/*.rs`, and stores what is answered. The scanner knows `**/*` and `*.rs`, and
takes any other text for a path: a file that `**/*.rs` denotes is left out, unless its path is that
very text (`scan_selects_iff`).
-/

namespace A2AGateway

open ObjectStore (scanDirectory folderEntries matchesGlob fileEntry)

/-! ## Patterns -/

/-- What can be answered when the files are asked for. -/
inductive Pattern
  | everyFile
  | extension (e : String)
  | deepExtension (e : String)
  | path (p : String)

namespace Pattern

def glob : Pattern → String
  | everyFile => "**/*"
  | extension e => "*." ++ e
  | deepExtension e => "**/*." ++ e
  | path p => p

/-- The text is one of the other forms. -/
def wildcard (glob : String) : Bool :=
  glob == "**/*" || glob == "*" || ['*', '.'].isPrefixOf glob.toList || ['*', '*', '/', '*', '.'].isPrefixOf glob.toList

/-- An extension is part of a name, and a path is no other form. -/
def Offered : Pattern → Prop
  | everyFile => True
  | extension e => '/' ∉ e.toList ∧ '*' ∉ e.toList
  | deepExtension e => '/' ∉ e.toList ∧ '*' ∉ e.toList
  | path p => wildcard p = false

/-- What follows the last slash. -/
def fileName (p : String) : List Char := p.toList.rtakeWhile (· ≠ '/')

/-- What the pattern says to whoever is asked. -/
def Denotes : Pattern → String → Prop
  | everyFile, _ => True
  | extension e, p => '.' :: e.toList <:+ fileName p
  | deepExtension e, p => '.' :: e.toList <:+ fileName p
  | path q, p => p = q

/-- `**/*.E` and a file of that extension whose path is not `**/*.E`. -/
def Misses : Pattern → String → Prop
  | deepExtension e, p => '.' :: e.toList <:+ fileName p ∧ p ≠ "**/*." ++ e
  | _, _ => False

theorem suffix_fileName {e p : String} (he : '/' ∉ e.toList) :
    '.' :: e.toList <:+ fileName p ↔ '.' :: e.toList <:+ p.toList := by
  apply Delimited.suffix_rtakeWhile
  simpa using he

/-! ## What the scanner makes of them -/

theorem matchesGlob_everyFile (p : String) : matchesGlob p everyFile.glob = true := rfl

theorem matchesGlob_extension {e : String} (p : String) :
    matchesGlob p (extension e).glob = true ↔ '.' :: e.toList <:+ p.toList := by
  have hlist : (extension e).glob.toList = '*' :: '.' :: e.toList := by simp [glob, String.toList_append]
  have hall : ((extension e).glob == "**/*" || (extension e).glob == "*") = false := by
    simp [← String.toList_inj, hlist]
  simp [matchesGlob, hall, hlist]

theorem matchesGlob_deepExtension {e : String} (p : String) :
    matchesGlob p (deepExtension e).glob = true ↔ p = "**/*." ++ e := by
  have hlist : (deepExtension e).glob.toList = '*' :: '*' :: '/' :: '*' :: '.' :: e.toList := by
    simp [glob, String.toList_append]
  have hall : ((deepExtension e).glob == "**/*" || (deepExtension e).glob == "*") = false := by
    simp [← String.toList_inj, hlist]
  simp [matchesGlob, hall, hlist]
  rfl

theorem matchesGlob_path {q : String} (hq : wildcard q = false) (p : String) :
    matchesGlob p (path q).glob = true ↔ p = q := by
  simp only [wildcard, Bool.or_eq_false_iff] at hq
  obtain ⟨⟨⟨hall, hstar⟩, hext⟩, -⟩ := hq
  simp [matchesGlob, glob, hall, hstar, hext]

/-- The comparison and the meaning agree but for the files that `**/*.E` misses. -/
theorem matchesGlob_iff {pat : Pattern} (hpat : pat.Offered) (p : String) :
    matchesGlob p pat.glob = true ↔ pat.Denotes p ∧ ¬ pat.Misses p := by
  cases pat with
  | everyFile => simp [Denotes, Misses, matchesGlob_everyFile]
  | extension e => simp [Denotes, Misses, matchesGlob_extension, suffix_fileName hpat.1]
  | deepExtension e =>
    rw [matchesGlob_deepExtension]
    simp only [Denotes, Misses, suffix_fileName hpat.1, not_and, not_not]
    constructor
    · rintro rfl
      refine ⟨⟨"**/*".toList, ?_⟩, fun _ => rfl⟩
      simp [String.toList_append]
    · exact fun h => h.2 h.1
  | path q => simp [Denotes, Misses, matchesGlob_path hpat]

end Pattern

/-! ## A scan -/

/-- The files below a directory, by their paths. -/
def Listing.files : String → Listing → List String
  | _, .done => []
  | above, .file name _ _ rest => (above ++ name) :: rest.files above
  | above, .dir name sub rest => sub.files (above ++ name ++ "/") ++ rest.files above
  | above, .other _ rest => rest.files above

section
variable [Sha256] {glob : String}

/-- What is found is what matches. -/
theorem map_path_folderEntries (dir : String) (l : Listing) :
    (folderEntries glob dir l).map (·.path) = (l.files dir).filter (matchesGlob · glob) := by
  induction l generalizing dir with
  | done => rfl
  | file name content mtime rest ih =>
    rw [folderEntries, Listing.files, List.map_append, ih, List.filter_cons]
    split
    · rfl
    · rfl
  | dir name sub rest ihs ih => rw [folderEntries, Listing.files, List.map_append, List.filter_append, ihs, ih]
  | other name rest ih => rw [folderEntries, Listing.files, ih]

/-- **A scan has exactly the files that the pattern denotes, but for those that `**/*.E` misses.** -/
theorem scan_selects_iff {pat : Pattern} (hpat : pat.Offered) {root : String} {l : Listing} {w w' : World}
    {entries : List TranscriptEntry} (hl : w.folders root = some l)
    (hscan : (scanDirectory root pat.glob).exec w = (.ok entries, w')) (p : String) :
    (p ∈ entries.map (·.path) ↔ p ∈ l.files "" ∧ pat.Denotes p) ↔ ¬ (p ∈ l.files "" ∧ pat.Misses p) := by
  obtain ⟨⟨l', hl', rfl⟩, -⟩ := ObjectStore.exec_scanDirectory_ok hscan
  obtain rfl : l = l' := Option.some.inj (hl.symm.trans hl')
  have hfound : p ∈ (folderEntries pat.glob "" l).map (·.path) ↔ p ∈ l.files "" ∧ pat.Denotes p ∧ ¬ pat.Misses p := by
    rw [map_path_folderEntries, List.mem_filter, Pattern.matchesGlob_iff hpat]
  have hmiss : pat.Misses p → pat.Denotes p := by
    cases pat with
    | deepExtension e => exact fun h => h.1
    | everyFile => exact False.elim
    | extension e => exact False.elim
    | path q => exact False.elim
  rw [hfound]
  tauto

end

namespace DemoPatterns

def rust : Pattern := .deepExtension "rs"

theorem rust_offered : rust.Offered := ⟨by decide, by decide⟩

def folder : Listing := .file "README.md" (asBytes "2") 200 (.dir "src" (.file "main.rs" (asBytes "1") 100 .done) .done)

def world : World := { World.fresh with folders := fun root => if root = "demo" then some folder else none }

theorem denotes_main : rust.Denotes "src/main.rs" := ⟨"main".toList, by decide +kernel⟩

theorem scan_rust : letI := DemoNames.sha256
    (scanDirectory "demo" rust.glob).exec world = (.ok [], world) := rfl

end DemoPatterns

/-- **The first pattern that the prompt offers selects no file of a project that has one.** -/
theorem offered_pattern_misses : letI := DemoNames.sha256
    DemoPatterns.rust.glob = "**/*.rs" ∧ DemoPatterns.rust.Offered ∧ DemoPatterns.rust.Denotes "src/main.rs" ∧
      "src/main.rs" ∈ DemoPatterns.folder.files "" ∧
      ((scanDirectory "demo" DemoPatterns.rust.glob).exec DemoPatterns.world).1 = .ok [] := by
  let := DemoNames.sha256
  refine ⟨by decide, DemoPatterns.rust_offered, DemoPatterns.denotes_main, by decide +kernel, ?_⟩
  rw [DemoPatterns.scan_rust]

/-- The other file of that project is left out rightly. -/
theorem scan_selects_iff_demo : letI := DemoNames.sha256
    "README.md" ∈ ([] : List TranscriptEntry).map (·.path) ↔
      "README.md" ∈ DemoPatterns.folder.files "" ∧ DemoPatterns.rust.Denotes "README.md" := by
  let := DemoNames.sha256
  refine (scan_selects_iff DemoPatterns.rust_offered rfl DemoPatterns.scan_rust "README.md").2 ?_
  rintro ⟨-, hmiss, -⟩
  exact absurd hmiss (by decide +kernel)

end A2AGateway
