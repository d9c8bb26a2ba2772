import A2AGateway.ObjectStore
import A2AGateway.Lib.Delimited

/-!
# Which folders a transcript describes

A transcript puts one line for each file, its fields between bars, and escapes nothing. What is
read back from it never has a bar or a line feed in a path, so a folder comes back from its
transcript exactly when none of its paths has one (`transcript_faithful`). Otherwise the file is
lost, or read as other files: one file can have the transcript of two
(`one_file_reads_as_two`).
-/

namespace A2AGateway

/-! ## Numbers -/

section
variable {radix bits : Nat}

theorem digit_digitChar {d : Nat} (hradix : radix ≤ 10) (hd : d < radix) : digit radix d.digitChar = some d := by
  have hd10 : d < 10 := by omega
  have hge : '0' ≤ d.digitChar := by
    have hall : ∀ d < 10, '0' ≤ Nat.digitChar d := by decide
    exact hall d hd10
  have hval : d.digitChar.toNat - '0'.toNat = d := Nat.toNat_digitChar_sub_48_of_lt_ten hd10
  unfold digit
  rw [hval, if_pos ⟨hge, hd⟩]

theorem parseDigits_append : ∀ {cs ds : List Char} {acc : Nat},
    parseDigits radix bits (cs ++ ds) acc = (parseDigits radix bits cs acc).bind (parseDigits radix bits ds)
  | [], _, _ => rfl
  | c :: cs, ds, acc => by
    simp only [List.cons_append, parseDigits]
    cases digit radix c with
    | none => rfl
    | some d =>
      simp only
      split
      · exact parseDigits_append
      · rfl

/-- The digits of a number that fits are read back. -/
theorem parseDigits_toDigits {n : Nat} (hradix : 1 < radix) (hten : radix ≤ 10) (hn : n < 2 ^ bits) :
    parseDigits radix bits (Nat.toDigits radix n) 0 = some n := by
  induction n using Nat.base_induction radix hradix with
  | single m hm =>
    rw [Nat.toDigits_of_lt_base hm]
    simp [parseDigits, digit_digitChar hten hm, hn]
  | digit m k hk hm ih =>
    have hm' : m < 2 ^ bits := by
      have : m ≤ radix * m := Nat.le_mul_of_pos_left m (by omega)
      omega
    rw [← Nat.toDigits_append_toDigits hradix hm hk, parseDigits_append, ih hm', Nat.toDigits_of_lt_base hk]
    simp [parseDigits, digit_digitChar hten hk, Nat.mul_comm m radix, hn]

/-- No digit is a sign, a bar or a line end. -/
theorem isDigit_toDigits {n : Nat} {c : Char} (hradix : 0 < radix) (hten : radix ≤ 10)
    (hc : c ∈ Nat.toDigits radix n) : c.isDigit = true := Nat.isDigit_of_mem_toDigits hradix hten hc

/-- What is read fits the bits. -/
theorem parseDigits_lt {cs : List Char} {acc n : Nat} (hacc : acc < 2 ^ bits) (h : parseDigits radix bits cs acc = some n) :
    n < 2 ^ bits := by
  induction cs generalizing acc with
  | nil =>
    cases h
    exact hacc
  | cons c cs ih =>
    simp only [parseDigits] at h
    split at h
    · cases h
    · split at h
      · exact ih ‹_› h
      · cases h

theorem parseUInt_lt {cs : List Char} {n : Nat} (h : parseUInt radix bits cs = some n) : n < 2 ^ bits := by
  have hzero : 0 < 2 ^ bits := Nat.two_pow_pos bits
  unfold parseUInt at h
  split at h
  · cases h
  · cases h
  · exact parseDigits_lt hzero h
  · exact parseDigits_lt hzero h

theorem parseUInt_toDigits {n : Nat} (hradix : 1 < radix) (hten : radix ≤ 10) (hn : n < 2 ^ bits) :
    parseUInt radix bits (Nat.toDigits radix n) = some n := by
  have hparse := parseDigits_toDigits hradix hten hn
  have hdigit : ∀ c ∈ Nat.toDigits radix n, c.isDigit = true :=
    fun c hc => isDigit_toDigits (by omega) hten hc
  unfold parseUInt
  split
  · rename_i hnil
    exact absurd hnil Nat.toDigits_ne_nil
  · rename_i hplus
    exact absurd (hdigit '+' (by rw [hplus]; simp)) (by decide)
  · rename_i cs hplus
    exact absurd (hdigit '+' (by rw [hplus]; simp)) (by decide)
  · exact hparse

end

/-! ## One line -/

namespace TranscriptEntry

/-- The path cannot be taken for more than a field of one line. -/
def Plain (e : TranscriptEntry) : Prop := '|' ∉ e.path.toList ∧ '\n' ∉ e.path.toList

/-- The other fields are as a scan fills them: a hash, and numbers of their types. -/
structure Scanned (e : TranscriptEntry) : Prop where
  sha256 : ∀ c ∈ e.sha256.toList, isAsciiHexDigit c = true
  size : e.size < 2 ^ 64
  mode : e.mode < 2 ^ 32
  mtime : e.mtime < 2 ^ 64

/-- What a line can carry. -/
structure Carried (e : TranscriptEntry) : Prop where
  plain : e.Plain
  sha256 : '|' ∉ e.sha256.toList ∧ '\n' ∉ e.sha256.toList
  size : e.size < 2 ^ 64
  mode : e.mode < 2 ^ 32
  mtime : e.mtime < 2 ^ 64

variable {e : TranscriptEntry}

theorem Scanned.carried (he : e.Scanned) (hp : e.Plain) : e.Carried := by
  have hhex : ∀ d : Char, isAsciiHexDigit d = false → d ∉ e.sha256.toList := by
    intro d hd hmem
    rw [he.sha256 d hmem] at hd
    cases hd
  exact ⟨hp, ⟨hhex '|' (by decide), hhex '\n' (by decide)⟩, he.size, he.mode, he.mtime⟩

/-- The fields of the line. -/
def fields (e : TranscriptEntry) : List (List Char) :=
  [['F'], e.path.toList, e.sha256.toList, Nat.toDigits 10 e.size, Nat.toDigits 8 e.mode, Nat.toDigits 10 e.mtime]

theorem toList_toLine (e : TranscriptEntry) : e.toLine.toList = ['|'].intercalate e.fields := by
  have htext : ∀ s : String, toString s = s := fun _ => rfl
  simp [toLine, fields, List.intercalate, String.toList_append, Nat.toList_repr, htext]

/-- A line ends with a digit. -/
theorem getLast?_toLine (e : TranscriptEntry) : ∃ c, e.toLine.toList.getLast? = some c ∧ c.isDigit = true := by
  have hsplit : e.toLine.toList = (['|'].intercalate (e.fields.dropLast) ++ ['|']) ++ Nat.toDigits 10 e.mtime := by
    rw [toList_toLine]
    simp [fields, List.intercalate]
  have hne : Nat.toDigits 10 e.mtime ≠ [] := Nat.toDigits_ne_nil
  refine ⟨(Nat.toDigits 10 e.mtime).getLast hne, ?_, isDigit_toDigits (by omega) (by omega) (List.getLast_mem hne)⟩
  rw [hsplit, List.getLast?_append_of_ne_nil _ hne, List.getLast?_eq_some_getLast hne]

/-- No field of a line holds the character, if neither text does and it is not of the digits. -/
theorem not_mem_fields {d : Char} (hpath : d ∉ e.path.toList) (hsha : d ∉ e.sha256.toList) (hF : d ≠ 'F')
    (hdigit : d.isDigit = false) : ∀ f ∈ e.fields, d ∉ f := by
  have hnum : ∀ radix n, 0 < radix → radix ≤ 10 → d ∉ Nat.toDigits radix n := by
    intro radix n h0 h10 hd
    have := isDigit_toDigits h0 h10 hd
    rw [hdigit] at this
    cases this
  intro f hf
  simp only [fields, List.mem_cons, List.not_mem_nil, or_false] at hf
  rcases hf with rfl | rfl | rfl | rfl | rfl | rfl
  · simpa using hF
  · exact hpath
  · exact hsha
  · exact hnum 10 _ (by omega) (by omega)
  · exact hnum 8 _ (by omega) (by omega)
  · exact hnum 10 _ (by omega) (by omega)

theorem not_lf_mem_toLine (he : e.Carried) : '\n' ∉ e.toLine.toList := by
  have hfields := not_mem_fields he.plain.2 he.sha256.2 (by decide) (by decide)
  rw [toList_toLine]
  simp only [fields, List.mem_cons, forall_eq_or_imp] at hfields
  obtain ⟨-, hpath, hsha, hsize, hmode, hmtime, -⟩ := hfields
  simp [fields, List.intercalate, hpath, hsha, hsize, hmode, hmtime]

/-- **What a line can carry is read back.** -/
theorem fromLine_toLine (he : e.Carried) : fromLine e.toLine.toList = some e := by
  have hsplit : e.toLine.toList.splitOn '|' = e.fields := by
    rw [toList_toLine]
    exact List.splitOn_intercalate '|'
      (not_mem_fields he.plain.1 he.sha256.1 (by decide) (by decide)) (by simp [fields])
  unfold fromLine
  rw [hsplit, fields]
  simp only [if_true, parseUInt_toDigits (by decide : 1 < 10) (by decide) he.size,
    parseUInt_toDigits (by decide : 1 < 8) (by decide) he.mode,
    parseUInt_toDigits (by decide : 1 < 10) (by decide) he.mtime, String.ofList_toList]

/-- **What is read from a line can be carried by one**: it has no bar in its texts, nothing that the line has
not, and numbers that fit. -/
theorem carried_of_fromLine {line : List Char} (h : fromLine line = some e) (hline : '\n' ∉ line) : e.Carried := by
  unfold fromLine at h
  split at h
  · rename_i tag path sha256 size mode mtime hfields
    have hfield : ∀ f ∈ line.splitOn '|', '|' ∉ f ∧ '\n' ∉ f := by
      intro f hf
      obtain ⟨hbar, hsub⟩ := Delimited.mem_splitOn hf
      exact ⟨hbar, fun hlf => hline (hsub hlf)⟩
    have hpath := hfield path (by simp [hfields])
    have hsha := hfield sha256 (by simp [hfields])
    split at h
    · split at h
      · rename_i hsize hmode hmtime
        cases h
        refine ⟨?_, ?_, parseUInt_lt hsize, parseUInt_lt hmode, parseUInt_lt hmtime⟩
        · simpa only [Plain, String.toList_ofList] using hpath
        · simpa only [String.toList_ofList] using hsha
      · cases h
    · cases h
  · cases h

end TranscriptEntry

/-! ## The text as lines -/

/-- Lines that hold no line feed and do not end in a carriage return are read back. -/
theorem lines_intercalate {ls : List (List Char)}
    (h : ∀ l ∈ ls, '\n' ∉ l ∧ l ≠ [] ∧ l.getLast? ≠ some '\r') : lines (['\n'].intercalate ls) = ls := by
  by_cases hls : ls = []
  · subst hls
    rfl
  have hsplit : (['\n'].intercalate ls).splitOn '\n' = ls :=
    List.splitOn_intercalate '\n' (fun l hl => (h l hl).1) hls
  have hstrip : ∀ l ∈ ls.dropLast, (if l.getLast? = some '\r' then l.dropLast else l) = l := by
    intro l hl
    rw [if_neg (h l (List.dropLast_subset _ hl)).2.2]
  have hlast : ls.getLast hls ≠ [] := (h _ (List.getLast_mem hls)).2.1
  unfold lines
  simp only [hsplit]
  rw [List.map_congr_left hstrip, List.map_id', List.getLast?_eq_some_getLast hls]
  simp [hlast, List.dropLast_concat_getLast hls]

theorem not_lf_mem_lines {cs l : List Char} (hl : l ∈ lines cs) : '\n' ∉ l := by
  unfold lines at hl
  rcases List.mem_append.1 hl with hl | hl
  · obtain ⟨p, hp, rfl⟩ := List.mem_map.1 hl
    have hlf := (Delimited.mem_splitOn (List.dropLast_subset _ hp)).1
    split
    · exact fun hmem => hlf (List.dropLast_subset _ hmem)
    · exact hlf
  · have hmem : l ∈ (cs.splitOn '\n').getLast?.toList := List.mem_of_mem_filter hl
    exact (Delimited.mem_splitOn (List.mem_of_getLast? (Option.mem_toList.1 hmem))).1

/-- **Whatever is read, a line can carry it.** -/
theorem carried_of_mem_parse {text : String} {e : TranscriptEntry} (h : e ∈ parseTranscript text) : e.Carried := by
  obtain ⟨line, hline, he⟩ := List.mem_filterMap.1 h
  exact TranscriptEntry.carried_of_fromLine he (not_lf_mem_lines hline)

section
variable {entries : List TranscriptEntry}

theorem parse_build (hcarried : ∀ e ∈ entries, e.Carried) :
    parseTranscript (buildTranscript entries) = entries.insertionSort (·.path ≤ ·.path) := by
  have hmem : ∀ e, e ∈ entries.insertionSort (·.path ≤ ·.path) ↔ e ∈ entries := fun e => List.mem_insertionSort _
  unfold parseTranscript buildTranscript
  generalize entries.insertionSort (·.path ≤ ·.path) = sorted at hmem
  have hlines : lines ("\n".intercalate (sorted.map (·.toLine))).toList = sorted.map (·.toLine.toList) := by
    rw [String.toList_intercalate, List.map_map]
    apply lines_intercalate
    intro l hl
    obtain ⟨e, he, rfl⟩ := List.mem_map.1 hl
    obtain ⟨c, hc, hdigit⟩ := e.getLast?_toLine
    refine ⟨TranscriptEntry.not_lf_mem_toLine (hcarried e ((hmem e).1 he)), ?_, ?_⟩
    · intro hnil
      rw [Function.comp_apply] at hnil
      rw [hnil] at hc
      cases hc
    · rw [Function.comp_apply, hc]
      intro hcr
      cases hcr
      exact absurd hdigit (by decide)
  rw [hlines, List.filterMap_map]
  have hread : ∀ e ∈ sorted, (TranscriptEntry.fromLine ∘ fun e => e.toLine.toList) e = some e := by
    intro e he
    have hback := TranscriptEntry.fromLine_toLine (hcarried e ((hmem e).1 he))
    rw [Function.comp_apply, hback]
  rw [List.filterMap_congr hread, List.filterMap_some]

/-- Entries come back from their transcript if and only if all their paths are plain. -/
theorem parse_build_iff (hs : ∀ e ∈ entries, e.Scanned) :
    parseTranscript (buildTranscript entries) = entries.insertionSort (·.path ≤ ·.path) ↔ ∀ e ∈ entries, e.Plain := by
  constructor
  · intro h e he
    have hmem : e ∈ entries.insertionSort (·.path ≤ ·.path) := (List.mem_insertionSort _).2 he
    rw [← h] at hmem
    exact (carried_of_mem_parse hmem).plain
  · intro hp
    exact parse_build fun e he => (hs e he).carried (hp e he)

end

/-! ## Folders -/

/-- File sizes and times are `u64`. -/
def Listing.Fits : Listing → Prop
  | .done => True
  | .file _ content mtime rest => content.length < 2 ^ 64 ∧ mtime < 2 ^ 64 ∧ rest.Fits
  | .dir _ sub rest => sub.Fits ∧ rest.Fits
  | .other _ rest => rest.Fits

/-- What a file system takes as a name. -/
def legalName (name : String) : Bool := name ≠ "" && !name.toList.contains '/' && !name.toList.contains '\x00'

/-- All names are legal. -/
def Listing.Legal : Listing → Bool
  | .done => true
  | .file name _ _ rest => legalName name && rest.Legal
  | .dir name sub rest => legalName name && sub.Legal && rest.Legal
  | .other name rest => legalName name && rest.Legal

section
variable [Sha256]

/-- The entries of a folder, in the order of the scan. -/
def allFiles (l : Listing) : List TranscriptEntry := ObjectStore.folderEntries "**/*" "" l

theorem scanned_folderEntries {glob : String} {l : Listing} {dir : String} (hl : l.Fits) :
    ∀ e ∈ ObjectStore.folderEntries glob dir l, e.Scanned := by
  induction l generalizing dir with
  | done => simp [ObjectStore.folderEntries]
  | file name content mtime rest ih =>
    obtain ⟨hsize, hmtime, hrest⟩ := hl
    intro e he
    rw [ObjectStore.folderEntries] at he
    rcases List.mem_append.1 he with he | he
    · split at he
      · rw [List.mem_singleton] at he
        subst he
        exact ⟨Sha256.hex content, hsize, (by decide : 0o644 < 2 ^ 32), hmtime⟩
      · cases he
    · exact ih hrest e he
  | dir name sub rest ihs ih =>
    obtain ⟨hsub, hrest⟩ := hl
    intro e he
    rw [ObjectStore.folderEntries] at he
    rcases List.mem_append.1 he with he | he
    · exact ihs hsub e he
    · exact ih hrest e he
  | other name rest ih =>
    intro e he
    rw [ObjectStore.folderEntries] at he
    exact ih hl e he

theorem scanned_allFiles {l : Listing} (hl : l.Fits) : ∀ e ∈ allFiles l, e.Scanned := scanned_folderEntries hl

/-- **A folder comes back from its transcript exactly if no path in it has a bar or a line feed**, and two
such folders with one transcript have the same entries. -/
theorem transcript_faithful {l l' : Listing} (hl : l.Fits) (hl' : l'.Fits) :
    (parseTranscript (buildTranscript (allFiles l)) = (allFiles l).insertionSort (·.path ≤ ·.path) ↔
      ∀ e ∈ allFiles l, e.Plain) ∧
    ((∀ e ∈ allFiles l, e.Plain) → (∀ e ∈ allFiles l', e.Plain) →
      buildTranscript (allFiles l) = buildTranscript (allFiles l') → (allFiles l).Perm (allFiles l')) := by
  refine ⟨parse_build_iff (scanned_allFiles hl), fun hp hp' htext => ?_⟩
  have hsorted : (allFiles l).insertionSort (·.path ≤ ·.path) = (allFiles l').insertionSort (·.path ≤ ·.path) := by
    rw [← (parse_build_iff (scanned_allFiles hl)).2 hp, ← (parse_build_iff (scanned_allFiles hl')).2 hp', htext]
  have hperm := List.perm_insertionSort (fun a b : TranscriptEntry => a.path ≤ b.path) (allFiles l)
  have hperm' := List.perm_insertionSort (fun a b : TranscriptEntry => a.path ≤ b.path) (allFiles l')
  rw [hsorted] at hperm
  exact hperm.symm.trans hperm'

end

/-! ## A name that makes two files of one -/

namespace DemoNames

/-- SHA-256 of `1` and `2`. -/
@[reducible] def sha256 : Sha256 := .recorded
  [("1", "6b86b273ff34fce19d6b804eff5a3f5747ada4eaa22f1d49c01e52ddb7875b4b"),
   ("2", "d4735e3a265e16eee03f59718b9b5d03019c07d8b6c51f90da3a666eec13ab35")] (by decide +kernel)

def twoFiles : Listing := .file "a.txt" (asBytes "1") 100 (.file "b.txt" (asBytes "2") 200 .done)

def oneFile : Listing :=
  .file "a.txt|6b86b273ff34fce19d6b804eff5a3f5747ada4eaa22f1d49c01e52ddb7875b4b|1|644|100\nF|b.txt" (asBytes "2") 200 .done

end DemoNames

/-- The two files come back. -/
theorem transcript_faithful_demo : letI := DemoNames.sha256
    parseTranscript (buildTranscript (allFiles DemoNames.twoFiles)) =
      (allFiles DemoNames.twoFiles).insertionSort (·.path ≤ ·.path) := by
  let := DemoNames.sha256
  have hfits : DemoNames.twoFiles.Fits := ⟨by decide, by decide, by decide, by decide, trivial⟩
  refine (transcript_faithful hfits hfits).1.2 ?_
  unfold TranscriptEntry.Plain
  decide +kernel

/-- **One file with a legal name reads as two**, and two folders that differ have one transcript. -/
theorem one_file_reads_as_two : letI := DemoNames.sha256
    DemoNames.oneFile.Legal = true ∧ DemoNames.twoFiles.Legal = true ∧ DemoNames.oneFile.Fits ∧
      parseTranscript (buildTranscript (allFiles DemoNames.oneFile)) ≠
        (allFiles DemoNames.oneFile).insertionSort (·.path ≤ ·.path) ∧
      (parseTranscript (buildTranscript (allFiles DemoNames.oneFile))).map (·.path) = ["a.txt", "b.txt"] ∧
      buildTranscript (allFiles DemoNames.oneFile) = buildTranscript (allFiles DemoNames.twoFiles) ∧
      ¬ (allFiles DemoNames.oneFile).Perm (allFiles DemoNames.twoFiles) := by
  let := DemoNames.sha256
  refine ⟨by decide +kernel, by decide +kernel, ⟨by decide, by decide, trivial⟩, by decide +kernel, by decide +kernel,
    by decide +kernel, fun h => ?_⟩
  exact absurd h.length_eq (by decide +kernel)

end A2AGateway
