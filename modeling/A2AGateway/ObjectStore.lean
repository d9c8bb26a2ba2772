import A2AGateway.World
import A2AGateway.Transcript

/-!
# The content-addressed object store (`object_store.rs`)

| here | there |
| --- | --- |
| `put`, `get`, `missing`             | `object_store.rs:33-71`, `79-87` |
| `objectPath`, `validateHash`        | `object_store.rs:89-99` |
| `existsDb`                          | `object_store.rs:101-110` |
| `scanDirectory`, `matchesGlob`      | `object_store.rs:172-231` |

An object is *recorded* when the `objects` table has a row for its hash, and *held* when its file
is there with the content the hash names. `put` and `missing` ask for the first, `get` serves the
second.

The folder is taken as it is when the scan begins; file names are the `to_string_lossy` texts.
-/

namespace A2AGateway

open Sha256 (sha256Hex)
open Gw

namespace ObjectStore

/-- `hash[..2]` and `hash[2..]` under the root; `none` is the panic of the slice. -/
def objectPath (hash : String) : Option ObjectPath :=
  match takeBytes hash.toList 2, dropBytes hash.toList 2 with
  | some dir, some file => some ⟨String.ofList dir, String.ofList file⟩
  | _, _ => none

def validHash (hash : String) : Bool :=
  4 ≤ byteLen hash.toList && hash.toList.all isAsciiHexDigit

def validateHash (hash : String) : Gw Unit :=
  if validHash hash then
    return ()
  else
    match takeBytes hash.toList (min (byteLen hash.toList) 20) with
    | some shown => throw (.msg s!"invalid object hash: must be hex string, got '{String.ofList shown}'")
    | none => throw .panic

/-- The `objects` table has a row for the hash. -/
def recorded (db : Db) (hash : String) : Bool := db.objects.rows.any (·.sha256 == hash)

def existsDb (hash : String) : Gw Bool :=
  query (.msg "exists check") fun db => recorded db hash

/-- The row for an object of the given size; the size must fit the column. -/
def insertObject (hash : String) (size : Nat) (db : Db) : Option Db :=
  if fitsInteger size then
    some { db with objects := db.objects.insertIgnore ⟨hash, size⟩ }
  else none

def put [Sha256] (content : Bytes) : Gw String := do
  let hash := sha256Hex content
  if ← existsDb hash then
    return hash
  else
    let path ← orThrow .panic (objectPath hash)
    -- `create_dir_all`: directories are not modelled, only that making one can fail.
    ioRead (.msg "create object dir") fun _ => ()
    ioWrite (.msg "write object") path content
    execute (.msg "insert object record") fun _ db => insertObject hash content.length db
    return hash

def get (hash : String) : Gw (Option Bytes) := do
  validateHash hash
  let path ← orThrow .panic (objectPath hash)
  -- `Path::exists` answers `false` when the file cannot be looked up.
  let there ← (ioRead .io fun w => (w.disk path).isSome).attempt
  if there.getD false then
    let bytes ← orThrow (.msg "read object") (← ioRead (.msg "read object") fun w => w.disk path)
    return some bytes
  else
    return none

def missing : List String → Gw (List String)
  | [] => return []
  | h :: want => do
    if ← existsDb h then
      missing want
    else
      return h :: (← missing want)

/-! ## Scanning a folder -/

def matchesGlob (relPath glob : String) : Bool :=
  if glob == "**/*" || glob == "*" then
    true
  else if ['*', '.'].isPrefixOf glob.toList then
    (glob.toList.drop 1).isSuffixOf relPath.toList
  else
    relPath == glob

/-- The entry of one file, its mode fixed to `0o644`. -/
def fileEntry [Sha256] (rel : String) (content : Bytes) (mtime : Nat) : TranscriptEntry :=
  ⟨rel, sha256Hex content, content.length, 0o644, mtime⟩

/-- `scan_dir_recursive` below the directory `dir` (`""`, or a path that ends in `/`), from the
listing of it on; `out` is what has been found so far. -/
def scanDirRecursive [Sha256] (glob : String) : String → Listing → List TranscriptEntry →
    Gw (List TranscriptEntry)
  | _, .done, out => do
    ioRead .io fun _ => ()
    return out
  | dir, .file name content mtime rest, out => do
    -- `next_entry`, then `metadata`
    ioRead .io fun _ => ()
    ioRead .io fun _ => ()
    let rel := dir ++ name
    if matchesGlob rel glob then
      ioRead (.msg "read file for scan") fun _ => ()
      let _ ← put content
      scanDirRecursive glob dir rest (out ++ [fileEntry rel content mtime])
    else
      scanDirRecursive glob dir rest out
  | dir, .dir name sub rest, out => do
    ioRead .io fun _ => ()
    ioRead .io fun _ => ()
    ioRead (.msg "read dir") fun _ => ()
    let out ← scanDirRecursive glob (dir ++ name ++ "/") sub out
    scanDirRecursive glob dir rest out
  | dir, .other _ rest, out => do
    ioRead .io fun _ => ()
    ioRead .io fun _ => ()
    scanDirRecursive glob dir rest out

def scanDirectory [Sha256] (root glob : String) : Gw (List TranscriptEntry) := do
  let listing ← orThrow (.msg "read dir") (← ioRead (.msg "read dir") fun w => w.folders root)
  scanDirRecursive glob "" listing []

/-- What a scan of a folder finds. -/
def folderEntries [Sha256] (glob : String) : String → Listing → List TranscriptEntry
  | _, .done => []
  | dir, .file name content mtime rest =>
    (if matchesGlob (dir ++ name) glob then [fileEntry (dir ++ name) content mtime] else []) ++
      folderEntries glob dir rest
  | dir, .dir name sub rest => folderEntries glob (dir ++ name ++ "/") sub ++ folderEntries glob dir rest
  | dir, .other _ rest => folderEntries glob dir rest

/-! ## Paths -/

theorem takeBytes_append_dropBytes : ∀ {cs a b : List Char} {n : Nat},
    takeBytes cs n = some a → dropBytes cs n = some b → cs = a ++ b
  | [], _, _, 0, ha, hb => by simp_all [takeBytes, dropBytes]
  | c :: cs, _, _, 0, ha, hb => by simp_all [takeBytes, dropBytes]
  | [], _, _, n + 1, ha, _ => by simp [takeBytes] at ha
  | c :: cs, a, b, n + 1, ha, hb => by
    simp only [takeBytes, dropBytes] at ha hb
    by_cases h : c.utf8Size ≤ n + 1
    · rw [if_pos h] at ha hb
      obtain ⟨a', ha', rfl⟩ := Option.map_eq_some_iff.1 ha
      rw [takeBytes_append_dropBytes ha' hb, List.cons_append]
    · rw [if_neg h] at ha
      cases ha

/-- Two hashes are never stored in one file. -/
theorem objectPath_inj {h h' : String} {p : ObjectPath} (hp : objectPath h = some p)
    (hp' : objectPath h' = some p) : h = h' := by
  have key : ∀ {s : String}, objectPath s = some p → s.toList = p.dir.toList ++ p.file.toList := by
    intro s hs
    unfold objectPath at hs
    split at hs
    · rename_i a b ha hb
      cases hs
      simpa using takeBytes_append_dropBytes ha hb
    · cases hs
  exact String.toList_inj.1 ((key hp).trans (key hp').symm)

theorem utf8Size_of_hexDigit {c : Char} (h : isAsciiHexDigit c = true) : c.utf8Size = 1 := by
  have hle : c.val ≤ 127 := by
    simp only [isAsciiHexDigit, Bool.or_eq_true, Bool.and_eq_true, decide_eq_true_eq, Char.le_def] at h
    have h9 : ('9' : Char).val ≤ 127 := by decide
    have hf : ('f' : Char).val ≤ 127 := by decide
    have hF : ('F' : Char).val ≤ 127 := by decide
    rcases h with (h | h) | h
    · exact UInt32.le_trans h.2 h9
    · exact UInt32.le_trans h.2 hf
    · exact UInt32.le_trans h.2 hF
  simp [Char.utf8Size, hle]

/-- Slices of hexadecimal text never panic inside it. -/
theorem slices_of_hex : ∀ {cs : List Char} {n : Nat}, (∀ c ∈ cs, isAsciiHexDigit c = true) →
    n ≤ cs.length → takeBytes cs n = some (cs.take n) ∧ dropBytes cs n = some (cs.drop n)
  | [], 0, _, _ => by simp [takeBytes, dropBytes]
  | _ :: _, 0, _, _ => by simp [takeBytes, dropBytes]
  | [], n + 1, _, hn => by simp at hn
  | c :: cs, n + 1, h, hn => by
    have hc : c.utf8Size = 1 := utf8Size_of_hexDigit (h c (by simp))
    have ih := @slices_of_hex cs n (fun d hd => h d (by simp [hd])) (by simpa using hn)
    have h1 : n + 1 - 1 = n := by omega
    simp [takeBytes, dropBytes, hc, h1, ih]

theorem byteLen_of_hex {cs : List Char} (h : ∀ c ∈ cs, isAsciiHexDigit c = true) :
    byteLen cs = cs.length := by
  induction cs with
  | nil => rfl
  | cons c cs ih =>
    have hc : c.utf8Size = 1 := utf8Size_of_hexDigit (h c (by simp))
    have ih' := ih fun d hd => h d (by simp [hd])
    simp only [byteLen, List.map_cons, List.sum_cons, List.length_cons] at ih' ⊢
    omega

theorem objectPath_of_valid {hash : String} (h : validHash hash = true) :
    ∃ p, objectPath hash = some p := by
  simp only [validHash, Bool.and_eq_true, decide_eq_true_eq, List.all_eq_true] at h
  rw [byteLen_of_hex h.2] at h
  obtain ⟨h1, h2⟩ := @slices_of_hex hash.toList 2 h.2 (by omega)
  exact ⟨⟨_, _⟩, by simp only [objectPath, h1, h2]; rfl⟩

/-- **Every hash the store computes passes its own check.** -/
theorem validHash_sha256Hex [Sha256] (b : Bytes) : validHash (sha256Hex b) = true := by
  have hl := byteLen_of_hex (Sha256.hex b)
  rw [Sha256.length_hex] at hl
  simp only [validHash, hl, Bool.and_eq_true, decide_eq_true_eq, List.all_eq_true]
  exact ⟨by omega, Sha256.hex b⟩

/-! ## What `get` serves -/

/-- The bytes that `get` serves for a hash. -/
def objectBytes (disk : ObjectPath → Option Bytes) (hash : String) : Option Bytes :=
  if validHash hash then (objectPath hash).bind disk else none

/-- The object is in the store: its file is there and has the content the hash names. -/
def holds [Sha256] (w : World) (hash : String) : Prop :=
  ∃ b, objectBytes w.disk hash = some b ∧ sha256Hex b = hash

theorem objectBytes_of_path {disk : ObjectPath → Option Bytes} {hash : String} {p : ObjectPath}
    (hv : validHash hash = true) (hp : objectPath hash = some p) :
    objectBytes disk hash = disk p := by
  simp [objectBytes, hv, hp]

theorem exec_validateHash_ok {hash : String} {w w' : World}
    (h : (validateHash hash).exec w = (.ok (), w')) : validHash hash = true ∧ w = w' := by
  unfold validateHash at h
  split at h
  · rename_i hv
    cases h
    exact ⟨hv, rfl⟩
  · split at h <;> cases h

/-- What `get` returns is what the file holds; nothing is changed. -/
theorem exec_get_ok {hash : String} {b : Bytes} {w w' : World}
    (h : (get hash).exec w = (.ok (some b), w')) :
    objectBytes w.disk hash = some b ∧ w'.stored = w.stored := by
  simp only [get, Prog.bind_eq] at h
  obtain ⟨_, w₁, e₁, h⟩ := Prog.exec_bind_ok.1 h
  obtain ⟨hv, rfl⟩ := exec_validateHash_ok e₁
  obtain ⟨p, w₂, e₂, h⟩ := Prog.exec_bind_ok.1 h
  obtain ⟨hp, rfl⟩ := exec_orThrow_ok e₂
  obtain ⟨there, w₃, e₃, h⟩ := Prog.exec_bind_ok.1 h
  have hw₃ : w₃ = w.tick := by
    rw [Prog.exec_attempt] at e₃
    rcases exec_op .io (fun w => (.ok (w.disk p).isSome, w)) w with h' | h' <;>
      rw [ioRead, h'] at e₃ <;> cases e₃ <;> rfl
  subst hw₃
  split at h
  · obtain ⟨_, w₄, e₄, h⟩ := Prog.exec_bind_ok.1 h
    obtain ⟨rfl, rfl⟩ := exec_ioRead_ok e₄
    obtain ⟨_, w₅, e₅, h⟩ := Prog.exec_bind_ok.1 h
    obtain ⟨hb, rfl⟩ := exec_orThrow_ok e₅
    cases h
    exact ⟨by simpa [objectBytes_of_path hv hp] using hb, rfl⟩
  · cases h

/-- With nothing failing, `get` of a proper hash serves the file. -/
theorem exec_get_calm {hash : String} {w : World} (hw : w.faults = [])
    (hv : validHash hash = true) : (get hash).exec w = (.ok (objectBytes w.disk hash), w) := by
  obtain ⟨p, hp⟩ := objectPath_of_valid hv
  have hval : (validateHash hash).exec w = (.ok (), w) := by simp [validateHash, hv]
  have hthere : ((ioRead .io fun w => (w.disk p).isSome).attempt).exec w =
      (.ok (some (w.disk p).isSome), w) := by
    rw [Prog.exec_attempt, exec_ioRead_calm hw]
    rfl
  simp only [get, Prog.bind_eq]
  rw [Prog.exec_bind_of_ok hval, hp]
  simp only [orThrow, Prog.ret_bind]
  rw [Prog.exec_bind_of_ok hthere, objectBytes_of_path hv hp]
  cases hd : w.disk p with
  | none => rfl
  | some b =>
    simp only [Option.isSome_some, Option.getD_some, if_true]
    rw [Prog.exec_bind_of_ok (exec_ioRead_calm hw), hd]
    rfl

/-- With nothing failing, `get` serves exactly what the file holds. -/
theorem get_serves_iff {hash : String} {b : Bytes} {w : World} :
    ((get hash).exec w.calm).1 = .ok (some b) ↔ objectBytes w.disk hash = some b := by
  constructor
  · intro h
    exact (exec_get_ok (Prog.exec_eq_of_fst h)).1
  · intro h
    have hv : validHash hash = true := by
      by_contra hv
      rw [objectBytes, if_neg hv] at h
      cases h
    rw [exec_get_calm rfl hv, ← h]
    rfl

/-! ## What `put` does -/

section put
variable [Sha256] {content : Bytes} {hash : String} {w w' : World}

/-- The two ways `put` succeeds: the object is recorded and nothing happens, or the file is
written and then recorded. -/
theorem exec_put_ok (h : (put content).exec w = (.ok hash, w')) :
    hash = sha256Hex content ∧
      (recorded w.db hash = true ∧ w'.stored = w.stored ∨
        recorded w.db hash = false ∧ (∃ p db, objectPath hash = some p ∧
          insertObject hash content.length w.db = some db ∧
          w'.stored = (db, Function.update w.disk p (some content)))) := by
  simp only [put, Prog.bind_eq, Prog.pure_eq] at h
  obtain ⟨r, w₁, e₁, h⟩ := Prog.exec_bind_ok.1 h
  obtain ⟨rfl, rfl⟩ := exec_query_ok e₁
  split at h
  · rename_i hrec
    cases h
    exact ⟨rfl, Or.inl ⟨hrec, rfl⟩⟩
  · rename_i hrec
    obtain ⟨p, w₂, e₂, h⟩ := Prog.exec_bind_ok.1 h
    obtain ⟨hp, rfl⟩ := exec_orThrow_ok e₂
    obtain ⟨_, w₃, e₃, h⟩ := Prog.exec_bind_ok.1 h
    obtain ⟨-, rfl⟩ := exec_ioRead_ok e₃
    obtain ⟨_, w₄, e₄, h⟩ := Prog.exec_bind_ok.1 h
    obtain rfl := exec_ioWrite_ok e₄
    obtain ⟨_, w₅, e₅, h⟩ := Prog.exec_bind_ok.1 h
    obtain ⟨db, hdb, rfl⟩ := exec_execute_ok e₅
    cases h
    exact ⟨rfl, Or.inr ⟨by simpa using hrec, p, db, hp, hdb, rfl⟩⟩

/-- With nothing failing, `put` succeeds unless it meets a new object too large for its row. -/
theorem exec_put_calm (hw : w.faults = []) :
    ((put content).exec w).1 = .ok (sha256Hex content) ↔
      recorded w.db (sha256Hex content) = true ∨ fitsInteger content.length = true := by
  obtain ⟨p, hp⟩ := objectPath_of_valid (validHash_sha256Hex content)
  simp only [put, existsDb, Prog.bind_eq, Prog.pure_eq]
  rw [Prog.exec_bind_of_ok (exec_query_calm hw)]
  by_cases hrec : recorded w.db (sha256Hex content) = true
  · simp only [hrec, if_true, true_or, iff_true]
    rfl
  · simp only [hrec, hp, orThrow, Prog.ret_bind]
    have hw' : ({ w with disk := Function.update w.disk p (some content) } : World).faults = [] := hw
    rw [if_neg (by simp), Prog.exec_bind_of_ok (exec_ioRead_calm hw),
      Prog.exec_bind_of_ok (exec_ioWrite_calm hw), Prog.exec_bind, exec_execute_calm hw']
    cases hf : fitsInteger content.length with
    | true =>
      simp only [insertObject, hf, if_true]
      exact ⟨fun _ => Or.inr trivial, fun _ => rfl⟩
    | false =>
      simp only [insertObject, hf, Bool.false_eq_true, if_false]
      simp

/-- After `put`, what is recorded is what was and the object. -/
theorem recorded_put (h : (put content).exec w = (.ok hash, w')) (x : String) :
    recorded w'.db x = (recorded w.db x || x == hash) := by
  obtain ⟨-, ⟨hrec, hs⟩ | ⟨hrec, p, db, -, hins, hs⟩⟩ := exec_put_ok h
  · have hdb : w'.db = w.db := congrArg Prod.fst hs
    rw [hdb]
    by_cases hx : x = hash
    · subst hx
      simp [hrec]
    · simp [hx]
  · have hdb : w'.db = db := congrArg Prod.fst hs
    rw [hdb]
    unfold insertObject at hins
    split at hins
    · cases hins
      rcases Table.rows_insertIgnore w.db.objects ⟨hash, content.length⟩ with ⟨-, o, ho, hc⟩ | ⟨hr, -⟩
      · have : recorded w.db hash = true := List.any_eq_true.2 ⟨o, ho, hc⟩
        rw [hrec] at this
        cases this
      · simp only [recorded, hr, List.any_append, List.any_cons, List.any_nil, Bool.or_false]
        rw [@Bool.beq_comm _ _ _ hash]
    · cases hins

/-- After `put`, what is held is what was, and the object unless its record kept it from being
written. -/
theorem holds_put (h : (put content).exec w = (.ok hash, w')) (x : String) :
    holds w' x ↔ holds w x ∨ x = hash ∧ recorded w.db hash = false := by
  obtain ⟨rfl, ⟨hrec, hs⟩ | ⟨hrec, p, db, hp, -, hs⟩⟩ := exec_put_ok h
  · have hdisk : w'.disk = w.disk := congrArg Prod.snd hs
    simp only [holds, hdisk, hrec, Bool.true_eq_false, and_false, or_false]
  · have hdisk : w'.disk = Function.update w.disk p (some content) := congrArg Prod.snd hs
    by_cases hx : x = sha256Hex content
    · subst hx
      have hb : objectBytes w'.disk (sha256Hex content) = some content := by
        rw [objectBytes_of_path (validHash_sha256Hex content) hp, hdisk, Function.update_self]
      exact ⟨fun _ => Or.inr ⟨rfl, hrec⟩, fun _ => ⟨content, hb, rfl⟩⟩
    · have hsame : objectBytes w'.disk x = objectBytes w.disk x := by
        unfold objectBytes
        split
        · cases hq : objectPath x with
          | none => rfl
          | some q =>
            have hqp : q ≠ p := by
              rintro rfl
              exact hx (objectPath_inj hq hp)
            rw [Option.bind_some, Option.bind_some, hdisk, Function.update_of_ne hqp]
        · rfl
      simp only [holds, hsame, hx, false_and, or_false]

end put

/-! ## What the store's operations leave alone -/

/-- Only the object store differs, and no fault has been added. -/
def ObjectsOnly (w w' : World) : Prop :=
  w'.db = { w.db with objects := w'.db.objects } ∧ w'.folders = w.folders ∧ w'.now = w.now ∧
    (w.faults = [] → w'.faults = [])

theorem ObjectsOnly.refl (w : World) : ObjectsOnly w w := ⟨rfl, rfl, rfl, id⟩

theorem ObjectsOnly.tick (w : World) : ObjectsOnly w w.tick := ⟨rfl, rfl, rfl, World.tick_faults⟩

theorem ObjectsOnly.trans {a b c : World} (h : ObjectsOnly a b) (h' : ObjectsOnly b c) : ObjectsOnly a c := by
  obtain ⟨h₁, h₂, h₃, h₄⟩ := h
  obtain ⟨h₁', h₂', h₃', h₄'⟩ := h'
  refine ⟨?_, h₂'.trans h₂, h₃'.trans h₃, fun h => h₄' (h₄ h)⟩
  rw [h₁', h₁]

theorem moves_put [Sha256] (content : Bytes) : (put content).Moves ObjectsOnly := by
  have ht := ObjectsOnly.tick
  simp only [put, Prog.bind_eq]
  refine (moves_query ht).bind fun r => ?_
  split
  · trivial
  · refine moves_orThrow.bind fun p => (moves_ioRead ht).bind fun _ => ?_
    refine (moves_ioWrite fun w o => ⟨rfl, rfl, rfl, World.tick_faults⟩).bind fun _ => ?_
    refine (moves_execute ht fun w db hdb => ?_).bind fun _ => trivial
    unfold insertObject at hdb
    split at hdb <;> cases hdb
    exact ⟨rfl, rfl, rfl, World.tick_faults⟩

theorem moves_scanDirRecursive [Sha256] (glob : String) : ∀ (l : Listing) (dir : String)
    (out : List TranscriptEntry), (scanDirRecursive glob dir l out).Moves ObjectsOnly := by
  have ht := ObjectsOnly.tick
  intro l
  induction l with
  | done =>
    intro dir out
    simp only [scanDirRecursive, Prog.bind_eq]
    exact (moves_ioRead ht).bind fun _ => Prog.moves_ret _
  | file name content mtime rest ih =>
    intro dir out
    simp only [scanDirRecursive, Prog.bind_eq]
    refine (moves_ioRead ht).bind fun _ => (moves_ioRead ht).bind fun _ => ?_
    split
    · exact (moves_ioRead ht).bind fun _ => (moves_put content).bind fun _ => ih _ _
    · exact ih _ _
  | dir name sub rest ihs ih =>
    intro dir out
    simp only [scanDirRecursive, Prog.bind_eq]
    refine (moves_ioRead ht).bind fun _ => (moves_ioRead ht).bind fun _ => (moves_ioRead ht).bind fun _ => ?_
    exact (ihs _ _).bind fun _ => ih _ _
  | other name rest ih =>
    intro dir out
    simp only [scanDirRecursive, Prog.bind_eq]
    exact (moves_ioRead ht).bind fun _ => (moves_ioRead ht).bind fun _ => ih _ _

/-! ## What `missing` answers -/

theorem exec_missing_ok : ∀ {want r : List String} {w w' : World},
    (missing want).exec w = (.ok r, w') →
      r = want.filter (fun h => !recorded w.db h) ∧ w'.stored = w.stored
  | [], _, _, _, h => by
    cases h
    exact ⟨rfl, rfl⟩
  | x :: want, r, w, w', h => by
    simp only [missing, Prog.bind_eq, Prog.pure_eq] at h
    obtain ⟨b, w₁, hb, h⟩ := Prog.exec_bind_ok.1 h
    obtain ⟨rfl, rfl⟩ := exec_query_ok hb
    split at h
    · rename_i hrec
      obtain ⟨rfl, hs⟩ := exec_missing_ok h
      exact ⟨by simp [hrec], hs⟩
    · rename_i hrec
      obtain ⟨r', w₂, hr, h⟩ := Prog.exec_bind_ok.1 h
      obtain ⟨rfl, hs⟩ := exec_missing_ok hr
      cases h
      exact ⟨by simp [hrec], hs⟩

theorem exec_missing_calm {w : World} (hw : w.faults = []) : ∀ want : List String,
    (missing want).exec w = (.ok (want.filter fun h => !recorded w.db h), w)
  | [] => rfl
  | x :: want => by
    simp only [missing, existsDb, Prog.bind_eq, Prog.pure_eq]
    rw [Prog.exec_bind_of_ok (exec_query_calm hw)]
    by_cases hrec : recorded w.db x = true
    · rw [if_pos hrec, exec_missing_calm hw want]
      simp [hrec]
    · rw [if_neg hrec, Prog.exec_bind_of_ok (exec_missing_calm hw want)]
      simp [hrec]

section
variable {R : World → World → Prop} (ht : ∀ w, R w w.tick)
include ht

theorem moves_missing : ∀ want : List String, (missing want).Moves R
  | [] => trivial
  | x :: want => by
    simp only [missing, existsDb, Prog.bind_eq, Prog.pure_eq]
    refine (moves_query ht).bind fun r => ?_
    split
    · exact moves_missing want
    · exact (moves_missing want).bind fun _ => trivial

theorem moves_get (hash : String) : (get hash).Moves R := by
  have hval : (validateHash hash).Moves R := by
    unfold validateHash
    split
    · trivial
    · split <;> trivial
  simp only [get, Prog.bind_eq, Prog.pure_eq]
  refine hval.bind fun _ => moves_orThrow.bind fun p => (moves_ioRead ht).attempt.bind fun there => ?_
  split
  · exact (moves_ioRead ht).bind fun _ => moves_orThrow.bind fun _ => trivial
  · trivial

end

/-! ## What a scan finds -/

section scan
variable [Sha256] {glob : String}

/-- **A scan that succeeds returns the entries of the folder.** -/
theorem exec_scanDirRecursive_ok : ∀ {l : Listing} {dir : String} {out r : List TranscriptEntry}
    {w w' : World}, (scanDirRecursive glob dir l out).exec w = (.ok r, w') →
      r = out ++ folderEntries glob dir l
  | .done, _, out, _, _, _, h => by
    simp only [scanDirRecursive, Prog.bind_eq] at h
    obtain ⟨_, _, -, h⟩ := Prog.exec_bind_ok.1 h
    cases h
    simp [folderEntries]
  | .file name content mtime rest, dir, out, r, _, _, h => by
    simp only [scanDirRecursive, Prog.bind_eq] at h
    obtain ⟨_, _, -, h⟩ := Prog.exec_bind_ok.1 h
    obtain ⟨_, _, -, h⟩ := Prog.exec_bind_ok.1 h
    split at h
    · rename_i hm
      obtain ⟨_, _, -, h⟩ := Prog.exec_bind_ok.1 h
      obtain ⟨_, _, -, h⟩ := Prog.exec_bind_ok.1 h
      rw [exec_scanDirRecursive_ok h]
      simp [folderEntries, hm]
    · rename_i hm
      rw [exec_scanDirRecursive_ok h]
      simp [folderEntries, hm]
  | .dir name sub rest, dir, out, r, _, _, h => by
    simp only [scanDirRecursive, Prog.bind_eq] at h
    obtain ⟨_, _, -, h⟩ := Prog.exec_bind_ok.1 h
    obtain ⟨_, _, -, h⟩ := Prog.exec_bind_ok.1 h
    obtain ⟨_, _, -, h⟩ := Prog.exec_bind_ok.1 h
    obtain ⟨out', _, hsub, h⟩ := Prog.exec_bind_ok.1 h
    rw [exec_scanDirRecursive_ok h, exec_scanDirRecursive_ok hsub]
    simp [folderEntries]
  | .other name rest, dir, out, r, _, _, h => by
    simp only [scanDirRecursive, Prog.bind_eq] at h
    obtain ⟨_, _, -, h⟩ := Prog.exec_bind_ok.1 h
    obtain ⟨_, _, -, h⟩ := Prog.exec_bind_ok.1 h
    rw [exec_scanDirRecursive_ok h]
    simp [folderEntries]

theorem exec_scanDirectory_ok {root : String} {r : List TranscriptEntry} {w w' : World}
    (h : (scanDirectory root glob).exec w = (.ok r, w')) :
    (∃ l, w.folders root = some l ∧ r = folderEntries glob "" l) ∧ ObjectsOnly w w' := by
  simp only [scanDirectory, Prog.bind_eq] at h
  obtain ⟨o, w₁, e₁, h⟩ := Prog.exec_bind_ok.1 h
  obtain ⟨rfl, rfl⟩ := exec_ioRead_ok e₁
  obtain ⟨l, w₂, e₂, h⟩ := Prog.exec_bind_ok.1 h
  obtain ⟨hl, rfl⟩ := exec_orThrow_ok e₂
  refine ⟨⟨l, hl, by simpa using exec_scanDirRecursive_ok h⟩, ?_⟩
  have hm := (moves_scanDirRecursive glob l "" []).exec ObjectsOnly.refl
    (fun _ _ _ => ObjectsOnly.trans) w.tick
  rw [h] at hm
  exact (ObjectsOnly.tick w).trans hm

end scan

end ObjectStore

end A2AGateway
