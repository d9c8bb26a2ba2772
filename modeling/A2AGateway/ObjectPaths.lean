import A2AGateway.ObjectStore
import A2AGateway.Lib.Footprint

/-!
# Where the object store reads and writes, and when it panics

| here | there |
| --- | --- |
| `join`, `ObjectPath.text` | `PathBuf::join`, `object_store.rs:86-88` |
| `IsCharBoundary`          | `str::is_char_boundary` |

A hash that passes the check names a file two levels below the root, and the hash of a content does
(`store_stays_in_root`). A hash that does not pass is shown in the error up to its twentieth byte,
and that slice panics inside a character (`get_returns_iff`).
-/

namespace A2AGateway

open Sha256 (sha256Hex)
open Gw

/-! ## Character boundaries -/

/-- The first `n` bytes are whole characters. -/
def IsCharBoundary (cs : List Char) (n : Nat) : Prop := ∃ a b, cs = a ++ b ∧ byteLen a = n

theorem byteLen_cons (c : Char) (cs : List Char) : byteLen (c :: cs) = c.utf8Size + byteLen cs := by
  simp [byteLen]

/-- A slice up to a boundary has just these bytes. -/
theorem takeBytes_eq_some_iff {cs a : List Char} {n : Nat} :
    takeBytes cs n = some a ↔ (∃ b, cs = a ++ b) ∧ byteLen a = n := by
  induction cs generalizing a n with
  | nil =>
    cases n with
    | zero => cases a <;> simp [takeBytes, byteLen]
    | succ n =>
      have hne : byteLen [] ≠ n + 1 := by simp [byteLen]
      simp only [takeBytes, reduceCtorEq, false_iff, not_and]
      rintro ⟨b, hb⟩
      obtain ⟨rfl, -⟩ := List.append_eq_nil_iff.1 hb.symm
      exact hne
  | cons c cs ih =>
    have hpos : 0 < c.utf8Size := c.utf8Size_pos
    cases n with
    | zero =>
      simp only [takeBytes, Option.some.injEq]
      constructor
      · rintro rfl
        exact ⟨⟨c :: cs, rfl⟩, rfl⟩
      · rintro ⟨-, hlen⟩
        cases a with
        | nil => rfl
        | cons d a =>
          have hd := d.utf8Size_pos
          rw [byteLen_cons] at hlen
          omega
    | succ n =>
      simp only [takeBytes]
      split
      · rename_i hle
        rw [Option.map_eq_some_iff]
        constructor
        · rintro ⟨a', ha', rfl⟩
          obtain ⟨⟨b, rfl⟩, hlen⟩ := ih.1 ha'
          refine ⟨⟨b, rfl⟩, ?_⟩
          rw [byteLen_cons]
          omega
        · rintro ⟨⟨b, hb⟩, hlen⟩
          cases a with
          | nil => simp [byteLen] at hlen
          | cons d a =>
            rw [List.cons_append, List.cons.injEq] at hb
            obtain ⟨rfl, rfl⟩ := hb
            rw [byteLen_cons] at hlen
            exact ⟨a, ih.2 ⟨⟨b, rfl⟩, by omega⟩, rfl⟩
      · rename_i hgt
        simp only [reduceCtorEq, false_iff, not_and]
        rintro ⟨b, hb⟩ hlen
        cases a with
        | nil => simp [byteLen] at hlen
        | cons d a =>
          rw [List.cons_append, List.cons.injEq] at hb
          obtain ⟨rfl, rfl⟩ := hb
          rw [byteLen_cons] at hlen
          omega

/-- `&s[..n]` panics exactly off a boundary. -/
theorem takeBytes_eq_none_iff {cs : List Char} {n : Nat} : takeBytes cs n = none ↔ ¬ IsCharBoundary cs n := by
  rw [Option.eq_none_iff_forall_ne_some]
  constructor
  · rintro h ⟨a, b, hcs, hlen⟩
    exact h a (takeBytes_eq_some_iff.2 ⟨⟨b, hcs⟩, hlen⟩)
  · intro h a ha
    obtain ⟨⟨b, hcs⟩, hlen⟩ := takeBytes_eq_some_iff.1 ha
    exact h ⟨a, b, hcs, hlen⟩

theorem isCharBoundary_end (cs : List Char) : IsCharBoundary cs (byteLen cs) := ⟨cs, [], by simp, rfl⟩

namespace ObjectStore

/-! ## How `get` ends -/

/-- Fewer than four bytes, or a character that is no hexadecimal digit. -/
def Improper (hash : String) : Prop := byteLen hash.toList < 4 ∨ ∃ c ∈ hash.toList, isAsciiHexDigit c = false

theorem validHash_eq_false_iff {hash : String} : validHash hash = false ↔ Improper hash := by
  simp only [validHash, Bool.and_eq_false_iff, decide_eq_false_iff_not, not_le, List.all_eq_false, Bool.not_eq_true, Improper]

/-- A proper hash is either looked up, or its file cannot be read. -/
theorem get_of_valid {hash : String} (hv : validHash hash = true) (w : World) :
    (∃ o, ((get hash).exec w).1 = .ok o) ∨ ((get hash).exec w).1 = .error (.msg "read object") := by
  obtain ⟨path, hpath⟩ := objectPath_of_valid hv
  have hval : (validateHash hash).exec w = (.ok (), w) := by simp [validateHash, hv]
  simp only [get, Prog.bind_eq]
  rw [Prog.exec_bind_of_ok hval, hpath]
  simp only [orThrow, Prog.ret_bind]
  rw [Prog.exec_bind, Prog.exec_attempt]
  split
  · rename_i there w₁ _
    split
    · rw [Prog.exec_bind]
      rcases exec_op (.msg "read object") (fun w => (.ok (w.disk path), w)) w₁ with h | h
      · rw [ioRead, h]
        exact .inr rfl
      · rw [ioRead, h]
        simp only [World.tick_disk]
        cases w₁.disk path with
        | none => exact .inr rfl
        | some b => exact .inl ⟨_, rfl⟩
    · exact .inl ⟨none, rfl⟩
  · rename_i h
    cases h

section
variable {hash : String} (w : World)

/-- Any other is refused, with its first bytes in the error. -/
theorem get_of_improper (hi : Improper hash) (hb : IsCharBoundary hash.toList (min (byteLen hash.toList) 20)) :
    ∃ shown : String, ((get hash).exec w).1 = .error (.msg s!"invalid object hash: must be hex string, got '{shown}'") := by
  have hv : validHash hash = false := validHash_eq_false_iff.2 hi
  obtain ⟨a, b, hcs, hlen⟩ := hb
  have htake := takeBytes_eq_some_iff.2 ⟨⟨b, hcs⟩, hlen⟩
  refine ⟨String.ofList a, ?_⟩
  simp only [get, Prog.bind_eq, validateHash, hv, htake, Gw.throw]
  rfl

/-- Where these end inside a character there is no error to make. -/
theorem get_of_improper_panic (hi : Improper hash)
    (hb : ¬ IsCharBoundary hash.toList (min (byteLen hash.toList) 20)) : ((get hash).exec w).1 = .error .panic := by
  have hv : validHash hash = false := validHash_eq_false_iff.2 hi
  simp only [get, Prog.bind_eq, validateHash, hv, takeBytes_eq_none_iff.2 hb, Gw.throw]
  rfl

theorem isCharBoundary_of_valid (hv : validHash hash = true) {n : Nat} (hn : n ≤ byteLen hash.toList) :
    IsCharBoundary hash.toList n := by
  simp only [validHash, Bool.and_eq_true, List.all_eq_true] at hv
  rw [byteLen_of_hex hv.2] at hn
  by_contra hb
  rw [← takeBytes_eq_none_iff, (slices_of_hex hv.2 hn).1] at hb
  cases hb

/-- The bytes shown end at a boundary if the twentieth byte does, or there is none. -/
theorem shown_boundary_iff : IsCharBoundary hash.toList (min (byteLen hash.toList) 20) ↔
    byteLen hash.toList ≤ 20 ∨ IsCharBoundary hash.toList 20 := by
  rcases Nat.le_total (byteLen hash.toList) 20 with h | h
  · rw [Nat.min_eq_left h]
    simp [h, isCharBoundary_end]
  · rw [Nat.min_eq_right h]
    constructor
    · exact .inr
    · rintro (hle | hb)
      · rw [show 20 = byteLen hash.toList by omega]
        exact isCharBoundary_end _
      · exact hb

/-- `get` returns, and with an error of its own exactly if the hash is improper; the failure of the file's read
is the only other one. -/
def ReturnsNormally (hash : String) (w : World) : Prop :=
  ((get hash).exec w).1 ≠ .error .panic ∧
    ((∃ e, ((get hash).exec w).1 = .error e ∧ e ≠ .msg "read object") ↔ Improper hash)

theorem invalid_ne_read (shown : String) :
    Err.msg s!"invalid object hash: must be hex string, got '{shown}'" ≠ .msg "read object" := by
  intro h
  have hhead := congrArg (fun t : String => t.toList.head?) (Err.msg.inj h)
  simp only [String.toList_append, List.head?_append] at hhead
  cases hhead

/-- **`get` returns normally exactly if the hash has no more than twenty bytes, or its twentieth byte ends a
character.** -/
theorem get_returns_iff (hash : String) (w : World) :
    ReturnsNormally hash w ↔ byteLen hash.toList ≤ 20 ∨ IsCharBoundary hash.toList 20 := by
  rw [← shown_boundary_iff]
  cases hv : validHash hash with
  | true =>
    have hproper : ¬ Improper hash := by
      rw [← validHash_eq_false_iff, hv]
      simp
    have hb := isCharBoundary_of_valid hv (Nat.min_le_left (byteLen hash.toList) 20)
    simp only [ReturnsNormally, hproper, hb, iff_true, iff_false]
    rcases get_of_valid hv w with ⟨o, ho⟩ | he
    · simp [ho]
    · simp [he]
  | false =>
    have hi : Improper hash := validHash_eq_false_iff.1 hv
    simp only [ReturnsNormally, hi, iff_true]
    constructor
    · rintro ⟨hpanic, -⟩
      by_contra hb
      exact hpanic (get_of_improper_panic w hi hb)
    · intro hb
      obtain ⟨shown, hget⟩ := get_of_improper w hi hb
      rw [hget]
      exact ⟨by simp, _, rfl, invalid_ne_read shown⟩

end

/-- Nineteen letters and one of two bytes. -/
def splitAtTwenty : String := "aaaaaaaaaaaaaaaaaaa\u00e9"

/-- **A peer can make it panic.** -/
theorem get_panics : ((get splitAtTwenty).exec World.fresh).1 = .error .panic ∧
    ¬ ∀ hash w, ReturnsNormally hash w := by
  have hpanic : ((get splitAtTwenty).exec World.fresh).1 = .error .panic := by decide +kernel
  exact ⟨hpanic, fun h => (h splitAtTwenty World.fresh).1 hpanic⟩

end ObjectStore

/-! ## Paths -/

/-- `Path::join`: an absolute path replaces the base. -/
def join (base part : String) : String :=
  if part.toList.head? = some '/' then part
  else if base = "" ∨ base.toList.getLast? = some '/' then base ++ part
  else base ++ "/" ++ part

namespace ObjectPath

/-- `self.root.join(..).join(..)`. -/
def text (root : String) (p : ObjectPath) : String := join (join root p.dir) p.file

/-- Two hexadecimal digits, and at least one more. -/
structure InRoot (p : ObjectPath) : Prop where
  length_dir : p.dir.toList.length = 2
  hex_dir : ∀ c ∈ p.dir.toList, isAsciiHexDigit c = true
  file_ne_nil : p.file.toList ≠ []
  hex_file : ∀ c ∈ p.file.toList, isAsciiHexDigit c = true

end ObjectPath

/-- A component that `join` takes as it is, and that names no other directory. -/
def PlainPart (part : String) : Prop := part ≠ "" ∧ '/' ∉ part.toList ∧ part ≠ "." ∧ part ≠ ".."

theorem plainPart_of_hex {part : String} (hne : part.toList ≠ []) (h : ∀ c ∈ part.toList, isAsciiHexDigit c = true) :
    PlainPart part := by
  refine ⟨?_, ?_, ?_, ?_⟩
  · rintro rfl
    exact hne rfl
  · intro hc
    exact absurd (h _ hc) (by decide)
  · rintro rfl
    exact absurd (h '.' (by decide)) (by decide)
  · rintro rfl
    exact absurd (h '.' (by decide)) (by decide)

theorem head_ne_of_plain {part : String} (h : PlainPart part) : part.toList.head? ≠ some '/' :=
  fun hh => h.2.1 (List.mem_of_mem_head? hh)

theorem getLast_ne_of_plain {base part : String} (h : PlainPart part) :
    base ++ part ≠ "" ∧ (base ++ part).toList.getLast? ≠ some '/' := by
  have hne : part.toList ≠ [] := fun hnil => h.1 (String.toList_inj.1 hnil)
  rw [String.toList_append, List.getLast?_append_of_ne_nil _ hne]
  refine ⟨fun hnil => ?_, fun hlast => h.2.1 (List.mem_of_getLast? hlast)⟩
  have hlist := congrArg String.toList hnil
  simp [hne] at hlist

/-- **The file of such a path is two levels below the root.** -/
theorem ObjectPath.InRoot.text_eq {p : ObjectPath} (h : p.InRoot) (root : String) :
    PlainPart p.dir ∧ PlainPart p.file ∧ p.text root = join root p.dir ++ "/" ++ p.file ∧
      (join root p.dir = root ++ p.dir ∨ join root p.dir = root ++ "/" ++ p.dir) := by
  have hdir : PlainPart p.dir := by
    refine plainPart_of_hex ?_ h.hex_dir
    intro hnil
    have hlen := h.length_dir
    rw [hnil] at hlen
    cases hlen
  have hfile : PlainPart p.file := plainPart_of_hex h.file_ne_nil h.hex_file
  have hjoin : join root p.dir = root ++ p.dir ∨ join root p.dir = root ++ "/" ++ p.dir := by
    unfold join
    rw [if_neg (head_ne_of_plain hdir)]
    split
    · exact .inl rfl
    · exact .inr rfl
  refine ⟨hdir, hfile, ?_, hjoin⟩
  have hbase : ¬ (join root p.dir = "" ∨ (join root p.dir).toList.getLast? = some '/') := by
    rw [not_or]
    rcases hjoin with h | h <;> rw [h]
    · exact getLast_ne_of_plain hdir
    · exact getLast_ne_of_plain hdir
  rw [ObjectPath.text, join, if_neg (head_ne_of_plain hfile), if_neg hbase]

namespace ObjectStore

theorem inRoot_of_valid {hash : String} {p : ObjectPath} (hv : validHash hash = true) (hp : objectPath hash = some p) :
    p.InRoot := by
  simp only [validHash, Bool.and_eq_true, decide_eq_true_eq, List.all_eq_true] at hv
  have hlen := hv.1
  rw [byteLen_of_hex hv.2] at hlen
  obtain ⟨h1, h2⟩ := @slices_of_hex hash.toList 2 hv.2 (by omega)
  simp only [objectPath, h1, h2, Option.some.injEq] at hp
  subst hp
  refine ⟨?_, ?_, ?_, ?_⟩
  · rw [String.toList_ofList, List.length_take]
    omega
  · intro c hc
    rw [String.toList_ofList] at hc
    exact hv.2 c (List.mem_of_mem_take hc)
  · rw [String.toList_ofList, Ne, List.drop_eq_nil_iff]
    omega
  · intro c hc
    rw [String.toList_ofList] at hc
    exact hv.2 c (List.mem_of_mem_drop hc)

/-! ## Which files are touched -/

/-- The object files. -/
def files : Prog.Focus World (ObjectPath → Option Bytes) where
  get w := w.disk
  set disk w := { w with disk }
  get_set _ _ := rfl
  set_get _ := rfl
  set_set _ _ _ := rfl

section
variable {α : Type} {P : ObjectPath → Prop} {e : Err}

theorem touches_op {f : World → Except Err α × World} (hf : Prog.Local files P f) : (op e f).Touches files P := by
  apply Prog.touches_prim
  intro w disk hdisk
  have htick := hf w.tick disk hdisk
  have hfaults : (files.set disk w).faults = w.faults := rfl
  simp only [hfaults]
  split
  · exact ⟨rfl, disk, rfl, hdisk, fun _ _ => rfl⟩
  · exact htick

/-- A look at these files only. -/
theorem touches_ioRead {f : World → α}
    (hf : ∀ w disk, (∀ p, P p → disk p = w.disk p) → f (files.set disk w) = f w) : (ioRead e f).Touches files P := by
  apply touches_op
  intro w disk hdisk
  exact ⟨congrArg Except.ok (hf w disk hdisk), disk, rfl, hdisk, fun _ _ => rfl⟩

/-- A statement looks at no file. -/
theorem touches_statement (f : F64 → Db → Option (α × Db)) : (statement e f).Touches files P := by
  apply touches_op
  intro w disk hdisk
  have hnow : (files.set disk w).now = w.now := rfl
  have hdb : (files.set disk w).db = w.db := rfl
  simp only [hnow, hdb]
  split
  · exact ⟨rfl, disk, rfl, hdisk, fun _ _ => rfl⟩
  · exact ⟨rfl, disk, rfl, hdisk, fun _ _ => rfl⟩

theorem touches_query (f : Db → α) : (query e f).Touches files P := by
  apply touches_op
  intro w disk hdisk
  exact ⟨rfl, disk, rfl, hdisk, fun _ _ => rfl⟩

theorem touches_ioWrite {path : ObjectPath} (hpath : P path) (content : Bytes) :
    (ioWrite e path content).Touches files P := by
  apply Prog.touches_prim
  intro w disk hdisk
  have hfaults : (files.set disk w).faults = w.faults := rfl
  have hwrite : ∀ b : Bytes, ∃ d, { w.tick with disk := Function.update disk path (some b) } =
      files.set d { w.tick with disk := Function.update w.disk path (some b) } ∧
      (∀ p, P p → d p = Function.update w.disk path (some b) p) ∧ ∀ p, ¬ P p → d p = disk p := by
    intro b
    refine ⟨Function.update disk path (some b), rfl, fun p hp => ?_, fun p hp => ?_⟩
    · have hp' : disk p = w.disk p := hdisk p hp
      by_cases h : p = path
      · simp [h]
      · simp [h, hp']
    · have h : p ≠ path := fun h => hp (h ▸ hpath)
      simp [h]
  simp only [hfaults]
  split
  · exact ⟨rfl, hwrite _⟩
  · exact ⟨rfl, hwrite _⟩

end

/-- The file that a hash names. -/
def Named (hash : String) (p : ObjectPath) : Prop := validHash hash = true ∧ objectPath hash = some p

/-- **`get` looks at no file but the one its hash names**, and at that only if the hash is proper. -/
theorem touches_get (hash : String) : (get hash).Touches files (Named hash) := by
  unfold get validateHash
  simp only [Prog.bind_eq, Prog.pure_eq]
  cases hv : validHash hash with
  | false =>
    simp only [Bool.false_eq_true, if_false]
    split <;> trivial
  | true =>
    obtain ⟨path, hpath⟩ := objectPath_of_valid hv
    have hnamed : Named hash path := ⟨hv, hpath⟩
    have hlook : ∀ (w : World) disk, (∀ p, Named hash p → disk p = w.disk p) →
        (files.set disk w).disk path = w.disk path := fun w disk hdisk => hdisk path hnamed
    simp only [if_true, hpath, orThrow, Prog.ret_bind]
    apply Prog.Touches.bind (touches_ioRead fun w disk hdisk => by rw [hlook w disk hdisk]).attempt
    intro there
    split
    · apply Prog.Touches.bind (touches_ioRead hlook)
      intro o
      cases o <;> trivial
    · trivial

/-- **`put` touches no file but the one its hash names.** -/
theorem touches_put [Sha256] (content : Bytes) : (put content).Touches files (Named (sha256Hex content)) := by
  obtain ⟨path, hpath⟩ := objectPath_of_valid (validHash_sha256Hex content)
  have hnamed : Named (sha256Hex content) path := ⟨validHash_sha256Hex content, hpath⟩
  unfold put existsDb
  simp only [Prog.bind_eq, Prog.pure_eq, hpath, orThrow, Prog.ret_bind]
  apply Prog.Touches.bind (touches_query _)
  intro known
  split
  · trivial
  apply Prog.Touches.bind (touches_ioRead fun _ _ _ => rfl)
  intro _
  apply Prog.Touches.bind (touches_ioWrite hnamed content)
  intro _
  apply Prog.Touches.bind (touches_statement _)
  intro _
  trivial

theorem Named.inRoot {hash : String} {p : ObjectPath} (h : Named hash p) : p.InRoot := inRoot_of_valid h.1 h.2

/-- With nothing failing, a new object is at the path afterwards. -/
theorem put_writes [Sha256] {content : Bytes} {w : World} {p : ObjectPath} (hp : objectPath (sha256Hex content) = some p)
    (hw : w.faults = []) (hnew : recorded w.db (sha256Hex content) = false) (hfits : fitsInteger content.length = true) :
    ((put content).exec w).2.disk p = some content := by
  have hok := (exec_put_calm hw).2 (.inr hfits)
  obtain ⟨-, ⟨hrec, -⟩ | ⟨-, q, db, hq, -, hs⟩⟩ := exec_put_ok (Prog.exec_eq_of_fst hok)
  · rw [hnew] at hrec
    cases hrec
  · rw [hp] at hq
    cases hq
    have hdisk := congrFun (congrArg Prod.snd hs) p
    simpa [World.stored] using hdisk

/-- **The store stays below its root.** Every file that `get` or `put` looks for, reads or writes is
`root/x/y` with `x` two hexadecimal digits and `y` at least one, and both use one file for a content and its
hash. -/
theorem store_stays_in_root [Sha256] :
    (∀ hash, (get hash).Touches files ObjectPath.InRoot) ∧
    (∀ content, (put content).Touches files ObjectPath.InRoot) ∧
    (∀ content, ∃ p, objectPath (sha256Hex content) = some p ∧ p.InRoot ∧
      (put content).Touches files (· = p) ∧ (get (sha256Hex content)).Touches files (· = p) ∧
      (∀ w : World, recorded w.db (sha256Hex content) = false → fitsInteger content.length = true →
        ((put content).exec w.calm).2.disk p = some content) ∧
      ∀ w : World, ((get (sha256Hex content)).exec w.calm).1 = .ok (w.disk p)) ∧
    ∀ p : ObjectPath, p.InRoot → ∀ root, PlainPart p.dir ∧ PlainPart p.file ∧
      (p.text root = root ++ p.dir ++ "/" ++ p.file ∨ p.text root = root ++ "/" ++ p.dir ++ "/" ++ p.file) := by
  refine ⟨fun hash => ?_, fun content => ?_, fun content => ?_, fun p hp root => ?_⟩
  · exact (touches_get hash).mono fun p hp => hp.inRoot
  · exact (touches_put content).mono fun p hp => hp.inRoot
  · have hv := validHash_sha256Hex content
    obtain ⟨p, hp⟩ := objectPath_of_valid hv
    have hone : ∀ q, Named (sha256Hex content) q → q = p := fun q hq => Option.some.inj (hq.2.symm.trans hp)
    refine ⟨p, hp, inRoot_of_valid hv hp, (touches_put content).mono hone, (touches_get _).mono hone, ?_, ?_⟩
    · exact fun w hnew hfits => put_writes hp rfl hnew hfits
    · intro w
      rw [exec_get_calm rfl hv, objectBytes_of_path hv hp]
      rfl
  · obtain ⟨hdir, hfile, htext, hjoin⟩ := hp.text_eq root
    refine ⟨hdir, hfile, ?_⟩
    rw [htext]
    rcases hjoin with h | h <;> rw [h]
    · exact .inl rfl
    · exact .inr rfl

end ObjectStore

end A2AGateway
