import A2AGateway.ObjectStore
import A2AGateway.Lib.Interleave
import A2AGateway.Lib.Sparse
import Mathlib.Data.List.Chain

/-!
# What `get` serves while `put`s write

`fs::write` makes or truncates the file and then writes it piece by piece, so that others see it,
and a failure leaves it, at any length. `put` and `get` are here in those steps; undisturbed, they
do what the routines of `object_store.rs` do as one (`exec_put_calm`, `exec_get`). Among other
calls, every file stays a part of the one content that is put under its hash; `get` serves such
contents, and bytes of the hash asked for, exactly in the runs in which it reads whole files only
(`served_iff`). A write that fails leaves a file that is served as it is (`torn_file_served`).
-/

namespace A2AGateway

open Sha256 (sha256Hex)
open Gw

/-- The gateway and its object files; the files as a whole (`World.disk`) are `Shelf.flat`. -/
structure Shelf where
  world : World
  files : ObjectPath → Option (Sparse UInt8)

namespace Shelf

def gateway : Prog.Focus Shelf World where
  get s := s.world
  set w s := { s with world := w }
  get_set _ _ := rfl
  set_get _ := rfl
  set_set _ _ _ := rfl

/-- The next operation has been taken. -/
def tick (s : Shelf) : Shelf := { s with world := s.world.tick }

def store (path : ObjectPath) (f : Sparse UInt8) (s : Shelf) : Shelf :=
  { s with files := Function.update s.files path (some f) }

/-- The files with the bytes a reader gets. -/
def flat (s : Shelf) : World := { s.world with disk := fun path => (s.files path).map (Sparse.bytes 0) }

end Shelf

abbrev OnShelf := Prog Shelf Err

/-- How the `write` calls of `write_all` cut up the content: each takes at least a byte. -/
structure Pieces (content : Bytes) where
  parts : List Bytes
  flatten : parts.flatten = content
  nonempty : ∀ piece ∈ parts, piece ≠ []

namespace ObjectFiles

variable {α : Type}

/-- One operation on the object files that the environment may fail. -/
def fileOp (e : Err) (f : Shelf → Except Err α × Shelf) : OnShelf α :=
  Prog.prim fun s =>
    match s.world.faults.head? with
    | some (some _) => (.error e, s.tick)
    | _ => f s.tick

/-- `File::create`: the file is made, or truncated. -/
def create (path : ObjectPath) : OnShelf Unit :=
  fileOp (.msg "write object") fun s => (.ok (), s.store path [])

/-- One `write`, at the writer's own place in the file. -/
def write (path : ObjectPath) (offset : Nat) (piece : Bytes) : OnShelf Unit :=
  fileOp (.msg "write object") fun s => (.ok (), s.store path (((s.files path).getD []).writeAt offset piece))

/-- `write_all`, from the offset on. -/
def writeAll (path : ObjectPath) : Nat → List Bytes → OnShelf Unit
  | _, [] => return ()
  | offset, piece :: rest => do
    write path offset piece
    writeAll path (offset + piece.length) rest

def put [Sha256] (content : Bytes) (pieces : Pieces content) : OnShelf String := do
  let hash := sha256Hex content
  if ← (ObjectStore.existsDb hash).within Shelf.gateway then
    return hash
  else
    let path ← (orThrow .panic (ObjectStore.objectPath hash)).within Shelf.gateway
    (ioRead (.msg "create object dir") fun _ => ()).within Shelf.gateway
    create path
    writeAll path 0 pieces.parts
    (execute (.msg "insert object record") fun _ db =>
      ObjectStore.insertObject hash content.length db).within Shelf.gateway
    return hash

/-- `path.exists()` answers `false` when the file cannot be looked up. -/
def pathExists (path : ObjectPath) : OnShelf Bool :=
  Prog.prim fun s =>
    match s.world.faults.head? with
    | some (some _) => (.ok false, s.tick)
    | _ => (.ok (s.files path).isSome, s.tick)

/-- `fs::read`, the whole file at one moment. -/
def readFile (path : ObjectPath) : OnShelf Bytes :=
  fileOp (.msg "read object") fun s =>
    match s.files path with
    | some f => (.ok (f.bytes 0), s)
    | none => (.error (.msg "read object"), s)

def get (hash : String) : OnShelf (Option Bytes) := do
  (ObjectStore.validateHash hash).within Shelf.gateway
  let path ← (orThrow .panic (ObjectStore.objectPath hash)).within Shelf.gateway
  if ← pathExists path then
    return some (← readFile path)
  else
    return none

/-! ## Undisturbed -/

section
variable {s : Shelf} {path : ObjectPath}

theorem exec_on_gateway {α : Type} (p : Gw α) :
    (p.within Shelf.gateway).exec s = ((p.exec s.world).1, { s with world := (p.exec s.world).2 }) :=
  Prog.exec_within Shelf.gateway p s

/-- A hash is checked without a look at the state. -/
theorem validateHash_cases (hash : String) :
    ObjectStore.validateHash hash = Prog.ret () ∨ ∃ e, ObjectStore.validateHash hash = Prog.fail e := by
  unfold ObjectStore.validateHash
  split
  · exact Or.inl rfl
  · right
    split
    · exact ⟨_, rfl⟩
    · exact ⟨_, rfl⟩

/-- Looking for the file. -/
theorem exec_pathExists (path : ObjectPath) : ∃ there o, (pathExists path).exec s = (.ok there, s.tick) ∧
    (ioRead .io fun w => (w.disk path).isSome).attempt.exec s.flat = (.ok o, s.tick.flat) ∧ o.getD false = there := by
  have hfaults : s.flat.faults = s.world.faults := rfl
  rw [pathExists, Prog.exec_prim, Prog.exec_attempt, ioRead, op, Prog.exec_prim, hfaults]
  generalize s.world.faults.head? = fault
  rcases fault with _ | _ | n
  · exact ⟨_, _, rfl, rfl, by simp [Shelf.flat, Except.toOption]⟩
  · exact ⟨_, _, rfl, rfl, by simp [Shelf.flat, Except.toOption]⟩
  · exact ⟨_, _, rfl, rfl, rfl⟩

/-- Reading it. -/
theorem exec_readFile (path : ObjectPath) : ∃ r, (readFile path).exec s = (r, s.tick) ∧
    ((ioRead (.msg "read object") fun w => w.disk path).bind (orThrow (.msg "read object"))).exec s.flat =
      (r, s.tick.flat) := by
  have hfaults : s.flat.faults = s.world.faults := rfl
  have hfile : s.tick.files path = s.files path := rfl
  have hdisk : s.flat.tick.disk path = (s.files path).map (Sparse.bytes 0) := rfl
  rw [readFile, fileOp, Prog.exec_prim, Prog.exec_bind, ioRead, op, Prog.exec_prim, hfaults, hfile, hdisk]
  generalize s.world.faults.head? = fault
  cases s.files path with
  | none => rcases fault with _ | _ | n <;> exact ⟨_, rfl, rfl⟩
  | some f => rcases fault with _ | _ | n <;> exact ⟨_, rfl, rfl⟩

theorem orThrow_some {α : Type} (e : Err) (a : α) : orThrow e (some a) = Prog.ret a := rfl

/-- A `get` alone is the `get` of the store, whatever fails. -/
theorem exec_get (hash : String) :
    ((get hash).exec s).1 = ((ObjectStore.get hash).exec s.flat).1 ∧
      ((get hash).exec s).2.flat = ((ObjectStore.get hash).exec s.flat).2 := by
  simp only [get, ObjectStore.get, Prog.bind_eq]
  rcases validateHash_cases hash with hvalid | ⟨e, hvalid⟩
  · rw [hvalid]
    cases ObjectStore.objectPath hash with
    | none => exact ⟨rfl, rfl⟩
    | some path =>
      obtain ⟨there, o, hthere, hdisk, ho⟩ := exec_pathExists (s := s) path
      simp only [orThrow_some, Prog.within, Prog.ret_bind]
      rw [Prog.exec_bind_of_ok hthere, Prog.exec_bind_of_ok hdisk, ho]
      cases there with
      | false => exact ⟨rfl, rfl⟩
      | true =>
        obtain ⟨r, hread, hflat⟩ := exec_readFile (s := s.tick) path
        simp only [if_true]
        rw [← Prog.bind_assoc, Prog.exec_bind, Prog.exec_bind, hread, hflat]
        cases r with
        | ok b => exact ⟨rfl, rfl⟩
        | error e => exact ⟨rfl, rfl⟩
  · rw [hvalid]
    exact ⟨rfl, rfl⟩

theorem exec_fileOp_calm {α : Type} {e : Err} {f : Shelf → Except Err α × Shelf} (hs : s.world.faults = []) :
    (fileOp e f).exec s = f s := by
  have htick : s.tick = s := by
    rw [Shelf.tick, World.tick_of_calm hs]
  rw [fileOp, Prog.exec_prim, hs, htick]
  rfl

/-- Storing a file stores its bytes. -/
theorem flat_store (s : Shelf) (path : ObjectPath) (f : Sparse UInt8) :
    (s.store path f).flat = { s.flat with disk := Function.update s.flat.disk path (some (f.bytes 0)) } := by
  have hdisk : (fun p => ((s.store path f).files p).map (Sparse.bytes 0)) =
      Function.update s.flat.disk path (some (f.bytes 0)) := by
    funext p
    by_cases hp : p = path
    · subst hp
      simp [Shelf.store]
    · simp [Shelf.store, Shelf.flat, hp]
  rw [Shelf.flat, hdisk]
  rfl

theorem exec_create (hs : s.world.faults = []) : (create path).exec s = (.ok (), s.store path []) := by
  rw [create, exec_fileOp_calm hs]

theorem exec_write (hs : s.world.faults = []) {offset : Nat} {piece : Bytes} {f : Sparse UInt8}
    (hfile : s.files path = some f) :
    (write path offset piece).exec s = (.ok (), s.store path (f.writeAt offset piece)) := by
  rw [write, exec_fileOp_calm hs, hfile]
  rfl

/-- `write_all` from where the file ends. -/
theorem exec_writeAll (hs : s.world.faults = []) (before : Bytes) (parts : List Bytes)
    (hfile : s.files path = some (before.map some)) :
    (writeAll path before.length parts).exec s =
      (.ok (), s.store path ((before ++ parts.flatten).map some)) := by
  induction parts generalizing before s with
  | nil =>
    have hsame : s.store path (before.map some) = s := by
      rw [Shelf.store, Function.update_eq_self_iff.2 hfile.symm]
    rw [List.flatten_nil, List.append_nil, hsame]
    rfl
  | cons piece rest ih =>
    simp only [writeAll, Prog.bind_eq]
    rw [Prog.exec_bind_of_ok (exec_write hs hfile), Sparse.writeAt_end]
    have hnext : (s.store path ((before ++ piece).map some)).files path = some ((before ++ piece).map some) :=
      Function.update_self _ _ _
    have hrest := ih (s := s.store path ((before ++ piece).map some)) hs (before ++ piece) hnext
    rw [List.length_append] at hrest
    rw [hrest]
    simp [Shelf.store]

/-- With nothing failing, a `put` alone is the `put` of the store. -/
theorem exec_put_calm [Sha256] (hs : s.world.faults = []) (content : Bytes) (pieces : Pieces content) :
    ((put content pieces).exec s).1 = ((ObjectStore.put content).exec s.flat).1 ∧
      ((put content pieces).exec s).2.flat = ((ObjectStore.put content).exec s.flat).2 := by
  have hflat : s.flat.faults = [] := hs
  have hknown : ((ObjectStore.existsDb (sha256Hex content)).within Shelf.gateway).exec s =
      (.ok (ObjectStore.recorded s.world.db (sha256Hex content)), s) := by
    rw [exec_on_gateway, ObjectStore.existsDb, exec_query_calm hs]
  have hknown' : (ObjectStore.existsDb (sha256Hex content)).exec s.flat =
      (.ok (ObjectStore.recorded s.world.db (sha256Hex content)), s.flat) := exec_query_calm hflat
  simp only [put, ObjectStore.put, Prog.bind_eq]
  rw [Prog.exec_bind_of_ok hknown, Prog.exec_bind_of_ok hknown']
  cases ObjectStore.recorded s.world.db (sha256Hex content) with
  | true => exact ⟨rfl, rfl⟩
  | false =>
    cases ObjectStore.objectPath (sha256Hex content) with
    | none => exact ⟨rfl, rfl⟩
    | some path =>
      have hdir : ((ioRead (.msg "create object dir") fun _ => ()).within Shelf.gateway).exec s = (.ok (), s) := by
        rw [exec_on_gateway, exec_ioRead_calm hs]
      have hempty : (s.store path []).files path = some (([] : Bytes).map some) := Function.update_self _ _ _
      have hwrite : (writeAll path 0 pieces.parts).exec (s.store path []) = (.ok (), s.store path (content.map some)) := by
        have hall := exec_writeAll (s := s.store path []) hs [] pieces.parts hempty
        rw [pieces.flatten] at hall
        simpa [Shelf.store] using hall
      have hdisk : (ioWrite (.msg "write object") path content).exec s.flat =
          (.ok (), (s.store path (content.map some)).flat) := by
        rw [exec_ioWrite_calm hflat, flat_store, Sparse.bytes_written]
      simp only [orThrow_some, Prog.within, Prog.ret_bind, Bool.false_eq_true, if_false]
      rw [Prog.exec_bind_of_ok hdir, Prog.exec_bind_of_ok (exec_create hs), Prog.exec_bind_of_ok hwrite,
        Prog.exec_bind_of_ok (exec_ioRead_calm hflat), Prog.exec_bind_of_ok hdisk, Prog.exec_bind, Prog.exec_bind,
        exec_on_gateway]
      have hcalm : (s.store path (content.map some)).world.faults = [] := hs
      have hcalm' : (s.store path (content.map some)).flat.faults = [] := hs
      rw [exec_execute_calm hcalm, exec_execute_calm hcalm']
      have hdb : (s.store path (content.map some)).flat.db = (s.store path (content.map some)).world.db := rfl
      rw [hdb]
      cases ObjectStore.insertObject (sha256Hex content) content.length (s.store path (content.map some)).world.db with
      | none => exact ⟨rfl, rfl⟩
      | some db => exact ⟨rfl, rfl⟩

end

/-! ## Among other calls -/

/-- What the calls of `get` have answered with `Ok(Some(..))`. -/
abbrev Served := List (String × Bytes)

def served (hash : String) : Except Err (Option Bytes) → Served
  | .ok (some b) => [(hash, b)]
  | _ => []

section
variable [Sha256] (C : Bytes → Prop)

/-- Any `get`, and any `put` of a content in `C`, cut up in any way. -/
def Calls (_ : Shelf × Served) (p : Prog (Shelf × Served) Err Unit) : Prop :=
  (∃ content pieces, C content ∧ p = (put content pieces).replying fun _ => []) ∨
    ∃ hash, p = (get hash).replying (served hash)

/-- No two contents that are put have the same hash. -/
def DistinctHashes : Prop := ∀ x y, C x → C y → sha256Hex x = sha256Hex y → x = y

/-- Each file is a part of a content that is put under its hash. -/
def Written (s : Shelf) : Prop :=
  ∀ path f, s.files path = some f →
    ∃ content, C content ∧ ObjectStore.objectPath (sha256Hex content) = some path ∧ f.PartOf content

/-- If the step is the read of a `get`, the file it finds is whole. -/
def ReadsWhole (c c' : Pool (Shelf × Served) Err) : Prop :=
  ∀ hash b, c'.state.2 = c.state.2 ++ [(hash, b)] → ∀ path f content,
    ObjectStore.objectPath hash = some path → c.state.1.files path = some f → C content → sha256Hex content = hash →
      f.Whole 0 content

end

/-- The rest of the gateway leaves the object files alone. -/
def SameFiles (s s' : Shelf × Served) : Prop := s'.1.files = s.1.files ∧ s'.2 = s.2

/-! ## Where the calls take the files -/

section
variable [Sha256] {C : Bytes → Prop}

/-- Files that are parts of what is put under their hashes stay so. -/
def StaysWritten (C : Bytes → Prop) (s s' : Shelf) : Prop := Written C s → Written C s'

/-- The files are as they were; if the step is the read of a `get`, it serves what it has found. -/
def Serving (s s' : Shelf × Served) : Prop :=
  s'.1.files = s.1.files ∧ (s'.2 = s.2 ∨ ∃ hash path f, s'.2 = s.2 ++ [(hash, f.bytes 0)] ∧
    ObjectStore.objectPath hash = some path ∧ s.1.files path = some f)

theorem StaysWritten.of_files {s s' : Shelf} (h : s'.files = s.files) : StaysWritten C s s' := by
  intro hw path f hf
  rw [h] at hf
  exact hw path f hf

/-- Only what the action itself does, if it is not failed. -/
theorem moves_fileOp {α : Type} {e : Err} {f : Shelf → Except Err α × Shelf} (h : ∀ s, StaysWritten C s (f s).2) :
    (fileOp e f).Moves (StaysWritten C) := by
  apply Prog.moves_prim
  intro s hs
  split
  · exact hs
  · exact h s.tick hs

/-- A file that is stored must be a part of the content put under its hash. -/
theorem written_store {s : Shelf} {path : ObjectPath} {f : Sparse UInt8} {content : Bytes} (hs : Written C s)
    (hcontent : C content) (hpath : ObjectStore.objectPath (sha256Hex content) = some path) (hf : f.PartOf content) :
    Written C (s.store path f) := by
  intro p f' hf'
  by_cases hp : p = path
  · subst hp
    simp only [Shelf.store, Function.update_self] at hf'
    cases hf'
    exact ⟨content, hcontent, hpath, hf⟩
  · simp only [Shelf.store, Function.update_of_ne hp] at hf'
    exact hs p f' hf'

/-- No two contents that are put have the same hash: what is at the path is a part of this one. -/
theorem partOf_of_written (hC : DistinctHashes C) {s : Shelf} {path : ObjectPath}
    {f : Sparse UInt8} {content : Bytes} (hs : Written C s) (hcontent : C content)
    (hpath : ObjectStore.objectPath (sha256Hex content) = some path) (hf : s.files path = some f) :
    f.PartOf content := by
  obtain ⟨content', hcontent', hpath', hpart⟩ := hs path f hf
  have hsame : content' = content := hC _ _ hcontent' hcontent (ObjectStore.objectPath_inj hpath' hpath)
  rwa [hsame] at hpart

theorem moves_writeAll (hC : DistinctHashes C) {path : ObjectPath}
    {content : Bytes} (hcontent : C content) (hpath : ObjectStore.objectPath (sha256Hex content) = some path)
    (parts : List Bytes) (offset : Nat) (hoffset : offset ≤ content.length) (hrest : parts.flatten = content.drop offset) :
    (writeAll path offset parts).Moves (StaysWritten C) := by
  induction parts generalizing offset with
  | nil => trivial
  | cons piece rest ih =>
    rw [List.flatten_cons] at hrest
    have hpiece : piece <+: content.drop offset := ⟨_, hrest⟩
    simp only [writeAll, Prog.bind_eq]
    apply Prog.Moves.bind
    · apply moves_fileOp
      intro s hs
      apply written_store hs hcontent hpath
      apply Sparse.PartOf.writeAt _ hoffset hpiece
      cases hf : s.files path with
      | none => exact Sparse.PartOf.nil
      | some f => exact partOf_of_written hC hs hcontent hpath hf
    · intro u
      have hlen := hpiece.length_le
      rw [List.length_drop] at hlen
      apply ih
      · omega
      · rw [← List.drop_drop, ← hrest, List.drop_left]

/-- The gateway's own statements do not touch the files. -/
theorem moves_gateway {α : Type} (p : Gw α) : (p.within Shelf.gateway).Moves (StaysWritten C) := by
  induction p with
  | ret a => trivial
  | fail e => trivial
  | act f k ih => exact ⟨fun _ hs => hs, ih⟩

theorem moves_put (hC : DistinctHashes C) {content : Bytes} (hcontent : C content)
    (pieces : Pieces content) : (put content pieces).Moves (StaysWritten C) := by
  unfold put
  simp only [Prog.bind_eq]
  apply Prog.Moves.bind (moves_gateway _)
  intro known
  split
  · trivial
  cases hpath : ObjectStore.objectPath (sha256Hex content) with
  | none => trivial
  | some path =>
    simp only [orThrow_some, Prog.within, Prog.ret_bind]
    apply Prog.Moves.bind (moves_gateway _)
    intro u
    apply Prog.Moves.bind
    · apply moves_fileOp
      intro s hs
      exact written_store hs hcontent hpath Sparse.PartOf.nil
    intro u'
    apply Prog.Moves.bind
    · exact moves_writeAll hC hcontent hpath pieces.parts 0 (Nat.zero_le _) pieces.flatten
    intro u''
    apply Prog.Moves.bind (moves_gateway _)
    intro u'''
    trivial

omit [Sha256] in
/-- The last step of a `get` that finds a file serves it as it is. -/
theorem moves_read {hash : String} {path : ObjectPath} (hpath : ObjectStore.objectPath hash = some path) :
    (((readFile path).bind fun b => Prog.ret (some b)).replying (served hash)).Moves Serving := by
  unfold readFile fileOp
  apply Prog.Moves.replying_prim_bind
  · intro s l
    have hfiles : s.tick.files = s.files := rfl
    split
    · exact ⟨rfl, Or.inl (List.append_nil l)⟩
    · simp only [hfiles]
      cases hf : s.files path with
      | none => exact ⟨rfl, Or.inl (List.append_nil l)⟩
      | some f => exact ⟨rfl, Or.inr ⟨hash, path, f, rfl, hpath, hf⟩⟩
  · intro b
    trivial

omit [Sha256] in
theorem moves_get (hash : String) : ((get hash).replying (served hash)).Moves Serving := by
  unfold get
  simp only [Prog.bind_eq, Prog.pure_eq]
  rcases validateHash_cases hash with hvalid | ⟨e, hvalid⟩
  · rw [hvalid]
    cases hpath : ObjectStore.objectPath hash with
    | none => trivial
    | some path =>
      simp only [orThrow_some, Prog.within, Prog.ret_bind, pathExists]
      apply Prog.Moves.replying_prim_bind
      · intro s l
        split
        · exact ⟨rfl, Or.inl (List.append_nil l)⟩
        · simp only
          cases s.files path with
          | none => exact ⟨rfl, Or.inl (List.append_nil l)⟩
          | some f => exact ⟨rfl, Or.inl (List.append_nil l)⟩
      · intro there
        cases there with
        | false => trivial
        | true => exact moves_read hpath
  · rw [hvalid]
    trivial

/-- The files stay parts of what is put under their hashes, and what is served has been found. -/
def Along (C : Bytes → Prop) (s s' : Shelf × Served) : Prop :=
  StaysWritten C s.1 s'.1 ∧ (s'.2 = s.2 ∨ ∃ hash path f, s'.2 = s.2 ++ [(hash, f.bytes 0)] ∧
    ObjectStore.objectPath hash = some path ∧ s.1.files path = some f)

theorem Along.of_sameFiles {s s' : Shelf × Served} (h : SameFiles s s') : Along C s s' :=
  ⟨StaysWritten.of_files h.1, Or.inl h.2⟩

theorem calls_move (hC : DistinctHashes C) {s : Shelf × Served}
    {p : Prog (Shelf × Served) Err Unit} (h : Calls C s p) : p.Moves (Along C) := by
  rcases h with ⟨content, pieces, hcontent, rfl⟩ | ⟨hash, rfl⟩
  · apply (moves_put hC hcontent pieces).replying.mono
    rintro s s' ⟨hstays, hserved⟩
    exact ⟨hstays, Or.inl hserved⟩
  · apply (moves_get hash).mono
    rintro s s' ⟨hfiles, hserved⟩
    exact ⟨StaysWritten.of_files hfiles, hserved⟩

/-! ## One step, and a run -/

/-- What has been answered is a content that is put, and has the hash asked for. -/
def ServedRight (C : Bytes → Prop) (s : Shelf × Served) : Prop := ∀ r ∈ s.2, sha256Hex r.2 = r.1 ∧ C r.2

variable {c c' : Pool (Shelf × Served) Err}

/-- What has been answered stays right exactly if a read finds its file whole. -/
theorem step_servedRight_iff (hC : DistinctHashes C)
    (hmove : Along C c.state c'.state) (hw : Written C c.state.1) (hr : ServedRight C c.state) :
    ServedRight C c'.state ↔ ReadsWhole C c c' := by
  constructor
  · intro hright hash b hb path f content hpath hf hcontent hhash
    rcases hmove.2 with hnone | ⟨hash', path', f', hread, hpath', hf'⟩
    · rw [hnone] at hb
      simp at hb
    · rw [hread, List.append_cancel_left_eq, List.singleton_inj, Prod.mk.injEq] at hb
      obtain ⟨rfl, rfl⟩ := hb
      rw [hpath'] at hpath
      cases hpath
      obtain rfl : f' = f := Option.some.inj (hf'.symm.trans hf)
      have hmem : (hash', f'.bytes 0) ∈ c'.state.2 := by
        rw [hread]
        exact List.mem_append_right _ (List.mem_singleton_self _)
      obtain ⟨hsha, hput⟩ := hright _ hmem
      have hsame : f'.bytes 0 = content := hC _ _ hput hcontent (hsha.trans hhash.symm)
      have hpart : f'.PartOf content := by
        apply partOf_of_written hC hw hcontent _ hf'
        rw [hhash]
        exact hpath'
      exact hpart.bytes_eq_iff.1 hsame
  · intro hwhole r hmem
    rcases hmove.2 with hnone | ⟨hash, path, f, hread, hpath, hf⟩
    · rw [hnone] at hmem
      exact hr r hmem
    · rw [hread] at hmem
      rcases List.mem_append.1 hmem with hmem | hmem
      · exact hr r hmem
      · rw [List.mem_singleton.1 hmem]
        obtain ⟨content, hcontent, hpath', hpart⟩ := hw path f hf
        have hhash : sha256Hex content = hash := ObjectStore.objectPath_inj hpath' hpath
        have hbytes : f.bytes 0 = content :=
          hpart.bytes_eq_iff.2 (hwhole hash _ hread path f content hpath hf hcontent hhash)
        show sha256Hex (f.bytes 0) = hash ∧ C (f.bytes 0)
        rw [hbytes]
        exact ⟨hhash, hcontent⟩

/-- **The bytes that `get` answers with have the hash asked for, and are a content that was put, exactly in
the runs in which it reads whole files only.** -/
theorem served_iff (hC : DistinctHashes C) {s : Shelf} (hs : Written C s)
    {cs : List (Pool (Shelf × Served) Err)} (hrun : List.IsChain (Pool.Step (Calls C) SameFiles) (⟨(s, []), []⟩ :: cs)) :
    (∀ c ∈ cs, ∀ r ∈ c.state.2, sha256Hex r.2 = r.1 ∧ C r.2) ↔
      List.IsChain (ReadsWhole C) (⟨(s, []), []⟩ :: cs) := by
  have hfrom : ∀ c₀ : Pool (Shelf × Served) Err, Written C c₀.state.1 → ServedRight C c₀.state →
      (∀ p ∈ c₀.threads, p.MovesBut (Along C) fun _ => False) → List.IsChain (Pool.Step (Calls C) SameFiles) (c₀ :: cs) →
        ((∀ c ∈ cs, ServedRight C c.state) ↔ List.IsChain (ReadsWhole C) (c₀ :: cs)) := by
    clear hrun
    induction cs with
    | nil => simp
    | cons c₁ cs ih =>
      intro c₀ hw hr hthreads hrun
      rw [List.isChain_cons_cons] at hrun ⊢
      obtain ⟨hstep, hrun⟩ := hrun
      have hrefl : ∀ s : Shelf × Served, Along C s s := fun s => Along.of_sameFiles ⟨rfl, rfl⟩
      obtain ⟨hthreads₁, hmove | ⟨_, _, _, _, _, hfalse, -⟩⟩ := hstep.but hrefl hthreads
        (fun _ _ hp => (calls_move hC hp).but) fun _ _ hout => Along.of_sameFiles hout
      · have hone := step_servedRight_iff hC hmove hw hr
        rw [List.forall_mem_cons, hone]
        constructor
        · rintro ⟨hwhole, hrest⟩
          exact ⟨hwhole, (ih c₁ (hmove.1 hw) (hone.2 hwhole) hthreads₁ hrun).1 hrest⟩
        · rintro ⟨hwhole, hrest⟩
          exact ⟨hwhole, (ih c₁ (hmove.1 hw) (hone.2 hwhole) hthreads₁ hrun).2 hrest⟩
      · exact hfalse.elim
  apply hfrom ⟨(s, []), []⟩ hs _ _ hrun
  · intro r hr
    cases hr
  · intro p hp
    cases hp

end

/-! ## Files that are not whole -/

namespace DemoServed

/-- SHA-256 of the content `1`, and of no bytes at all. -/
@[reducible] def sha : Sha256 := .recorded
  [("1", "6b86b273ff34fce19d6b804eff5a3f5747ada4eaa22f1d49c01e52ddb7875b4b"),
   ("", "e3b0c44298fc1c149afbf4c8996fb92427ae41e4649b934ca495991b7852b855")] (by decide +kernel)

def pieces : Pieces (asBytes "1") := ⟨[asBytes "1"], by decide, by decide⟩

def shelf (faults : List (Option Nat)) : Shelf := ⟨{ World.fresh with faults }, fun _ => none⟩

def putCall : Prog (Shelf × Served) Err Unit :=
  letI := sha
  (put (asBytes "1") pieces).replying fun _ => []

def hash : String := "6b86b273ff34fce19d6b804eff5a3f5747ada4eaa22f1d49c01e52ddb7875b4b"

def getCall : Prog (Shelf × Served) Err Unit := (get hash).replying (served hash)

/-- The `get` runs when the `put` has made the file and not yet written to it. -/
def between : Pool (Shelf × Served) Err :=
  Pool.schedule [0, 0, 0, 1, 1, 0, 0] ⟨(shelf [], []), [putCall, getCall]⟩

theorem run_between {C : Bytes → Prop} (hC : C (asBytes "1")) :
    letI := sha
    Relation.ReflTransGen (Pool.Step (Calls C) SameFiles) ⟨(shelf [], []), []⟩ between := by
  let := sha
  have hput : Calls C (shelf [], []) putCall := Or.inl ⟨asBytes "1", pieces, hC, rfl⟩
  have hget : Calls C (shelf [], []) getCall := Or.inr ⟨hash, rfl⟩
  exact .head (.start hput) (.head (.start hget) (Pool.schedule_run _ _))

theorem served_between : between.state.2 = [(hash, [])] := by decide +kernel

end DemoServed

/-- A `get` between a `put`'s truncation and its first byte answers with no bytes. -/
theorem half_written_served :
    letI := DemoServed.sha
    ∃ c, Relation.ReflTransGen (Pool.Step (Calls fun _ => True) SameFiles) ⟨(DemoServed.shelf [], []), []⟩ c ∧
      ∃ r ∈ c.state.2, sha256Hex r.2 ≠ r.1 := by
  let := DemoServed.sha
  refine ⟨DemoServed.between, DemoServed.run_between trivial, (DemoServed.hash, []), ?_, ?_⟩
  · rw [DemoServed.served_between]
    exact List.mem_singleton_self _
  · decide +kernel

/-- A `put` whose write fails leaves a file that a `get` answers with when nothing else is under way. -/
theorem torn_file_served :
    letI := DemoServed.sha
    ∃ c, Relation.ReflTransGen (Pool.Step (Calls fun _ => True) SameFiles)
        ⟨(DemoServed.shelf [none, none, none, some 0], []), []⟩ c ∧
      (∀ p ∈ c.threads, ∃ r, p = .ofExcept r) ∧ ∃ r ∈ c.state.2, sha256Hex r.2 ≠ r.1 := by
  let := DemoServed.sha
  let s : Shelf × Served := (DemoServed.shelf [none, none, none, some 0], [])
  have hput : Calls (fun _ => True) s DemoServed.putCall := Or.inl ⟨asBytes "1", DemoServed.pieces, trivial, rfl⟩
  have hget : Calls (fun _ => True) (DemoServed.putCall.exec s).2 DemoServed.getCall := Or.inr ⟨DemoServed.hash, rfl⟩
  have hserved : (DemoServed.getCall.exec (DemoServed.putCall.exec s).2).2.2 = [(DemoServed.hash, [])] := by
    decide +kernel
  refine ⟨_, (Pool.start_alone hput []).trans (Pool.start_alone hget _), ?_, (DemoServed.hash, []), ?_, ?_⟩
  · intro p hp
    rcases List.mem_append.1 hp with hp | hp
    · exact ⟨_, List.mem_singleton.1 hp⟩
    · exact ⟨_, List.mem_singleton.1 hp⟩
  · rw [hserved]
    exact List.mem_singleton_self _
  · decide +kernel

/-- In the run of the `get` in between, one of the reads finds a file that is not whole. -/
theorem served_iff_demo :
    letI := DemoServed.sha
    ∃ cs, List.IsChain (Pool.Step (Calls (· = asBytes "1")) SameFiles) (⟨(DemoServed.shelf [], []), []⟩ :: cs) ∧
      ¬ List.IsChain (ReadsWhole (· = asBytes "1")) (⟨(DemoServed.shelf [], []), []⟩ :: cs) := by
  let := DemoServed.sha
  have hone : DistinctHashes (· = asBytes "1") := by
    rintro x y rfl rfl _
    rfl
  have hfiles : Written (· = asBytes "1") (DemoServed.shelf []) := by
    intro path f hf
    cases hf
  obtain ⟨cs, hchain, hlast⟩ := List.exists_isChain_cons_of_relationReflTransGen
    (@DemoServed.run_between (· = asBytes "1") rfl)
  refine ⟨cs, hchain, fun hwhole => ?_⟩
  have hright := (served_iff hone hfiles hchain).2 hwhole
  have hmem : DemoServed.between ∈ cs := by
    rcases List.mem_cons.1 (hlast ▸ List.getLast_mem (by simp)) with h | h
    · have hserved := DemoServed.served_between
      rw [h] at hserved
      cases hserved
    · exact h
  have hput := (hright _ hmem (DemoServed.hash, []) (by rw [DemoServed.served_between]; simp)).2
  exact absurd hput (by decide)

end ObjectFiles

end A2AGateway
