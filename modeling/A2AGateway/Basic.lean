import Mathlib.Algebra.Order.BigOperators.Group.List
import Mathlib.Algebra.Order.Ring.Int
import Mathlib.Algebra.Order.Ring.Nat
import Mathlib.Algebra.Order.Ring.Rat
import Mathlib.Data.List.Pairwise

/-!
# Values the gateway works on

| here | there |
| --- | --- |
| `Bytes`           | `Vec<u8>` / `&[u8]` |
| `F64`             | `f64`, PostgreSQL `DOUBLE PRECISION`, protobuf `double` |
| `Uuid`            | the text of a `uuid::Uuid` |
| `Sha256`          | `object_store.rs:162` `sha256_hex` over the `sha2` crate |
| `HmacSha256`      | `hex::encode` of an HMAC-SHA256 (`hmac` crate, `task_log.rs:278-280`) |
| `Json`, `SerdeJson` | `serde_json::Value`, `to_vec` and `from_slice` |
| `Err`, `Status`   | `anyhow::Error`, `tonic::Status` |

Strings are Lean strings, without the NUL character that a PostgreSQL `TEXT` column refuses; an
`i64` is an `Int`, checked against the column type where a statement writes it. That the driver does not read an
`INTEGER` column into an `i64`, and that an index refuses a long key, is part of the database (`Engine`,
`Schema.lean`). The two hash functions are parameters; what a theorem needs of them beyond their output format it says.
-/

namespace A2AGateway

abbrev Bytes := List UInt8

/-! ## Floating-point timestamps -/

/-- The values of an `f64`; `fin` takes any rational, which includes those an `f64` can hold. -/
inductive F64
  | nan
  | negInf
  | posInf
  | fin (q : Rat)
deriving DecidableEq, Repr

/-- `x as u64`: truncates towards zero and saturates, NaN to 0. -/
def F64.asU64 : F64 → Nat
  | .nan => 0
  | .negInf => 0
  | .posInf => 2 ^ 64 - 1
  | .fin q => min q.floor.toNat (2 ^ 64 - 1)

/-- PostgreSQL's order on `DOUBLE PRECISION`, NaN above everything. -/
def F64.le : F64 → F64 → Bool
  | _, .nan => true
  | .nan, _ => false
  | .negInf, _ => true
  | _, .posInf => true
  | .fin p, .fin q => p ≤ q
  | _, _ => false

def F64.lt (a b : F64) : Bool := !b.le a

theorem F64.le_total (a b : F64) : a.le b = true ∨ b.le a = true := by
  cases a <;> cases b <;> simp [le]
  exact Rat.le_total

theorem F64.le_trans {a b c : F64} (h : a.le b = true) (h' : b.le c = true) : a.le c = true := by
  cases a <;> cases b <;> cases c <;> simp_all [le]
  exact Rat.le_trans h h'

/-- The exponent of the leading binary digit. -/
def leadingExponent (q : Rat) : Int :=
  let k := (Nat.log2 q.num.natAbs : Int) - Nat.log2 q.den
  if (2 : Rat) ^ k ≤ q.abs then k else k - 1

/-- The nearest integer; of two, the even one. -/
def nearestEven (q : Rat) : Int :=
  let rest := q - q.floor
  if rest < 1 / 2 ∨ rest = 1 / 2 ∧ q.floor % 2 = 0 then q.floor else q.floor + 1

/-- The nearest `f64`: 53 binary digits, exponents from -1022 to 1023. -/
def F64.nearest (q : Rat) : F64 :=
  let place : Rat := 2 ^ (max (leadingExponent q) (-1022) - 52)
  let rounded := nearestEven (q / place) * place
  if rounded.abs < 2 ^ 1024 then .fin rounded else if q < 0 then .negInf else .posInf

/-- `a + b` on `f64`. -/
def F64.add : F64 → F64 → F64
  | .nan, _ | _, .nan | .negInf, .posInf | .posInf, .negInf => .nan
  | .posInf, _ | _, .posInf => .posInf
  | .negInf, _ | _, .negInf => .negInf
  | .fin p, .fin q => nearest (p + q)

/-- What a PostgreSQL `INTEGER` column takes: what 32 bits can hold. -/
def fitsInteger (n : Int) : Bool := (BitVec.ofInt 32 n).toInt == n

theorem fitsInteger_iff {n : Int} : fitsInteger n = true ↔ -2 ^ 31 ≤ n ∧ n < 2 ^ 31 := by
  simp only [fitsInteger, beq_iff_eq, BitVec.toInt_ofInt]
  constructor
  · intro h
    rw [← h]
    exact ⟨Int.le_bmod (by decide), Int.bmod_lt (by decide)⟩
  · rintro ⟨h₁, h₂⟩
    exact Int.bmod_eq_of_le (by omega) (by omega)

/-! ## Text -/

/-- `char::is_ascii_hexdigit`. -/
def isAsciiHexDigit (c : Char) : Bool :=
  ('0' ≤ c && c ≤ '9') || ('a' ≤ c && c ≤ 'f') || ('A' ≤ c && c ≤ 'F')

/-- `s.as_bytes()`. -/
def asBytes (s : String) : Bytes := s.toUTF8.data.toList

/-- `s.len()`, in bytes. -/
def byteLen (cs : List Char) : Nat := (cs.map (·.utf8Size)).sum

/-- `&s[..n]` on the characters of `s`; `none` is the panic off a character boundary. -/
def takeBytes : List Char → Nat → Option (List Char)
  | _, 0 => some []
  | [], _ + 1 => none
  | c :: cs, n + 1 =>
    if c.utf8Size ≤ n + 1 then (takeBytes cs (n + 1 - c.utf8Size)).map (c :: ·) else none

/-- `&s[n..]`, likewise. -/
def dropBytes : List Char → Nat → Option (List Char)
  | cs, 0 => some cs
  | [], _ + 1 => none
  | c :: cs, n + 1 => if c.utf8Size ≤ n + 1 then dropBytes cs (n + 1 - c.utf8Size) else none

/-- A property of all characters of a text is decided character by character. -/
instance decidableAllChars {p : Char → Prop} [DecidablePred p] (cs : List Char) : Decidable (∀ c ∈ cs, p c) := List.decidableBAll p cs

/-- The hyphenated lower-case text of a UUID. -/
structure Uuid where
  text : String
  hex : ∀ c ∈ text.toList, isAsciiHexDigit c = true ∨ c = '-'
deriving DecidableEq

theorem Uuid.ext_text {u v : Uuid} (h : u.text = v.text) : u = v := by
  cases u; cases v; cases h; rfl

theorem Uuid.no_bar (u : Uuid) : '|' ∉ u.text.toList := by
  intro h
  rcases u.hex _ h with h | h
  · exact absurd h (by decide)
  · exact absurd h (by decide)

/-- The ids are never used up. -/
theorem Uuid.exists_fresh (l : List String) : ∃ u : Uuid, u.text ∉ l := by
  refine ⟨⟨String.ofList (List.replicate ((l.map String.length).sum + 1) 'a'), fun c hc => ?_⟩, fun hmem => ?_⟩
  · rw [String.toList_ofList, List.mem_replicate] at hc
    rw [hc.2]
    exact .inl rfl
  · have hle := List.le_sum_of_mem (List.mem_map_of_mem (f := String.length) hmem)
    rw [String.length_ofList, List.length_replicate] at hle
    omega

/-! The digits of the ids that small runs use. -/

theorem Uuid.hex_one : ∀ c ∈ "00000000-0000-4000-8000-000000000001".toList, isAsciiHexDigit c = true ∨ c = '-' := by
  decide +kernel

theorem Uuid.hex_two : ∀ c ∈ "00000000-0000-4000-8000-000000000002".toList, isAsciiHexDigit c = true ∨ c = '-' := by
  decide +kernel

theorem Uuid.hex_aa : ∀ c ∈ "00000000-0000-4000-8000-0000000000aa".toList, isAsciiHexDigit c = true ∨ c = '-' := by
  decide +kernel

theorem Uuid.hex_bb : ∀ c ∈ "00000000-0000-4000-8000-0000000000bb".toList, isAsciiHexDigit c = true ∨ c = '-' := by
  decide +kernel

/-! ## Hash functions -/

/-- SHA-256 in hex: 64 hexadecimal digits. -/
class Sha256 where
  sha256Hex : Bytes → String
  length_hex : ∀ b, (sha256Hex b).toList.length = 64
  hex : ∀ b, ∀ c ∈ (sha256Hex b).toList, isAsciiHexDigit c = true

/-- A hash function known at the given texts, and one fixed digest elsewhere: enough to evaluate a
run that hashes only those texts. -/
@[reducible] def Sha256.recorded (values : List (String × String))
    (h : ∀ v ∈ values, v.2.toList.length = 64 ∧ v.2.toList.all isAsciiHexDigit = true) : Sha256 where
  sha256Hex b := ((values.find? fun v => asBytes v.1 == b).map (·.2)).getD (String.ofList (.replicate 64 '0'))
  length_hex b := by
    cases hf : values.find? fun v => asBytes v.1 == b with
    | none => simp
    | some v => exact (h v (List.mem_of_find?_eq_some hf)).1
  hex b := by
    cases hf : values.find? fun v => asBytes v.1 == b with
    | none =>
      intro c hc
      have : c = '0' := by simpa using hc
      subst this
      decide
    | some v => exact List.all_eq_true.1 (h v (List.mem_of_find?_eq_some hf)).2

/-- HMAC-SHA256 in hex, of a message under a key. -/
class HmacSha256 where
  hmacHex : Bytes → String → String
  ne_empty : ∀ key msg, hmacHex key msg ≠ ""

theorem HmacSha256.forall_nil_ne : ∀ v ∈ ([] : List (String × String)), v.2 ≠ "" := by simp

/-- An HMAC known at the given messages under one key. Elsewhere it marks the message, so that it
stays injective; a digest never begins with the mark. -/
@[reducible] def HmacSha256.recorded (values : List (String × String))
    (h : ∀ v ∈ values, v.2 ≠ "" := by first | exact A2AGateway.HmacSha256.forall_nil_ne | decide +kernel) : HmacSha256 where
  hmacHex _ msg := ((values.find? (·.1 == msg)).map (·.2)).getD ("?" ++ msg)
  ne_empty _ msg := by
    cases hf : values.find? (·.1 == msg) with
    | none =>
      intro he
      have hl := congrArg String.toList he
      simp [String.toList_append] at hl
    | some v => exact h v (List.mem_of_find?_eq_some hf)

theorem HmacSha256.recorded_injective {values : List (String × String)} {h : ∀ v ∈ values, v.2 ≠ ""}
    (hd : values.Pairwise fun a b => a.2 ≠ b.2) (hm : ∀ v ∈ values, v.2.toList.head? ≠ some '?') (key : Bytes) :
    Function.Injective (@hmacHex (.recorded values h) key) := by
  have hfst : ∀ {msg : String} {v}, values.find? (·.1 == msg) = some v → v ∈ values ∧ v.1 = msg := by
    intro msg v h
    exact ⟨List.mem_of_find?_eq_some h, by simpa using List.find?_some h⟩
  have hmark : ∀ {msg s : String} {v}, values.find? (·.1 == msg) = some v → v.2 ≠ "?" ++ s := by
    intro msg s v h hv
    refine hm v (hfst h).1 ?_
    rw [hv, String.toList_append]
    rfl
  intro a b h
  simp only [hmacHex] at h
  cases ha : values.find? (·.1 == a) with
  | some v =>
    cases hb : values.find? (·.1 == b) with
    | some v' =>
      rw [ha, hb] at h
      have hs : Std.Symm fun a b : String × String => a.2 ≠ b.2 := ⟨fun _ _ => Ne.symm⟩
      have hvv : v = v' := by
        by_contra hne
        exact hd.forall (hfst ha).1 (hfst hb).1 hne h
      rw [← (hfst ha).2, ← (hfst hb).2, hvv]
    | none =>
      rw [ha, hb] at h
      exact absurd h (hmark ha)
  | none =>
    cases hb : values.find? (·.1 == b) with
    | some v' =>
      rw [ha, hb] at h
      exact absurd h.symm (hmark hb)
    | none =>
      rw [ha, hb] at h
      have hl := congrArg String.toList h
      exact String.toList_inj.1 (by simpa [String.toList_append] using hl)

/-! ## JSON -/

inductive Json
  | null
  | bool (b : Bool)
  | num (q : Rat)
  | str (s : String)
  | arr (l : List Json)
  | obj (fields : List (String × Json))

/-- `value.get(key)`: a field of an object. -/
def Json.get (key : String) : Json → Option Json
  | .obj fields => fields.lookup key
  | _ => none

def Json.asStr : Json → Option String
  | .str s => some s
  | _ => none

/-- What `json!` makes of a byte vector. -/
def Json.ofBytes (b : Bytes) : Json := .arr (b.map fun x => .num x.toNat)

/-- `serde_json`: how a value is written and read. -/
class SerdeJson where
  toVec : Json → Bytes
  fromSlice : Bytes → Except String Json
  null_roundTrip : fromSlice (toVec .null) = .ok .null

/-- A codec that is known at `null` only. -/
@[reducible] def SerdeJson.nullOnly : SerdeJson where
  toVec _ := asBytes "null"
  fromSlice b := if b = asBytes "null" then .ok .null else .error "expected value"
  null_roundTrip := rfl

/-! ## Errors -/

/-- `tonic::Code`. -/
inductive Code
  | ok | cancelled | unknown | invalidArgument | deadlineExceeded | notFound | alreadyExists
  | permissionDenied | resourceExhausted | failedPrecondition | aborted | outOfRange
  | unimplemented | internal | unavailable | dataLoss | unauthenticated
deriving DecidableEq, Repr

structure Status where
  code : Code
  message : String
deriving DecidableEq, Repr

/-- How a gateway routine fails: an `sqlx` or `io` error passed on with `?`, an `anyhow` error
with its text, or a panic. -/
inductive Err
  | sqlx
  | io
  | msg (text : String)
  | panic
deriving DecidableEq, Repr

/-- `Display` of the error, as the RPC handlers put it in a status. -/
def Err.text : Err → String
  | .sqlx => "error returned from database"
  | .io => "input/output error"
  | .msg t => t
  | .panic => "panic"

end A2AGateway
