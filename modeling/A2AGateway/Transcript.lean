import A2AGateway.Basic
import Mathlib.Data.List.Sort

/-!
# Snapshot transcripts (`object_store.rs:110-166`)

| here | there |
| --- | --- |
| `TranscriptEntry`                         | `object_store.rs:114-120` |
| `TranscriptEntry.toLine`, `.fromLine`     | `object_store.rs:123-142` |
| `buildTranscript`, `parseTranscript`      | `object_store.rs:146-154` |
| `transcriptId`                            | `object_store.rs:157-159` |
| `lines`, `parseUInt`                      | `str::lines`, `str::parse::<u64>` and `u32::from_str_radix` |

A transcript is the sorted list of a folder's files, one line for each; its SHA-256 is the
snapshot's id.
-/

namespace A2AGateway

structure TranscriptEntry where
  path : String
  sha256 : String
  size : Nat
  mode : Nat
  mtime : Nat
deriving DecidableEq, Repr

/-! ## Rust's text functions -/

/-- `str::lines`: a line ends at `\n`, which may follow a `\r`; what follows the last `\n` is a
line only if it is not empty, and keeps its `\r`. -/
def lines (cs : List Char) : List (List Char) :=
  let pieces := cs.splitOn '\n'
  let stripCr := fun (l : List Char) => if l.getLast? = some '\r' then l.dropLast else l
  pieces.dropLast.map stripCr ++ pieces.getLast?.toList.filter (· ≠ [])

/-- The value of a digit below `radix` (`char::to_digit`, for a radix up to 10). -/
def digit (radix : Nat) (c : Char) : Option Nat :=
  if '0' ≤ c ∧ c.toNat - '0'.toNat < radix then some (c.toNat - '0'.toNat) else none

/-- The digits of a number of at most `bits` bits, most significant first. -/
def parseDigits (radix bits : Nat) : List Char → Nat → Option Nat
  | [], acc => some acc
  | c :: cs, acc =>
    match digit radix c with
    | none => none
    | some d => if acc * radix + d < 2 ^ bits then parseDigits radix bits cs (acc * radix + d) else none

/-- `parse` of an unsigned integer: one optional `+`, then at least one digit, no overflow. -/
def parseUInt (radix bits : Nat) : List Char → Option Nat
  | [] => none
  | ['+'] => none
  | '+' :: cs => parseDigits radix bits cs 0
  | cs => parseDigits radix bits cs 0

/-! ## Entries and transcripts -/

/-- `F|path|sha256|size|mode|mtime`, the mode in octal. -/
def TranscriptEntry.toLine (e : TranscriptEntry) : String :=
  s!"F|{e.path}|{e.sha256}|{e.size}|{String.ofList (Nat.toDigits 8 e.mode)}|{e.mtime}"

def TranscriptEntry.fromLine (line : List Char) : Option TranscriptEntry :=
  match line.splitOn '|' with
  | [tag, path, sha256, size, mode, mtime] =>
    if tag = ['F'] then
      match parseUInt 10 64 size, parseUInt 8 32 mode, parseUInt 10 64 mtime with
      | some size, some mode, some mtime =>
        some ⟨String.ofList path, String.ofList sha256, size, mode, mtime⟩
      | _, _, _ => none
    else none
  | _ => none

/-- The entries sorted by path (`sort_by` is stable), one line for each. -/
def buildTranscript (entries : List TranscriptEntry) : String :=
  "\n".intercalate ((entries.insertionSort (·.path ≤ ·.path)).map (·.toLine))

def parseTranscript (text : String) : List TranscriptEntry :=
  (lines text.toList).filterMap TranscriptEntry.fromLine

def transcriptId [Sha256] (text : String) : String := Sha256.sha256Hex (asBytes text)

example : parseTranscript "F|b.rs|bb|200|644|5678\nF|a|b\nF|a.rs|aa|+100|644|1234\r\n" =
    [⟨"b.rs", "bb", 200, 420, 5678⟩, ⟨"a.rs", "aa", 100, 420, 1234⟩] := by decide

end A2AGateway
