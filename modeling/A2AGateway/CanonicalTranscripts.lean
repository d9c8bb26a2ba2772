import A2AGateway.TranscriptRoundTrip
import A2AGateway.Lib.Keyed
import A2AGateway.Lib.Utf8

/-!
# The canonical form of a transcript

`parse_transcript` takes more than `build_transcript` writes: signs, leading zeros, carriage
returns, and lines that it skips. What it takes is `TranscriptEntry.Carried`, and comes back
unchanged once it is written, in the order of its paths (`parse_build_parse`). Where no two paths
are equal that order is the only one there is, so that the text and its hash do not depend on the
order in which a directory lists its files (`snapshot_of_any_order`).

`sort_by(|a, b| a.path.cmp(&b.path))` compares bytes; `buildTranscript` compares characters, which
comes to the same (`Utf8.bytes_lt_iff`).
-/

namespace A2AGateway

open Keyed (sortBy StablySorted)

namespace TranscriptEntry

/-- What `sort_by` compares: the bytes of the path, as numbers. -/
def pathBytes (e : TranscriptEntry) : List Nat := (asBytes e.path).map UInt8.toNat

end TranscriptEntry

open TranscriptEntry (pathBytes)

theorem strictMono_bytes : StrictMono fun path : String => (asBytes path).map UInt8.toNat := by
  intro a b hab
  exact List.map_lt (fun _ _ h => UInt8.lt_iff_toNat_lt.1 h) (Utf8.bytes_lt_iff.2 hab)

/-- The entries as they are written. -/
theorem buildTranscript_eq (entries : List TranscriptEntry) :
    buildTranscript entries = "\n".intercalate ((sortBy (·.path) entries).map (·.toLine)) := rfl

/-- They are sorted by the bytes of their paths. -/
theorem stablySorted_written (entries : List TranscriptEntry) :
    StablySorted pathBytes entries (sortBy (·.path) entries) := by
  have hsorted : StablySorted (·.path) entries (sortBy (·.path) entries) := Keyed.stablySorted_sortBy
  have hbytes := hsorted.comp strictMono_bytes
  exact hbytes

theorem sortBy_pathBytes (entries : List TranscriptEntry) : sortBy pathBytes entries = sortBy (·.path) entries :=
  Keyed.stablySorted_sortBy.eq (stablySorted_written entries)

/-- **What is read from any text is unchanged by writing and reading it, but for the order**: it comes back
sorted by the bytes of the paths, the entries of one path in the order they had. -/
theorem parse_build_parse (text : String) :
    parseTranscript (buildTranscript (parseTranscript text)) = sortBy pathBytes (parseTranscript text) ∧
      StablySorted pathBytes (parseTranscript text) (sortBy pathBytes (parseTranscript text)) := by
  refine ⟨?_, Keyed.stablySorted_sortBy⟩
  rw [sortBy_pathBytes]
  exact parse_build fun e he => carried_of_mem_parse he

example : buildTranscript (parseTranscript "F|b|x|+7|0644|1\r\n\nG|c\nF|a|y|1|8|1\nF|a||007|644|2") =
    "F|a||7|644|2\nF|b|x|7|644|1" := by decide +kernel

section
variable [Sha256] {entries entries' : List TranscriptEntry}

/-- **The order in which the files are found does not matter** where their paths differ: the text is the same,
the id is the same, and the lines come in strictly increasing order of the bytes of the paths. -/
theorem snapshot_of_any_order (hpaths : entries.Pairwise fun a b => a.path ≠ b.path) (hperm : entries.Perm entries') :
    buildTranscript entries = buildTranscript entries' ∧
      transcriptId (buildTranscript entries) = transcriptId (buildTranscript entries') ∧
      ∃ sorted : List TranscriptEntry, sorted.Perm entries ∧ (sorted.Pairwise fun a b => pathBytes a < pathBytes b) ∧
        buildTranscript entries = "\n".intercalate (sorted.map (·.toLine)) := by
  have htext : buildTranscript entries = buildTranscript entries' := by
    rw [buildTranscript_eq, buildTranscript_eq, Keyed.sortBy_eq_of_perm hpaths hperm]
  refine ⟨htext, congrArg transcriptId htext, sortBy (·.path) entries, List.perm_insertionSort _ _, ?_,
    buildTranscript_eq entries⟩
  exact (Keyed.strict_sortBy hpaths).imp fun hab => strictMono_bytes hab

end

namespace DemoOrder

def main : TranscriptEntry := ⟨"src/main.rs", "6b86b273ff34fce19d6b804eff5a3f5747ada4eaa22f1d49c01e52ddb7875b4b", 1, 0o644, 100⟩

def readme : TranscriptEntry := ⟨"README.md", "d4735e3a265e16eee03f59718b9b5d03019c07d8b6c51f90da3a666eec13ab35", 1, 0o644, 200⟩

end DemoOrder

/-- A folder of two files, listed either way. -/
theorem snapshot_of_any_order_demo : letI := DemoNames.sha256
    transcriptId (buildTranscript [DemoOrder.main, DemoOrder.readme]) =
      transcriptId (buildTranscript [DemoOrder.readme, DemoOrder.main]) := by
  let := DemoNames.sha256
  have hpaths : [DemoOrder.main, DemoOrder.readme].Pairwise fun a b => a.path ≠ b.path := by
    simp [DemoOrder.main, DemoOrder.readme]
  exact (snapshot_of_any_order hpaths (List.Perm.swap _ _ _)).2.1

end A2AGateway
