import Mathlib.Data.List.Basic

/-!
# Files written piece by piece

A file is a list of cells; a cell before the end that nobody has written is a hole, which reads
as `zero`. Writers of one content, each at an offset of its own, may truncate and write the file
in any order: it stays a part of the content (`PartOf`), and reads as the content exactly when it
is whole (`PartOf.bytes_eq_iff`).
-/

/-- A file; `none` is a hole. -/
abbrev Sparse (α : Type) := List (Option α)

namespace Sparse

variable {α : Type} {zero : α} {f : Sparse α} {content piece : List α} {o : Nat}

/-- What a reader gets. -/
def bytes (zero : α) (f : Sparse α) : List α := f.map (·.getD zero)

/-- Write `piece` at the offset `o`; what lies between the end of the file and `o` becomes a hole. -/
def writeAt (f : Sparse α) (o : Nat) (piece : List α) : Sparse α :=
  (f ++ List.replicate (o - f.length) none).take o ++ piece.map some ++ f.drop (o + piece.length)

/-- Each cell that has been written holds its byte of the content. -/
structure PartOf (f : Sparse α) (content : List α) : Prop where
  length_le : f.length ≤ content.length
  cells : ∀ (i : Nat) (a : α), f[i]? = some (some a) → content[i]? = some a

/-- Written to the end of the content, with no hole but where the content is `zero`. -/
def Whole (zero : α) (f : Sparse α) (content : List α) : Prop :=
  f.length = content.length ∧ ∀ i : Nat, f[i]? = some none → content[i]? = some zero

theorem PartOf.nil : PartOf [] content := ⟨by simp, by simp⟩

theorem length_writeAt : (f.writeAt o piece).length = max f.length (o + piece.length) := by
  simp only [writeAt, List.length_append, List.length_take, List.length_replicate, List.length_map, List.length_drop]
  omega

/-- A written cell was written before, or is one of the piece. -/
theorem getElem?_writeAt {i : Nat} {a : α} (h : (f.writeAt o piece)[i]? = some (some a)) :
    f[i]? = some (some a) ∨ o ≤ i ∧ piece[i - o]? = some a := by
  have htake : ((f ++ List.replicate (o - f.length) none).take o).length = o := by
    simp only [List.length_take, List.length_append, List.length_replicate]
    omega
  rw [writeAt, List.append_assoc] at h
  by_cases hi : i < o
  · left
    rw [List.getElem?_append_left (by omega), List.getElem?_take_of_lt hi] at h
    by_cases hlen : i < f.length
    · rwa [List.getElem?_append_left hlen] at h
    · rw [List.getElem?_append_right (by omega), List.getElem?_replicate] at h
      split at h <;> cases h
  · rw [List.getElem?_append_right (by omega), htake] at h
    by_cases hpiece : i - o < piece.length
    · right
      rw [List.getElem?_append_left (by simpa using hpiece), List.getElem?_map] at h
      obtain ⟨b, hb, hba⟩ := Option.map_eq_some_iff.1 h
      cases hba
      exact ⟨by omega, hb⟩
    · left
      rw [List.getElem?_append_right (by simpa using hpiece), List.getElem?_drop, List.length_map] at h
      rw [← h]
      congr 1
      omega

/-- A piece of the content, written where it belongs. -/
theorem PartOf.writeAt (h : PartOf f content) (ho : o ≤ content.length) (hpiece : piece <+: content.drop o) :
    PartOf (f.writeAt o piece) content := by
  constructor
  · have hlen := hpiece.length_le
    rw [List.length_drop] at hlen
    have hf := h.length_le
    rw [length_writeAt]
    omega
  · intro i a hi
    rcases getElem?_writeAt hi with hf | ⟨hoi, hp⟩
    · exact h.cells i a hf
    · obtain ⟨rest, hrest⟩ := hpiece
      have hdrop : (content.drop o)[i - o]? = some a := by
        rw [← hrest, List.getElem?_append_left (List.getElem?_eq_some_iff.1 hp).1]
        exact hp
      rw [List.getElem?_drop] at hdrop
      rw [← hdrop]
      congr 1
      omega

/-- **A part of the content reads as the content exactly if it is whole.** -/
theorem PartOf.bytes_eq_iff (h : PartOf f content) : f.bytes zero = content ↔ Whole zero f content := by
  constructor
  · rintro rfl
    refine ⟨by simp [bytes], fun i hi => ?_⟩
    rw [bytes, List.getElem?_map, hi]
    rfl
  · rintro ⟨hlen, hholes⟩
    apply List.ext_getElem?
    intro i
    rw [bytes, List.getElem?_map]
    cases hi : f[i]? with
    | none =>
      rw [List.getElem?_eq_none_iff] at hi
      rw [List.getElem?_eq_none (by omega)]
      rfl
    | some cell =>
      cases cell with
      | none =>
        rw [hholes i hi]
        rfl
      | some a =>
        rw [h.cells i a hi]
        rfl

/-- A writer that nobody disturbs writes on where it has stopped. -/
theorem writeAt_end (before : List α) :
    Sparse.writeAt (before.map some) before.length piece = (before ++ piece).map some := by
  have hdrop : (before.map some).drop (before.length + piece.length) = [] := by
    apply List.drop_eq_nil_of_le
    rw [List.length_map]
    omega
  have htake : (before.map some).take before.length = before.map some := by
    apply List.take_of_length_le
    simp
  simp [writeAt, hdrop, htake]

theorem bytes_written (content : List α) : bytes zero (content.map some) = content := by
  simp [bytes, Function.comp_def]

end Sparse
