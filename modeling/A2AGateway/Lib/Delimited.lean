import Mathlib.Data.List.Basic
import Mathlib.Data.List.DropRight

/-!
# Two fields around a separator

`a ++ d :: x` is the field `a`, a separator `d` and the rest. Where the field cannot contain the
separator the text determines both parts; where it can, the parts are determined up to moving the
boundary to another separator. Splitting at every separator yields fields without it.
-/

namespace Delimited

variable {α : Type} {d : α} {a b x y : List α}

/-- The boundary is the same, or one of the two lies behind the other. -/
theorem append_eq_append (h : a ++ d :: x = b ++ d :: y) :
    (a = b ∧ x = y) ∨ (∃ z, b = a ++ d :: z ∧ x = z ++ d :: y) ∨ (∃ z, a = b ++ d :: z ∧ y = z ++ d :: x) := by
  rcases List.append_eq_append_iff.1 h with ⟨z, hb, hx⟩ | ⟨z, ha, hy⟩
  · cases z with
    | nil =>
      simp only [List.append_nil, List.nil_append, List.cons.injEq, true_and] at hb hx
      exact Or.inl ⟨hb.symm, hx⟩
    | cons c z =>
      simp only [List.cons_append, List.cons.injEq] at hx
      obtain ⟨rfl, hx⟩ := hx
      exact Or.inr (Or.inl ⟨z, hb, hx⟩)
  · cases z with
    | nil =>
      simp only [List.append_nil, List.nil_append, List.cons.injEq, true_and] at ha hy
      exact Or.inl ⟨ha, hy.symm⟩
    | cons c z =>
      simp only [List.cons_append, List.cons.injEq] at hy
      obtain ⟨rfl, hy⟩ := hy
      exact Or.inr (Or.inr ⟨z, ha, hy⟩)

/-- First fields without the separator: the text determines both parts. -/
theorem append_inj_left (ha : d ∉ a) (hb : d ∉ b) (h : a ++ d :: x = b ++ d :: y) : a = b ∧ x = y := by
  rcases append_eq_append h with h | ⟨z, rfl, -⟩ | ⟨z, rfl, -⟩
  · exact h
  · exact absurd (by simp) hb
  · exact absurd (by simp) ha

/-- Last fields without the separator: likewise. -/
theorem append_inj_right (hx : d ∉ x) (hy : d ∉ y) (h : a ++ d :: x = b ++ d :: y) : a = b ∧ x = y := by
  rcases append_eq_append h with h | ⟨z, -, rfl⟩ | ⟨z, -, rfl⟩
  · exact h
  · exact absurd (by simp) hx
  · exact absurd (by simp) hy

/-- A prefix without the separator is one of the first field. -/
theorem prefix_append_cons {p : List α} (hp : d ∉ p) : p <+: a ++ d :: x ↔ p <+: a := by
  induction p generalizing a with
  | nil => simp
  | cons c p ih =>
    have hc : c ≠ d := fun h => hp (h ▸ List.mem_cons_self)
    cases a with
    | nil => simp [List.cons_prefix_cons, hc]
    | cons e a =>
      rw [List.cons_append, List.cons_prefix_cons, List.cons_prefix_cons, ih fun h => hp (List.mem_cons_of_mem c h)]

/-- What stops at the separator stops in the first field or at its end. -/
theorem takeWhile_append_cons {keep : α → Bool} (hd : keep d = false) : (a ++ d :: x).takeWhile keep = a.takeWhile keep := by
  induction a with
  | nil => simp [hd]
  | cons c a ih =>
    rw [List.cons_append, List.takeWhile_cons, List.takeWhile_cons, ih]

/-- A suffix without the separator is one of the last field. -/
theorem suffix_rtakeWhile [DecidableEq α] {s : List α} (hs : d ∉ s) : s <:+ a.rtakeWhile (· ≠ d) ↔ s <:+ a := by
  constructor
  · exact fun h => h.trans (List.rtakeWhile_suffix _ a)
  · rintro ⟨t, rfl⟩
    induction s using List.reverseRecOn with
    | nil => exact List.nil_suffix
    | append_singleton s c ih =>
      have hc : c ≠ d := fun h => hs (h ▸ List.mem_append_right s (List.mem_singleton_self c))
      have hs' : d ∉ s := fun h => hs (List.mem_append_left [c] h)
      rw [← List.append_assoc, List.rtakeWhile_concat_pos _ _ _ (by simpa using hc)]
      obtain ⟨u, hu⟩ := ih hs'
      exact ⟨u, by rw [← hu, List.append_assoc]⟩

/-- A field between separators has no separator, and is made of the text's own elements. -/
theorem mem_splitOn [BEq α] [LawfulBEq α] : ∀ {xs p : List α}, p ∈ xs.splitOn d → d ∉ p ∧ p ⊆ xs
  | [], p, hp => by
    rw [List.splitOn_nil, List.mem_singleton] at hp
    subst hp
    simp
  | c :: xs, p, hp => by
    rw [List.splitOn_cons_eq_if_modifyHead] at hp
    split at hp
    · rcases List.mem_cons.1 hp with rfl | hp
      · simp
      · obtain ⟨hd, hsub⟩ := mem_splitOn hp
        exact ⟨hd, fun x hx => List.mem_cons_of_mem c (hsub hx)⟩
    · rename_i hc
      obtain ⟨q, qs, hq⟩ := List.exists_cons_of_ne_nil (List.splitOn_ne_nil d xs)
      rw [hq, List.modifyHead_cons] at hp
      rcases List.mem_cons.1 hp with rfl | hp
      · have hmem : q ∈ xs.splitOn d := by simp [hq]
        obtain ⟨hd, hsub⟩ := mem_splitOn hmem
        refine ⟨?_, List.cons_subset_cons c hsub⟩
        intro hmem
        rcases List.mem_cons.1 hmem with rfl | hmem
        · exact hc (beq_self_eq_true _)
        · exact hd hmem
      · have hmem : p ∈ xs.splitOn d := by simp [hq, hp]
        obtain ⟨hd, hsub⟩ := mem_splitOn hmem
        exact ⟨hd, fun x hx => List.mem_cons_of_mem c (hsub hx)⟩

end Delimited
