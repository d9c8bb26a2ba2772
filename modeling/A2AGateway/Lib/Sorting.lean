import Mathlib.Data.List.Sort

/-!
# Sorting

Sorting, filtering and taking. `insertionSort` keeps the order of equals, so it commutes with every filter
(`filter_insertionSort`). `Leading le k l r` says of a result that it is what comes first of `l` by `le`, no more
than `k` of it, whatever becomes of equals; a sorted arrangement that is cut off is such a result
(`leading_take`). By a key it is a matter of the keys alone (`Leading.of_keys`). What a list sorted the other
way is cut down to leads only if nothing is cut off that counts (`leading_reverse_take_iff`).
-/

namespace Sorting

variable {α : Type}

/-! ## Sorting and filtering -/

section
variable {r : α → α → Prop} [DecidableRel r] (p : α → Bool) {s : List α}

theorem orderedInsert_of_forall {a : α} : ∀ {s : List α}, (∀ b ∈ s, r a b) → s.orderedInsert r a = a :: s
  | [], _ => rfl
  | b :: s, h => by simp [h b (by simp)]

theorem filter_orderedInsert (htrans : ∀ a b c, r a b → r b c → r a c) (a : α) :
    ∀ {s : List α}, s.Pairwise r →
      (s.orderedInsert r a).filter p = if p a then (s.filter p).orderedInsert r a else s.filter p
  | [], _ => by by_cases ha : p a <;> simp [ha]
  | b :: s, hs => by
    obtain ⟨hb, hs⟩ := List.pairwise_cons.1 hs
    by_cases hab : r a b
    · have hall : ∀ c ∈ (b :: s).filter p, r a c := by
        intro c hc
        rcases List.mem_cons.1 (List.mem_filter.1 hc).1 with rfl | hc
        · exact hab
        · exact htrans a b c hab (hb c hc)
      rw [List.orderedInsert_cons, if_pos hab, orderedInsert_of_forall hall]
      by_cases ha : p a <;> simp [ha]
    · rw [List.orderedInsert_cons, if_neg hab]
      have ih := filter_orderedInsert htrans a hs
      by_cases hp : p b
      · by_cases ha : p a <;> simp_all
      · by_cases ha : p a <;> simp_all

/-- **A filter may come before the sort or after it.** -/
theorem filter_insertionSort (htotal : ∀ a b, r a b ∨ r b a) (htrans : ∀ a b c, r a b → r b c → r a c) :
    ∀ l : List α, (l.insertionSort r).filter p = (l.filter p).insertionSort r
  | [] => rfl
  | a :: l => by
    have : Std.Total r := ⟨htotal⟩
    have : IsTrans α r := ⟨htrans⟩
    rw [List.insertionSort_cons, filter_orderedInsert p htrans a (List.pairwise_insertionSort r l),
      filter_insertionSort htotal htrans l]
    by_cases ha : p a <;> simp [ha]

end

/-! ## What comes first -/

/-- `r` is sorted, as long as it may be, and what `l` has beside it comes after it. -/
structure Leading (le : α → α → Prop) (k : Nat) (l r : List α) : Prop where
  sorted : r.Pairwise le
  length : r.length = min k l.length
  rest : ∃ rest, (r ++ rest).Perm l ∧ ∀ a ∈ r, ∀ b ∈ rest, le a b

section
variable {le : α → α → Prop} {k : Nat} {l r s : List α}

theorem leading_take (hs : s.Pairwise le) (hp : s.Perm l) : Leading le k l (s.take k) := by
  refine ⟨hs.sublist (List.take_sublist k s), by rw [List.length_take, hp.length_eq], s.drop k, ?_, ?_⟩
  · rw [List.take_append_drop]
    exact hp
  · rw [← List.take_append_drop k s, List.pairwise_append] at hs
    exact hs.2.2

namespace Leading

theorem nodup (h : Leading le k l r) (hl : l.Nodup) : r.Nodup := by
  obtain ⟨rest, hperm, -⟩ := h.rest
  exact (List.nodup_append.1 (hperm.nodup_iff.2 hl)).1

/-- Where all of it may be taken, all of it is. -/
theorem perm (h : Leading le k l r) (hl : l.length ≤ k) : r.Perm l := by
  obtain ⟨rest, hperm, -⟩ := h.rest
  have hlen := hperm.length_eq
  rw [List.length_append, h.length, Nat.min_eq_right hl] at hlen
  obtain rfl : rest = [] := List.length_eq_zero_iff.1 (by omega)
  simpa using hperm

end Leading

end

/-! ## By a key -/

section
variable {κ : Type} [LinearOrder κ] {key : α → κ} {k : Nat} {l r r' rest s low : List α}

/-- Those with the greater key first. -/
abbrev Greater (key : α → κ) (a b : α) : Prop := key b ≤ key a

/-- What is left out comes after, in whatever way the same keys have been taken. -/
theorem Leading.after_of_keys (h : Leading (Greater key) k l r) (hkeys : r'.map key = r.map key)
    (hperm : (r' ++ rest).Perm l) : ∀ a ∈ r', ∀ b ∈ rest, key b ≤ key a := by
  obtain ⟨others, hothers, hafter⟩ := h.rest
  have hrest : (rest.map key).Perm (others.map key) := by
    have hall := (hperm.trans hothers.symm).map key
    rw [List.map_append, List.map_append, hkeys] at hall
    exact (List.perm_append_left_iff _).1 hall
  intro a ha b hb
  have ha' : key a ∈ r.map key := hkeys ▸ List.mem_map_of_mem ha
  obtain ⟨a', ha', haa'⟩ := List.mem_map.1 ha'
  obtain ⟨b', hb', hbb'⟩ := List.mem_map.1 (hrest.mem_iff.1 (List.mem_map_of_mem hb))
  simpa [Greater, haa', hbb'] using hafter a' ha' b' hb'

theorem Leading.of_keys (h : Leading (Greater key) k l r) (hkeys : r'.map key = r.map key)
    (hperm : (r' ++ rest).Perm l) : Leading (Greater key) k l r' := by
  have hlen : r'.length = r.length := by simpa using congrArg List.length hkeys
  have hsorted : r'.Pairwise (Greater key) := by
    rw [← List.pairwise_map (R := fun a b : κ => b ≤ a), hkeys]
    exact List.pairwise_map.2 h.sorted
  exact ⟨hsorted, hlen.trans h.length, rest, hperm, h.after_of_keys hkeys hperm⟩

theorem reverse_take_perm (k : Nat) (hperm : (s ++ low).Perm l) : ((s.take k).reverse ++ (s.drop k ++ low)).Perm l := by
  refine .trans ?_ hperm
  rw [← List.append_assoc]
  refine .append_right low ?_
  exact ((List.reverse_perm _).append_right _).trans (by rw [List.take_append_drop])

/-- **Cut off after `k`, a list in the other order leads if and only if it is not cut off and nothing is missing
that would have had a place, or all of it has one key.** `low` is what has been left out before. -/
theorem leading_reverse_take_iff (hk : 0 < k) (hs : s.Pairwise fun a b => key a ≤ key b) (hperm : (s ++ low).Perm l)
    (hlow : ∀ a ∈ s, ∀ b ∈ low, key b ≤ key a) :
    Leading (Greater key) k l (s.take k).reverse ↔
      (s.length ≤ k ∧ (s.length = l.length ∨ s.length = k)) ∨ (k < s.length ∧ ∀ a ∈ s, ∀ b ∈ s, key a = key b) := by
  have hcut := reverse_take_perm k hperm
  have hsorted : (s.take k).reverse.Pairwise (Greater key) :=
    List.pairwise_reverse.2 (hs.sublist (List.take_sublist k s))
  have hlen := hperm.length_eq
  rw [List.length_append] at hlen
  have hbehind : ∀ a ∈ s.take k, ∀ b ∈ s.drop k, key a ≤ key b := by
    rw [← List.take_append_drop k s, List.pairwise_append] at hs
    exact hs.2.2
  constructor
  · intro h
    have hlength := h.length
    rw [List.length_reverse, List.length_take] at hlength
    by_cases hcase : s.length ≤ k
    · exact .inl ⟨hcase, by omega⟩
    · have hsame : ∀ a ∈ s.take k, ∀ b ∈ s.drop k, key a = key b := fun a ha b hb =>
        le_antisymm (hbehind a ha b hb)
          (h.after_of_keys rfl hcut a (List.mem_reverse.2 ha) b (List.mem_append_left _ hb))
      -- both parts have an element, to compare with
      obtain ⟨x, hx⟩ := List.exists_mem_of_length_pos (show 0 < (s.take k).length by rw [List.length_take]; omega)
      obtain ⟨y, hy⟩ := List.exists_mem_of_length_pos (show 0 < (s.drop k).length by rw [List.length_drop]; omega)
      have hone : ∀ a ∈ s, key a = key x := by
        intro a ha
        rw [← List.take_append_drop k s, List.mem_append] at ha
        rcases ha with ha | ha
        · rw [hsame a ha y hy, hsame x hx y hy]
        · rw [hsame x hx a ha]
      exact .inr ⟨by omega, fun a ha b hb => by rw [hone a ha, hone b hb]⟩
  · intro h
    refine ⟨hsorted, ?_, _, hcut, fun a ha b hb => ?_⟩
    · rw [List.length_reverse, List.length_take]
      omega
    · rw [List.mem_reverse] at ha
      rcases List.mem_append.1 hb with hb | hb
      · rcases h with ⟨hle, -⟩ | ⟨-, hall⟩
        · simp [List.drop_eq_nil_of_le hle] at hb
        · exact (hall b (List.mem_of_mem_drop hb) a (List.mem_of_mem_take ha)).le
      · exact hlow a (List.mem_of_mem_take ha) b hb

end

end Sorting
