import A2AGateway.Lib.Table

/-!
# Tables that only grow

What lasts of a row is what no statement rewrites. `Grows fresh l l'`: what lasted in `l` is at the same places in
`l'`, and everything behind it is `fresh`. The statements of `Lib/Table.lean` make a table grow in this sense
as soon as they leave alone what lasts.
-/

/-- The one list begins with the other, and what comes behind is fresh. -/
def Grows {β : Type*} (fresh : β → Prop) (l l' : List β) : Prop := ∃ added, l' = l ++ added ∧ ∀ b ∈ added, fresh b

namespace Grows

variable {β : Type*} {fresh fresh' : β → Prop} {l l' l'' : List β}

theorem refl (l : List β) : Grows fresh l l := ⟨[], (List.append_nil l).symm, by simp⟩

theorem of_eq (h : l' = l) : Grows fresh l l' := by
  rw [h]
  exact refl l

theorem trans (h : Grows fresh l l') (h' : Grows fresh l' l'') : Grows fresh l l'' := by
  obtain ⟨added, rfl, hfresh⟩ := h
  obtain ⟨more, rfl, hmore⟩ := h'
  refine ⟨added ++ more, List.append_assoc .., fun b hb => ?_⟩
  rcases List.mem_append.1 hb with hb | hb
  · exact hfresh b hb
  · exact hmore b hb

theorem mono (hle : ∀ b, fresh b → fresh' b) (h : Grows fresh l l') : Grows fresh' l l' := by
  obtain ⟨added, hl, hfresh⟩ := h
  exact ⟨added, hl, fun b hb => hle b (hfresh b hb)⟩

/-- Everything in the end was there, or is fresh. -/
theorem mem (h : Grows fresh l l') {b : β} (hb : b ∈ l') : b ∈ l ∨ fresh b := by
  obtain ⟨added, rfl, hfresh⟩ := h
  rcases List.mem_append.1 hb with hb | hb
  · exact Or.inl hb
  · exact Or.inr (hfresh b hb)

theorem subset (h : Grows fresh l l') : ∀ b ∈ l, b ∈ l' := by
  obtain ⟨added, rfl, -⟩ := h
  exact fun b hb => List.mem_append_left _ hb

end Grows

namespace Table

open Constraints (clash)

variable {α β : Type} [Constraints α] {last : α → β} {fresh : β → Prop} {t t' : Table α} {r : α} {p : α → Bool}
  {f : α → α} {hf : ∀ a b, clash (f a) b = clash a b}

theorem mem_of_update {x : α} (h : x ∈ (t.update p f hf).rows) : x ∈ t.rows ∨ ∃ y ∈ t.rows, p y = true ∧ x = f y := by
  obtain ⟨y, hy, rfl⟩ := List.mem_map.1 h
  split
  · rename_i hp
    exact Or.inr ⟨y, hy, hp, rfl⟩
  · exact Or.inl hy

theorem mem_of_upsert {x : α} (h : x ∈ (t.upsert r f hf).rows) : x ∈ t.rows ∨ x = r ∨ ∃ y ∈ t.rows, x = f y := by
  unfold upsert at h
  cases hins : t.insert r with
  | none =>
    rw [hins] at h
    have hupdated : x ∈ (t.update (clash · r) f hf).rows := h
    rcases mem_of_update hupdated with hold | ⟨y, hy, -, rfl⟩
    · exact Or.inl hold
    · exact Or.inr (Or.inr ⟨y, hy, rfl⟩)
  | some t' =>
    rw [hins] at h
    rcases List.mem_append.1 ((insert_eq_some.1 hins).2 ▸ h) with hold | hnew
    · exact Or.inl hold
    · exact Or.inr (Or.inl (List.mem_singleton.1 hnew))

theorem grows_insert (h : t.insert r = some t') (hr : fresh (last r)) :
    Grows fresh (t.rows.map last) (t'.rows.map last) := by
  refine ⟨[last r], ?_, by simpa using hr⟩
  rw [(insert_eq_some.1 h).2, List.map_append, List.map_singleton]

theorem grows_insertIgnore (hr : fresh (last r)) :
    Grows fresh (t.rows.map last) ((t.insertIgnore r).rows.map last) := by
  unfold insertIgnore
  cases h : t.insert r with
  | none => exact Grows.refl _
  | some t' => exact grows_insert h hr

/-- An update that leaves alone what lasts adds nothing. -/
theorem grows_update (hlast : ∀ a, last (f a) = last a) :
    Grows fresh (t.rows.map last) ((t.update p f hf).rows.map last) := by
  refine Grows.of_eq ?_
  rw [update, List.map_map]
  refine List.map_congr_left fun a _ => ?_
  by_cases ha : p a = true
  · simp [ha, hlast]
  · simp [ha]

theorem grows_upsert (hlast : ∀ a, last (f a) = last a) (hr : fresh (last r)) :
    Grows fresh (t.rows.map last) ((t.upsert r f hf).rows.map last) := by
  unfold upsert
  cases h : t.insert r with
  | none =>
    have hgrows : Grows fresh (t.rows.map last) ((t.update (clash · r) f hf).rows.map last) := grows_update hlast
    exact hgrows
  | some t' => exact grows_insert h hr

end Table
