import Mathlib.Data.List.AList
import Mathlib.Data.List.Induction
import Mathlib.Data.List.Sort
import Mathlib.Logic.Function.Basic

/-!
# Items under keys

Items that carry their key, collected into a map where the last one of a key wins; the order a hash
map is walked through, which is any; sorting by the key. Over partial maps from keys to items: what
it takes to get from one map to another when only a value of each item counts (`Differs`), and that
this is enough (`Differs.patch_eq`), needed (`Differs.empty_iff`), and brings all values along
(`Differs.covered`).
-/

namespace Keyed

variable {κ α β : Type}

/-- The order in which a hash map yields its entries. -/
structure Iteration (α : Type) where
  arrange : List α → List α
  perm : ∀ l, (arrange l).Perm l

/-! ## Collecting -/

section collect
variable [DecidableEq κ] (key : α → κ)

/-- The items inserted one after the other. -/
def collect (l : List α) : AList fun _ : κ => α := l.foldl (fun m a => m.insert (key a) a) ∅

/-- The last item of a key. -/
def last (l : List α) (k : κ) : Option α := l.reverse.find? fun a => key a = k

variable {key} {l : List α} {k : κ} {a : α}

theorem last_concat : last key (l ++ [a]) k = if key a = k then some a else last key l k := by
  unfold last
  rw [List.reverse_append, List.reverse_singleton, List.singleton_append, List.find?_cons]
  by_cases h : key a = k
  · simp [h]
  · simp [h]

theorem key_of_last (h : last key l k = some a) : key a = k := by
  simpa using List.find?_some h

theorem lookup_collect : (collect key l).lookup k = last key l k := by
  induction l using List.reverseRecOn with
  | nil => rfl
  | append_singleton l a ih =>
    have hstep : collect key (l ++ [a]) = (collect key l).insert (key a) a := by
      simp only [collect, List.foldl_append, List.foldl_cons, List.foldl_nil]
    rw [hstep, last_concat]
    by_cases h : key a = k
    · rw [if_pos h, ← h, AList.lookup_insert]
    · rw [if_neg h, AList.lookup_insert_ne (Ne.symm h), ih]

end collect

/-! ## Sorting -/

section sort
variable [LinearOrder κ] {key : α → κ} {l : List α}

/-- `sort_by(|a, b| key(a).cmp(key(b)))`, which is stable. -/
def sortBy (key : α → κ) (l : List α) : List α := l.insertionSort fun a b => key a ≤ key b

@[simp] theorem mem_sortBy {a : α} : a ∈ sortBy key l ↔ a ∈ l := List.mem_insertionSort _

/-- Where no two items share their key, the sorted list ascends strictly. -/
theorem strict_sortBy (h : l.Pairwise fun a b => key a ≠ key b) : (sortBy key l).Pairwise fun a b => key a < key b := by
  have : IsTrans α fun a b => key a ≤ key b := ⟨fun _ _ _ h₁ h₂ => le_trans h₁ h₂⟩
  have : Std.Total fun a b : α => key a ≤ key b := ⟨fun a b => le_total (key a) (key b)⟩
  have hle : (sortBy key l).Pairwise fun a b => key a ≤ key b := List.pairwise_insertionSort _ l
  have hne : (sortBy key l).Pairwise fun a b => key a ≠ key b :=
    (List.perm_insertionSort _ l).symm.pairwise h fun hab => hab.symm
  exact hle.imp₂ (fun _ _ => lt_of_le_of_ne) hne

/-- Then it does not depend on the order in which the items came. -/
theorem sortBy_eq_of_perm {l' : List α} (h : l.Pairwise fun a b => key a ≠ key b) (hp : l.Perm l') :
    sortBy key l = sortBy key l' := by
  have h' : l'.Pairwise fun a b => key a ≠ key b := hp.pairwise h fun hab => hab.symm
  have hperm : (sortBy key l).Perm (sortBy key l') :=
    (List.perm_insertionSort _ l).trans (hp.trans (List.perm_insertionSort _ l').symm)
  apply hperm.eq_of_pairwise _ (strict_sortBy h) (strict_sortBy h')
  intro a b _ _ hab hba
  exact absurd hab (lt_asymm hba)

/-- The second list is the first one sorted, and items of one key come in their old order. -/
structure StablySorted (key : α → κ) (l l' : List α) : Prop where
  sorted : l'.Pairwise fun a b => key a ≤ key b
  stable : ∀ k, (l'.filter fun a => key a = k) = l.filter fun a => key a = k

theorem stablySorted_sortBy : StablySorted key l (sortBy key l) := by
  have : IsTrans α fun a b => key a ≤ key b := ⟨fun _ _ _ h₁ h₂ => le_trans h₁ h₂⟩
  have : Std.Total fun a b : α => key a ≤ key b := ⟨fun a b => le_total (key a) (key b)⟩
  refine ⟨List.pairwise_insertionSort _ l, fun k => ?_⟩
  have hone : (l.filter fun a => key a = k).Pairwise fun a b => key a ≤ key b := by
    apply List.pairwise_of_forall_mem_list
    intro a ha b hb
    have hak : key a = k := by simpa using (List.mem_filter.1 ha).2
    have hbk : key b = k := by simpa using (List.mem_filter.1 hb).2
    rw [hak, hbk]
  have hsub : (l.filter fun a => key a = k).Sublist (sortBy key l) :=
    List.sublist_insertionSort hone List.filter_sublist
  have hfilter := hsub.filter fun a => key a = k
  rw [List.filter_filter] at hfilter
  simp only [Bool.and_self] at hfilter
  refine (hfilter.eq_of_length ?_).symm
  exact ((List.perm_insertionSort _ l).filter _).length_eq.symm

theorem StablySorted.mem_iff {l' : List α} (h : StablySorted key l l') {a : α} : a ∈ l' ↔ a ∈ l := by
  have hstable := congrArg (a ∈ ·) (h.stable (key a))
  simpa using hstable

/-- There is only one way to sort stably. -/
theorem StablySorted.eq {l₁ l₂ : List α} (h₁ : StablySorted key l l₁) (h₂ : StablySorted key l l₂) : l₁ = l₂ := by
  have hmem : ∀ a, a ∈ l₁ ↔ a ∈ l₂ := fun a => h₁.mem_iff.trans h₂.mem_iff.symm
  have hstable : ∀ k, (l₁.filter fun a => key a = k) = l₂.filter fun a => key a = k :=
    fun k => (h₁.stable k).trans (h₂.stable k).symm
  have hsorted₁ := h₁.sorted
  have hsorted₂ := h₂.sorted
  clear h₁ h₂
  induction l₁ generalizing l₂ with
  | nil => exact (List.eq_nil_iff_forall_not_mem.2 fun a ha => by simpa using (hmem a).2 ha).symm
  | cons a l₁ ih =>
    cases l₂ with
    | nil => simpa using (hmem a).1 List.mem_cons_self
    | cons b l₂ =>
      rw [List.pairwise_cons] at hsorted₁ hsorted₂
      -- each head is in the other list, and is the least there
      have hab : key a = key b := by
        apply le_antisymm
        · rcases List.mem_cons.1 ((hmem b).2 List.mem_cons_self) with rfl | hb
          · exact le_rfl
          · exact hsorted₁.1 b hb
        · rcases List.mem_cons.1 ((hmem a).1 List.mem_cons_self) with rfl | ha
          · exact le_rfl
          · exact hsorted₂.1 a ha
      have hhead := hstable (key a)
      simp only [List.filter_cons, hab, decide_true, if_true, List.cons.injEq] at hhead
      obtain ⟨rfl, -⟩ := hhead
      have hrest : ∀ k, (l₁.filter fun a => key a = k) = l₂.filter fun a => key a = k := by
        intro k
        have hk := hstable k
        by_cases hak : key a = k
        · simpa [hak] using hk
        · simpa [hak] using hk
      have hmem' : ∀ c, c ∈ l₁ ↔ c ∈ l₂ := by
        intro c
        have hc := congrArg (c ∈ ·) (hrest (key c))
        simpa using hc
      rw [ih hmem' hrest hsorted₁.2 hsorted₂.2]

/-- Keys of another kind in the same order. -/
theorem StablySorted.comp {μ : Type} [LinearOrder μ] {l' : List α} {f : κ → μ} (hf : StrictMono f)
    (h : StablySorted key l l') : StablySorted (fun a => f (key a)) l l' := by
  refine ⟨h.sorted.imp fun hab => hf.monotone hab, fun k => ?_⟩
  by_cases hk : ∃ k', f k' = k
  · obtain ⟨k', rfl⟩ := hk
    simpa only [hf.injective.eq_iff] using h.stable k'
  · have hnone : ∀ a, f (key a) ≠ k := fun a ha => hk ⟨key a, ha⟩
    simp [hnone]

end sort

/-! ## Differences of maps -/

/-- The items of the map are under their own keys. -/
def Proper (key : α → κ) (m : κ → Option α) : Prop := ∀ k a, m k = some a → key a = k

/-- Added and removed items, and pairs of items with the same key and different values, between two maps. -/
structure Differs (key : α → κ) (value : α → β) (old new : κ → Option α) (added removed : List α)
    (modified : List (α × α)) : Prop where
  mem_added : ∀ a, a ∈ added ↔ new (key a) = some a ∧ old (key a) = none
  mem_removed : ∀ a, a ∈ removed ↔ old (key a) = some a ∧ new (key a) = none
  mem_modified : ∀ a b, (a, b) ∈ modified ↔ ∃ k, old k = some a ∧ new k = some b ∧ value a ≠ value b

section patch
variable [DecidableEq κ] (key : α → κ) (value : α → β)

/-- The values of the items put under the items' keys. -/
def assign (l : List α) (f : α → Option β) (m : κ → Option β) : κ → Option β :=
  l.foldl (fun m a => Function.update m (key a) (f a)) m

/-- Removes, adds and replaces. -/
def patch (added removed : List α) (modified : List (α × α)) (m : κ → Option β) : κ → Option β :=
  let m := assign key removed (fun _ => none) m
  let m := assign key added (fun a => some (value a)) m
  assign key (modified.map Prod.snd) (fun b => some (value b)) m

variable {key value} {l : List α} {f : α → Option β} {m : κ → Option β} {k : κ} {v : Option β}

@[simp] theorem assign_concat {a : α} :
    assign key (l ++ [a]) f m = Function.update (assign key l f m) (key a) (f a) := by
  simp only [assign, List.foldl_append, List.foldl_cons, List.foldl_nil]

theorem assign_of_ne (h : ∀ a ∈ l, key a ≠ k) : assign key l f m k = m k := by
  induction l using List.reverseRecOn with
  | nil => rfl
  | append_singleton l a ih =>
    have ha : key a ≠ k := h a (List.mem_append_right l List.mem_cons_self)
    rw [assign_concat, Function.update_of_ne ha.symm]
    exact ih fun b hb => h b (List.mem_append_left [a] hb)

/-- A key has what its items say, if they all say the same. -/
theorem assign_of_mem (hmem : ∃ a ∈ l, key a = k) (h : ∀ a ∈ l, key a = k → f a = v) : assign key l f m k = v := by
  induction l using List.reverseRecOn with
  | nil =>
    obtain ⟨a, ha, -⟩ := hmem
    cases ha
  | append_singleton l a ih =>
    rw [assign_concat]
    by_cases ha : key a = k
    · rw [← ha, Function.update_self]
      exact h a (List.mem_append_right l List.mem_cons_self) ha
    · rw [Function.update_of_ne (Ne.symm ha)]
      obtain ⟨b, hb, hbk⟩ := hmem
      rcases List.mem_append.1 hb with hb | hb
      · exact ih ⟨b, hb, hbk⟩ fun c hc => h c (List.mem_append_left [a] hc)
      · cases List.mem_singleton.1 hb
        exact absurd hbk ha

end patch

section differs
variable {key : α → κ} {value : α → β} {old new : κ → Option α} {added removed : List α}
  {modified : List (α × α)}

namespace Differs

/-- A key that is not in the new map: nothing is added or replaced there. -/
theorem key_ne_of_none (hd : Differs key value old new added removed modified) (hnew : Proper key new) {k : κ}
    (hk : new k = none) : (∀ a ∈ added, key a ≠ k) ∧ ∀ b ∈ modified.map Prod.snd, key b ≠ k := by
  constructor
  · rintro a ha rfl
    rw [((hd.mem_added a).1 ha).1] at hk
    cases hk
  · rintro b hb rfl
    obtain ⟨⟨a, b⟩, hab, rfl⟩ := List.mem_map.1 hb
    obtain ⟨k, -, hb, -⟩ := (hd.mem_modified a b).1 hab
    rw [hnew k b hb, hb] at hk
    cases hk

/-- What is added or replaced at a key is the new item. -/
theorem eq_of_some (hd : Differs key value old new added removed modified) (hnew : Proper key new) {k : κ} {b : α}
    (hk : new k = some b) : (∀ a ∈ added, key a = k → a = b) ∧ ∀ a ∈ modified.map Prod.snd, key a = k → a = b := by
  constructor
  · rintro a ha rfl
    rw [((hd.mem_added a).1 ha).1] at hk
    exact Option.some.inj hk
  · rintro c hc rfl
    obtain ⟨⟨a, c⟩, hac, rfl⟩ := List.mem_map.1 hc
    obtain ⟨k, -, hc, -⟩ := (hd.mem_modified a c).1 hac
    rw [hnew k c hc, hc] at hk
    exact Option.some.inj hk

theorem value_eq (hd : Differs key value old new added removed modified) {k : κ} {a b : α} (ho : old k = some a)
    (hn : new k = some b) (hm : (a, b) ∉ modified) : value a = value b := by
  by_contra hne
  exact hm ((hd.mem_modified a b).2 ⟨k, ho, hn, hne⟩)

/-- What the old map has is not added. -/
theorem ne_of_added (hd : Differs key value old new added removed modified) {k : κ} (ho : old k ≠ none) :
    ∀ a ∈ added, key a ≠ k := by
  rintro a ha rfl
  exact ho ((hd.mem_added a).1 ha).2

/-- What the old map does not have is not removed. -/
theorem ne_of_removed (hd : Differs key value old new added removed modified) {k : κ} (ho : old k = none) :
    ∀ a ∈ removed, key a ≠ k := by
  rintro a ha rfl
  rw [((hd.mem_removed a).1 ha).1] at ho
  cases ho

/-- Nor what the new map has. -/
theorem ne_of_removed_new (hd : Differs key value old new added removed modified) {k : κ} (hn : new k ≠ none) :
    ∀ a ∈ removed, key a ≠ k := by
  rintro a ha rfl
  exact hn ((hd.mem_removed a).1 ha).2

theorem patch_of_none [DecidableEq κ] (hd : Differs key value old new added removed modified) (hold : Proper key old)
    (hnew : Proper key new) {k : κ} (hk : new k = none) :
    patch key value added removed modified (fun k => (old k).map value) k = none := by
  obtain ⟨hadded, hmodified⟩ := hd.key_ne_of_none hnew hk
  unfold patch
  rw [assign_of_ne hmodified, assign_of_ne hadded]
  cases ho : old k with
  | none => simp only [assign_of_ne (hd.ne_of_removed ho), ho, Option.map_none]
  | some a =>
    have ha : key a = k := hold k a ho
    exact assign_of_mem ⟨a, (hd.mem_removed a).2 ⟨ha ▸ ho, ha ▸ hk⟩, ha⟩ fun _ _ _ => rfl

theorem patch_of_some [DecidableEq κ] (hd : Differs key value old new added removed modified) (hnew : Proper key new)
    {k : κ} {b : α} (hk : new k = some b) :
    patch key value added removed modified (fun k => (old k).map value) k = some (value b) := by
  obtain ⟨hadded, hmodified⟩ := hd.eq_of_some hnew hk
  have hb : key b = k := hnew k b hk
  unfold patch
  by_cases hm : ∃ a ∈ modified.map Prod.snd, key a = k
  · exact assign_of_mem hm fun a ha hak => by rw [hmodified a ha hak]
  · have hm' : ∀ a ∈ modified.map Prod.snd, key a ≠ k := fun a ha hak => hm ⟨a, ha, hak⟩
    rw [assign_of_ne hm']
    cases ho : old k with
    | none =>
      refine assign_of_mem ⟨b, (hd.mem_added b).2 ⟨hb ▸ hk, hb ▸ ho⟩, hb⟩ fun a ha hak => ?_
      rw [hadded a ha hak]
    | some a =>
      have hold : old k ≠ none := by simp [ho]
      have hkept : new k ≠ none := by simp [hk]
      have hvalue : value a = value b := hd.value_eq ho hk fun hab => hm' b (List.mem_map.2 ⟨(a, b), hab, rfl⟩) hb
      simp only [assign_of_ne (hd.ne_of_added hold), assign_of_ne (hd.ne_of_removed_new hkept), ho, Option.map_some, hvalue]

/-- **Removing, adding and replacing turns the old map into the new one**, as maps to values. -/
theorem patch_eq [DecidableEq κ] (hd : Differs key value old new added removed modified) (hold : Proper key old)
    (hnew : Proper key new) :
    patch key value added removed modified (fun k => (old k).map value) = fun k => (new k).map value := by
  funext k
  cases hk : new k with
  | none => exact hd.patch_of_none hold hnew hk
  | some b => exact hd.patch_of_some hnew hk

/-- **There is no difference exactly if the maps to values are equal.** -/
theorem empty_iff [DecidableEq κ] (hd : Differs key value old new added removed modified) (hold : Proper key old)
    (hnew : Proper key new) :
    (added = [] ∧ removed = [] ∧ modified = []) ↔ (fun k => (old k).map value) = fun k => (new k).map value := by
  constructor
  · rintro ⟨rfl, rfl, rfl⟩
    exact hd.patch_eq hold hnew
  · intro h
    refine ⟨?_, ?_, ?_⟩
    · refine List.eq_nil_iff_forall_not_mem.2 fun a ha => ?_
      obtain ⟨hn, ho⟩ := (hd.mem_added a).1 ha
      have hk := congrFun h (key a)
      simp [hn, ho] at hk
    · refine List.eq_nil_iff_forall_not_mem.2 fun a ha => ?_
      obtain ⟨ho, hn⟩ := (hd.mem_removed a).1 ha
      have hk := congrFun h (key a)
      simp [hn, ho] at hk
    · refine List.eq_nil_iff_forall_not_mem.2 fun ab hab => ?_
      obtain ⟨k, ho, hn, hne⟩ := (hd.mem_modified ab.1 ab.2).1 hab
      have hk := congrFun h k
      simp only [ho, hn, Option.map_some, Option.some.injEq] at hk
      exact hne hk

/-- **A value of the new map is one of the old map, or comes with an item that is added or replaced.** -/
theorem covered (hd : Differs key value old new added removed modified) (hnew : Proper key new) {k : κ} {b : α}
    (hk : new k = some b) : (∃ k' a, old k' = some a ∧ value a = value b) ∨ b ∈ added ∨ ∃ a, (a, b) ∈ modified := by
  have hb : key b = k := hnew k b hk
  cases ho : old k with
  | none => exact .inr (.inl ((hd.mem_added b).2 ⟨hb ▸ hk, hb ▸ ho⟩))
  | some a =>
    by_cases hvalue : value a = value b
    · exact .inl ⟨k, a, ho, hvalue⟩
    · exact .inr (.inr ⟨a, (hd.mem_modified a b).2 ⟨k, ho, hk, hvalue⟩⟩)

end Differs

end differs

end Keyed
