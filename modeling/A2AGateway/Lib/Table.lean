import Mathlib.Data.List.Pairwise

/-!
# Tables with uniqueness constraints

A table is its rows in insertion order, with the proof that no two of them break a primary-key
or `UNIQUE` constraint; a table that breaks one cannot be written down. The operations are the
`INSERT` forms and `UPDATE` of SQL as single statements.
-/

/-- The uniqueness constraints of a row type: `clash a b` if some constraint forbids the table
to hold `a` and `b` as two rows. -/
class Constraints (α : Type) where
  clash : α → α → Bool
  comm : ∀ a b, clash a b = clash b a

/-- Rows that no constraint forbids together. -/
structure Table (α : Type) [Constraints α] where
  rows : List α
  unique : rows.Pairwise fun a b => Constraints.clash a b = false

namespace Table

open Constraints (clash)

variable {α : Type} [Constraints α]

def empty : Table α := ⟨[], .nil⟩

theorem ext {t t' : Table α} (h : t.rows = t'.rows) : t = t' := by
  cases t; cases t'; cases h; rfl

/-- `SELECT .. WHERE p` of at most one row. -/
def find? (t : Table α) (p : α → Bool) : Option α := t.rows.find? p

/-- No row of the table stands against `r`. -/
def admits (t : Table α) (r : α) : Bool := t.rows.all fun x => !clash x r

theorem admits_iff {t : Table α} {r : α} :
    t.admits r = true ↔ ∀ x ∈ t.rows, clash x r = false := by
  simp [admits]

/-- `INSERT`: `none` if a constraint rejects the row. -/
def insert (t : Table α) (r : α) : Option (Table α) :=
  if h : t.admits r = true then
    some ⟨t.rows ++ [r], List.pairwise_append.2 ⟨t.unique, List.pairwise_singleton _ _,
      fun a ha _ hb => List.mem_singleton.1 hb ▸ admits_iff.1 h a ha⟩⟩
  else none

/-- `INSERT .. ON CONFLICT DO NOTHING`. -/
def insertIgnore (t : Table α) (r : α) : Table α := (t.insert r).getD t

/-- `UPDATE .. SET f WHERE p`, for an `f` that leaves the constrained columns alone. -/
def update (t : Table α) (p : α → Bool) (f : α → α) (hf : ∀ a b, clash (f a) b = clash a b) :
    Table α where
  rows := t.rows.map fun a => if p a then f a else a
  unique := by
    have hf' : ∀ a b, clash a (f b) = clash a b := fun a b => by
      rw [Constraints.comm, hf, Constraints.comm]
    refine List.pairwise_map.2 (t.unique.imp fun {a b} h => ?_)
    by_cases ha : p a <;> by_cases hb : p b <;> simp [ha, hb, hf, hf', h]

/-- `INSERT .. ON CONFLICT (..) DO UPDATE SET f`. -/
def upsert (t : Table α) (r : α) (f : α → α) (hf : ∀ a b, clash (f a) b = clash a b) : Table α :=
  (t.insert r).getD (t.update (clash · r) f hf)

@[simp] theorem rows_empty : (empty : Table α).rows = [] := rfl

/-- Two rows of one table that a constraint keeps apart are the same row. -/
theorem eq_of_clash (t : Table α) {x y : α} (hx : x ∈ t.rows) (hy : y ∈ t.rows)
    (h : clash x y = true) : x = y := by
  by_contra hne
  have hs : Std.Symm fun a b : α => clash a b = false := ⟨fun a b hab => by rw [Constraints.comm, hab]⟩
  have := t.unique.forall hx hy hne
  simp [h] at this

theorem insert_eq_some {t t' : Table α} {r : α} :
    t.insert r = some t' ↔ (∀ x ∈ t.rows, clash x r = false) ∧ t'.rows = t.rows ++ [r] := by
  unfold insert
  split
  · rename_i h
    simp only [Option.some.injEq]
    refine ⟨?_, fun h' => ext h'.2.symm⟩
    rintro rfl
    exact ⟨admits_iff.1 h, rfl⟩
  · rename_i h
    simp only [reduceCtorEq, false_iff, not_and]
    exact fun h' => absurd (admits_iff.2 h') h

theorem mem_of_insert {t t' : Table α} {r : α} (h : t.insert r = some t') : r ∈ t'.rows := by
  rw [(insert_eq_some.1 h).2]
  exact List.mem_append_right _ (List.mem_singleton_self r)

theorem insert_eq_none {t : Table α} {r : α} :
    t.insert r = none ↔ ∃ x ∈ t.rows, clash x r = true := by
  unfold insert
  split
  · rename_i h
    have := admits_iff.1 h
    simp only [reduceCtorEq, false_iff, not_exists, not_and]
    exact fun x hx hc => by simp [this x hx] at hc
  · rename_i h
    simpa [admits] using h

/-- The row went in, or it was already refused and nothing changed. -/
theorem rows_insertIgnore (t : Table α) (r : α) :
    (t.insertIgnore r).rows = t.rows ∧ (∃ x ∈ t.rows, clash x r = true) ∨
      (t.insertIgnore r).rows = t.rows ++ [r] ∧ ∀ x ∈ t.rows, clash x r = false := by
  unfold insertIgnore
  cases h : t.insert r with
  | none => exact Or.inl ⟨rfl, insert_eq_none.1 h⟩
  | some t' => exact Or.inr ⟨(insert_eq_some.1 h).2, (insert_eq_some.1 h).1⟩

theorem mem_of_insertIgnore {t : Table α} {r x : α} (h : x ∈ (t.insertIgnore r).rows) : x ∈ t.rows ∨ x = r := by
  rcases t.rows_insertIgnore r with ⟨hrows, -⟩ | ⟨hrows, -⟩
  · exact Or.inl (hrows ▸ h)
  · rw [hrows, List.mem_append, List.mem_singleton] at h
    exact h

/-- A row that stands against the new one leaves the table as it is. -/
theorem insertIgnore_of_clash {t : Table α} {r x : α} (hx : x ∈ t.rows) (h : clash x r = true) : t.insertIgnore r = t := by
  rw [insertIgnore, insert_eq_none.2 ⟨x, hx, h⟩]
  rfl

/-- A lookup after `INSERT` finds what it found before, or else the new row. -/
theorem find?_of_rows_append {t t' : Table α} {r : α} {p : α → Bool}
    (h : t'.rows = t.rows ++ [r]) :
    t'.find? p = (t.find? p).or (if p r then some r else none) := by
  simp only [find?, h, List.find?_append, List.find?_singleton]

theorem find?_eq_some_of_mem {t : Table α} {p : α → Bool} {x : α} (hx : x ∈ t.rows)
    (hp : p x = true) (hc : ∀ y ∈ t.rows, p y = true → clash y x = true) :
    t.find? p = some x := by
  cases h : t.find? p with
  | none => exact absurd hp (by simpa using List.find?_eq_none.1 h x hx)
  | some y =>
    have hy := List.mem_of_find?_eq_some h
    rw [t.eq_of_clash hy hx (hc y hy (List.find?_some h))]

theorem mem_of_find? {t : Table α} {p : α → Bool} {x : α} (h : t.find? p = some x) :
    x ∈ t.rows := List.mem_of_find?_eq_some h

theorem prop_of_find? {t : Table α} {p : α → Bool} {x : α} (h : t.find? p = some x) :
    p x = true := List.find?_some (p := p) h

/-- A lookup that the update does not disturb finds the row it found before, updated if it was concerned. -/
theorem find?_update_where {t : Table α} {p q : α → Bool} {f : α → α} {hf : ∀ a b, clash (f a) b = clash a b}
    (hq : ∀ a, q (f a) = q a) : (t.update p f hf).find? q = (t.find? q).map fun a => if p a then f a else a := by
  have hkept : (q ∘ fun a => if p a then f a else a) = q := by
    funext a
    by_cases ha : p a = true
    · simp [ha, hq]
    · simp [ha]
  simp only [find?, update, List.find?_map, hkept]

/-- Looked up by its own key, an updated row is the old one updated. -/
theorem find?_update {t : Table α} {q : α → Bool} {f : α → α} {hf : ∀ a b, clash (f a) b = clash a b}
    (hq : ∀ a, q (f a) = q a) : (t.update q f hf).find? q = (t.find? q).map f := by
  rw [find?_update_where hq]
  cases h : t.find? q with
  | none => rfl
  | some a => simp [prop_of_find? h]

/-- `INSERT .. ON CONFLICT DO UPDATE` leaves the rows that satisfy `q` alone if the inserted row
and the rows it updates do not. -/
theorem filter_upsert {t : Table α} {r : α} {f : α → α} {hf : ∀ a b, clash (f a) b = clash a b}
    {q : α → Bool} (hr : q r = false)
    (hq : ∀ x ∈ t.rows, clash x r = true → q x = false ∧ q (f x) = false) :
    (t.upsert r f hf).rows.filter q = t.rows.filter q := by
  unfold upsert
  cases h : t.insert r with
  | some t' =>
    simp only [Option.getD_some]
    rw [(insert_eq_some.1 h).2, List.filter_append]
    simp [hr]
  | none =>
    simp only [Option.getD_none, update]
    have : ∀ l : List α, (∀ x ∈ l, clash x r = true → q x = false ∧ q (f x) = false) →
        (l.map fun a => if clash a r then f a else a).filter q = l.filter q := by
      intro l
      induction l with
      | nil => simp
      | cons a l ih =>
        intro hl
        have ih' := ih fun x hx => hl x (by simp [hx])
        by_cases hc : clash a r = true
        · obtain ⟨h1, h2⟩ := hl a (by simp) hc
          simp [hc, h1, h2, ih']
        · simp [hc, List.filter_cons, ih']
    exact this t.rows hq

theorem find?_upsert_of_ne {t : Table α} {r : α} {f : α → α}
    {hf : ∀ a b, clash (f a) b = clash a b} {q : α → Bool} (hr : q r = false)
    (hq : ∀ x ∈ t.rows, clash x r = true → q x = false ∧ q (f x) = false) :
    (t.upsert r f hf).find? q = t.find? q := by
  simp only [find?, ← List.head?_filter, filter_upsert hr hq]

/-- Looked up by its own key, the upserted row is the old one updated, or else the new one. -/
theorem find?_upsert_self {t : Table α} {r : α} {f : α → α}
    {hf : ∀ a b, clash (f a) b = clash a b} {q : α → Bool} (hr : q r = true)
    (hq : ∀ x, q x = clash x r) :
    (t.upsert r f hf).find? q = some ((t.find? q).elim r f) := by
  unfold upsert
  cases h : t.insert r with
  | some t' =>
    obtain ⟨hc, hrows⟩ := insert_eq_some.1 h
    have hn : t.find? q = none := List.find?_eq_none.2 fun x hx => by simp [hq, hc x hx]
    rw [Option.getD_some, find?_of_rows_append hrows, hn]
    simp [hr]
  | none =>
    have hqf : ∀ x, q (f x) = q x := fun x => by rw [hq, hq, hf]
    have hmap : ∀ l : List α, (∃ x ∈ l, q x = true) →
        (l.map fun a => if clash a r then f a else a).find? q = some ((l.find? q).elim r f) := by
      intro l
      induction l with
      | nil => simp
      | cons a l ih =>
        intro hl
        by_cases ha : q a = true
        · have hca : clash a r = true := hq a ▸ ha
          simp [hca, hqf, ha]
        · have hca : ¬ clash a r = true := hq a ▸ ha
          have hl' : ∃ x ∈ l, q x = true := by simpa [ha] using hl
          simp only [List.map_cons, if_neg hca, List.find?_cons_of_neg ha, ih hl']
    obtain ⟨x, hx, hxc⟩ := insert_eq_none.1 h
    exact hmap t.rows ⟨x, hx, (hq x).trans hxc⟩

/-! ## Serial columns -/

/-- The next value of a `BIGSERIAL` column: above all that are there, and further on by the values that failed
statements have used up. -/
def serial (ids : List Int) (skipped : Nat) : Option Int :=
  let id := ids.foldr max 0 + 1 + skipped
  if id ≤ 0x7FFFFFFFFFFFFFFF then some id else none

end Table
