import Mathlib.Data.List.Basic

/-!
# Expressions in a `SET` clause

`INSERT .. ON CONFLICT .. DO UPDATE SET column = e` computes `e` over two ranges with the same columns: the
row that is there, under the name of the table, and the row that was to be inserted, under `excluded`. A
column reference may leave its range out; it must then fit one range only. References are looked up when the
statement is analysed (`Expr.analyse`), conflict or not; an analysed expression always has a value
(`Term.eval`). All columns are `TEXT NOT NULL`.
-/

namespace Sql

/-- What a name in a statement stands for. -/
structure Range where
  name : String
  columns : List String

/-- An expression as it is written. -/
inductive Expr
  | text (s : String)
  /-- `range.name`, or `name` alone. -/
  | column (range : Option String) (name : String)
  /-- `a || b` -/
  | concat (a b : Expr)
  /-- `CASE WHEN a = '' OR a IS NULL THEN b ELSE c END` -/
  | ifBlank (a b c : Expr)

/-- The same with every reference looked up. -/
inductive Term
  | text (s : String)
  | column (range name : String)
  | concat (a b : Term)
  | ifBlank (a b c : Term)

/-- The ranges a reference may mean. -/
def candidates (ranges : List Range) (range : Option String) (name : String) : List Range :=
  ranges.filter fun r => range.all (· == r.name) && r.columns.contains name

/-- `none` if a reference fits no range or more than one. -/
def Expr.analyse (ranges : List Range) : Expr → Option Term
  | .text s => some (.text s)
  | .column range name =>
    match candidates ranges range name with
    | [r] => some (.column r.name name)
    | _ => none
  | .concat a b => do return .concat (← a.analyse ranges) (← b.analyse ranges)
  | .ifBlank a b c => do return .ifBlank (← a.analyse ranges) (← b.analyse ranges) (← c.analyse ranges)

/-- `value range column`. -/
def Term.eval (value : String → String → String) : Term → String
  | .text s => s
  | .column range name => value range name
  | .concat a b => a.eval value ++ b.eval value
  | .ifBlank a b c => if a.eval value = "" then b.eval value else c.eval value

/-- The two ranges of an upsert. -/
def upsertRanges (table : String) (columns : List String) : List Range := [⟨table, columns⟩, ⟨"excluded", columns⟩]

/-- The columns in them: of the row that is there and of the one to be inserted. -/
def upsertValue (old new : String → String) (range column : String) : String :=
  if range = "excluded" then new column else old column

section
variable {table name : String} {columns : List String}

/-- A reference without a range is ambiguous in an upsert. -/
theorem analyse_unqualified : (Expr.column none name).analyse (upsertRanges table columns) = none := by
  by_cases h : name ∈ columns
  · simp [Expr.analyse, candidates, upsertRanges, h]
  · simp [Expr.analyse, candidates, upsertRanges, h]

theorem analyse_excluded (ht : table ≠ "excluded") (h : name ∈ columns) :
    (Expr.column (some "excluded") name).analyse (upsertRanges table columns) = some (.column "excluded" name) := by
  simp [Expr.analyse, candidates, upsertRanges, h, ht.symm]

theorem analyse_target (ht : table ≠ "excluded") (h : name ∈ columns) :
    (Expr.column (some table) name).analyse (upsertRanges table columns) = some (.column table name) := by
  simp [Expr.analyse, candidates, upsertRanges, h, ht]

theorem analyse_ifBlank {ranges : List Range} {a b c : Expr} {a' b' c' : Term} (ha : a.analyse ranges = some a')
    (hb : b.analyse ranges = some b') (hc : c.analyse ranges = some c') :
    (Expr.ifBlank a b c).analyse ranges = some (.ifBlank a' b' c') := by
  simp [Expr.analyse, ha, hb, hc]

theorem analyse_concat_of_none {ranges : List Range} {a : Expr} (h : a.analyse ranges = none) (b : Expr) :
    (Expr.concat a b).analyse ranges = none := by
  simp [Expr.analyse, h]

end

end Sql
