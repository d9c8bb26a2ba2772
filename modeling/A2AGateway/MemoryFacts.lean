import A2AGateway.Lib.Keyed
import A2AGateway.Lib.Sorting
import A2AGateway.World

/-!
# The facts that agents store (`memory_service.rs`)

| here | there |
| --- | --- |
| `MemoryFact`               | `memory_service.rs:15-24`; `.ofRow` is `memory_service.rs:207-220` |
| `store`, `expire`          | `memory_service.rs:45-75`, `185-193` |
| `recall`, `recallAll`      | `memory_service.rs:80-181` |
| `Condition`, `Select`      | the `SELECT * FROM memory_facts` statements, with their `$n` |

"Facts are stored exactly as provided — never summarized, truncated, or merged." What is to be recalled can be
told from the calls alone: the facts that have been stored and not expired since (`live`). Each of the four
queries of `recall` yields the newest of them, as many as it may (`recall_meets_spec`).

In which order the rows of one instant come out is not said; it is a parameter.
-/

namespace A2AGateway

open Gw

structure MemoryFact where
  id : Int
  agentName : String
  projectId : Option String
  topic : String
  content : String
  createdAt : F64
  validFrom : F64
  validTo : Option F64
deriving DecidableEq

def MemoryFact.ofRow (r : MemoryFactRow) : MemoryFact where
  id := r.id
  agentName := r.agentName
  projectId := r.projectId
  topic := r.topic
  content := r.content
  createdAt := r.createdAt
  validFrom := r.validFrom
  validTo := r.validTo

/-! ## Queries with parameters -/

/-- A value that is bound to a parameter. -/
inductive Bound
  | text (s : String)
  | float (x : F64)
  | int (n : Int)

/-- A conjunct of `WHERE`, with the number of its parameter. -/
inductive Condition
  | agentName (n : Nat)
  | projectId (n : Nat)
  | topic (n : Nat)
  /-- `valid_to IS NULL OR valid_to > $n` -/
  | unexpired (n : Nat)

/-- `$n`, counted from 1. -/
def param (params : List Bound) : Nat → Option Bound
  | 0 => none
  | n + 1 => params[n]?

/-- `none` if the parameter is of another type than the column. A NULL equals nothing. -/
def Condition.resolve (params : List Bound) : Condition → Option (MemoryFactRow → Bool)
  | agentName n =>
    match param params n with
    | some (.text s) => some fun r => r.agentName == s
    | _ => none
  | projectId n =>
    match param params n with
    | some (.text s) => some fun r => r.projectId == some s
    | _ => none
  | topic n =>
    match param params n with
    | some (.text s) => some fun r => r.topic == s
    | _ => none
  | unexpired n =>
    match param params n with
    | some (.float x) => some fun r => r.validTo.all x.lt
    | _ => none

/-- `SELECT * FROM memory_facts WHERE .. ORDER BY created_at DESC`, with the parameter of its `LIMIT`. -/
structure Select where
  conditions : List Condition
  limit : Option Nat

/-- Rows of one instant come out as they have been arranged. -/
def newestFirst (order : Keyed.Iteration MemoryFactRow) (rows : List MemoryFactRow) : List MemoryFactRow :=
  (order.arrange rows).insertionSort fun a b => b.createdAt.le a.createdAt = true

/-- The database refuses a parameter of the wrong type and a negative limit. -/
def Select.run (s : Select) (order : Keyed.Iteration MemoryFactRow) (params : List Bound) (db : Db) :
    Option (List MemoryFactRow) := do
  let tests ← s.conditions.mapM (·.resolve params)
  let rows := newestFirst order (db.memoryFacts.rows.filter fun r => tests.all (· r))
  match s.limit with
  | none => some rows
  | some n =>
    match param params n with
    | some (.int k) => if 0 ≤ k then some (rows.take k.toNat) else none
    | _ => none

/-! ## The service -/

namespace MemoryService

/-- The arguments of `store`. -/
structure StoreArgs where
  agentName : String
  content : String
  projectId : Option String
  topic : String

/-- A fact as it is handed back. -/
def StoreArgs.fact (a : StoreArgs) (id : Int) (now : F64) : MemoryFact where
  id := id
  agentName := a.agentName
  projectId := a.projectId
  topic := a.topic
  content := a.content
  createdAt := now
  validFrom := now
  validTo := none

def insertFact (a : StoreArgs) (now : F64) (skipped : Nat) (db : Db) : Option (Int × Db) := do
  let id ← Table.serial (db.memoryFacts.rows.map (·.id)) skipped
  let memoryFacts ← db.memoryFacts.insert {
    id
    agentName := a.agentName
    projectId := a.projectId
    topic := a.topic
    content := a.content
    createdAt := now
    validFrom := now
    validTo := none }
  if db.hasAgent a.agentName then some (id, { db with memoryFacts }) else none

/-- `skipped` counts the ids that failed attempts have used up. -/
def store (a : StoreArgs) (skipped : Nat) : Gw MemoryFact := do
  let now ← nowSecs
  let id ← statement (.msg "insert memory fact") fun _ db => insertFact a now skipped db
  return a.fact id now

def expireRow (id : Int) (now : F64) (db : Db) : Db :=
  { db with memoryFacts := db.memoryFacts.update (·.id == id) (fun r => { r with validTo := some now }) fun _ _ => rfl }

def expire (id : Int) : Gw Unit := do
  let now ← nowSecs
  execute (.msg "expire memory fact") fun _ db => some (expireRow id now db)

def fetchAll (order : Keyed.Iteration MemoryFactRow) (s : Select) (params : List Bound) (context : String) :
    Gw (List MemoryFactRow) :=
  statement (.msg context) fun _ db => (s.run order params db).map (·, db)

/-- `limit as i64` -/
def asI64 (limit : Nat) : Int := (BitVec.ofNat 64 limit).toInt

end MemoryService

section
variable (order : Keyed.Iteration MemoryFactRow)

def MemoryService.recall (agentName : String) (projectId topic : Option String) (limit : Nat) : Gw (List MemoryFact) := do
  let now ← nowSecs
  let rows ←
    match projectId, topic with
    | some pid, some t =>
      fetchAll order ⟨[.agentName 1, .projectId 2, .topic 3, .unexpired 4], some 5⟩
        [.text agentName, .text pid, .text t, .float now, .int (asI64 limit)] "recall(project+topic)"
    | some pid, none =>
      fetchAll order ⟨[.agentName 1, .projectId 2, .unexpired 3], some 4⟩
        [.text agentName, .text pid, .float now, .int (asI64 limit)] "recall(project)"
    | none, some t =>
      fetchAll order ⟨[.agentName 1, .topic 2, .unexpired 3], some 4⟩
        [.text agentName, .text t, .float now, .int (asI64 limit)] "recall(topic)"
    | none, none =>
      fetchAll order ⟨[.agentName 1, .unexpired 2], some 3⟩
        [.text agentName, .float now, .int (asI64 limit)] "recall(all)"
  return rows.map MemoryFact.ofRow

def MemoryService.recallAll (agentName : String) : Gw (List MemoryFact) := do
  let now ← nowSecs
  let rows ← fetchAll order ⟨[.agentName 1, .unexpired 2], none⟩ [.text agentName, .float now] "recall_all"
  return rows.map MemoryFact.ofRow

end

/-! ## What is to be recalled -/

open MemoryService

/-- A call that has succeeded. -/
inductive MemoryChange
  | stored (a : StoreArgs) (id : Int) (now : F64)
  | expired (id : Int)

def MemoryChange.apply (facts : List MemoryFact) : MemoryChange → List MemoryFact
  | stored a id now => facts ++ [a.fact id now]
  | expired id => facts.filter fun f => f.id ≠ id

/-- The facts stored and not expired since. -/
def live (changes : List MemoryChange) : List MemoryFact := changes.foldl MemoryChange.apply []

/-- What the caller knows of its call. -/
def storedBy (a : StoreArgs) (now : F64) : Except Err MemoryFact → List MemoryChange
  | .ok f => [.stored a f.id now]
  | .error _ => []

def expiredBy (id : Int) : Except Err Unit → List MemoryChange
  | .ok _ => [.expired id]
  | .error _ => []

/-- Runs from an empty table. Between the calls anything may happen but to the facts, and the clock may not go
back. -/
inductive Remembers : World → List MemoryChange → Prop
  | start {w : World} (h : w.db.memoryFacts = .empty) : Remembers w []
  | store {w : World} {changes : List MemoryChange} (a : StoreArgs) (skipped : Nat) (h : Remembers w changes) :
      Remembers ((MemoryService.store a skipped).exec w).2
        (changes ++ storedBy a w.now ((MemoryService.store a skipped).exec w).1)
  | expire {w : World} {changes : List MemoryChange} (id : Int) (h : Remembers w changes) :
      Remembers ((MemoryService.expire id).exec w).2 (changes ++ expiredBy id ((MemoryService.expire id).exec w).1)
  | elsewhere {w w' : World} {changes : List MemoryChange} (h : Remembers w changes)
      (hfacts : w'.db.memoryFacts = w.db.memoryFacts) (hnow : w.now.le w'.now = true) : Remembers w' changes

/-- The fact is of the agent, and passes the filters there are. -/
def MemoryFact.fits (agentName : String) (projectId topic : Option String) (f : MemoryFact) : Bool :=
  f.agentName == agentName && projectId.all (fun p => f.projectId == some p) && topic.all (f.topic == ·)

/-- `a` is not older than `b`. -/
def MemoryFact.NotOlder (a b : MemoryFact) : Prop := b.createdAt.le a.createdAt = true

/-! ## What the queries yield -/

section
variable {order : Keyed.Iteration MemoryFactRow} {w w' : World} {agentName : String} {projectId topic : Option String}
  {limit : Nat}

/-- The row is current at the time, and its fact fits. -/
def rowFits (agentName : String) (projectId topic : Option String) (now : F64) (r : MemoryFactRow) : Bool :=
  (MemoryFact.ofRow r).fits agentName projectId topic && r.validTo.all now.lt

theorem asI64_of_lt (h : limit < 2 ^ 63) : asI64 limit = limit := by
  simp only [asI64, BitVec.toInt_ofNat']
  exact Int.bmod_eq_of_le (by omega) (by omega)

theorem exec_fetched {s : Select} {params : List Bound} {context : String} {rows : List MemoryFactRow} (hp : Passes w)
    (h : s.run order params w.db = some rows) :
    ((fetchAll order s params context).bind fun rows => Prog.ret (rows.map MemoryFact.ofRow)).exec w =
      (.ok (rows.map MemoryFact.ofRow), w.tick) :=
  Prog.exec_bind_of_ok (exec_statement_iff.2 ⟨hp, w.db, by simp [h], rfl⟩)

/-- The rows that are current at the time and fit, newest first. -/
def fitting (order : Keyed.Iteration MemoryFactRow) (agentName : String) (projectId topic : Option String) (now : F64)
    (db : Db) : List MemoryFactRow :=
  newestFirst order (db.memoryFacts.rows.filter (rowFits agentName projectId topic now))

section
variable (agentName projectId topic) {s : Select} {params : List Bound} {tests : List (MemoryFactRow → Bool)} (now : F64)
  {db : Db} (htests : s.conditions.mapM (·.resolve params) = some tests)
  (hfits : ∀ r, tests.all (· r) = rowFits agentName projectId topic now r)
include htests hfits

theorem run_unlimited (hlimit : s.limit = none) :
    s.run order params db = some (fitting order agentName projectId topic now db) := by
  simp [Select.run, fitting, htests, hfits, hlimit]

theorem run_limited {n : Nat} (hn : s.limit = some n) (hparam : param params n = some (.int (asI64 limit)))
    (hlimit : limit < 2 ^ 63) :
    s.run order params db = some ((fitting order agentName projectId topic now db).take limit) := by
  rw [asI64_of_lt hlimit] at hparam
  simp [Select.run, fitting, htests, hfits, hn, hparam]

end

/-- **Each of the four queries yields the newest of the rows that are current and fit.** -/
theorem exec_recall (hp : Passes w) (hlimit : limit < 2 ^ 63) :
    (MemoryService.recall order agentName projectId topic limit).exec w =
      (.ok (((fitting order agentName projectId topic w.now w.db).take limit).map MemoryFact.ofRow), w.tick) := by
  simp only [MemoryService.recall, nowSecs, Prog.bind_eq, Prog.pure_eq]
  rw [Prog.exec_bind_of_ok (Prog.exec_look _ _)]
  cases projectId with
  | none =>
    cases topic with
    | none =>
      exact exec_fetched hp <| run_limited agentName none none w.now rfl
        (fun r => by simp [rowFits, MemoryFact.fits, MemoryFact.ofRow]) rfl rfl hlimit
    | some t =>
      exact exec_fetched hp <| run_limited agentName none (some t) w.now rfl
        (fun r => by simp [rowFits, MemoryFact.fits, MemoryFact.ofRow, Bool.and_assoc]) rfl rfl hlimit
  | some pid =>
    cases topic with
    | none =>
      exact exec_fetched hp <| run_limited agentName (some pid) none w.now rfl
        (fun r => by simp [rowFits, MemoryFact.fits, MemoryFact.ofRow, Bool.and_assoc]) rfl rfl hlimit
    | some t =>
      exact exec_fetched hp <| run_limited agentName (some pid) (some t) w.now rfl
        (fun r => by simp [rowFits, MemoryFact.fits, MemoryFact.ofRow, Bool.and_assoc]) rfl rfl hlimit

theorem exec_recallAll (hp : Passes w) :
    (recallAll order agentName).exec w =
      (.ok ((fitting order agentName none none w.now w.db).map MemoryFact.ofRow), w.tick) := by
  simp only [recallAll, nowSecs, Prog.bind_eq, Prog.pure_eq]
  rw [Prog.exec_bind_of_ok (Prog.exec_look _ _)]
  exact exec_fetched hp <| run_unlimited agentName none none w.now rfl
    (fun r => by simp [rowFits, MemoryFact.fits, MemoryFact.ofRow]) rfl

/-- A recall comes back exactly if the database answers. -/
theorem passes_of_recall {facts : List MemoryFact}
    (h : (MemoryService.recall order agentName projectId topic limit).exec w = (.ok facts, w')) : Passes w := by
  by_contra hp
  simp only [MemoryService.recall, nowSecs, Prog.bind_eq] at h
  rw [Prog.exec_bind_of_ok (Prog.exec_look _ _)] at h
  cases projectId <;> cases topic <;>
    simp [fetchAll, Prog.exec_bind, exec_statement_of_not_passes hp] at h

theorem passes_of_recallAll {facts : List MemoryFact} (h : (recallAll order agentName).exec w = (.ok facts, w')) :
    Passes w := by
  by_contra hp
  simp only [recallAll, nowSecs, Prog.bind_eq] at h
  rw [Prog.exec_bind_of_ok (Prog.exec_look _ _)] at h
  simp [fetchAll, Prog.exec_bind, exec_statement_of_not_passes hp] at h

end

/-! ## What the table holds -/

section
variable {w w' : World} {changes : List MemoryChange} {db db' : Db}

/-- The rows without an end are the facts to be recalled, in the order of their calls; the others have ended. -/
structure Holds (w : World) (changes : List MemoryChange) : Prop where
  current : (w.db.memoryFacts.rows.filter fun r => r.validTo.isNone).map MemoryFact.ofRow = live changes
  ended : ∀ r ∈ w.db.memoryFacts.rows, ∀ t, r.validTo = some t → t.le w.now = true

theorem rows_insertFact {a : StoreArgs} {now : F64} {skipped : Nat} {id : Int}
    (h : insertFact a now skipped db = some (id, db')) :
    ∃ r, db'.memoryFacts.rows = db.memoryFacts.rows ++ [r] ∧ r.validTo = none ∧ MemoryFact.ofRow r = a.fact id now := by
  simp only [insertFact, Option.bind_eq_bind, Option.bind_eq_some_iff] at h
  obtain ⟨id', -, facts, hfacts, h⟩ := h
  split at h <;> cases h
  exact ⟨_, (Table.insert_eq_some.1 hfacts).2, rfl, rfl⟩

theorem exec_store_cases (a : StoreArgs) (skipped : Nat) (w : World) :
    (∃ e, (MemoryService.store a skipped).exec w = (.error e, w.tick)) ∨
      ∃ id db, insertFact a w.now skipped w.db = some (id, db) ∧
        (MemoryService.store a skipped).exec w = (.ok (a.fact id w.now), { w.tick with db }) := by
  simp only [MemoryService.store, nowSecs, Prog.bind_eq]
  rw [Prog.exec_bind_of_ok (Prog.exec_look _ _)]
  rcases exec_statement_cases (.msg "insert memory fact") (fun _ db => insertFact a w.now skipped db) w with
    h | ⟨id, db, hins, h⟩
  · exact .inl ⟨_, by rw [Prog.exec_bind, h]⟩
  · exact .inr ⟨id, db, hins, by rw [Prog.exec_bind_of_ok h]; rfl⟩

theorem exec_expire_cases (id : Int) (w : World) :
    (∃ e, (MemoryService.expire id).exec w = (.error e, w.tick)) ∨
      (MemoryService.expire id).exec w = (.ok (), { w.tick with db := expireRow id w.now w.db }) := by
  simp only [MemoryService.expire, nowSecs, Prog.bind_eq]
  rw [Prog.exec_bind_of_ok (Prog.exec_look _ _)]
  by_cases hp : Passes w
  · exact .inr (exec_execute_iff.2 ⟨hp, _, rfl, rfl⟩)
  · exact .inl ⟨_, exec_statement_of_not_passes hp⟩

/-- An expired row ends now, and its fact is no longer among those to be recalled. -/
theorem current_expireRow (id : Int) (now : F64) (db : Db) :
    (((expireRow id now db).memoryFacts.rows.filter fun r => r.validTo.isNone).map MemoryFact.ofRow) =
      ((db.memoryFacts.rows.filter fun r => r.validTo.isNone).map MemoryFact.ofRow).filter fun f => f.id ≠ id := by
  simp only [expireRow, Table.update, beq_iff_eq, ne_eq, decide_not]
  induction db.memoryFacts.rows with
  | nil => rfl
  | cons r rows ih =>
    by_cases hid : r.id = id
    · cases hto : r.validTo <;> simp [hid, hto, ih, MemoryFact.ofRow]
    · cases hto : r.validTo <;> simp [hid, hto, ih, MemoryFact.ofRow]

theorem live_concat (changes : List MemoryChange) (c : MemoryChange) : live (changes ++ [c]) = c.apply (live changes) := by
  simp [live]

/-! ### One call -/

theorem Holds.store (h : Holds w changes) (a : StoreArgs) (skipped : Nat) :
    Holds ((MemoryService.store a skipped).exec w).2
      (changes ++ storedBy a w.now ((MemoryService.store a skipped).exec w).1) := by
  rcases exec_store_cases a skipped w with ⟨e, hrun⟩ | ⟨id, db, hins, hrun⟩
  · rw [hrun, storedBy, List.append_nil]
    exact ⟨h.current, h.ended⟩
  · obtain ⟨r, hrows, hopen, hfact⟩ := rows_insertFact hins
    rw [hrun]
    constructor
    case current =>
      simp only [storedBy, live_concat, MemoryChange.apply]
      rw [hrows, ← h.current]
      simp [hopen, hfact, StoreArgs.fact]
    case ended =>
      intro r' hr' t ht
      simp only [hrows] at hr'
      rcases List.mem_append.1 hr' with hr' | hr'
      · exact h.ended r' hr' t ht
      · rw [List.mem_singleton.1 hr', hopen] at ht
        cases ht

theorem Holds.expire (h : Holds w changes) (id : Int) :
    Holds ((MemoryService.expire id).exec w).2 (changes ++ expiredBy id ((MemoryService.expire id).exec w).1) := by
  rcases exec_expire_cases id w with ⟨e, hrun⟩ | hrun
  · rw [hrun, expiredBy, List.append_nil]
    exact ⟨h.current, h.ended⟩
  · rw [hrun]
    constructor
    case current =>
      simp only [expiredBy, live_concat, MemoryChange.apply]
      rw [current_expireRow, h.current]
    case ended =>
      intro r' hr' t ht
      obtain ⟨r, hr, rfl⟩ := List.mem_map.1 hr'
      by_cases hid : r.id = id
      · simp only [hid, beq_self_eq_true, if_true, Option.some.injEq] at ht
        rw [← ht]
        exact or_self_iff.1 (F64.le_total w.now w.now)
      · simp only [beq_iff_eq, hid, if_false] at ht
        exact h.ended r hr t ht

/-- **In every run the table holds what is to be recalled.** -/
theorem Remembers.holds (h : Remembers w changes) : Holds w changes := by
  induction h with
  | start hempty => exact ⟨by simp [hempty, live], by simp [hempty]⟩
  | store a skipped _ ih => exact ih.store a skipped
  | expire id _ ih => exact ih.expire id
  | elsewhere _ hfacts hnow ih =>
    refine ⟨by rw [hfacts, ih.current], fun r hr t ht => ?_⟩
    rw [hfacts] at hr
    exact F64.le_trans (ih.ended r hr t ht) hnow

/-! ## What is recalled -/

variable {order : Keyed.Iteration MemoryFactRow} {agentName : String} {projectId topic : Option String} {limit : Nat}

/-- What is to be recalled under the filters. -/
def wanted (changes : List MemoryChange) (agentName : String) (projectId topic : Option String) : List MemoryFact :=
  (live changes).filter (MemoryFact.fits agentName projectId topic)

/-- Each fact once, and the newest of those wanted. -/
structure Recalled (changes : List MemoryChange) (agentName : String) (projectId topic : Option String) (limit : Nat)
    (facts : List MemoryFact) : Prop where
  once : facts.Nodup
  newest : Sorting.Leading MemoryFact.NotOlder limit (wanted changes agentName projectId topic) facts

theorem Holds.wanted_eq (h : Holds w changes) (agentName : String) (projectId topic : Option String) :
    (w.db.memoryFacts.rows.filter (rowFits agentName projectId topic w.now)).map MemoryFact.ofRow =
      wanted changes agentName projectId topic := by
  rw [wanted, ← h.current, List.filter_map, List.filter_filter]
  congr 1
  refine List.filter_congr fun r hr => ?_
  cases hto : r.validTo with
  | none => simp [rowFits, hto]
  | some t =>
    have hended := h.ended r hr t hto
    simp [rowFits, hto, F64.lt, hended]

theorem Holds.nodup_wanted (h : Holds w changes) : (wanted changes agentName projectId topic).Nodup := by
  rw [← h.wanted_eq]
  refine List.Nodup.map_on (fun a ha b hb hab => ?_) (List.Nodup.filter _ ?_)
  · refine Table.eq_of_clash _ (List.mem_filter.1 ha).1 (List.mem_filter.1 hb).1 ?_
    simpa [Constraints.clash, MemoryFact.ofRow] using congrArg MemoryFact.id hab
  · refine w.db.memoryFacts.unique.imp ?_
    rintro a b hclash rfl
    simp [Constraints.clash] at hclash

variable (order agentName projectId topic) in
/-- What a query has fetched is the whole of what is wanted, newest first. -/
theorem Holds.fetched (h : Holds w changes) :
    ((fitting order agentName projectId topic w.now w.db).map MemoryFact.ofRow).Pairwise MemoryFact.NotOlder ∧
      ((fitting order agentName projectId topic w.now w.db).map MemoryFact.ofRow).Perm
        (wanted changes agentName projectId topic) := by
  have htotal : Std.Total fun a b : MemoryFactRow => b.createdAt.le a.createdAt = true :=
    ⟨fun a b => F64.le_total b.createdAt a.createdAt⟩
  have htrans : IsTrans MemoryFactRow fun a b => b.createdAt.le a.createdAt = true :=
    ⟨fun _ _ _ hab hbc => F64.le_trans hbc hab⟩
  have hsorted : (fitting order agentName projectId topic w.now w.db).Pairwise
      fun a b => b.createdAt.le a.createdAt = true := List.pairwise_insertionSort _ _
  refine ⟨List.pairwise_map.2 hsorted, ?_⟩
  rw [← h.wanted_eq]
  exact ((List.perm_insertionSort _ _).trans (order.perm _)).map _

/-- **On every filter path `recall` meets its specification, and without filters and with room for all of them
it recalls what `recall_all` does.** -/
theorem recall_meets_spec (h : Remembers w changes) :
    (∀ order agentName projectId topic limit, limit < 2 ^ 63 →
      (Passes w → ∃ facts, (MemoryService.recall order agentName projectId topic limit).exec w = (.ok facts, w.tick)) ∧
        ∀ facts w', (MemoryService.recall order agentName projectId topic limit).exec w = (.ok facts, w') →
          Recalled changes agentName projectId topic limit facts) ∧
      ∀ order order' agentName limit, limit < 2 ^ 63 → (wanted changes agentName none none).length ≤ limit →
        ∀ facts all w₁ w₂, (MemoryService.recall order agentName none none limit).exec w = (.ok facts, w₁) →
          (recallAll order' agentName).exec w = (.ok all, w₂) → facts.Perm all := by
  have hrecalled : ∀ order agentName projectId topic limit, limit < 2 ^ 63 → ∀ facts w',
      (MemoryService.recall order agentName projectId topic limit).exec w = (.ok facts, w') →
        Recalled changes agentName projectId topic limit facts := by
    intro order agentName projectId topic limit hlimit facts w' hrun
    rw [exec_recall (passes_of_recall hrun) hlimit] at hrun
    cases hrun
    obtain ⟨hsorted, hperm⟩ := h.holds.fetched order agentName projectId topic
    rw [List.map_take]
    have hleading := Sorting.leading_take (k := limit) hsorted hperm
    exact ⟨hleading.nodup h.holds.nodup_wanted, hleading⟩
  refine ⟨fun order agentName projectId topic limit hlimit => ?_, ?_⟩
  · exact ⟨fun hp => ⟨_, exec_recall hp hlimit⟩, hrecalled order agentName projectId topic limit hlimit⟩
  · intro order order' agentName limit hlimit hroom facts all w₁ w₂ hrun hall
    rw [exec_recallAll (passes_of_recallAll hall)] at hall
    cases hall
    exact ((hrecalled order agentName none none limit hlimit facts w₁ hrun).newest.perm hroom).trans
      (h.holds.fetched order' agentName none none).2.symm

end

/-! ## Two facts, one of them expired -/

namespace DemoFacts

def world : World :=
  { World.fresh with
    now := .fin 1000
    db := { Db.empty with
      agents := Table.empty.insertIgnore ⟨"agent-a", "0.1.0", "http://agent-a:8080", "[]", "", none, "2026-01-01T00:00:00Z"⟩ } }

def first : StoreArgs := ⟨"agent-a", "Rust is great", none, "lang"⟩

def second : StoreArgs := ⟨"agent-a", "Lean is greater", some "p1", "lang"⟩

def afterFirst : World := ((store first 0).exec world).2

def afterSecond : World := ((store second 0).exec { afterFirst with now := .fin 2000 }).2

def afterExpire : World := ((expire 1).exec afterSecond).2

def changes : List MemoryChange := [.stored first 1 (.fin 1000), .stored second 2 (.fin 2000), .expired 1]

theorem run : Remembers afterExpire changes := by
  have hfirst : Remembers afterFirst [.stored first 1 (.fin 1000)] := .store first 0 (.start rfl)
  have hlater : Remembers { afterFirst with now := .fin 2000 } [.stored first 1 (.fin 1000)] :=
    hfirst.elsewhere rfl (by decide +kernel)
  have hsecond : Remembers afterSecond [.stored first 1 (.fin 1000), .stored second 2 (.fin 2000)] :=
    .store second 0 hlater
  exact hsecond.expire 1

def order : Keyed.Iteration MemoryFactRow := ⟨fun l => l, fun _ => .refl _⟩

end DemoFacts

theorem recall_demo : Recalled DemoFacts.changes "agent-a" none (some "lang") 5 [DemoFacts.second.fact 2 (.fin 2000)] :=
  ((recall_meets_spec DemoFacts.run).1 DemoFacts.order "agent-a" none (some "lang") 5 (by decide)).2 _
    DemoFacts.afterExpire.tick rfl

end A2AGateway
