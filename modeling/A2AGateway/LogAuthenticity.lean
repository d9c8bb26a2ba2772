import A2AGateway.PeerSync
import A2AGateway.Lib.Delimited

/-!
# What a log signature vouches for

The signed string is `id|project_id|gateway_name|content|secs` with nothing escaped
(`task_log.rs:277`). Project id, gateway name and content are taken from the entry when it is verified,
so a `|` in one of them lets a boundary move: the same string, and so the same HMAC, belongs to
several tuples.
-/

namespace A2AGateway

open PeerSync TaskLog

variable [HmacSha256]

/-- A tuple that was passed to `append`. Ids are UUIDs: the entry's is drawn there, the project's
was drawn by `ProjectStore::create`. -/
structure Appended where
  id : Uuid
  projectId : Uuid
  gatewayName : String
  content : String
  createdAt : F64

/-- The signature that `append` produced for it. -/
def Appended.signature (secret : Bytes) (a : Appended) : String :=
  sign secret a.id.text a.projectId.text a.gatewayName a.content a.createdAt

/-- The entry says what was appended: same id, same project as claimed, the peer as its writer, same
content and same whole second. -/
def Appended.Matches (a : Appended) (peer : PeerConfig) (projectId : String) (e : ProtoLogEntry) : Prop :=
  a.id.text = e.id ∧ a.projectId.text = projectId ∧ a.gatewayName = peer.name ∧ a.content = e.content ∧
    a.createdAt.asU64 = e.createdAt.asU64

/-- One name is the other followed by `|` and more. -/
def Confusable (a b : String) : Prop :=
  (∃ z, a.toList = b.toList ++ '|' :: z) ∨ ∃ z, b.toList = a.toList ++ '|' :: z

omit [HmacSha256] in
/-- A project that a row was inserted for has a UUID as its id, if the projects here do. -/
theorem projectId_of_insertRow {row : LogRow} {db db' : Db} (hids : ∀ p ∈ db.projects.rows, ∃ u : Uuid, u.text = p.id)
    (h : insertRow row db = some db') : ∃ u : Uuid, u.text = row.projectId := by
  obtain ⟨-, hproj, -⟩ := insertRow_eq_some.1 h
  obtain ⟨p, hp, hpid⟩ := List.any_eq_true.1 hproj
  obtain ⟨u, hu⟩ := hids p hp
  exact ⟨u, hu.trans (by simpa using hpid)⟩

section
variable {secret : Bytes} {id : Uuid} {projectId gateway agent content : String} {entryType : EntryType}
  {todoId : Option Int} {w w' : World}

/-- An entry of `append` is signed as one of these tuples, if the project ids here are UUIDs. -/
theorem append_signature {entry : LogEntry} (hids : ∀ p ∈ w.db.projects.rows, ∃ u : Uuid, u.text = p.id)
    (h : (append secret id projectId gateway agent entryType content todoId).exec w = (.ok entry, w')) :
    ∃ u : Uuid, u.text = projectId ∧
      entry.signature = some (Appended.signature secret ⟨id, u, gateway, content, w.now⟩) := by
  simp only [append, appendWithStatus, Gw.nowSecs, Prog.bind_eq] at h
  rw [Prog.exec_bind_of_ok (Prog.exec_look _ w)] at h
  obtain ⟨c, w₁, e₁, h⟩ := Prog.exec_bind_ok.1 h
  obtain ⟨-, -, db, hdb, rfl⟩ := Gw.exec_insertReturning_iff.1 e₁
  obtain ⟨db', hins, -⟩ := Option.map_eq_some_iff.1 hdb
  obtain ⟨u, huid⟩ := projectId_of_insertRow hids hins
  cases h
  have hproject : u.text = projectId := huid
  refine ⟨u, hproject, ?_⟩
  rw [← hproject]
  rfl

/-- So is the row it leaves, also where its cursor is not read. -/
theorem append_row_signature {row : LogRow} (hids : ∀ p ∈ w.db.projects.rows, ∃ u : Uuid, u.text = p.id)
    (hrow : row ∈ ((append secret id projectId gateway agent entryType content todoId).exec w).2.db.taskLog.rows)
    (hnew : row ∉ w.db.taskLog.rows) :
    ∃ u : Uuid, u.text = projectId ∧
      row.signature = some (Appended.signature secret ⟨id, u, gateway, content, w.now⟩) := by
  rcases @exec_append_cases _ secret id projectId gateway agent entryType content todoId w with hrun | ⟨db, hins, hrun⟩
  · rw [hrun] at hrow
    exact absurd hrow hnew
  · obtain ⟨u, huid⟩ := projectId_of_insertRow hids hins
    have hproject : u.text = projectId := huid
    rw [hrun, (insertRow_eq_some.1 hins).2.2.2.2.2, List.mem_append, List.mem_singleton] at hrow
    rcases hrow with hrow | rfl
    · exact absurd hrow hnew
    · refine ⟨u, hproject, ?_⟩
      rw [← hproject]
      rfl

end

/-! ## The signed string -/

omit [HmacSha256] in
/-- The characters of the canonical string, field by field. -/
theorem toList_canonicalString (id projectId gateway content : String) (ts : F64) :
    (canonicalString id projectId gateway content ts).toList =
      (id.toList ++ '|' :: (projectId.toList ++ '|' :: (gateway.toList ++ '|' :: content.toList))) ++
        '|' :: Nat.toDigits 10 ts.asU64 := by
  simp [canonicalString, String.toList_append, Nat.toList_repr, ToString.toString]

omit [HmacSha256] in
/-- The seconds never contain the separator. -/
theorem bar_notMem_toDigits (n : Nat) : '|' ∉ Nat.toDigits 10 n := by
  intro h
  have := Nat.isDigit_of_mem_toDigits (by decide) (by decide) h
  exact absurd this (by decide)

omit [HmacSha256] in
/-- Equal canonical strings agree on the second and on the rest. -/
theorem canonicalString_inj {id₁ id₂ p₁ p₂ g₁ g₂ c₁ c₂ : String} {t₁ t₂ : F64}
    (h : canonicalString id₁ p₁ g₁ c₁ t₁ = canonicalString id₂ p₂ g₂ c₂ t₂) :
    t₁.asU64 = t₂.asU64 ∧
      id₁.toList ++ '|' :: (p₁.toList ++ '|' :: (g₁.toList ++ '|' :: c₁.toList)) =
        id₂.toList ++ '|' :: (p₂.toList ++ '|' :: (g₂.toList ++ '|' :: c₂.toList)) := by
  have hl := congrArg String.toList h
  rw [toList_canonicalString, toList_canonicalString] at hl
  obtain ⟨hfields, hdigits⟩ := Delimited.append_inj_right (bar_notMem_toDigits _) (bar_notMem_toDigits _) hl
  refine ⟨?_, hfields⟩
  have := congrArg (Nat.ofDigitChars 10 · 0) hdigits
  simpa [Nat.ofDigitChars_ten_toDigits] using this

/-! ## Accepted entries -/

omit [HmacSha256] in
theorem not_confusable_self (a : String) : ¬ Confusable a a := by
  rintro (⟨z, h⟩ | ⟨z, h⟩) <;>
  · have := congrArg List.length h
    simp at this

section
variable {secret : Bytes} {M : Set Appended} {peer : PeerConfig} {projectId : String}
  {e : ProtoLogEntry} {m : Appended}

/-- **An accepted entry that carries the signature of an appended tuple says what was appended
exactly if neither its id nor the claimed project id contains the separator and the writer's name
is not confusable with the peer's.** -/
theorem accepted_matches_iff (hinj : Function.Injective (HmacSha256.hmacHex secret))
    (hM : ∀ a ∈ M, ∀ b ∈ M, a.id = b.id → a = b) (hm : m ∈ M) (hsig : e.signature = m.signature secret)
    (hacc : accepts secret peer projectId e = true) :
    (∃ a ∈ M, a.Matches peer projectId e) ↔
      '|' ∉ e.id.toList ∧ '|' ∉ projectId.toList ∧ ¬ Confusable m.gatewayName peer.name := by
  obtain ⟨hpeer, hown⟩ := accepts_iff.1 hacc
  -- Injectivity of the HMAC leaves one string with two readings.
  obtain ⟨hsecs, hfields⟩ := canonicalString_inj (hinj (hsig.symm.trans hown))
  rw [hpeer] at hfields
  constructor
  · rintro ⟨a, ha, hid, hproj, hgw, -, -⟩
    have hbar : '|' ∉ e.id.toList := hid ▸ a.id.no_bar
    refine ⟨hbar, hproj ▸ a.projectId.no_bar, ?_⟩
    -- The id determines the tuple, so the tuple that signed is `a`.
    have hids := (Delimited.append_inj_left m.id.no_bar hbar hfields).1
    have hma : m = a := hM m hm a ha (Uuid.ext_text (String.toList_inj.1 hids |>.trans hid.symm))
    rw [hma, hgw]
    exact not_confusable_self _
  · rintro ⟨hid, hproj, hnames⟩
    obtain ⟨hids, hrest⟩ := Delimited.append_inj_left m.id.no_bar hid hfields
    obtain ⟨hprojs, hrest⟩ := Delimited.append_inj_left m.projectId.no_bar hproj hrest
    rcases Delimited.append_eq_append hrest with ⟨hgw, hcontent⟩ | ⟨z, hz, -⟩ | ⟨z, hz, -⟩
    · exact ⟨m, hm, String.toList_inj.1 hids, String.toList_inj.1 hprojs, String.toList_inj.1 hgw,
        String.toList_inj.1 hcontent, hsecs⟩
    · exact absurd (Or.inr ⟨z, hz⟩) hnames
    · exact absurd (Or.inl ⟨z, hz⟩) hnames

end

/-! ## A moved boundary -/

section demo

/-- HMAC-SHA256 under `secret` of the one message that `gw-a` signs. -/
@[reducible] def demoHmacSha256 : HmacSha256 := .recorded
  [("00000000-0000-4000-8000-0000000000aa|00000000-0000-4000-8000-000000000001|gw-a|x|gw-b|y|1000",
    "85d8905cd89805d06df074bdd364baab781dbab3f1c53b852deae0853e6adc29")]

/-- What an agent of `gw-a` wrote. -/
def demoAppended : Appended where
  id := ⟨"00000000-0000-4000-8000-0000000000aa", Uuid.hex_aa⟩
  projectId := ⟨"00000000-0000-4000-8000-000000000001", Uuid.hex_one⟩
  gatewayName := "gw-a"
  content := "x|gw-b|y"
  createdAt := .fin 1000

/-- It with another writer and content. -/
def demoEntry (gatewayName content : String) : ProtoLogEntry where
  id := "00000000-0000-4000-8000-0000000000aa"
  gatewayName := gatewayName
  agentName := "agent"
  entryType := "note"
  content := content
  cursor := 1
  createdAt := .fin 1000
  signature := "85d8905cd89805d06df074bdd364baab781dbab3f1c53b852deae0853e6adc29"

omit [HmacSha256] in
theorem demoHmacSha256_injective : Function.Injective (@HmacSha256.hmacHex demoHmacSha256 (asBytes "secret")) :=
  HmacSha256.recorded_injective (by decide +kernel) (by decide +kernel) _

omit [HmacSha256] in
/-- As `gw-a` itself sends it, the entry is genuine. -/
theorem accepted_matches_demo :
    ∃ a ∈ ({demoAppended} : Set Appended),
      a.Matches ⟨"gw-a"⟩ "00000000-0000-4000-8000-000000000001" (demoEntry "gw-a" "x|gw-b|y") := by
  let := demoHmacSha256
  refine (accepted_matches_iff demoHmacSha256_injective ?_ (Set.mem_singleton demoAppended) ?_ ?_).2 ?_
  · rintro a rfl b rfl -
    rfl
  · decide +kernel
  · decide +kernel
  · exact ⟨by decide +kernel, by decide +kernel, not_confusable_self _⟩

omit [HmacSha256] in
/-- **`gw-b` presents the entry as its own**: it claims a project id that swallows the writer's name,
and the content shrinks. -/
theorem forged_entry_accepted :
    letI := demoHmacSha256
    Function.Injective (HmacSha256.hmacHex (asBytes "secret")) ∧
      ∃ projectId e, e.signature = demoAppended.signature (asBytes "secret") ∧
        accepts (asBytes "secret") ⟨"gw-b"⟩ projectId e = true ∧
        ¬ ∃ a ∈ ({demoAppended} : Set Appended), a.Matches ⟨"gw-b"⟩ projectId e := by
  let := demoHmacSha256
  refine ⟨demoHmacSha256_injective, "00000000-0000-4000-8000-000000000001|gw-a|x", demoEntry "gw-b" "y", by decide +kernel,
    by decide +kernel, ?_⟩
  rintro ⟨a, rfl, -, -, hgw, -⟩
  exact absurd hgw (by decide)

end demo

end A2AGateway
