import A2AGateway.Onboarding
import A2AGateway.Lib.Loops
import A2AGateway.Lib.Utf8

/-!
# Who gets to the dashboard (`web/mod.rs`)

| here | there |
| --- | --- |
| `comparePass`, `compareBytes`, `constantTimeEq` | `web/mod.rs:150-161` |
| `TokenQuery`                                    | `web/mod.rs:164-167`, read by `axum::extract::Query` |
| `authMiddleware`                                | `web/mod.rs:174-209` |

The comparison goes through both texts to the end of the longer one, whatever it finds, and is right for all
texts (`constantTimeEq_decides`). What it is asked to compare is another matter: where there is a bearer value
the query parameter is not looked at, and blanks around the value do not count (`auth_accepts`). And a query that
gives `token` twice is an error even if no token is configured, though then "all requests pass through". What is
left is where the answer is the one that the two ways to give the token call for (`auth_exact_iff`).
-/

namespace A2AGateway.Web

/-! ## Comparing -/

structure Comparison where
  diff : UInt8
  /-- How often the body of the loop has been run. -/
  passes : Nat
deriving DecidableEq

/-- `if i < v.len() { v[i] } else { padding }`; an index out of range panics. -/
def byteOr (v : Bytes) (i : Nat) (padding : UInt8) : Option UInt8 := if i < v.length then v[i]? else some padding

def comparePass (a b : Bytes) (i : Nat) (s : Comparison) : Option Comparison := do
  let x ← byteOr a i 0
  let y ← byteOr b i 0xff
  return ⟨s.diff ||| (x ^^^ y), s.passes + 1⟩

def compareBytes (a b : Bytes) : Option Comparison :=
  let len := max a.length b.length
  Loops.forRange (comparePass a b) len ⟨if a.length ≠ b.length then 1 else 0, 0⟩

def constantTimeEq (a b : String) : Option Bool := (compareBytes (asBytes a) (asBytes b)).map (·.diff == 0)

/-- After `i` passes: nothing is set if the lengths agree and so do the first `i` bytes. -/
structure Compared (a b : Bytes) (i : Nat) (s : Comparison) : Prop where
  diff : s.diff = 0 ↔ a.length = b.length ∧ ∀ j < i, a[j]? = b[j]?
  passes : s.passes = i

section
variable {a b : Bytes} {i : Nat} {s : Comparison}

theorem or_eq_zero_iff {x y : UInt8} : x ||| y = 0 ↔ x = 0 ∧ y = 0 := by
  simp [← UInt8.toBitVec_inj, BitVec.or_eq_zero_iff]

theorem exists_byteOr (v : Bytes) (i : Nat) (padding : UInt8) :
    ∃ x, byteOr v i padding = some x ∧ (i < v.length → v[i]? = some x) := by
  by_cases h : i < v.length
  · exact ⟨v[i], by simp [byteOr, h]⟩
  · exact ⟨padding, by simp [byteOr, h]⟩

/-- **A pass within the longer text does not panic.** -/
theorem comparePass_compared (hi : i < max a.length b.length) (h : Compared a b i s) :
    ∃ s', comparePass a b i s = some s' ∧ Compared a b (i + 1) s' := by
  obtain ⟨x, hx, hax⟩ := exists_byteOr a i 0
  obtain ⟨y, hy, hby⟩ := exists_byteOr b i 0xff
  refine ⟨⟨s.diff ||| (x ^^^ y), s.passes + 1⟩, by simp [comparePass, hx, hy], ?_, by simp [h.passes]⟩
  simp only [or_eq_zero_iff, UInt8.xor_eq_zero_iff, h.diff]
  constructor
  · rintro ⟨⟨hlen, hbefore⟩, rfl⟩
    refine ⟨hlen, fun j hj => ?_⟩
    by_cases hji : j < i
    · exact hbefore j hji
    · obtain rfl : j = i := by omega
      rw [hax (by omega), hby (by omega)]
  · rintro ⟨hlen, hall⟩
    refine ⟨⟨hlen, fun j hj => hall j (by omega)⟩, ?_⟩
    have hxy := hall i (by omega)
    rw [hax (by omega), hby (by omega)] at hxy
    exact Option.some.inj hxy

/-- **The loop ends, after as many passes as the longer text has bytes, and tells the texts apart.** -/
theorem compareBytes_spec (a b : Bytes) :
    ∃ c, compareBytes a b = some c ∧ (c.diff = 0 ↔ a = b) ∧ c.passes = max a.length b.length := by
  have hstart : Compared a b 0 ⟨if a.length ≠ b.length then 1 else 0, 0⟩ := by
    by_cases hlen : a.length = b.length
    · exact ⟨by simp [hlen], rfl⟩
    · exact ⟨by simp [hlen], rfl⟩
  obtain ⟨c, hc, hdiff, hpasses⟩ := Loops.forRange_inv hstart _ fun i hi _ => comparePass_compared hi
  refine ⟨c, hc, ?_, hpasses⟩
  rw [hdiff]
  constructor
  · rintro ⟨hlen, hall⟩
    refine List.ext_getElem? fun j => ?_
    by_cases hj : j < max a.length b.length
    · exact hall j hj
    · rw [List.getElem?_eq_none (by omega), List.getElem?_eq_none (by omega)]
  · rintro rfl
    exact ⟨rfl, fun _ _ => rfl⟩

end

theorem asBytes_inj {a b : String} : asBytes a = asBytes b ↔ a = b := by
  rw [asBytes, asBytes, Array.toList_inj, ByteArray.ext_iff.symm]
  exact String.toByteArray_inj

theorem constantTimeEq_eq (a b : String) : constantTimeEq a b = some (decide (a = b)) := by
  obtain ⟨c, hc, hdiff, -⟩ := compareBytes_spec (asBytes a) (asBytes b)
  rw [constantTimeEq, hc, Option.map_some, beq_eq_decide]
  simp only [hdiff, asBytes_inj]

/-- **`constant_time_eq` decides equality**: without a panic, in as many passes as the longer text has bytes. What
is appended to a text tells it from the text, whichever bytes it is made of. -/
theorem constantTimeEq_decides (a b : String) :
    constantTimeEq a b = some (decide (a = b)) ∧
      (∃ c, compareBytes (asBytes a) (asBytes b) = some c ∧ c.passes = max (asBytes a).length (asBytes b).length) ∧
      ∀ padding : Bytes, padding ≠ [] →
        ∃ c c', compareBytes (asBytes a) (asBytes a ++ padding) = some c ∧ c.diff ≠ 0 ∧
          compareBytes (asBytes a ++ padding) (asBytes a) = some c' ∧ c'.diff ≠ 0 := by
  refine ⟨constantTimeEq_eq a b, ?_, fun padding hne => ?_⟩
  · obtain ⟨c, hc, -, hpasses⟩ := compareBytes_spec (asBytes a) (asBytes b)
    exact ⟨c, hc, hpasses⟩
  · obtain ⟨c, hc, hdiff, -⟩ := compareBytes_spec (asBytes a) (asBytes a ++ padding)
    obtain ⟨c', hc', hdiff', -⟩ := compareBytes_spec (asBytes a ++ padding) (asBytes a)
    exact ⟨c, c', hc, by simp [hdiff, hne], hc', by simp [hdiff', hne]⟩

/-! ## Requests -/

/-- What the middleware sees of a request: the headers in their order, under names in lower case, and the pairs of
the query string as `form_urlencoded::parse` yields them. -/
structure WebRequest where
  headers : List (String × Bytes)
  query : List (String × String)

structure TokenQuery where
  token : Option String := none

/-- `derive(Deserialize)`: other names are skipped, a second `token` is an error. -/
def TokenQuery.visitMap (q : TokenQuery) : List (String × String) → Except String TokenQuery
  | [] => .ok q
  | (name, value) :: rest =>
    if name ≠ "token" then q.visitMap rest
    else if q.token.isSome then .error "duplicate field `token`"
    else visitMap ⟨some value⟩ rest

inductive Answer
  /-- `next.run(req)` -/
  | forward
  /-- 400, the rejection of the extractor. -/
  | badRequest (text : String)
  /-- 401 -/
  | unauthorized (body : Json)

def isVisibleAscii (b : UInt8) : Bool := (32 ≤ b && b < 127) || b == 9

/-- `HeaderValue::to_str` -/
def toStr (value : Bytes) : Option String :=
  if value.all isVisibleAscii then some (String.ofList (value.map fun b => Char.ofNat b.toNat)) else none

/-- `str::strip_prefix` -/
def stripPrefix (start s : String) : Option String :=
  if start.toList.isPrefixOf s.toList then some (String.ofList (s.toList.drop start.toList.length)) else none

def unauthorizedBody : Json :=
  .obj [("error", .str "unauthorized"),
    ("message", .str "Missing or invalid bearer token. Supply via Authorization header or ?token= query parameter.")]

/-- `none` is a panic. -/
def authMiddleware (webToken : Option String) (req : WebRequest) : Option Answer :=
  match TokenQuery.visitMap {} req.query with
  | .error e => some (.badRequest s!"Failed to deserialize query string: {e}")
  | .ok query =>
    match webToken with
    | none => some .forward
    | some expected => do
      -- "Try Authorization header first."
      let headerToken := (((req.headers.lookup "authorization").bind toStr).bind (stripPrefix "Bearer ")).map trim
      -- "Fall back to query parameter."
      match headerToken.or query.token with
      | some tok => if ← constantTimeEq tok expected then return .forward else return .unauthorized unauthorizedBody
      | none => return .unauthorized unauthorizedBody

/-! ## What a request supplies -/

/-- The values of the `token` parameters. -/
def tokenValues (pairs : List (String × String)) : List String := (pairs.filter (·.1 == "token")).map (·.2)

def WebRequest.tokens (req : WebRequest) : List String := tokenValues req.query

/-- The text is made of visible ASCII characters, blanks and tabs. -/
def Visible (s : String) : Prop := ∀ c ∈ s.toList, 32 ≤ c.toNat ∧ c.toNat < 127 ∨ c.toNat = 9

/-- The request has an Authorization header, and that is `Bearer v`. -/
def WebRequest.Bearer (req : WebRequest) (v : String) : Prop :=
  Visible v ∧ req.headers.lookup "authorization" = some (asBytes ("Bearer " ++ v))

section
variable {pairs : List (String × String)} {req : WebRequest} {v s : String} {h : Bytes}

theorem tokenValues_token (value : String) : tokenValues (("token", value) :: pairs) = value :: tokenValues pairs := by
  simp [tokenValues]

theorem tokenValues_of_ne {name : String} (value : String) (hname : name ≠ "token") :
    tokenValues ((name, value) :: pairs) = tokenValues pairs := by
  simp [tokenValues, hname]

theorem visitMap_eq {q : TokenQuery} (hone : (q.token.toList ++ tokenValues pairs).length ≤ 1) :
    q.visitMap pairs = .ok ⟨(q.token.toList ++ tokenValues pairs).head?⟩ := by
  induction pairs generalizing q with
  | nil => cases q with | mk t => cases t <;> rfl
  | cons pair pairs ih =>
    obtain ⟨name, value⟩ := pair
    by_cases hname : name = "token"
    · subst hname
      rw [tokenValues_token] at hone ⊢
      have hfirst : q.token = none := by
        cases ht : q.token with
        | none => rfl
        | some t => simp [ht] at hone
      rw [TokenQuery.visitMap, if_neg (by simp), if_neg (by simp [hfirst]), ih (by simpa [hfirst] using hone)]
      simp [hfirst]
    · rw [tokenValues_of_ne value hname] at hone ⊢
      rw [TokenQuery.visitMap, if_pos hname, ih hone]

theorem visitMap_error {q : TokenQuery} (hmany : 1 < (q.token.toList ++ tokenValues pairs).length) :
    ∃ e, q.visitMap pairs = .error e := by
  induction pairs generalizing q with
  | nil => cases q with | mk t => cases t <;> simp [tokenValues] at hmany
  | cons pair pairs ih =>
    obtain ⟨name, value⟩ := pair
    by_cases hname : name = "token"
    · subst hname
      rw [tokenValues_token] at hmany
      cases htoken : q.token with
      | some t => exact ⟨_, by rw [TokenQuery.visitMap, if_neg (by simp), if_pos (by simp [htoken])]⟩
      | none =>
        rw [TokenQuery.visitMap, if_neg (by simp), if_neg (by simp [htoken])]
        exact ih (by simpa [htoken] using hmany)
    · rw [tokenValues_of_ne value hname] at hmany
      rw [TokenQuery.visitMap, if_pos hname]
      exact ih hmany

/-- **The query is read if `token` is given at most once.** -/
theorem visitMap_tokens (hone : req.tokens.length ≤ 1) : TokenQuery.visitMap {} req.query = .ok ⟨req.tokens.head?⟩ :=
  visitMap_eq (by simpa [WebRequest.tokens] using hone)

theorem isVisibleAscii_iff {b : UInt8} : isVisibleAscii b = true ↔ 32 ≤ b.toNat ∧ b.toNat < 127 ∨ b.toNat = 9 := by
  simp [isVisibleAscii, UInt8.le_iff_toNat_le, UInt8.lt_iff_toNat_lt, ← UInt8.toNat_inj]

/-- The bytes of a visible text are its characters, one by one. -/
theorem asBytes_visible (hs : Visible s) : asBytes s = s.toList.map fun c => UInt8.ofNat c.toNat := by
  have hencode : ∀ c ∈ s.toList, Utf8.encode c.val.toNat = [UInt8.ofNat c.toNat] := by
    intro c hc
    have hvisible := hs c hc
    have hval : c.val.toNat = c.toNat := rfl
    exact if_pos (by omega)
  rw [asBytes, Utf8.toUTF8_eq, List.flatMap_congr hencode, List.map_eq_flatMap]

/-- A visible text is read back from its bytes. -/
theorem toStr_asBytes (hs : Visible s) : toStr (asBytes s) = some s := by
  have hback : ∀ c ∈ s.toList, Char.ofNat (UInt8.ofNat c.toNat).toNat = c := by
    intro c hc
    have hvisible := hs c hc
    rw [UInt8.toNat_ofNat', Nat.mod_eq_of_lt (by omega), Char.ofNat_toNat]
  rw [toStr, asBytes_visible hs, if_pos, List.map_map, Option.some.injEq, ← String.toList_inj, String.toList_ofList]
  · exact (List.map_congr_left hback).trans (List.map_id _)
  · rw [List.all_eq_true]
    intro b hb
    obtain ⟨c, hc, rfl⟩ := List.mem_map.1 hb
    have hvisible := hs c hc
    rw [isVisibleAscii_iff, UInt8.toNat_ofNat', Nat.mod_eq_of_lt (by omega)]
    exact hvisible

/-- What is read is visible, and its bytes are what it has been read from. -/
theorem visible_of_toStr (hread : toStr h = some s) : Visible s ∧ h = asBytes s := by
  unfold toStr at hread
  by_cases hall : h.all isVisibleAscii = true
  · rw [if_pos hall] at hread
    have hb : ∀ b ∈ h, 32 ≤ b.toNat ∧ b.toNat < 127 ∨ b.toNat = 9 :=
      fun b hb => isVisibleAscii_iff.1 (List.all_eq_true.1 hall b hb)
    have hchar : ∀ b ∈ h, (Char.ofNat b.toNat).toNat = b.toNat := by
      intro b hmem
      have hvisible := hb b hmem
      rw [Char.ofNat, dif_pos (Or.inl (by omega))]
      rfl
    have hlist : s.toList = h.map fun b => Char.ofNat b.toNat := by
      rw [← Option.some.inj hread, String.toList_ofList]
    have hs : Visible s := by
      intro c hc
      rw [hlist, List.mem_map] at hc
      obtain ⟨b, hmem, rfl⟩ := hc
      rw [hchar b hmem]
      exact hb b hmem
    have hback : ∀ b ∈ h, UInt8.ofNat (Char.ofNat b.toNat).toNat = b := fun b hmem => by simp [hchar b hmem]
    refine ⟨hs, ?_⟩
    rw [asBytes_visible hs, hlist, List.map_map]
    exact ((List.map_congr_left hback).trans (List.map_id h)).symm
  · rw [if_neg hall] at hread
    cases hread

/-- A header value is text exactly if it is the bytes of a visible one. -/
theorem toStr_eq_some : toStr h = some s ↔ Visible s ∧ h = asBytes s := by
  constructor
  · exact visible_of_toStr
  · rintro ⟨hs, rfl⟩
    exact toStr_asBytes hs

theorem stripPrefix_eq_some {start : String} : stripPrefix start s = some v ↔ s = start ++ v := by
  unfold stripPrefix
  by_cases hstart : start.toList.isPrefixOf s.toList = true
  · obtain ⟨rest, hrest⟩ := List.isPrefixOf_iff_prefix.1 hstart
    rw [if_pos hstart, ← hrest, List.drop_left, ← String.toList_inj, ← hrest, String.toList_append, List.append_cancel_left_eq]
    simp [← String.toList_inj]
  · rw [if_neg hstart]
    refine iff_of_false (by simp) ?_
    rintro rfl
    simp [String.toList_append] at hstart

/-- The text after `Bearer `, where there is one. -/
theorem bearer_iff :
    ((req.headers.lookup "authorization").bind toStr).bind (stripPrefix "Bearer ") = some v ↔ req.Bearer v := by
  have hvisible : Visible ("Bearer " ++ v) ↔ Visible v := by simp [Visible, String.toList_append]
  simp only [Option.bind_eq_some_iff, toStr_eq_some, stripPrefix_eq_some, WebRequest.Bearer]
  constructor
  · rintro ⟨_, ⟨_, hheader, hs, rfl⟩, rfl⟩
    exact ⟨hvisible.1 hs, hheader⟩
  · rintro ⟨hv, hheader⟩
    exact ⟨_, ⟨_, hheader, hvisible.2 hv, rfl⟩, rfl⟩

end

/-! ## Who is let through -/

section
variable {req : WebRequest} {expected v : String}

theorem authMiddleware_many (webToken : Option String) (hmany : 1 < req.tokens.length) :
    ∃ text, authMiddleware webToken req = some (.badRequest text) := by
  have hmany' : 1 < ((({} : TokenQuery).token).toList ++ tokenValues req.query).length := by
    simpa [WebRequest.tokens] using hmany
  obtain ⟨e, he⟩ := visitMap_error hmany'
  exact ⟨_, by rw [authMiddleware, he]⟩

theorem authMiddleware_none (hone : req.tokens.length ≤ 1) : authMiddleware none req = some .forward := by
  simp [authMiddleware, visitMap_tokens hone]

theorem authMiddleware_bearer (hone : req.tokens.length ≤ 1) (hv : req.Bearer v) :
    authMiddleware (some expected) req = some .forward ↔ trim v = expected := by
  simp only [authMiddleware, visitMap_tokens hone, bearer_iff.2 hv, Option.map_some, Option.some_or, constantTimeEq_eq,
    Option.bind_eq_bind, Option.bind_some, decide_eq_true_eq]
  by_cases h : trim v = expected
  · simp [h]
  · simp [h]

theorem authMiddleware_query (hone : req.tokens.length ≤ 1) (hnone : ∀ v, ¬ req.Bearer v) :
    authMiddleware (some expected) req = some .forward ↔ req.tokens = [expected] := by
  have hheader : ((req.headers.lookup "authorization").bind toStr).bind (stripPrefix "Bearer ") = none :=
    Option.eq_none_iff_forall_ne_some.2 fun v hv => hnone v (bearer_iff.1 hv)
  simp only [authMiddleware, visitMap_tokens hone, hheader, Option.map_none, Option.none_or, constantTimeEq_eq,
    Option.bind_eq_bind, Option.bind_some, decide_eq_true_eq]
  match htokens : req.tokens, hone with
  | [], _ => simp
  | [t], _ =>
    by_cases h : t = expected
    · simp [h]
    · simp [h]

/-- **Who gets to the dashboard.** A request that gives `token` more than once is rejected. Else, with no token
configured it is forwarded. Without a bearer value it is forwarded if the query parameter is the token. With one,
the query parameter is not looked at: it is forwarded if the value is the token but for blanks around it. -/
theorem auth_accepts (req : WebRequest) :
    (1 < req.tokens.length → ∀ webToken, ∃ text, authMiddleware webToken req = some (.badRequest text)) ∧
      (req.tokens.length ≤ 1 → authMiddleware none req = some .forward ∧
        ∀ expected,
          ((∀ v, ¬ req.Bearer v) → (authMiddleware (some expected) req = some .forward ↔ req.tokens = [expected])) ∧
          ∀ v, req.Bearer v → trim expected = expected →
            (authMiddleware (some expected) req = some .forward ↔ trim v = expected)) := by
  constructor
  · intro hmany webToken
    exact authMiddleware_many webToken hmany
  · intro hone
    refine ⟨authMiddleware_none hone, fun expected => ⟨authMiddleware_query hone, fun v hv _ => ?_⟩⟩
    exact authMiddleware_bearer hone hv

/-! ## Exactly the token -/

/-- The Authorization header is `Bearer`, one blank and the token. -/
def WebRequest.HeaderIs (req : WebRequest) (t : String) : Prop :=
  req.headers.lookup "authorization" = some (asBytes ("Bearer " ++ t))

/-- The token is in the header, or it is the query parameter. -/
def WebRequest.Supplies (req : WebRequest) (t : String) : Prop := req.HeaderIs t ∨ t ∈ req.tokens

/-- Exactly the requests that supply the token are forwarded; without a token, all are. -/
def AcceptsExactly (webToken : Option String) (req : WebRequest) : Prop :=
  authMiddleware webToken req = some .forward ↔ ∀ t, webToken = some t → req.Supplies t

/-- A token in the query does not stand beside another bearer value; one in the header has no blanks around it and is
visible, unless the query has it as well; and no bearer value has blanks around the token, unless the query has it. -/
structure WebRequest.Plain (req : WebRequest) (t : String) : Prop where
  query : ∀ v, req.Bearer v → t ∈ req.tokens → trim v = t
  header : req.HeaderIs t → t ∈ req.tokens ∨ Visible t ∧ trim t = t
  blanks : ∀ v, req.Bearer v → trim v = t → v = t ∨ t ∈ req.tokens

/-- `token` is given at most once, and plainly where one is configured; or it is given more often, and wrong. -/
def PlainlyGiven (webToken : Option String) (req : WebRequest) : Prop :=
  (req.tokens.length ≤ 1 ∧ ∀ t, webToken = some t → req.Plain t) ∨
    1 < req.tokens.length ∧ ∃ t, webToken = some t ∧ ¬ req.Supplies t

theorem headerIs_iff (hv : req.Bearer v) {t : String} : req.HeaderIs t ↔ v = t := by
  rw [WebRequest.HeaderIs, hv.2, Option.some.injEq, asBytes_inj, String.append_right_inj]

/-- With a bearer value, what it is without blanks decides. -/
theorem plain_bearer (hv : req.Bearer v) {t : String} : req.Plain t ↔ (trim v = t ↔ req.Supplies t) := by
  rw [WebRequest.Supplies, headerIs_iff hv]
  constructor
  · rintro ⟨hquery, hheader, hblanks⟩
    refine ⟨hblanks v hv, ?_⟩
    rintro (rfl | hmem)
    · exact (hheader ((headerIs_iff hv).2 rfl)).elim (hquery v hv) And.right
    · exact hquery v hv hmem
  · intro h
    have hsame : ∀ v', req.Bearer v' → v' = v := fun v' hv' => ((headerIs_iff hv).1 hv'.2).symm
    refine ⟨fun v' hv' hmem => ?_, fun hheader => ?_, fun v' hv' htrim => ?_⟩
    · rw [hsame v' hv']
      exact h.2 (.inr hmem)
    · obtain rfl := (headerIs_iff hv).1 hheader
      exact .inr ⟨hv.1, h.2 (.inl rfl)⟩
    · rw [hsame v' hv'] at htrim ⊢
      exact h.1 htrim

/-- Without one, the query parameter decides. -/
theorem plain_query (hnone : ∀ v, ¬ req.Bearer v) {t : String} : req.Plain t ↔ (t ∈ req.tokens ↔ req.Supplies t) := by
  constructor
  · intro h
    refine ⟨.inr, fun hsupplied => hsupplied.elim (fun hheader => ?_) id⟩
    exact (h.header hheader).resolve_right fun hvisible => hnone t ⟨hvisible.1, hheader⟩
  · intro h
    exact ⟨fun v hv => absurd hv (hnone v), fun hheader => .inl (h.2 (.inl hheader)), fun v hv => absurd hv (hnone v)⟩

theorem mem_tokens_iff (hone : req.tokens.length ≤ 1) {t : String} : t ∈ req.tokens ↔ req.tokens = [t] := by
  match req.tokens, hone with
  | [], _ => simp
  | [x], _ => simp [eq_comm]

/-- **The middleware accepts exactly the token where the token is plainly given, and nowhere else.** -/
theorem auth_exact_iff (webToken : Option String) (req : WebRequest) :
    AcceptsExactly webToken req ↔ PlainlyGiven webToken req := by
  by_cases hone : req.tokens.length ≤ 1
  · have hmany : ¬ 1 < req.tokens.length := Nat.not_lt.2 hone
    rw [PlainlyGiven, or_iff_left fun h => hmany h.1, and_iff_right hone, AcceptsExactly]
    cases webToken with
    | none => simp [authMiddleware_none hone]
    | some expected =>
      simp only [Option.some.injEq, forall_eq']
      by_cases hbearer : ∃ v, req.Bearer v
      · obtain ⟨v, hv⟩ := hbearer
        rw [authMiddleware_bearer hone hv, plain_bearer hv]
      · have hnone : ∀ v, ¬ req.Bearer v := not_exists.1 hbearer
        rw [authMiddleware_query hone hnone, plain_query hnone, mem_tokens_iff hone]
  · have hmany : 1 < req.tokens.length := Nat.not_le.1 hone
    obtain ⟨text, hrejected⟩ := authMiddleware_many webToken hmany
    have hnot : ¬ authMiddleware webToken req = some .forward := by rw [hrejected]; simp
    rw [PlainlyGiven, or_iff_right fun h => hone h.1, and_iff_right hmany, AcceptsExactly, iff_false_left hnot]
    push Not
    rfl

end

namespace Demo

/-- A request with this Authorization header and this query parameter. -/
def carrying (value token : String) : WebRequest := ⟨[("authorization", asBytes ("Bearer " ++ value))], [("token", token)]⟩

/-- No header, and the parameter twice. -/
def twice : WebRequest := ⟨[], [("token", "a"), ("token", "b")]⟩

end Demo

/-- **With no token configured, a parameter that is given twice is an error**, and not passed through. -/
theorem auth_not_exact : ¬ AcceptsExactly none Demo.twice ∧ ∃ text, authMiddleware none Demo.twice = some (.badRequest text) := by
  have hmany : 1 < Demo.twice.tokens.length := by decide
  obtain ⟨text, hrejected⟩ := authMiddleware_many none hmany
  refine ⟨fun h => ?_, text, hrejected⟩
  have hforward := h.2 fun t ht => by cases ht
  rw [hrejected] at hforward
  cases hforward

-- The right query parameter beside another bearer value is turned away; the token after two blanks is let through.
example : ¬ authMiddleware (some "s3cret") (Demo.carrying "other" "s3cret") = some .forward ∧
    authMiddleware (some "s3cret") (Demo.carrying " s3cret" "other") = some .forward := by
  have hvisible : Visible "other" ∧ Visible " s3cret" := by
    unfold Visible
    decide +kernel
  rw [authMiddleware_bearer (Nat.le_refl _) ⟨hvisible.1, rfl⟩, authMiddleware_bearer (Nat.le_refl _) ⟨hvisible.2, rfl⟩]
  decide +kernel

end A2AGateway.Web
