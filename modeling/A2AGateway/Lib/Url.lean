import Mathlib.Data.List.Basic

/-!
# URLs

The URLs of RFC 3986 that have an authority, `scheme://[userinfo@]host[:port][path][?query][#fragment]`:
their parts, the characters each part is made of, the text they make up, and the reading of a text. A text has
at most one reading (`Url.parse_eq_some`).
-/

namespace Url

/-! ## Characters -/

def isHexDig (c : Char) : Bool := c.isDigit || ('a' ≤ c && c ≤ 'f') || ('A' ≤ c && c ≤ 'F')

def isUnreserved (c : Char) : Bool := c.isAlphanum || "-._~".toList.contains c

def isSubDelim (c : Char) : Bool := "!$&'()*+,;=".toList.contains c

def isNameChar (c : Char) : Bool := isUnreserved c || isSubDelim c

def isUserChar (c : Char) : Bool := isNameChar c || c == ':'

/-- `pchar`, and the '/' between segments. -/
def isPathChar (c : Char) : Bool := isUserChar c || c == '@' || c == '/'

def isQueryChar (c : Char) : Bool := isPathChar c || c == '?'

/-- `*( allowed / pct-encoded )`. -/
def isEncoded (allowed : Char → Bool) : List Char → Bool
  | [] => true
  | '%' :: a :: b :: cs => isHexDig a && isHexDig b && isEncoded allowed cs
  | c :: cs => allowed c && isEncoded allowed cs

/-- No part of these characters, percent-encoded or not, contains the delimiter. -/
def excludes (allowed : Char → Bool) (d : Char) : Bool := d != '%' && !isHexDig d && !allowed d

/-- `ALPHA *( ALPHA / DIGIT / "+" / "-" / "." )`. -/
def isScheme : List Char → Bool
  | [] => false
  | c :: cs => c.isAlpha && cs.all fun c => c.isAlphanum || c == '+' || c == '-' || c == '.'

/-- `reg-name`, of which the IPv4 addresses are some. -/
def isRegName (cs : List Char) : Bool := isEncoded isNameChar cs

/-- `IP-literal`. Of the addresses between the brackets only the characters are asked for. -/
def isIpLiteral : List Char → Bool
  | '[' :: cs => cs.getLast? == some ']' && cs.dropLast.all isUserChar
  | _ => false

/-! ## Parts -/

structure Parts where
  scheme : List Char
  userinfo : Option (List Char)
  host : List Char
  port : Option (List Char)
  path : List Char
  query : Option (List Char)
  fragment : Option (List Char)
deriving DecidableEq

structure Parts.WellFormed (u : Parts) : Prop where
  scheme : isScheme u.scheme = true
  userinfo : ∀ x ∈ u.userinfo, isEncoded isUserChar x = true
  host : isRegName u.host = true ∨ isIpLiteral u.host = true
  port : ∀ x ∈ u.port, x.all (·.isDigit) = true
  path : isEncoded isPathChar u.path = true
  /-- `path-abempty`. -/
  slash : ∀ c ∈ u.path.head?, c = '/'
  query : ∀ x ∈ u.query, isEncoded isQueryChar x = true
  fragment : ∀ x ∈ u.fragment, isEncoded isQueryChar x = true

/-- A path begins with a slash or is empty. -/
theorem all_slash_iff {cs : List Char} : cs.head?.all (· == '/') = true ↔ ∀ c ∈ cs.head?, c = '/' := by
  cases cs with
  | nil => simp
  | cons c cs => simp

instance (u : Parts) : Decidable u.WellFormed :=
  decidable_of_iff (isScheme u.scheme = true ∧
      (∀ x ∈ u.userinfo, isEncoded isUserChar x = true) ∧
      (isRegName u.host = true ∨ isIpLiteral u.host = true) ∧ (∀ x ∈ u.port, x.all (·.isDigit) = true) ∧
      isEncoded isPathChar u.path = true ∧ u.path.head?.all (· == '/') = true ∧
      (∀ x ∈ u.query, isEncoded isQueryChar x = true) ∧
      ∀ x ∈ u.fragment, isEncoded isQueryChar x = true)
    ⟨fun ⟨h₁, h₂, h₃, h₄, h₅, h₆, h₇, h₈⟩ => ⟨h₁, h₂, h₃, h₄, h₅, all_slash_iff.1 h₆, h₇, h₈⟩,
      fun h => ⟨h.scheme, h.userinfo, h.host, h.port, h.path, all_slash_iff.2 h.slash, h.query, h.fragment⟩⟩

/-- A part that its delimiter announces. -/
def lead (d : Char) : Option (List Char) → List Char
  | none => []
  | some x => d :: x

namespace Parts

/-- `userinfo@` -/
def login (u : Parts) : List Char :=
  match u.userinfo with
  | none => []
  | some x => x ++ ['@']

def authority (u : Parts) : List Char := u.login ++ (u.host ++ lead ':' u.port)

/-- What follows `scheme://`. -/
def rest (u : Parts) : List Char := u.authority ++ (u.path ++ (lead '?' u.query ++ lead '#' u.fragment))

def text (u : Parts) : List Char := u.scheme ++ ':' :: '/' :: '/' :: u.rest

end Parts

/-! ## Reading a text -/

/-- Up to the first character at which to stop, and from there on. -/
def cut (stop : Char → Bool) (cs : List Char) : List Char × List Char :=
  (cs.takeWhile fun c => !stop c, cs.dropWhile fun c => !stop c)

/-- The part that the delimiter announces, if it does. -/
def led (d : Char) : List Char → Option (List Char)
  | c :: cs => if c = d then some cs else none
  | [] => none

/-- The host of `host[:port]`, and the rest. -/
def cutHost (cs : List Char) : List Char × List Char :=
  if cs.head? = some '[' then
    ((cut (· == ']') cs).1 ++ [']'], (cut (· == ']') cs).2.tail)
  else cut (· == ':') cs

def readAuthority (scheme authority path : List Char) (query fragment : Option (List Char)) : Parts :=
  let login := if authority.contains '@' then some (cut (· == '@') authority).1 else none
  let place := if authority.contains '@' then (cut (· == '@') authority).2.tail else authority
  ⟨scheme, login, (cutHost place).1, led ':' (cutHost place).2, path, query, fragment⟩

/-- The parts of the text, as the delimiters show them. -/
def read (cs : List Char) : Parts :=
  let (scheme, cs) := cut (· == ':') cs
  let (authority, cs) := cut (fun c => c == '/' || c == '?' || c == '#') (cs.drop 3)
  let (path, cs) := cut (fun c => c == '?' || c == '#') cs
  let (query, cs) := cut (· == '#') cs
  readAuthority scheme authority path (led '?' query) (led '#' cs)

end Url

/-- A well-formed URL. -/
structure Url where
  parts : Url.Parts
  wellFormed : parts.WellFormed

namespace Url

/-- The text as a URL. -/
def parse (cs : List Char) : Option Url :=
  if h : (read cs).WellFormed ∧ (read cs).text = cs then some ⟨read cs, h.1⟩ else none

/-! ## What the parts cannot contain -/

section
variable {allowed stop : Char → Bool} {cs a b : List Char} {c d : Char} {u : Parts}

theorem mem_of_isEncoded (h : isEncoded allowed cs = true) (hc : c ∈ cs) :
    c = '%' ∨ isHexDig c = true ∨ allowed c = true := by
  fun_induction isEncoded with
  | case1 => cases hc
  | case2 x y cs ih =>
    simp only [Bool.and_eq_true] at h
    obtain ⟨⟨hx, hy⟩, hcs⟩ := h
    rcases List.mem_cons.1 hc with rfl | hc
    · exact .inl rfl
    · rcases List.mem_cons.1 hc with rfl | hc
      · exact .inr (.inl hx)
      · rcases List.mem_cons.1 hc with rfl | hc
        · exact .inr (.inl hy)
        · exact ih hcs hc
  | case3 x cs _ ih =>
    simp only [Bool.and_eq_true] at h
    rcases List.mem_cons.1 hc with rfl | hc
    · exact .inr (.inr h.1)
    · exact ih h.2 hc

theorem notMem_of_isEncoded (h : isEncoded allowed cs = true) (hd : excludes allowed d = true) : d ∉ cs := by
  intro hmem
  simp only [excludes, Bool.and_eq_true, bne_iff_ne, Bool.not_eq_true', ne_eq] at hd
  obtain ⟨⟨hpercent, hhex⟩, hallowed⟩ := hd
  rcases mem_of_isEncoded h hmem with rfl | hmem | hmem
  · exact hpercent rfl
  · rw [hhex] at hmem
    cases hmem
  · rw [hallowed] at hmem
    cases hmem

theorem notMem_of_isScheme (h : isScheme cs = true) (hd : (d.isAlphanum || d == '+' || d == '-' || d == '.') = false) :
    d ∉ cs := by
  intro hmem
  cases cs with
  | nil => cases hmem
  | cons c cs =>
    simp only [isScheme, Bool.and_eq_true, List.all_eq_true] at h
    rcases List.mem_cons.1 hmem with rfl | hmem
    · simp [Char.isAlphanum, h.1] at hd
    · rw [h.2 d hmem] at hd
      cases hd

/-- A literal is its address between brackets. -/
theorem exists_of_isIpLiteral (h : isIpLiteral cs = true) :
    ∃ address, cs = '[' :: address ++ [']'] ∧ ∀ c ∈ address, isUserChar c = true := by
  unfold isIpLiteral at h
  split at h
  · rename_i cs
    simp only [Bool.and_eq_true, beq_iff_eq, List.all_eq_true] at h
    refine ⟨cs.dropLast, ?_, h.2⟩
    rw [List.cons_append, List.dropLast_append_getLast? ']' h.1]
  · cases h

theorem cut_append (ha : ∀ c ∈ a, stop c = false) (hb : ∀ c ∈ b.head?, stop c = true) : cut stop (a ++ b) = (a, b) := by
  have hall : ∀ c ∈ a, (!stop c) = true := fun c hc => by rw [ha c hc]; rfl
  unfold cut
  rw [List.takeWhile_append_of_pos hall, List.dropWhile_append_of_pos hall]
  cases b with
  | nil => simp
  | cons c b => simp [hb c rfl]

@[simp] theorem led_lead (d : Char) (x : Option (List Char)) : led d (lead d x) = x := by
  cases x with
  | none => rfl
  | some x => simp [led, lead]

theorem head?_lead {x : Option (List Char)} (h : c ∈ (lead d x).head?) : c = d := by
  cases x with
  | none => cases h
  | some x => simpa [lead, eq_comm] using h

theorem mem_lead {x : Option (List Char)} : c ∈ lead d x ↔ ∃ y ∈ x, c = d ∨ c ∈ y := by
  cases x with
  | none => simp [lead]
  | some y => simp [lead]

theorem excludes_mono {allowed' : Char → Bool} (h : ∀ c, allowed c = true → allowed' c = true) (hd : excludes allowed' d = true) :
    excludes allowed d = true := by
  simp only [excludes, Bool.and_eq_true, Bool.not_eq_true'] at hd ⊢
  exact ⟨hd.1, Bool.eq_false_iff.2 fun hallowed => by simp [h d hallowed] at hd⟩

namespace Parts.WellFormed

theorem colon_notMem_scheme (h : u.WellFormed) : ':' ∉ u.scheme := notMem_of_isScheme h.scheme (by decide)

/-- The host in either form. -/
theorem notMem_host (h : u.WellFormed) (hd : excludes isUserChar d = true) (hopen : d ≠ '[') (hclose : d ≠ ']') :
    d ∉ u.host := by
  rcases h.host with hname | hliteral
  · exact notMem_of_isEncoded hname (excludes_mono (fun c hc => by simp [isUserChar, hc]) hd)
  · obtain ⟨address, haddress, hchars⟩ := exists_of_isIpLiteral hliteral
    have hnot : isUserChar d = false := by
      simp only [excludes, Bool.and_eq_true, Bool.not_eq_true'] at hd
      exact hd.2
    rw [haddress]
    intro hmem
    rcases List.mem_append.1 hmem with hmem | hmem
    · rcases List.mem_cons.1 hmem with rfl | hmem
      · exact hopen rfl
      · rw [hchars d hmem] at hnot
        cases hnot
    · exact hclose (List.mem_singleton.1 hmem)

theorem notMem_port (h : u.WellFormed) (hd : d.isDigit = false) (hcolon : d ≠ ':') : d ∉ lead ':' u.port := by
  intro hmem
  obtain ⟨x, hx, heq | hmem⟩ := mem_lead.1 hmem
  · exact hcolon heq
  · have hdigit := List.all_eq_true.1 (h.port x hx) d hmem
    rw [hd] at hdigit
    cases hdigit

theorem notMem_login (h : u.WellFormed) (hd : excludes isUserChar d = true) (hat : d ≠ '@') : d ∉ u.login := by
  intro hmem
  unfold Parts.login at hmem
  cases huser : u.userinfo with
  | none =>
    rw [huser] at hmem
    cases hmem
  | some x =>
    rw [huser] at hmem
    rcases List.mem_append.1 hmem with hmem | hmem
    · exact notMem_of_isEncoded (h.userinfo x huser) hd hmem
    · exact hat (List.mem_singleton.1 hmem)

theorem at_notMem_place (h : u.WellFormed) : '@' ∉ u.host ++ lead ':' u.port := by
  intro hmem
  rcases List.mem_append.1 hmem with hmem | hmem
  · exact h.notMem_host (by decide) (by decide) (by decide) hmem
  · exact h.notMem_port (by decide) (by decide) hmem

/-- The authority ends where the path, the query or the fragment begins. -/
theorem authority_no_end (h : u.WellFormed) : ∀ c ∈ u.authority, (c == '/' || c == '?' || c == '#') = false := by
  intro c hc
  by_contra hend
  simp only [Bool.not_eq_false, Bool.or_eq_true, beq_iff_eq] at hend
  have hexcluded : excludes isUserChar c = true ∧ c ≠ '@' ∧ c ≠ '[' ∧ c ≠ ']' ∧ c.isDigit = false ∧ c ≠ ':' := by
    rcases hend with (rfl | rfl) | rfl <;> decide
  obtain ⟨hd, hat, hopen, hclose, hdigit, hcolon⟩ := hexcluded
  rcases List.mem_append.1 hc with hmem | hmem
  · exact h.notMem_login hd hat hmem
  · rcases List.mem_append.1 hmem with hmem | hmem
    · exact h.notMem_host hd hopen hclose hmem
    · exact h.notMem_port hdigit hcolon hmem

end Parts.WellFormed

theorem cutHost_append (h : u.WellFormed) : cutHost (u.host ++ lead ':' u.port) = (u.host, lead ':' u.port) := by
  have hlead : ∀ c ∈ (lead ':' u.port).head?, (c == ':') = true := fun c hc => beq_iff_eq.2 (head?_lead hc)
  rcases h.host with hname | hliteral
  · have hopen : (u.host ++ lead ':' u.port).head? ≠ some '[' := by
      intro hhead
      cases hhost : u.host with
      | nil =>
        rw [hhost, List.nil_append] at hhead
        exact absurd (head?_lead hhead) (by decide)
      | cons c cs =>
        rw [hhost] at hhead hname
        cases hhead
        exact notMem_of_isEncoded hname (by decide) List.mem_cons_self
    rw [cutHost, if_neg hopen]
    refine cut_append (fun c hc => beq_eq_false_iff_ne.2 ?_) hlead
    rintro rfl
    exact notMem_of_isEncoded hname (by decide) hc
  · obtain ⟨address, haddress, hchars⟩ := exists_of_isIpLiteral hliteral
    have hcut : cut (· == ']') ('[' :: address ++ ']' :: lead ':' u.port) = ('[' :: address, ']' :: lead ':' u.port) := by
      refine cut_append (fun c hc => beq_eq_false_iff_ne.2 ?_) fun c hc => by cases hc; rfl
      rintro rfl
      rcases List.mem_cons.1 hc with hc | hc
      · exact absurd hc (by decide)
      · exact absurd (hchars _ hc) (by decide)
    have htext : u.host ++ lead ':' u.port = '[' :: address ++ ']' :: lead ':' u.port := by simp [haddress]
    rw [cutHost, htext, if_pos (by rfl), hcut, haddress]
    rfl

theorem readAuthority_authority (h : u.WellFormed) : readAuthority u.scheme u.authority u.path u.query u.fragment = u := by
  have hplace := h.at_notMem_place
  cases huser : u.userinfo with
  | none =>
    have hauthority : u.authority = u.host ++ lead ':' u.port := by simp [Parts.authority, Parts.login, huser]
    have hat : (u.host ++ lead ':' u.port).contains '@' = false := by simpa using hplace
    simp only [readAuthority, hauthority, hat, Bool.false_eq_true, if_false, cutHost_append h, led_lead]
    rw [← huser]
  | some x =>
    have hauthority : u.authority = x ++ '@' :: (u.host ++ lead ':' u.port) := by
      simp [Parts.authority, Parts.login, huser]
    have hat : u.authority.contains '@' = true := by simp [hauthority]
    have hcut : cut (· == '@') u.authority = (x, '@' :: (u.host ++ lead ':' u.port)) := by
      rw [hauthority]
      refine cut_append (fun c hc => beq_eq_false_iff_ne.2 ?_) fun c hc => by cases hc; rfl
      rintro rfl
      exact notMem_of_isEncoded (h.userinfo x huser) (by decide) hc
    simp only [readAuthority, hat, hcut, if_true, List.tail_cons, cutHost_append h, led_lead]
    rw [← huser]

/-! ### Where each part ends -/

/-- Behind the path there is nothing, a query or a fragment. -/
theorem head?_tail {query fragment : Option (List Char)} (hc : c ∈ (lead '?' query ++ lead '#' fragment).head?) :
    c = '?' ∨ c = '#' := by
  cases query with
  | none => exact .inr (head?_lead hc)
  | some x =>
    cases hc
    exact .inl rfl

theorem cut_scheme (h : u.WellFormed) : cut (· == ':') u.text = (u.scheme, ':' :: '/' :: '/' :: u.rest) := by
  refine cut_append (fun c hc => beq_eq_false_iff_ne.2 ?_) fun c hc => by cases hc; rfl
  rintro rfl
  exact h.colon_notMem_scheme hc

theorem cut_authority (h : u.WellFormed) : cut (fun c => c == '/' || c == '?' || c == '#') u.rest =
    (u.authority, u.path ++ (lead '?' u.query ++ lead '#' u.fragment)) := by
  refine cut_append h.authority_no_end fun c hc => ?_
  cases hpath : u.path with
  | nil =>
    rw [hpath, List.nil_append] at hc
    rcases head?_tail hc with rfl | rfl
    · rfl
    · rfl
  | cons d cs =>
    rw [hpath] at hc
    cases hc
    simp [h.slash c (by rw [hpath]; rfl)]

theorem cut_path (h : u.WellFormed) : cut (fun c => c == '?' || c == '#') (u.path ++ (lead '?' u.query ++ lead '#' u.fragment)) =
    (u.path, lead '?' u.query ++ lead '#' u.fragment) := by
  refine cut_append (fun c hc => ?_) fun c hc => ?_
  · by_contra hend
    simp only [Bool.not_eq_false, Bool.or_eq_true, beq_iff_eq] at hend
    rcases hend with rfl | rfl
    · exact notMem_of_isEncoded h.path (by decide) hc
    · exact notMem_of_isEncoded h.path (by decide) hc
  · rcases head?_tail hc with rfl | rfl
    · rfl
    · rfl

theorem cut_query (h : u.WellFormed) : cut (· == '#') (lead '?' u.query ++ lead '#' u.fragment) =
    (lead '?' u.query, lead '#' u.fragment) := by
  refine cut_append (fun c hc => beq_eq_false_iff_ne.2 ?_) fun c hc => beq_iff_eq.2 (head?_lead hc)
  rintro rfl
  obtain ⟨x, hx, heq | hmem⟩ := mem_lead.1 hc
  · exact absurd heq (by decide)
  · exact notMem_of_isEncoded (h.query x hx) (by decide) hmem

/-- **The text of well-formed parts shows the parts.** -/
theorem read_text (h : u.WellFormed) : read u.text = u := by
  simp only [read, cut_scheme h, List.drop_succ_cons, List.drop_zero, cut_authority h, cut_path h, cut_query h, led_lead]
  exact readAuthority_authority h

theorem parse_eq_some {url : Url} : parse cs = some url ↔ url.parts.text = cs := by
  unfold parse
  constructor
  · intro h
    split at h
    · rename_i hread
      cases h
      exact hread.2
    · cases h
  · rintro rfl
    have hread := read_text url.wellFormed
    rw [dif_pos ⟨hread.symm ▸ url.wellFormed, by rw [hread]⟩]
    cases url
    simp only [hread]

end

end Url
