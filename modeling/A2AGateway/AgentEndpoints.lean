import A2AGateway.AgentDirectory
import A2AGateway.Lib.Delimited
import A2AGateway.Lib.Url
import Mathlib.Data.List.TakeWhile

/-!
# The hosts that an agent's endpoint reaches

`validate_endpoint` looks for the blocked hosts in what it takes to be the host, the text "between ://
and next / or :" (`local_server.rs:314`). The client that calls the agent (`local_server.rs:138`)
connects to the host of the URL, which begins after a userinfo and ends before a query or a fragment
too. Which endpoints get through to a blocked host is said by `blocked_hosts_iff`.
-/

namespace A2AGateway.LocalGateway

/-! ## Blocked hosts -/

/-- "Block cloud metadata services". -/
def Named (host : List Char) : Prop := ∃ b ∈ blockedHosts, eqIgnoreAsciiCase host b.toList = true

def linkLocal : List Char := ['1', '6', '9', '.', '2', '5', '4', '.']

/-- "Block link-local range". -/
def LinkLocal (host : List Char) : Prop := linkLocal.isPrefixOf host = true

def Blocked (host : List Char) : Prop := Named host ∨ LinkLocal host

/-- A part that the splitter takes for the host, or a part of it, gives the URL away. -/
def Caught (u : Url.Parts) : Prop :=
  match u.userinfo with
  | some user => LinkLocal user ∨ ':' ∈ user ∧ Named (user.takeWhile (· != ':'))
  | none => LinkLocal u.host ∨ u.port ≠ none ∨ u.path ≠ [] ∨ u.query = none ∧ u.fragment = none

section
variable {cs a b host : List Char} {c d : Char} {endpoint : String}

theorem validateEndpoint_ok : validateEndpoint endpoint = .ok () ↔
    (['h', 't', 't', 'p', ':', '/', '/'].isPrefixOf endpoint.toList = true ∨
      ['h', 't', 't', 'p', 's', ':', '/', '/'].isPrefixOf endpoint.toList = true) ∧ ¬ Blocked (hostPortion endpoint) := by
  unfold validateEndpoint
  split
  · rename_i hscheme
    refine iff_of_false (fun h => by cases h) fun h => hscheme ?_
    exact Bool.or_eq_true_iff.2 h.1
  · rename_i hscheme
    have hscheme := Bool.or_eq_true_iff.1 (not_not.1 hscheme)
    simp only
    split
    · rename_i hnamed
      exact iff_of_false (fun h => by cases h) fun h => h.2 (.inl (List.any_eq_true.1 hnamed))
    · rename_i hnamed
      split
      · rename_i hlocal
        exact iff_of_false (fun h => by cases h) fun h => h.2 (.inr hlocal)
      · rename_i hlocal
        refine iff_of_true rfl ⟨hscheme, ?_⟩
        rintro (h | h)
        · exact hnamed (List.any_eq_true.2 h)
        · exact hlocal h

theorem blockedHosts_chars : ∀ b ∈ blockedHosts, ∀ c ∈ b.toList.map (·.toLower), c.isAlphanum = true ∨ c = '.' := by
  decide +kernel

/-- A name that is blocked is made of letters, digits and dots. -/
theorem Named.chars (h : Named host) (hc : c ∈ host) : c.isAlphanum = true ∨ c = '.' := by
  obtain ⟨b, hb, hsame⟩ := h
  have hmem : c.toLower ∈ b.toList.map (·.toLower) := by
    rw [← beq_iff_eq.1 hsame]
    exact List.mem_map_of_mem hc
  by_cases hupper : c.isUpper = true
  · left
    show ((c.isUpper || c.isLower) || c.isDigit) = true
    rw [hupper]
    rfl
  · have hlower : c.toLower = c := by
      unfold Char.toLower
      rw [dif_neg]
      exact fun hrange => hupper (decide_eq_true_iff.2 hrange)
    rw [hlower] at hmem
    exact blockedHosts_chars b hb c hmem

theorem notNamed_of_mem (hc : c ∈ host) (hd : (c.isAlphanum || c == '.') = false) : ¬ Named host := by
  intro h
  rcases h.chars hc with halnum | hdot
  · simp [halnum] at hd
  · simp [hdot] at hd

/-- Behind another character nothing is seen of the range. -/
theorem linkLocal_append (hd : d ∉ linkLocal) : LinkLocal (a ++ d :: b) ↔ LinkLocal a := by
  unfold LinkLocal
  rw [List.isPrefixOf_iff_prefix, List.isPrefixOf_iff_prefix, Delimited.prefix_append_cons hd]

/-! ## What the splitter takes for the host -/

def readsOn (c : Char) : Bool := c != '/' && c != ':'

theorem splitAt_append {piece : List Char} (ha : ':' ∉ a) :
    splitAt [':', '/', '/'] 0 piece (a ++ cs) = splitAt [':', '/', '/'] 0 (piece ++ a) cs := by
  induction a generalizing piece with
  | nil => simp
  | cons c a ih =>
    have hc : c ≠ ':' := fun h => ha (h ▸ List.mem_cons_self)
    have hno : [':', '/', '/'].isPrefixOf (c :: (a ++ cs)) = false := by simp [List.isPrefixOf, Ne.symm hc]
    rw [List.cons_append, splitAt, if_neg (by simp [hno]), ih fun h => ha (List.mem_cons_of_mem _ h), List.append_assoc,
      List.singleton_append]

/-- The first piece ends no earlier than what is cut out of it. -/
theorem takeWhile_splitAt {piece : List Char} : ∀ cs, ∃ first more, splitAt [':', '/', '/'] 0 piece cs = first :: more ∧
    first.takeWhile readsOn = (piece ++ cs).takeWhile readsOn := by
  intro cs
  induction cs generalizing piece with
  | nil => exact ⟨piece, [], rfl, by rw [List.append_nil]⟩
  | cons c cs ih =>
    rw [splitAt]
    split
    · rename_i hsep
      have hc : c = ':' := by
        simp only [List.isPrefixOf, Bool.and_eq_true, beq_iff_eq] at hsep
        exact hsep.1.symm
      subst hc
      refine ⟨piece, _, rfl, ?_⟩
      rw [Delimited.takeWhile_append_cons (by rfl)]
    · obtain ⟨first, more, hsplit, htake⟩ := @ih (piece ++ [c])
      exact ⟨first, more, hsplit, by rw [htake, List.append_assoc, List.singleton_append]⟩

theorem hostPortion_eq {scheme rest : List Char} (htext : endpoint.toList = scheme ++ ':' :: '/' :: '/' :: rest)
    (hscheme : ':' ∉ scheme) : hostPortion endpoint = rest.takeWhile readsOn := by
  obtain ⟨first, more, hsplit, htake⟩ := @takeWhile_splitAt [] rest
  have hall : splitAt [':', '/', '/'] 0 [] endpoint.toList = scheme :: first :: more := by
    rw [htext, splitAt_append hscheme, ← hsplit]
    rfl
  simp only [hostPortion, hall]
  exact htake

/-! ## Which endpoints get through -/

section
variable {u : Url.Parts}

theorem scheme_iff {scheme rest name : List Char} (hscheme : ':' ∉ scheme) (hname : ':' ∉ name) :
    (name ++ [':', '/', '/']).isPrefixOf (scheme ++ ':' :: '/' :: '/' :: rest) = true ↔ scheme = name := by
  rw [List.isPrefixOf_iff_prefix]
  constructor
  · rintro ⟨more, h⟩
    rw [List.append_assoc] at h
    exact (Delimited.append_inj_left hname hscheme h).1.symm
  · rintro rfl
    exact ⟨rest, by simp⟩

/-- The splitter reads over the character behind the name: only the range is still seen. -/
theorem blocked_open {name more : List Char} (hname : ∀ c ∈ name, readsOn c = true)
    (hd : (d.isAlphanum || d == '.') = false) (hkept : readsOn d = true) :
    Blocked ((name ++ d :: more).takeWhile readsOn) ↔ LinkLocal name := by
  have hnot : d ∉ linkLocal := by
    intro hmem
    have hall : ∀ c ∈ linkLocal, (c.isAlphanum || c == '.') = true := by decide
    rw [hall d hmem] at hd
    cases hd
  rw [List.takeWhile_append_of_pos hname, List.takeWhile_cons, if_pos hkept]
  unfold Blocked
  rw [linkLocal_append hnot]
  exact or_iff_right (notNamed_of_mem (List.mem_append_right name List.mem_cons_self) hd)

/-- The splitter stops behind the name. -/
theorem takeWhile_closed {name more : List Char} (hname : ∀ c ∈ name, readsOn c = true)
    (hstop : readsOn d = false) :
    (name ++ d :: more).takeWhile readsOn = name := by
  rw [Delimited.takeWhile_append_cons hstop, List.takeWhile_eq_self_iff.2 hname]

theorem kept_of_notMem {name : List Char} (hslash : '/' ∉ name) (hcolon : ':' ∉ name) :
    ∀ c ∈ name, readsOn c = true := by
  intro c hc
  simp only [readsOn, Bool.and_eq_true, bne_iff_ne]
  exact ⟨fun h => hslash (h ▸ hc), fun h => hcolon (h ▸ hc)⟩

/-- Of a login the splitter sees the part before its ':', or all of it and more. -/
theorem blocked_login (h : u.WellFormed) {user rest : List Char} (huser : u.userinfo = some user) :
    Blocked ((user ++ '@' :: rest).takeWhile readsOn) ↔
      LinkLocal user ∨ ':' ∈ user ∧ Named (user.takeWhile (· != ':')) := by
  have hslash : '/' ∉ user := Url.notMem_of_isEncoded (h.userinfo user huser) (by decide)
  by_cases hcolon : ':' ∈ user
  · obtain ⟨name, password, rfl, hname⟩ := List.eq_append_cons_of_mem hcolon
    have hkept := kept_of_notMem (fun hmem => hslash (List.mem_append_left _ hmem)) hname
    have hbefore : (name ++ ':' :: password).takeWhile (· != ':') = name := by
      rw [Delimited.takeWhile_append_cons (by rfl), List.takeWhile_eq_self_iff]
      exact fun c hc => bne_iff_ne.2 fun heq => hname (heq ▸ hc)
    rw [List.append_assoc, List.cons_append, takeWhile_closed hkept (by rfl), hbefore, linkLocal_append (by decide)]
    simp only [Blocked, hcolon, true_and, or_comm]
  · rw [blocked_open (kept_of_notMem hslash hcolon) (by rfl) (by rfl)]
    simp only [hcolon, false_and, or_false]

/-- A blocked host is a name, which the splitter reads to its end. -/
theorem Blocked.kept (h : u.WellFormed) (hblocked : Blocked u.host) : ∀ c ∈ u.host, readsOn c = true := by
  rcases h.host with hname | hliteral
  · exact kept_of_notMem (Url.notMem_of_isEncoded hname (by decide)) (Url.notMem_of_isEncoded hname (by decide))
  · obtain ⟨address, haddress, -⟩ := Url.exists_of_isIpLiteral hliteral
    rw [haddress] at hblocked
    rcases hblocked with hnamed | hlocal
    · exact absurd hnamed (notNamed_of_mem List.mem_cons_self (by rfl))
    · cases hlocal

/-- A blocked host without a login is seen, unless a query or a fragment follows it directly. -/
theorem blocked_name (h : u.WellFormed) (hblocked : Blocked u.host) (huser : u.userinfo = none) :
    Blocked (u.rest.takeWhile readsOn) ↔
      LinkLocal u.host ∨ u.port ≠ none ∨ u.path ≠ [] ∨ u.query = none ∧ u.fragment = none := by
  have hkept := hblocked.kept h
  have hrest : u.rest = u.host ++ (Url.lead ':' u.port ++ (u.path ++ (Url.lead '?' u.query ++ Url.lead '#' u.fragment))) := by
    simp [Url.Parts.rest, Url.Parts.authority, Url.Parts.login, huser]
  rw [hrest]
  cases hport : u.port with
  | some x =>
    simp only [Url.lead, List.cons_append, takeWhile_closed hkept (show readsOn ':' = false from rfl)]
    exact iff_of_true hblocked (.inr (.inl (by simp)))
  | none =>
    cases hpath : u.path with
    | cons c cs =>
      obtain rfl : c = '/' := h.slash c (by rw [hpath]; rfl)
      simp only [Url.lead, List.nil_append, List.cons_append,
        takeWhile_closed hkept (show readsOn '/' = false from rfl)]
      exact iff_of_true hblocked (.inr (.inr (.inl (by simp))))
    | nil =>
      cases hquery : u.query with
      | some x =>
        simp only [Url.lead, List.nil_append, List.cons_append,
          blocked_open hkept (show ('?'.isAlphanum || '?' == '.') = false from rfl) (show readsOn '?' = true from rfl)]
        simp
      | none =>
        cases hfragment : u.fragment with
        | some x =>
          simp only [Url.lead, List.nil_append,
            blocked_open hkept (show ('#'.isAlphanum || '#' == '.') = false from rfl) (show readsOn '#' = true from rfl)]
          simp
        | none =>
          simp only [Url.lead, List.append_nil, List.takeWhile_eq_self_iff.2 hkept]
          exact iff_of_true hblocked (by simp)

/-- **An endpoint that is a URL and accepted gets through to a blocked host if and only if nothing that the splitter
takes for the host gives it away.** -/
theorem blocked_hosts_iff {url : Url} (h : Url.parse endpoint.toList = some url) :
    (validateEndpoint endpoint = .ok () → ¬ Blocked url.parts.host) ↔
      (Blocked url.parts.host → url.parts.scheme = "http".toList ∨ url.parts.scheme = "https".toList →
        Caught url.parts) := by
  have hwf := url.wellFormed
  have htext : endpoint.toList = url.parts.scheme ++ ':' :: '/' :: '/' :: url.parts.rest := (Url.parse_eq_some.1 h).symm
  have hscheme : ':' ∉ url.parts.scheme := hwf.colon_notMem_scheme
  have hhttp : ['h', 't', 't', 'p', ':', '/', '/'].isPrefixOf endpoint.toList = true ↔ url.parts.scheme = "http".toList := by
    have hname : ':' ∉ "http".toList := by decide
    rw [htext]
    exact scheme_iff hscheme hname
  have hhttps : ['h', 't', 't', 'p', 's', ':', '/', '/'].isPrefixOf endpoint.toList = true ↔
      url.parts.scheme = "https".toList := by
    have hname : ':' ∉ "https".toList := by decide
    rw [htext]
    exact scheme_iff hscheme hname
  have hcaught : Blocked url.parts.host → (Blocked (hostPortion endpoint) ↔ Caught url.parts) := by
    intro hblocked
    rw [hostPortion_eq htext hscheme]
    unfold Caught
    cases huser : url.parts.userinfo with
    | none => exact blocked_name hwf hblocked huser
    | some user =>
      have hrest : url.parts.rest = user ++ '@' :: (url.parts.host ++ (Url.lead ':' url.parts.port ++
          (url.parts.path ++ (Url.lead '?' url.parts.query ++ Url.lead '#' url.parts.fragment)))) := by
        simp [Url.Parts.rest, Url.Parts.authority, Url.Parts.login, huser]
      rw [hrest]
      exact blocked_login hwf huser
  rw [validateEndpoint_ok, hhttp, hhttps]
  constructor
  · intro hsafe hblocked hweb
    by_contra hnot
    exact hsafe ⟨hweb, fun hseen => hnot ((hcaught hblocked).1 hseen)⟩ hblocked
  · rintro hcond ⟨hweb, hunseen⟩ hblocked
    exact hunseen ((hcaught hblocked).2 (hcond hblocked hweb))

end

end

namespace DemoEndpoint

/-- Neither port nor path behind the host. -/
def parts (userinfo query : Option (List Char)) (host : List Char) : Url.Parts where
  scheme := "http".toList
  userinfo := userinfo
  host := host
  port := none
  path := []
  query := query
  fragment := none

theorem wellFormed_plain : (parts none none "metadata.internal".toList).WellFormed := by decide +kernel

theorem wellFormed_login : (parts (some ['x']) none "169.254.169.254".toList).WellFormed := by decide +kernel

theorem wellFormed_query : (parts none (some ['x']) "metadata.internal".toList).WellFormed := by decide +kernel

end DemoEndpoint

open DemoEndpoint in
/-- The plain URL of a blocked host. -/
theorem blocked_hosts_iff_demo :
    ∃ url, Url.parse "http://metadata.internal".toList = some url ∧ Blocked url.parts.host ∧
      validateEndpoint "http://metadata.internal" ≠ .ok () := by
  have hparse : Url.parse "http://metadata.internal".toList = some ⟨_, wellFormed_plain⟩ :=
    Url.parse_eq_some.2 (by decide +kernel)
  have hblocked : Blocked "metadata.internal".toList := .inl ⟨"metadata.internal", by decide, by decide +kernel⟩
  have hiff := blocked_hosts_iff hparse
  exact ⟨_, hparse, hblocked, fun hok => hiff.2 (fun _ _ => .inr (.inr (.inr ⟨rfl, rfl⟩))) hok hblocked⟩

open DemoEndpoint in
/-- **Behind a login the metadata service is accepted, and before a query too.** -/
theorem blocked_host_accepted :
    (∃ url, Url.parse "http://x@169.254.169.254".toList = some url ∧ url.parts.host = "169.254.169.254".toList ∧
      validateEndpoint "http://x@169.254.169.254" = .ok () ∧ Blocked url.parts.host) ∧
    ∃ url, Url.parse "http://metadata.internal?x".toList = some url ∧ url.parts.host = "metadata.internal".toList ∧
      validateEndpoint "http://metadata.internal?x" = .ok () ∧ Blocked url.parts.host :=
  ⟨⟨⟨_, wellFormed_login⟩, Url.parse_eq_some.2 (by decide +kernel), rfl, by decide +kernel,
      .inl ⟨"169.254.169.254", by decide, by decide +kernel⟩⟩,
    ⟨⟨_, wellFormed_query⟩, Url.parse_eq_some.2 (by decide +kernel), rfl, by decide +kernel,
      .inl ⟨"metadata.internal", by decide, by decide +kernel⟩⟩⟩

end A2AGateway.LocalGateway
