import A2AGateway.Lib.Delimited

/-!
# Subjects of a message bus

A subject is a text of tokens with separators between them. A subscription gives a pattern: the token `one` stands for
any token, and the token `all` at its end for one or more tokens. A pattern without the two is for its own subject alone
(`subscribes_literal`); one that ends with `all` is for subjects that begin as it does (`prefix_of_subscribes`).
-/

namespace Subjects

variable {α : Type} [DecidableEq α]

/-- Token by token. -/
def covers (one all : List α) : List (List α) → List (List α) → Bool
  | [], [] => true
  | p :: ps, t :: ts => (p = all ∧ ps = []) || ((p = one || p = t) && covers one all ps ts)
  | _, _ => false

/-- The separator and the two wildcards are single letters. -/
def subscribes (sep one all : α) (pattern subject : List α) : Bool :=
  covers [one] [all] (pattern.splitOn sep) (subject.splitOn sep)

variable {sep one all : α} {pattern subject : List α}

theorem covers_literal {one all : List α} : ∀ {ps ts : List (List α)}, (∀ p ∈ ps, p ≠ one ∧ p ≠ all) →
    (covers one all ps ts = true ↔ ps = ts)
  | [], [], _ => by simp [covers]
  | [], _ :: _, _ => by simp [covers]
  | _ :: _, [], _ => by simp [covers]
  | p :: ps, t :: ts, h => by
    obtain ⟨⟨hone, hall⟩, hps⟩ := List.forall_mem_cons.1 h
    simp [covers, hone, hall, covers_literal hps]

/-- The tokens of a text without the letter are not the letter. -/
theorem ne_of_splitOn {c : α} (h : c ∉ subject) {t : List α} (ht : t ∈ subject.splitOn sep) : t ≠ [c] := by
  rintro rfl
  exact h ((Delimited.mem_splitOn ht).2 (List.mem_singleton_self c))

/-- **A pattern without wildcards is for its own subject alone.** -/
theorem subscribes_literal (hone : one ∉ pattern) (hall : all ∉ pattern) :
    subscribes sep one all pattern subject = true ↔ pattern = subject := by
  rw [subscribes, covers_literal fun p hp => ⟨ne_of_splitOn hone hp, ne_of_splitOn hall hp⟩]
  constructor
  · intro h
    have hjoin := congrArg [sep].intercalate h
    rwa [List.intercalate_splitOn, List.intercalate_splitOn] at hjoin
  · rintro rfl
    rfl

/-- Before the wildcard at the end. -/
theorem prefix_of_covers {one all : List α} : ∀ {ps ts : List (List α)}, (∀ p ∈ ps, p ≠ one ∧ p ≠ all) →
    covers one all (ps ++ [all]) ts = true → ∃ t rest, ts = ps ++ t :: rest
  | [], [], _, h => by simp [covers] at h
  | [], t :: ts, _, _ => ⟨t, ts, rfl⟩
  | _ :: _, [], _, h => by simp [covers] at h
  | p :: ps, t :: ts, hlit, h => by
    obtain ⟨⟨hone, hall⟩, hps⟩ := List.forall_mem_cons.1 hlit
    have hboth : p = t ∧ covers one all (ps ++ [all]) ts = true := by simpa [covers, hone, hall] using h
    obtain ⟨t', rest, rfl⟩ := prefix_of_covers hps hboth.2
    exact ⟨t', rest, by rw [hboth.1]; rfl⟩

omit [DecidableEq α] in
theorem intercalate_append (t : List α) (rest : List (List α)) : ∀ {ps : List (List α)}, ps ≠ [] →
    [sep].intercalate (ps ++ t :: rest) = [sep].intercalate ps ++ sep :: [sep].intercalate (t :: rest)
  | [p], _ => by simp [List.intercalate_cons_cons]
  | p :: q :: ps, _ => by
    have ih := intercalate_append t rest (List.cons_ne_nil q ps)
    rw [List.cons_append, List.cons_append, List.intercalate_cons_cons, ← List.cons_append, ih, List.intercalate_cons_cons]
    simp

/-- **What a pattern with a wildcard at its end is for begins as the pattern does.** -/
theorem prefix_of_subscribes (hone : one ∉ pattern) (hall : all ∉ pattern) (hsep : all ≠ sep)
    (h : subscribes sep one all (pattern ++ [sep, all]) subject = true) : pattern ++ [sep] <+: subject := by
  have hlast : [all].splitOn sep = [[all]] := List.splitOn_eq_singleton (by simpa using Ne.symm hsep)
  rw [subscribes, show pattern ++ [sep, all] = pattern ++ sep :: [all] from rfl, List.splitOn_append_cons_self, hlast] at h
  obtain ⟨t, rest, htokens⟩ := prefix_of_covers (fun p hp => ⟨ne_of_splitOn hone hp, ne_of_splitOn hall hp⟩) h
  refine ⟨[sep].intercalate (t :: rest), ?_⟩
  have hjoin := @intercalate_append α sep t rest _ (List.splitOn_ne_nil sep pattern)
  rw [← htokens, List.intercalate_splitOn, List.intercalate_splitOn] at hjoin
  rw [hjoin]
  simp

end Subjects
