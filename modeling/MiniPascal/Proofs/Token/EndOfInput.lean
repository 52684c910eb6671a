import MiniPascal.Token.Scan

namespace MiniPascal

/-- The end of the input is not among these tokens. -/
def Token.NoEnd (tokens : List Token) : Prop := .mark .endOfInput ∉ tokens

@[simp] theorem Token.noEnd_nil : NoEnd [] := List.not_mem_nil

@[simp] theorem Token.noEnd_cons {token : Token} {tokens : List Token} :
    NoEnd (token :: tokens) ↔ token ≠ .mark .endOfInput ∧ NoEnd tokens := by
  simp [NoEnd, eq_comm]

@[simp] theorem Token.noEnd_append {tokens others : List Token} :
    NoEnd (tokens ++ others) ↔ NoEnd tokens ∧ NoEnd others := by
  simp [NoEnd]

/-- Nothing follows the end of the input. -/
def Token.EndLast (tokens : List Token) : Prop :=
  ∀ before after, tokens = before ++ .mark .endOfInput :: after → after = []

theorem Token.EndLast.of_append {tokens rest : List Token} (last : EndLast (tokens ++ rest)) :
    EndLast tokens := by
  intro before after split
  have nothing := last before (after ++ rest) (by rw [split, List.append_assoc, List.cons_append])
  exact (List.append_eq_nil_iff.mp nothing).1

theorem Token.NoEnd.endLast {tokens : List Token} (free : NoEnd tokens) :
    EndLast (tokens ++ [.mark .endOfInput]) := by
  intro before after split
  rcases List.eq_nil_or_concat after with nothing | ⟨others, last, rfl⟩
  · exact nothing
  · rw [List.concat_eq_append, ← List.cons_append, ← List.append_assoc] at split
    obtain ⟨rfl, -⟩ := List.append_inj' split rfl
    simp at free

/-- No text stands for the end of the input. -/
theorem Pattern.yields_ne_end {pattern : Pattern} (listed : pattern ∈ all) (text : List Char) :
    pattern.yields text ≠ .token (.mark .endOfInput) := by
  simp only [all, List.mem_append, List.mem_cons, List.mem_map, List.not_mem_nil, or_false] at listed
  rcases listed with ((comment | ⟨mark, keyword, rfl⟩) | constant) | ⟨mark, symbol, rfl⟩
  · rcases comment with rfl | rfl | rfl <;> exact nofun
  · intro same
    cases same
    exact absurd keyword (by decide)
  · rcases constant with rfl | rfl | rfl | rfl
    · intro same
      rw [Pattern.integer] at same
      dsimp only at same
      split at same <;> cases same
    · exact nofun
    · exact nofun
    · exact nofun
  · intro same
    cases same
    exact absurd symbol (by decide)

theorem Pattern.longer_mem {text : List Char} {patterns : List Pattern}
    {best : Option (Nat × Pattern)} {pattern : Pattern}
    (known : ∀ found ∈ best, found.2 ∈ patterns) (listed : pattern ∈ patterns) :
    ∀ found ∈ longer text best pattern, found.2 ∈ patterns := by
  intro found member
  revert member
  fun_cases longer text best pattern with
  | case1 | case4 => exact known found
  | case2 | case3 =>
    rintro ⟨⟩
    exact listed

theorem Pattern.best?_mem {text : List Char} {length : Nat} {pattern : Pattern}
    (found : best? text = some (length, pattern)) : pattern ∈ all := by
  have kept (patterns : List Pattern) (best : Option (Nat × Pattern)) (within : patterns ⊆ all)
      (known : ∀ found ∈ best, found.2 ∈ all) :
      ∀ found ∈ patterns.foldl (longer text) best, found.2 ∈ all := by
    induction patterns generalizing best with
    | nil => exact known
    | cons first rest ih =>
      rw [List.cons_subset] at within
      exact ih _ within.2 (longer_mem known within.1)
  exact kept all none (List.Subset.refl _) nofun _ found

/-- A scan without a failure ends with the end of the input, which stands nowhere else in a scan. -/
theorem Scan.startingAt_tokens (offset skip : Nat) (text : List Char) : ∃ before,
    Token.NoEnd before ∧ (startingAt offset skip text).lexemes.map Lexeme.token =
      before ++ if (startingAt offset skip text).failure = none then [.mark .endOfInput] else [] := by
  fun_induction startingAt offset skip text with
  | case1 => exact ⟨[], Token.noEnd_nil, rfl⟩
  | case2 offset skip c rest ih => exact ih
  | case3 => exact ⟨[], Token.noEnd_nil, rfl⟩
  | case4 offset c rest length pattern best taken after nothing ih => exact ih
  | case5 offset c rest length pattern best taken span after token yields ih =>
    obtain ⟨before, free, tokens⟩ := ih
    have real : token ≠ .mark .endOfInput := by
      rintro rfl
      exact Pattern.yields_ne_end (Pattern.best?_mem best) _ yields
    refine ⟨token :: before, Token.noEnd_cons.mpr ⟨real, free⟩, ?_⟩
    rw [Scan.cons, List.map_cons, tokens, List.cons_append]
  | case6 => exact ⟨[], Token.noEnd_nil, rfl⟩

theorem scan_endLast (source : String) :
    Token.EndLast ((scan source).lexemes.map Lexeme.token) := by
  obtain ⟨before, free, tokens⟩ := Scan.startingAt_tokens 0 0 source.toList
  rw [scan, tokens]
  split
  · exact free.endLast
  · rw [List.append_nil]
    exact free.endLast.of_append

end MiniPascal
