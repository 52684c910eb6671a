import MiniPascal.Proofs.Grammar.Derives
import MiniPascal.Proofs.Token.EndOfInput

namespace MiniPascal

/-- The tokens of a whole program, with the end of the input as the last of them. -/
def Token.Sentence (tokens : List Token) : Prop := ∃ tree, Derives .program tokens tree

/-- Tokens with which some program begins. -/
def Token.Viable (tokens : List Token) : Prop := ∃ rest, Sentence (tokens ++ rest)

theorem Token.Viable.of_append {tokens rest : List Token} (viable : Viable (tokens ++ rest)) :
    Viable tokens := by
  obtain ⟨further, sentence⟩ := viable
  exact ⟨rest ++ further, by rwa [← List.append_assoc]⟩

theorem Token.viable_nil : Viable [] := by
  have body : Derives .block _ ⟨[], [.empty .blank]⟩ :=
    .block (.noVariables .noRoutines) (.compound (.statementList (.one .emptyStatement)))
  have whole := @Derives.program "p" _ _ body
  exact ⟨_, _, whole⟩

@[simp] theorem BinaryOp.mark_ne_end (op : BinaryOp) : op.mark ≠ .endOfInput := by
  cases op <;> simp [BinaryOp.mark]

@[simp] theorem RelationalOp.mark_ne_end (op : RelationalOp) : op.mark ≠ .endOfInput := by
  cases op <;> simp [RelationalOp.mark]

@[simp] theorem UnaryOp.mark_ne_end (op : UnaryOp) : op.mark ≠ .endOfInput := by
  cases op <;> simp [UnaryOp.mark]

theorem Separated.noEnd_idents {tokens : List Token} {idents : List Ident}
    (list : Separated .comma
      (fun tokens ident => ∃ name, tokens = [.ident name] ∧ ident = .plain name) tokens idents) :
    Token.NoEnd tokens := by
  induction list with
  | one item =>
    obtain ⟨name, rfl, -⟩ := item
    simp
  | more item rest ih =>
    obtain ⟨name, rfl, -⟩ := item
    simp [ih]

/-- Only the rule for programs mentions the end of the input. -/
theorem Derives.noEnd {symbol : Nonterminal} {tokens : List Token} {tree : symbol.Tree}
    (derived : Derives symbol tokens tree) : symbol = .program ∨ Token.NoEnd tokens := by
  -- One motive for the derivations, and one for each kind of list or chain inside them.
  apply @Derives.rec (fun symbol tokens _ _ => symbol = .program ∨ Token.NoEnd tokens)
    (fun tokens _ _ => Token.NoEnd tokens) (fun tokens _ _ => Token.NoEnd tokens)
    (fun tokens _ _ => Token.NoEnd tokens) (fun tokens _ _ => Token.NoEnd tokens)
    (fun tokens _ _ => Token.NoEnd tokens)
  case t => exact derived
  case program => simp
  case typedNames =>
    intro tokens others names type list _ free
    simp_all [list.noEnd_idents]
  all_goals
    intros
    simp_all

theorem Token.Sentence.split {tokens : List Token} (sentence : Sentence tokens) :
    ∃ before, NoEnd before ∧ tokens = before ++ [.mark .endOfInput] := by
  obtain ⟨tree, derived⟩ := sentence
  cases derived with
  | @program name tokens block read =>
    have free : NoEnd tokens := read.noEnd.resolve_left (by simp)
    refine ⟨.mark .kwProgram :: .ident name :: .mark .semicolon :: (tokens ++ [.mark .dot]), ?_, ?_⟩
    · simp [free]
    · simp

/-- What begins a program and has come to the end of the input is the whole program. -/
theorem Token.Viable.sentence {before : List Token}
    (viable : Viable (before ++ [.mark .endOfInput])) : Sentence (before ++ [.mark .endOfInput]) := by
  obtain ⟨rest, sentence⟩ := viable
  obtain ⟨text, free, same⟩ := sentence.split
  rcases List.eq_nil_or_concat rest with rfl | ⟨others, last, rfl⟩
  · rwa [List.append_nil] at sentence
  · rw [List.concat_eq_append, ← List.append_assoc] at same
    obtain ⟨rfl, -⟩ := List.append_inj' same rfl
    simp at free

end MiniPascal
