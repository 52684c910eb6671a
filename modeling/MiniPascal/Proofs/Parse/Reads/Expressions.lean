import MiniPascal.Proofs.Parse.Reads
import MiniPascal.Proofs.Grammar.Settled

namespace MiniPascal

/-- Reading what a nonterminal derives, the result taken for its tree in the given way. -/
@[simp] def Reading.of {α : Type} (symbol : Nonterminal) (tree : α → symbol.Tree) : Reading α :=
  fun passed result _ => Derives symbol (Lexeme.tokens passed) (tree result)

namespace Parser

theorem sepBy_reads {α γ : Type} (separator : Mark) (open_ : separator ≠ .endOfInput)
    (tree : α → γ) (Item : List Token → γ → Prop) {item : Parser α} (fuel : Nat)
    (reads : Reads fuel item fun passed result _ => Item (Lexeme.tokens passed) (tree result)) :
    Reads fuel (sepBy separator item fuel) fun passed results _ =>
      Separated separator Item (Lexeme.tokens passed) (results.map tree) := by
  induction fuel with
  | zero =>
    obtain ⟨passed, result, seen, read⟩ := (reads (.mark .dot)).viable
    exact .zero ⟨passed, [result], seen, .one read⟩
  | succ fuel ih =>
    intro token
    unfold sepBy
    refine (reads token).bind fun passed first seen read => .ifEat open_ ?_ ?_
    · intro _ lexeme shows seen'
      refine (((ih (reads.mono (Nat.le_succ _))).mono (by omega)) seen').bind ?_
      intro further others last list
      exact .pure (by simpa [shows] using Separated.more read list)
    · exact fun _ => .pure (by simpa using Separated.one read)

/-- The loop over operators goes on with an expression that stands for a chain already read. -/
theorem chain_reads {ops : List BinaryOp} {operator? : Token → Option BinaryOp}
    {operand : Parser Expr} {Operand : List Token → Expr → Prop}
    (operators : ∀ token op, operator? token = some op → token = .mark op.mark ∧ op ∈ ops)
    (fuel : Nat)
    (reads : Reads fuel operand fun passed result _ => Operand (Lexeme.tokens passed) result.bare)
    {before : List Token} {left : Expr} (chained : Chained ops Operand before left.bare) :
    Reads fuel (chain operator? operand fuel left) fun passed result _ =>
      Chained ops Operand (before ++ Lexeme.tokens passed) result.bare := by
  induction fuel generalizing before left with
  | zero => exact .zero ⟨[], left, .mark .dot, by simpa using chained⟩
  | succ fuel ih =>
    intro token
    unfold chain
    refine .peek ?_
    cases found : operator? token with
    | none => exact .pure (by simpa using chained)
    | some op =>
      obtain ⟨rfl, member⟩ := operators token op found
      refine .advance (by cases op <;> simp [BinaryOp.mark]) fun lexeme shows seen => ?_
      refine ((reads.mono (Nat.sub_le _ 1)) seen).bind fun passed right seen' read => ?_
      have longer : Chained ops Operand (before ++ .mark op.mark :: Lexeme.tokens passed)
          (Expr.binary left op right (left.span.merge right.span)).bare := by
        rw [Expr.bare]
        exact .operator chained member read
      refine ((ih (reads.mono (Nat.le_succ _)) longer).mono (by omega) seen').weaken ?_
      intro further result last chained
      simpa [shows] using chained

theorem productOp?_eq_some {token : Token} {op : BinaryOp} (found : productOp? token = some op) :
    token = .mark op.mark ∧ op ∈ BinaryOp.products := by
  unfold productOp? at found
  split at found <;> simp_all <;> subst found <;> decide

theorem sumOp?_eq_some {token : Token} {op : BinaryOp} (found : sumOp? token = some op) :
    token = .mark op.mark ∧ op ∈ BinaryOp.sums := by
  unfold sumOp? at found
  split at found <;> simp_all <;> subst found <;> decide

theorem relationalOp?_eq_some {token : Token} {op : RelationalOp}
    (found : relationalOp? token = some op) : token = .mark op.mark := by
  unfold relationalOp? at found
  split at found <;> simp_all <;> subst found <;> decide

theorem product_reads {fuel : Nat} {factor : Parser Expr}
    (reads : Reads fuel factor (.of .factor Expr.bare)) :
    Reads fuel (product fuel factor) (.of .term Expr.bare) := by
  intro token
  refine (reads token).bind fun passed first seen read => ?_
  have loop := chain_reads (fun _ _ => productOp?_eq_some) fuel reads (.operand read)
  refine ((loop.mono (Nat.sub_le _ _)) seen).weaken fun further result last chained => ?_
  simpa using Derives.term chained

theorem sum_reads {fuel : Nat} {factor : Parser Expr}
    (reads : Reads fuel factor (.of .factor Expr.bare)) :
    Reads fuel (sum fuel factor) (.of .expr Expr.bare) := by
  intro token
  refine (product_reads reads token).bind fun passed first seen read => ?_
  have loop := chain_reads (fun _ _ => sumOp?_eq_some) fuel (product_reads reads) (.operand read)
  refine ((loop.mono (Nat.sub_le _ _)) seen).weaken fun further result last chained => ?_
  simpa using Derives.expr chained

theorem arguments_reads {fuel : Nat} {expression : Parser Expr}
    (reads : Reads fuel expression (.of .expr Expr.bare)) :
    Reads fuel (arguments fuel expression) (.of .arguments Expr.bareAll) := by
  intro token
  refine .expect (by decide) fun open_ opens seen => .ifEat (by decide) ?_ ?_
  · intro _ close closes seen'
    exact .pure (by simpa [opens, closes, Expr.bareAll] using Derives.noArguments)
  · intro _
    have list := (sepBy_reads .comma (by decide) Expr.bare (Derives .expr) fuel reads).mono (Nat.sub_le _ 1)
    refine (list seen).bind fun passed args seen' separated => .expect (by decide) ?_
    intro close closes last
    exact .pure (by simpa [opens, closes, Expr.bareAll_eq_map] using Derives.someArguments separated)

theorem factor_reads (fuel : Nat) : Reads fuel (factor fuel) (.of .factor Expr.bare) := by
  have viable : (Reading.of .factor Expr.bare).Viable :=
    ⟨[⟨.text "", .blank⟩], .text "" .blank, .mark .dot, by simpa [Expr.bare] using Derives.text⟩
  induction fuel with
  | zero => exact .zero viable
  | succ fuel ih =>
    intro token
    refine .here fun start => .peek ?_
    cases token with
    | mark kind =>
      cases kind with
      | plus =>
        refine .advance (by simp) fun lexeme shows seen => (ih seen).bind ?_
        intro passed operand last read
        exact .pure (by simpa [shows, Expr.bare, UnaryOp.mark] using Derives.sign .plus read)
      | minus =>
        refine .advance (by simp) fun lexeme shows seen => (ih seen).bind ?_
        intro passed operand last read
        exact .pure (by simpa [shows, Expr.bare, UnaryOp.mark] using Derives.sign .minus read)
      | leftParen =>
        refine .advance (by simp) fun open_ opens seen => (sum_reads ih seen).bind ?_
        intro passed inner seen' read
        refine .expect (by decide) fun close closes last => .previous fun span => ?_
        exact .pure (by simpa [opens, closes, Expr.withSpan_bare] using Derives.parentheses read)
      | _ => exact .unexpected viable
    | integer value =>
      refine .advance (by simp) fun lexeme shows seen => ?_
      exact .pure (by simpa [shows, Expr.bare] using Derives.integer)
    | real value =>
      refine .advance (by simp) fun lexeme shows seen => ?_
      exact .pure (by simpa [shows, Expr.bare] using Derives.real)
    | text value =>
      refine .advance (by simp) fun lexeme shows seen => ?_
      exact .pure (by simpa [shows, Expr.bare] using Derives.text)
    | ident name =>
      refine .ident fun lexeme name shows seen => .sees ?_
      split
      · refine (arguments_reads (sum_reads ih) seen).bind fun passed args last read => ?_
        exact .previous fun span =>
          .pure (by simpa [shows, Expr.bare, Ident.bare] using Derives.callFactor read)
      · exact .pure (by simpa [shows, Expr.bare] using Derives.var)

theorem expression_reads (fuel : Nat) : Reads fuel (expression fuel) (.of .expr Expr.bare) :=
  sum_reads (factor_reads fuel)

theorem condition_reads (fuel : Nat) : Reads fuel (condition fuel) (.of .condition Expr.bare) := by
  intro token
  refine (expression_reads fuel token).bind fun passed left seen read => .peek ?_
  cases found : relationalOp? seen with
  | none =>
    obtain ⟨more, right, last, second⟩ := (expression_reads fuel token).viable
    refine .unexpected ⟨⟨.mark .less, .blank⟩ :: more, .relational left .less right .blank, last, ?_⟩
    simpa [Expr.bare, RelationalOp.mark] using Derives.condition .less read second
  | some op =>
    have shown := relationalOp?_eq_some found
    refine .advance (by rw [shown]; cases op <;> simp [RelationalOp.mark]) fun lexeme shows seen' => ?_
    refine ((expression_reads fuel).mono (by omega) seen').bind fun further right last second => ?_
    exact .pure (by simpa [shows, shown, Expr.bare] using Derives.condition op read second)

end Parser

end MiniPascal
