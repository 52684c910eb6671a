import MiniPascal.Proofs.Parse.Extends

namespace MiniPascal

variable {α β : Type}

namespace Parser

/-- A rule that notes nothing, whether it succeeds or stops. -/
def Silent (rule : Parser α) : Prop := ∀ cursor, (ending (rule cursor)).events = cursor.events

section Steps

theorem Silent.bind {rule : Parser α} {next : α → Parser β} (head : Silent rule)
    (tail : ∀ result, Silent (next result)) : Silent (rule >>= next) := by
  intro cursor
  have first := head cursor
  cases run : rule cursor with
  | ok result after =>
    rw [run] at first
    rw [bind_of_ok run]
    exact (tail result after).trans first
  | error stop after =>
    rw [run] at first
    rw [bind_of_error run]
    exact first

theorem Silent.pure (result : α) : Silent (Pure.pure result) := fun _ => rfl

theorem Silent.map {rule : Parser α} (silent : Silent rule) (f : α → β) : Silent (f <$> rule) := by
  rw [map_eq_pure_bind]
  exact silent.bind fun _ => .pure _

theorem Silent.unexpected (expected : Expected) : Silent (Parser.unexpected expected : Parser α) :=
  fun _ => rfl

theorem Silent.outOfFuel : Silent (Parser.outOfFuel : Parser α) := fun _ => rfl

theorem Silent.ite {condition : Prop} [Decidable condition] {yes no : Parser α} (taken : Silent yes)
    (left : Silent no) : Silent (if condition then yes else no) := by
  split
  · exact taken
  · exact left

theorem peek_silent : Silent peek := fun _ => rfl

theorem here_silent : Silent here := fun _ => rfl

theorem previous_silent : Silent previous := fun _ => rfl

theorem advance_silent : Silent advance := by
  rintro ⟨current, rest, failure, previous, events⟩
  match rest, failure with
  | _ :: _, _ | [], some _ | [], none => rfl

theorem sees_silent (kind : Mark) : Silent (sees kind) := peek_silent.bind fun _ => .pure _

theorem eat_silent (kind : Mark) : Silent (eat kind) :=
  (sees_silent kind).bind fun _ => .ite (advance_silent.bind fun _ => .pure _) (.pure _)

theorem expect_silent (kind : Mark) : Silent (expect kind) :=
  (sees_silent kind).bind fun _ => .ite (advance_silent.bind fun _ => .pure _) (.unexpected _)

theorem ident_silent : Silent ident := by
  refine peek_silent.bind fun token => ?_
  split
  · exact advance_silent.bind fun _ => .pure _
  · exact .unexpected _

theorem atIdent_silent : Silent atIdent := by
  refine peek_silent.bind fun token => ?_
  split
  · exact .pure _
  · exact .pure _

end Steps

section Expressions

theorem sepBy_silent {item : Parser α} (separator : Mark) (items : Silent item) (fuel : Nat) :
    Silent (sepBy separator item fuel) := by
  induction fuel with
  | zero => exact .outOfFuel
  | succ fuel ih =>
    refine items.bind fun first => (eat_silent separator).bind fun _ => .ite ?_ (.pure _)
    exact ih.bind fun _ => .pure _

theorem chain_silent {operand : Parser Expr} (operator? : Token → Option BinaryOp)
    (operands : Silent operand) (fuel : Nat) (left : Expr) :
    Silent (chain operator? operand fuel left) := by
  induction fuel generalizing left with
  | zero => exact .outOfFuel
  | succ fuel ih =>
    refine peek_silent.bind fun token => ?_
    split
    · exact .pure _
    · exact advance_silent.bind fun _ => operands.bind fun right => ih _

theorem sum_silent {factor : Parser Expr} (factors : Silent factor) (fuel : Nat) :
    Silent (sum fuel factor) := by
  have products : Silent (product fuel factor) :=
    factors.bind fun first => chain_silent productOp? factors fuel first
  exact products.bind fun first => chain_silent sumOp? products fuel first

theorem arguments_silent {expression : Parser Expr} (expressions : Silent expression) (fuel : Nat) :
    Silent (arguments fuel expression) := by
  refine (expect_silent .leftParen).bind fun _ => (eat_silent .rightParen).bind fun _ => ?_
  refine .ite (.pure _) ((sepBy_silent .comma expressions fuel).bind fun args => ?_)
  exact (expect_silent .rightParen).bind fun _ => .pure _

theorem factor_silent (fuel : Nat) : Silent (factor fuel) := by
  induction fuel with
  | zero => exact .outOfFuel
  | succ fuel ih =>
    refine here_silent.bind fun start => peek_silent.bind fun token => ?_
    cases token with
    | mark kind =>
      cases kind with
      | plus | minus => exact advance_silent.bind fun _ => ih.bind fun operand => .pure _
      | leftParen =>
        refine advance_silent.bind fun _ => (sum_silent ih fuel).bind fun inner => ?_
        exact (expect_silent .rightParen).bind fun _ => previous_silent.bind fun _ => .pure _
      | _ => exact .unexpected _
    | integer | real | text => exact advance_silent.bind fun _ => .pure _
    | ident =>
      refine ident_silent.bind fun name => (sees_silent .leftParen).bind fun _ => .ite ?_ (.pure _)
      refine (arguments_silent (sum_silent ih fuel) fuel).bind fun args => ?_
      exact previous_silent.bind fun _ => .pure _

theorem expression_silent (fuel : Nat) : Silent (expression fuel) :=
  sum_silent (factor_silent fuel) fuel

theorem condition_silent (fuel : Nat) : Silent (condition fuel) := by
  refine (expression_silent fuel).bind fun left => peek_silent.bind fun token => ?_
  split
  · exact .unexpected _
  · exact advance_silent.bind fun _ => (expression_silent fuel).bind fun right => .pure _

end Expressions

section Statements

theorem assignmentOrCall_silent (fuel : Nat) : Silent (assignmentOrCall fuel) := by
  refine ident_silent.bind fun name => peek_silent.bind fun token => ?_
  split
  · refine advance_silent.bind fun _ => (expression_silent fuel).bind fun value => ?_
    exact previous_silent.bind fun _ => .pure _
  · refine (arguments_silent (expression_silent fuel) fuel).bind fun args => ?_
    exact previous_silent.bind fun _ => .pure _
  · exact previous_silent.bind fun _ => .pure _

theorem compound_silent {statement : Parser Stmt} (statements : Silent statement) (fuel : Nat) :
    Silent (compound fuel statement) := by
  refine (expect_silent .kwBegin).bind fun _ => ?_
  refine (sepBy_silent .semicolon statements fuel).bind fun body => ?_
  exact (expect_silent .kwEnd).bind fun _ => .pure _

theorem statement_silent (fuel : Nat) : Silent (statement fuel) := by
  induction fuel with
  | zero => exact .outOfFuel
  | succ fuel ih =>
    refine here_silent.bind fun start => peek_silent.bind fun token => ?_
    split
    · exact (compound_silent ih fuel).bind fun body => previous_silent.bind fun _ => .pure _
    · refine advance_silent.bind fun _ => (condition_silent fuel).bind fun cond => ?_
      refine (expect_silent .kwThen).bind fun _ => ih.bind fun branch => ?_
      refine (eat_silent .kwElse).bind fun _ => .ite ?_ ?_
      · exact ih.bind fun otherwise => previous_silent.bind fun _ => .pure _
      · exact previous_silent.bind fun _ => .pure _
    · refine advance_silent.bind fun _ => (sepBy_silent .semicolon ih fuel).bind fun body => ?_
      refine (expect_silent .kwUntil).bind fun _ => (condition_silent fuel).bind fun cond => ?_
      exact previous_silent.bind fun _ => .pure _
    · exact assignmentOrCall_silent fuel
    · exact .pure _

end Statements

section Declarations

theorem varType_silent : Silent varType := by
  refine peek_silent.bind fun token => ?_
  split
  · exact advance_silent.bind fun _ => .pure _
  · exact advance_silent.bind fun _ => .pure _
  · exact .unexpected _

theorem typedNames_silent (fuel : Nat) : Silent (typedNames fuel) := by
  refine (sepBy_silent .comma ident_silent fuel).bind fun names => ?_
  exact (expect_silent .colon).bind fun _ => varType_silent.bind fun type => .pure _

theorem variableGroups_silent (fuel : Nat) : Silent (variableGroups fuel) := by
  induction fuel with
  | zero => exact .outOfFuel
  | succ fuel ih =>
    refine (typedNames_silent fuel).bind fun (names, type) => (expect_silent .semicolon).bind fun _ => ?_
    exact atIdent_silent.bind fun _ => .ite (ih.bind fun others => .pure _) (.pure _)

theorem parameterList_silent (fuel : Nat) : Silent (parameterList fuel) := by
  refine (eat_silent .leftParen).bind fun _ => .ite ?_ (.pure _)
  refine (eat_silent .rightParen).bind fun _ => .ite (.pure _) ?_
  refine (sepBy_silent .semicolon (typedNames_silent fuel) fuel).bind fun groups => ?_
  exact (expect_silent .rightParen).bind fun _ => .pure _

end Declarations

end Parser

end MiniPascal
