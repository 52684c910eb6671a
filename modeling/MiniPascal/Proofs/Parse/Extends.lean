import MiniPascal.Parse.Rules
import MiniPascal.Proofs.Sequence

namespace MiniPascal

variable {α β : Type}

/-- The same place of a scan that goes on with further lexemes, and ends differently. -/
def Cursor.extend (cursor : Cursor) (tail : List Lexeme) (failure : Option ScanError) : Cursor :=
  { cursor with rest := cursor.rest ++ tail, failure := failure }

namespace Parser

/-- The cursor where a rule ends, with a result or without. -/
def ending : EStateM.Result ParseStop Cursor α → Cursor
  | .ok _ after => after
  | .error _ after => after

/-- How a rule ends on a scan, next to how it ends on a front part of it that a failure cuts off: in
the same way, unless the cut showed. Then the rule has gone past the cut on the whole scan. -/
inductive Carries (tail : List Lexeme) (failure : Option ScanError) :
    EStateM.Result ParseStop Cursor α → EStateM.Result ParseStop Cursor α → Prop where
  | ok {result : α} {after : Cursor} (failed : after.failure.isSome) :
    Carries tail failure (.ok result after) (.ok result (after.extend tail failure))
  | unexpected {expected : Expected} {found : Lexeme} {after : Cursor} :
    Carries tail failure (.error (.error (.grammatical expected found)) after)
      (.error (.error (.grammatical expected found)) (after.extend tail failure))
  | further {cause : ScanError} {after : Cursor} {whole : EStateM.Result ParseStop Cursor α}
    (passed : tail = [] ∨ (ending whole).rest.length < tail.length) :
    Carries tail failure (.error (.error (.lexical cause)) after) whole
  | frontOutOfFuel {after : Cursor} {whole : EStateM.Result ParseStop Cursor α} :
    Carries tail failure (.error .outOfFuel after) whole
  | wholeOutOfFuel {front : EStateM.Result ParseStop Cursor α} {after : Cursor} :
    Carries tail failure front (.error .outOfFuel after)

/-- A rule does not look past the token in view. The two sides are one rule with fuel for the front
part and fuel for the whole scan. -/
structure Extends (front whole : Parser α) : Prop where
  shrinks : ∀ cursor, (ending (whole cursor)).rest.length ≤ cursor.rest.length
  carries : ∀ (cursor : Cursor) (tail : List Lexeme) (failure : Option ScanError),
    cursor.failure.isSome →
      Carries tail failure (front cursor) (whole (cursor.extend tail failure))

section Steps

theorem Extends.bind {front whole : Parser α} {next next' : α → Parser β}
    (head : Extends front whole) (tail : ∀ result, Extends (next result) (next' result)) :
    Extends (front >>= next) (whole >>= next') := by
  constructor
  · intro cursor
    have first := head.shrinks cursor
    cases run : whole cursor with
    | ok result after =>
      rw [run] at first
      rw [bind_of_ok run]
      exact Nat.le_trans ((tail result).shrinks after) first
    | error stop after =>
      rw [run] at first
      rw [bind_of_error run]
      exact first
  · intro cursor rest failure failed
    have first := head.carries cursor rest failure failed
    generalize onFront : front cursor = frontOutcome at first
    generalize onWhole : whole (cursor.extend rest failure) = wholeOutcome at first
    cases first with
    | ok failed =>
      rw [bind_of_ok onFront, bind_of_ok onWhole]
      exact (tail _).carries _ rest failure failed
    | unexpected =>
      rw [bind_of_error onFront, bind_of_error onWhole]
      exact .unexpected
    | further passed =>
      rw [bind_of_error onFront]
      refine .further (passed.imp_right fun shorter => ?_)
      cases wholeOutcome with
      | ok result after =>
        rw [bind_of_ok onWhole]
        exact Nat.lt_of_le_of_lt ((tail result).shrinks after) shorter
      | error stop after =>
        rw [bind_of_error onWhole]
        exact shorter
    | frontOutOfFuel =>
      rw [bind_of_error onFront]
      exact .frontOutOfFuel
    | wholeOutOfFuel =>
      rw [bind_of_error onWhole]
      exact .wholeOutOfFuel

theorem Extends.pure (result : α) : Extends (Pure.pure result) (Pure.pure result) :=
  ⟨fun _ => Nat.le_refl _, fun _ _ _ failed => .ok failed⟩

theorem Extends.unexpected (expected : Expected) :
    Extends (Parser.unexpected expected : Parser α) (Parser.unexpected expected) :=
  ⟨fun _ => Nat.le_refl _, fun _ _ _ _ => .unexpected⟩

theorem Extends.ite {condition : Prop} [Decidable condition] {yes no yes' no' : Parser α}
    (taken : Extends yes yes') (left : Extends no no') :
    Extends (if condition then yes else no) (if condition then yes' else no') := by
  split
  · exact taken
  · exact left

theorem peek_extends : Extends peek peek :=
  ⟨fun _ => Nat.le_refl _, fun _ _ _ failed => .ok failed⟩

theorem here_extends : Extends here here :=
  ⟨fun _ => Nat.le_refl _, fun _ _ _ failed => .ok failed⟩

theorem previous_extends : Extends previous previous :=
  ⟨fun _ => Nat.le_refl _, fun _ _ _ failed => .ok failed⟩

theorem note_extends (event : ParseEvent) : Extends (note event) (note event) :=
  ⟨fun _ => Nat.le_refl _, fun _ _ _ failed => .ok failed⟩

/-- On the front part the last token is not passed; on the whole scan it is. -/
theorem advance_extends : Extends advance advance := by
  constructor
  · rintro ⟨current, rest, failure, previous, events⟩
    match rest, failure with
    | next :: rest, _ => exact Nat.le_succ _
    | [], some _ => exact Nat.le_refl _
    | [], none => exact Nat.le_refl _
  · rintro ⟨current, rest, cut, previous, events⟩ tail failure failed
    obtain ⟨cause, rfl⟩ := Option.isSome_iff_exists.mp failed
    match rest, tail with
    | next :: rest, tail => exact .ok rfl
    | [], [] => exact .further (.inl rfl)
    | [], next :: tail => exact .further (.inr (Nat.lt_succ_self _))

theorem sees_extends (kind : Mark) : Extends (sees kind) (sees kind) :=
  peek_extends.bind fun _ => .pure _

theorem eat_extends (kind : Mark) : Extends (eat kind) (eat kind) :=
  (sees_extends kind).bind fun _ => .ite (advance_extends.bind fun _ => .pure _) (.pure _)

theorem expect_extends (kind : Mark) : Extends (expect kind) (expect kind) :=
  (sees_extends kind).bind fun _ => .ite (advance_extends.bind fun _ => .pure _) (.unexpected _)

theorem ident_extends : Extends ident ident := by
  refine peek_extends.bind fun token => ?_
  cases token with
  | ident name => exact advance_extends.bind fun _ => .pure _
  | mark | integer | real | text => exact .unexpected _

theorem atIdent_extends : Extends atIdent atIdent := by
  refine peek_extends.bind fun token => ?_
  cases token with
  | ident name => exact .pure _
  | mark | integer | real | text => exact .pure _

end Steps

/-- A rule that goes on with less fuel is treated once, with fuel left on both of its sides. -/
theorem extends_of_fuel_at {ι : Type} {front whole : Nat → ι → Parser α}
    (frontZero : ∀ index, front 0 index = outOfFuel) (wholeZero : ∀ index, whole 0 index = outOfFuel)
    (succ : ∀ fuel wide, (∀ index, Extends (front fuel index) (whole wide index)) →
      ∀ index, Extends (front (fuel + 1) index) (whole (wide + 1) index))
    (fuel wide : Nat) (index : ι) : Extends (front fuel index) (whole wide index) := by
  induction wide generalizing fuel index with
  | zero =>
    rw [wholeZero]
    exact ⟨fun _ => Nat.le_refl _, fun _ _ _ _ => .wholeOutOfFuel⟩
  | succ wide ih =>
    cases fuel with
    | zero =>
      rw [frontZero]
      exact ⟨(succ 0 wide (ih 0) index).shrinks, fun _ _ _ _ => .frontOutOfFuel⟩
    | succ fuel => exact succ fuel wide (ih fuel) index

theorem extends_of_fuel {front whole : Nat → Parser α} (frontZero : front 0 = outOfFuel)
    (wholeZero : whole 0 = outOfFuel)
    (succ : ∀ fuel wide, Extends (front fuel) (whole wide) →
      Extends (front (fuel + 1)) (whole (wide + 1)))
    (fuel wide : Nat) : Extends (front fuel) (whole wide) :=
  @extends_of_fuel_at _ Unit (fun fuel _ => front fuel) (fun wide _ => whole wide)
    (fun _ => frontZero) (fun _ => wholeZero) (fun fuel wide ih _ => succ fuel wide (ih ()))
    fuel wide ()

theorem sepBy_extends {item item' : Parser α} (separator : Mark) (items : Extends item item')
    (fuel wide : Nat) : Extends (sepBy separator item fuel) (sepBy separator item' wide) := by
  refine extends_of_fuel rfl rfl ?_ fuel wide
  intro fuel wide ih
  refine items.bind fun first => (eat_extends separator).bind fun _ => .ite ?_ (.pure _)
  exact ih.bind fun _ => .pure _

theorem chain_extends {operand operand' : Parser Expr} (operator? : Token → Option BinaryOp)
    (operands : Extends operand operand') (fuel wide : Nat) (left : Expr) :
    Extends (chain operator? operand fuel left) (chain operator? operand' wide left) := by
  refine extends_of_fuel_at (fun _ => rfl) (fun _ => rfl) ?_ fuel wide left
  intro fuel wide ih left
  refine peek_extends.bind fun token => ?_
  cases operator? token with
  | none => exact .pure _
  | some op => exact advance_extends.bind fun _ => operands.bind fun right => ih _

section Expressions

variable {factor factor' expression expression' : Parser Expr}

theorem product_extends (factors : Extends factor factor') (fuel wide : Nat) :
    Extends (product fuel factor) (product wide factor') :=
  factors.bind fun first => chain_extends productOp? factors fuel wide first

theorem sum_extends (factors : Extends factor factor') (fuel wide : Nat) :
    Extends (sum fuel factor) (sum wide factor') := by
  have products := product_extends factors fuel wide
  exact products.bind fun first => chain_extends sumOp? products fuel wide first

theorem arguments_extends (expressions : Extends expression expression') (fuel wide : Nat) :
    Extends (arguments fuel expression) (arguments wide expression') := by
  refine (expect_extends .leftParen).bind fun _ => (eat_extends .rightParen).bind fun _ => ?_
  refine .ite (.pure _) ?_
  refine (sepBy_extends .comma expressions fuel wide).bind fun args => ?_
  exact (expect_extends .rightParen).bind fun _ => .pure _

end Expressions

theorem factor_extends (fuel wide : Nat) : Extends (factor fuel) (factor wide) := by
  refine extends_of_fuel rfl rfl ?_ fuel wide
  intro fuel wide ih
  have inner := sum_extends ih fuel wide
  refine here_extends.bind fun start => peek_extends.bind fun token => ?_
  cases token with
  | mark kind =>
    cases kind with
    | plus | minus => exact advance_extends.bind fun _ => ih.bind fun operand => .pure _
    | leftParen =>
      refine advance_extends.bind fun _ => inner.bind fun expr => ?_
      exact (expect_extends .rightParen).bind fun _ => previous_extends.bind fun _ => .pure _
    | _ => exact .unexpected _
  | integer | real | text => exact advance_extends.bind fun _ => .pure _
  | ident =>
    refine ident_extends.bind fun name => (sees_extends .leftParen).bind fun _ => .ite ?_ (.pure _)
    refine (arguments_extends inner fuel wide).bind fun args => ?_
    exact previous_extends.bind fun _ => .pure _

theorem expression_extends (fuel wide : Nat) : Extends (expression fuel) (expression wide) :=
  sum_extends (factor_extends fuel wide) fuel wide

theorem condition_extends (fuel wide : Nat) : Extends (condition fuel) (condition wide) := by
  refine (expression_extends fuel wide).bind fun left => peek_extends.bind fun token => ?_
  cases relationalOp? token with
  | none => exact .unexpected _
  | some op =>
    exact advance_extends.bind fun _ => (expression_extends fuel wide).bind fun right => .pure _

theorem assignmentOrCall_extends (fuel wide : Nat) :
    Extends (assignmentOrCall fuel) (assignmentOrCall wide) := by
  have bare (name : Ident) : Extends
      (do return Stmt.call name [] (name.span.merge (← previous)))
      (do return Stmt.call name [] (name.span.merge (← previous))) :=
    previous_extends.bind fun _ => .pure _
  refine ident_extends.bind fun name => peek_extends.bind fun token => ?_
  cases token with
  | mark kind =>
    cases kind with
    | assign =>
      refine advance_extends.bind fun _ => (expression_extends fuel wide).bind fun value => ?_
      exact previous_extends.bind fun _ => .pure _
    | leftParen =>
      refine (arguments_extends (expression_extends fuel wide) fuel wide).bind fun args => ?_
      exact previous_extends.bind fun _ => .pure _
    | _ => exact bare name
  | integer | real | text | ident => exact bare name

theorem compound_extends {statement statement' : Parser Stmt}
    (statements : Extends statement statement') (fuel wide : Nat) :
    Extends (compound fuel statement) (compound wide statement') := by
  refine (expect_extends .kwBegin).bind fun _ => ?_
  refine (sepBy_extends .semicolon statements fuel wide).bind fun body => ?_
  exact (expect_extends .kwEnd).bind fun _ => .pure _

theorem statement_extends (fuel wide : Nat) : Extends (statement fuel) (statement wide) := by
  refine extends_of_fuel rfl rfl ?_ fuel wide
  intro fuel wide ih
  refine here_extends.bind fun start => peek_extends.bind fun token => ?_
  cases token with
  | mark kind =>
    cases kind with
    | kwBegin =>
      refine (compound_extends ih fuel wide).bind fun body => ?_
      exact previous_extends.bind fun _ => .pure _
    | kwIf =>
      refine advance_extends.bind fun _ => (condition_extends fuel wide).bind fun cond => ?_
      refine (expect_extends .kwThen).bind fun _ => ih.bind fun branch => ?_
      refine (eat_extends .kwElse).bind fun _ => .ite ?_ ?_
      · exact ih.bind fun otherwise => previous_extends.bind fun _ => .pure _
      · exact previous_extends.bind fun _ => .pure _
    | kwRepeat =>
      refine advance_extends.bind fun _ => ?_
      refine (sepBy_extends .semicolon ih fuel wide).bind fun body => ?_
      refine (expect_extends .kwUntil).bind fun _ => (condition_extends fuel wide).bind fun cond => ?_
      exact previous_extends.bind fun _ => .pure _
    | _ => exact .pure _
  | integer | real | text => exact .pure _
  | ident => exact assignmentOrCall_extends fuel wide

theorem varType_extends : Extends varType varType := by
  refine peek_extends.bind fun token => ?_
  cases token with
  | mark kind =>
    cases kind with
    | kwInteger | kwReal => exact advance_extends.bind fun _ => .pure _
    | _ => exact .unexpected _
  | integer | real | text | ident => exact .unexpected _

theorem typedNames_extends (fuel wide : Nat) : Extends (typedNames fuel) (typedNames wide) := by
  refine (sepBy_extends .comma ident_extends fuel wide).bind fun names => ?_
  exact (expect_extends .colon).bind fun _ => varType_extends.bind fun type => .pure _

theorem variableGroups_extends (fuel wide : Nat) :
    Extends (variableGroups fuel) (variableGroups wide) := by
  refine extends_of_fuel rfl rfl ?_ fuel wide
  intro fuel wide ih
  refine (typedNames_extends fuel wide).bind fun (names, type) => ?_
  refine (expect_extends .semicolon).bind fun _ => atIdent_extends.bind fun _ => ?_
  exact .ite (ih.bind fun others => .pure _) (.pure _)

theorem parameterList_extends (fuel wide : Nat) :
    Extends (parameterList fuel) (parameterList wide) := by
  refine (eat_extends .leftParen).bind fun _ => .ite ?_ (.pure _)
  refine (eat_extends .rightParen).bind fun _ => .ite (.pure _) ?_
  refine (sepBy_extends .semicolon (typedNames_extends fuel wide) fuel wide).bind fun groups => ?_
  exact (expect_extends .rightParen).bind fun _ => .pure _

section Blocks

variable {block block' : Parser Block}

theorem routine_extends (blocks : Extends block block') (fuel wide : Nat) (kind : RoutineKind) :
    Extends (routine fuel block kind) (routine wide block' kind) := by
  refine advance_extends.bind fun keyword => ident_extends.bind fun name => ?_
  refine (parameterList_extends fuel wide).bind fun params => ?_
  have rest (result : Option VarType) : Extends
      (do
        expect .semicolon
        let body ← block
        note (.parsedRoutine name.name params.length)
        let heading : Heading := ⟨name, params, result, keyword.span.merge (← previous)⟩
        return Decl.routine heading body.declarations body.body)
      (do
        expect .semicolon
        let body ← block'
        note (.parsedRoutine name.name params.length)
        let heading : Heading := ⟨name, params, result, keyword.span.merge (← previous)⟩
        return Decl.routine heading body.declarations body.body) := by
    refine (expect_extends .semicolon).bind fun _ => blocks.bind fun body => ?_
    exact (note_extends _).bind fun _ => previous_extends.bind fun _ => .pure _
  cases kind with
  | procedure => exact rest none
  | function =>
    simp only [bind_map_left]
    exact (expect_extends .colon).bind fun _ => varType_extends.bind fun type => rest (some type)

theorem routines_extends (blocks : Extends block block') (fuel wide : Nat) :
    Extends (routines block fuel) (routines block' wide) := by
  refine extends_of_fuel rfl rfl ?_ fuel wide
  intro fuel wide ih
  have declared (kind : RoutineKind) : Extends
      (do
        let first ← routine fuel block kind
        expect .semicolon
        return first :: (← routines block fuel))
      (do
        let first ← routine wide block' kind
        expect .semicolon
        return first :: (← routines block' wide)) := by
    refine (routine_extends blocks fuel wide kind).bind fun first => ?_
    exact (expect_extends .semicolon).bind fun _ => ih.bind fun others => .pure _
  refine peek_extends.bind fun token => ?_
  cases token with
  | mark kind =>
    cases kind with
    | kwProcedure => exact declared .procedure
    | kwFunction => exact declared .function
    | _ => exact .pure _
  | integer | real | text | ident => exact .pure _

end Blocks

theorem block_extends (fuel wide : Nat) : Extends (block fuel) (block wide) := by
  refine extends_of_fuel rfl rfl ?_ fuel wide
  intro fuel wide ih
  have rest (vars : List Decl) : Extends
      (do
        let nested ← routines (block fuel) fuel
        let body ← compound fuel (statement fuel)
        return Block.mk (vars ++ nested) body)
      (do
        let nested ← routines (block wide) wide
        let body ← compound wide (statement wide)
        return Block.mk (vars ++ nested) body) := by
    refine (routines_extends ih fuel wide).bind fun nested => ?_
    exact (compound_extends (statement_extends fuel wide) fuel wide).bind fun body => .pure _
  refine (eat_extends .kwVar).bind fun _ => .ite ?_ ?_
  · exact (variableGroups_extends fuel wide).bind rest
  · exact (Extends.pure []).bind rest

/-- Whether and where parsing fails does not depend on what stands behind the token in view. -/
theorem program_extends (fuel wide : Nat) : Extends (program fuel) (program wide) := by
  refine (expect_extends .kwProgram).bind fun _ => ident_extends.bind fun name => ?_
  refine (expect_extends .semicolon).bind fun _ => (block_extends fuel wide).bind fun body => ?_
  refine (expect_extends .dot).bind fun _ => (expect_extends .endOfInput).bind fun _ => ?_
  exact (note_extends _).bind fun _ => .pure _

end Parser

end MiniPascal
