import MiniPascal.Proofs.Grammar.Derives
import MiniPascal.Proofs.Parse.Alike

namespace MiniPascal

namespace Parser

variable {α β : Type}

/-- A rule that leaves no more tokens to come than it found. -/
def Forward (rule : Parser α) : Prop := ∀ cursor, (ending (rule cursor)).pending ≤ cursor.pending

/-- A rule with another inside it, begun at one cursor, comes to run the inner one at another: two
inner rules that differ only there make a difference. -/
def Enters (outer : Parser α → Parser β) (cursor inside : Cursor) : Prop :=
  ∃ inner inner' : Parser α, Forward inner ∧
    (∀ other, other ≠ inside → inner other = inner' other) ∧ outer inner cursor ≠ outer inner' cursor

/-- Before a rule runs the one inside it, it has consumed a token other than the end of the input. -/
def Consumes (outer : Parser α → Parser β) : Prop :=
  ∀ cursor inside, Enters outer cursor inside → inside.pending < cursor.pending

/-- A rule that goes in rounds, each with the next one inside it, and consumes a token before every
new round. -/
structure Rounds (rule : Nat → Parser α) (round : Nat → Parser α → Parser α) : Prop where
  unrolls : ∀ fuel, rule (fuel + 1) = round fuel (rule fuel)
  forward : ∀ fuel, Forward (rule fuel)
  consumes : ∀ fuel, Consumes (round fuel)

section Definitions

/-- A round of a list: an item, and the others behind a separator. -/
def sepByRound (separator : Mark) (item : Parser α) (again : Parser (List α)) :
    Parser (List α) := do
  let first ← item
  if ← eat separator then
    let others ← again
    return first :: others
  else
    return [first]

/-- A round of a chain: an operator and its right operand. -/
def chainRound (operator? : Token → Option BinaryOp) (operand : Parser Expr)
    (again : Expr → Parser Expr) (left : Expr) : Parser Expr := do
  match operator? (← peek) with
  | none => return left
  | some op =>
    let _ ← advance
    let right ← operand
    again (.binary left op right (left.span.merge right.span))

/-- A factor, with a rule for the factors inside it. -/
def factorRound (fuel : Nat) (inner : Parser Expr) : Parser Expr := do
  let start ← here
  match ← peek with
  | .mark .plus =>
    let _ ← advance
    let operand ← inner
    return .unary .plus operand (start.merge operand.span)
  | .mark .minus =>
    let _ ← advance
    let operand ← inner
    return .unary .minus operand (start.merge operand.span)
  | .integer value =>
    let _ ← advance
    return .number (.integer value) start
  | .real value =>
    let _ ← advance
    return .number (.real value) start
  | .text value =>
    let _ ← advance
    return .text value start
  | .mark .leftParen =>
    let _ ← advance
    let expr ← sum fuel inner
    expect .rightParen
    return expr.withSpan (start.merge (← previous))
  | .ident _ =>
    let name ← ident
    if ← sees .leftParen then
      let args ← arguments fuel (sum fuel inner)
      return .call name args (start.merge (← previous))
    else
      return .var name.name name.span
  | _ => unexpected .expression

/-- A statement, with a rule for the statements inside it. -/
def statementRound (fuel : Nat) (inner : Parser Stmt) : Parser Stmt := do
  let start ← here
  match ← peek with
  | .mark .kwBegin =>
    let body ← compound fuel inner
    return .compound body (start.merge (← previous))
  | .mark .kwIf =>
    let _ ← advance
    let cond ← condition fuel
    expect .kwThen
    let branch ← inner
    if ← eat .kwElse then
      let otherwise ← inner
      return .ifElse cond branch otherwise (start.merge (← previous))
    else
      return .ifThen cond branch (start.merge (← previous))
  | .mark .kwRepeat =>
    let _ ← advance
    let body ← sepBy .semicolon inner fuel
    expect .kwUntil
    let cond ← condition fuel
    return .repeatUntil body cond (start.merge (← previous))
  | .ident _ => assignmentOrCall fuel
  | _ => return .empty (.point start.start)

/-- A round of declared variables: a group of one type, and the other groups. -/
def variableGroupsRound (fuel : Nat) (again : Parser (List Decl)) : Parser (List Decl) := do
  let (names, type) ← typedNames fuel
  expect .semicolon
  let group := names.map fun name => Decl.var name type
  if ← atIdent then
    return group ++ (← again)
  else
    return group

/-- A round of declared routines: a routine and the others. -/
def routinesRound (block : Parser Block) (fuel : Nat) (again : Parser (List Decl)) :
    Parser (List Decl) := do
  let declared (kind : RoutineKind) : Parser (List Decl) := do
    let first ← routine fuel block kind
    expect .semicolon
    return first :: (← again)
  match ← peek with
  | .mark .kwProcedure => declared .procedure
  | .mark .kwFunction => declared .function
  | _ => return []

/-- A block, with a rule for the blocks inside it. -/
def blockRound (fuel : Nat) (inner : Parser Block) : Parser Block := do
  let vars ← if ← eat .kwVar then variableGroups fuel else pure []
  let nested ← routines inner fuel
  let body ← compound fuel (statement fuel)
  return ⟨vars ++ nested, body⟩

/-- The rounds of a chain go on from the expression read so far. -/
structure ChainRounds (operator? : Token → Option BinaryOp) (operand : Parser Expr) : Prop where
  unrolls : ∀ fuel left, chain operator? operand (fuel + 1) left =
    chainRound operator? operand (chain operator? operand fuel) left
  forward : ∀ fuel left, Forward (chain operator? operand fuel left)
  consumes : ∀ left, Consumes fun next => chainRound operator? operand (fun _ => next) left

end Definitions

variable {short : Prop} {bound fuel : Nat}

section Lists

variable {separator : Mark} {item item' : Parser α}

theorem sepByRound_alike {again again' : Parser (List α)} (inner : separator ≠ .endOfInput)
    (items : Alike short bound item item') (next : Alike short (bound - 1) again again') :
    Alike short bound (sepByRound separator item again) (sepByRound separator item' again') := by
  refine items.bind fun first token => .ifEat inner ?_ (.pure _)
  exact next.bind fun others _ => .pure _

theorem sepBy_alike (inner : separator ≠ .endOfInput) (items : Alike short bound item item')
    (enough : short ∨ bound ≤ fuel) :
    Alike short bound (sepBy separator item fuel) (sepBy separator item' fuel) := by
  induction fuel generalizing bound with
  | zero => exact .outOfFuel (enough.imp_right (by omega))
  | succ fuel ih =>
    exact sepByRound_alike inner items (ih (items.mono (Nat.sub_le _ 1)) (enough.imp_right (by omega)))

end Lists

section Expressions

variable {operator? : Token → Option BinaryOp} {operand operand' factor factor' : Parser Expr}

theorem chainRound_alike {again again' : Expr → Parser Expr}
    (ends : operator? (.mark .endOfInput) = none) (operands : Alike short bound operand operand')
    (next : ∀ left, Alike short (bound - 1) (again left) (again' left)) (left : Expr) :
    Alike short bound (chainRound operator? operand again left)
      (chainRound operator? operand' again' left) := by
  intro token
  refine .peek ?_
  cases found : operator? token with
  | none => exact .pure _
  | some op =>
    have inner : token ≠ .mark .endOfInput := by
      rintro rfl
      cases ends.symm.trans found
    refine .advance inner fun _ => (operands.mono (Nat.sub_le _ 1)).bind fun right => ?_
    exact next _

theorem chain_alike (ends : operator? (.mark .endOfInput) = none)
    (operands : Alike short bound operand operand') (enough : short ∨ bound ≤ fuel) (left : Expr) :
    Alike short bound (chain operator? operand fuel left) (chain operator? operand' fuel left) := by
  induction fuel generalizing bound left with
  | zero => exact .outOfFuel (enough.imp_right (by omega))
  | succ fuel ih =>
    exact chainRound_alike ends operands
      (ih (operands.mono (Nat.sub_le _ 1)) (enough.imp_right (by omega))) left

theorem product_alike (factors : Alike short bound factor factor') (enough : short ∨ bound ≤ fuel) :
    Alike short bound (product fuel factor) (product fuel factor') :=
  factors.bind (chain_alike rfl factors enough)

theorem sum_alike (factors : Alike short bound factor factor') (enough : short ∨ bound ≤ fuel) :
    Alike short bound (sum fuel factor) (sum fuel factor') := by
  have products := product_alike factors enough
  exact products.bind (chain_alike rfl products enough)

theorem arguments_alike {expression expression' : Parser Expr}
    (expressions : Alike short bound expression expression') (enough : short ∨ bound ≤ fuel) :
    Alike short bound (arguments fuel expression) (arguments fuel expression') := by
  intro token
  refine .expect (by decide) fun token => .ifEat (by decide) (fun _ => .pure _) ?_
  have list : Alike short bound (sepBy .comma expression fuel) (sepBy .comma expression' fuel) :=
    sepBy_alike (by decide) expressions enough
  refine (list.mono (Nat.sub_le _ 1)).bind (fun args token => ?_) token
  exact .expect (by decide) fun _ => .pure _

theorem factorRound_alike {inner inner' : Parser Expr} (next : Alike short (bound - 1) inner inner')
    (enough : short ∨ bound - 1 ≤ fuel) :
    Alike short bound (factorRound fuel inner) (factorRound fuel inner') := by
  have within := sum_alike next enough
  intro token
  refine .here fun start => .peek ?_
  cases token with
  | mark kind =>
    cases kind with
    | plus | minus =>
      exact .advance (by simp) fun _ => next.bind fun operand _ => .pure _
    | leftParen =>
      refine .advance (by simp) fun _ => within.bind fun expr _ => ?_
      exact .expect (by decide) fun _ => .previous fun _ => .pure _
    | _ => exact .unexpected _
  | integer | real | text => exact .advance (by simp) fun _ _ => .pure _
  | ident =>
    refine .ident fun name token => .sees ?_
    split
    · exact (arguments_alike within enough).bind (fun args _ => .previous fun _ => .pure _) token
    · exact .pure _

theorem factor_alike (enough : short ∨ bound ≤ fuel) :
    Alike short bound (Parser.factor fuel) (Parser.factor fuel) := by
  induction fuel generalizing bound with
  | zero => exact .outOfFuel (enough.imp_right (by omega))
  | succ fuel ih => exact factorRound_alike (ih (enough.imp_right (by omega))) (enough.imp_right (by omega))

theorem expression_alike (enough : short ∨ bound ≤ fuel) :
    Alike short bound (expression fuel) (expression fuel) := sum_alike (factor_alike enough) enough

theorem condition_alike (enough : short ∨ bound ≤ fuel) :
    Alike short bound (condition fuel) (condition fuel) := by
  have operands := expression_alike enough
  refine operands.bind fun left token => .peek ?_
  cases found : relationalOp? token with
  | none => exact .unexpected _
  | some op =>
    have inner : token ≠ .mark .endOfInput := by
      rintro rfl
      cases found
    refine .advance inner fun _ => ?_
    exact (operands.mono (Nat.sub_le _ 1)).bind fun right _ => .pure _

end Expressions

section Statements

theorem assignmentOrCall_alike (enough : short ∨ bound - 1 ≤ fuel) :
    Alike short bound (assignmentOrCall fuel) (assignmentOrCall fuel) := by
  have values : Alike short (bound - 1) (expression fuel) (expression fuel) :=
    expression_alike enough
  intro token
  refine .ident fun name token => .peek ?_
  split
  · refine .advance (by simp) fun _ => (values.mono (Nat.sub_le _ 1)).bind fun value _ => ?_
    exact .previous fun _ => .pure _
  · exact (arguments_alike values enough).bind (fun args _ => .previous fun _ => .pure _) _
  · exact .previous fun _ => .pure _

theorem compound_alike {inner inner' : Parser Stmt} (next : Alike short (bound - 1) inner inner')
    (enough : short ∨ bound - 1 ≤ fuel) :
    Alike short bound (compound fuel inner) (compound fuel inner') := by
  intro token
  refine .expect (by decide) ((sepBy_alike (by decide) next enough).bind fun body token => ?_)
  exact .expect (by decide) fun _ => .pure _

theorem statementRound_alike {inner inner' : Parser Stmt}
    (next : Alike short (bound - 1) inner inner') (enough : short ∨ bound - 1 ≤ fuel) :
    Alike short bound (statementRound fuel inner) (statementRound fuel inner') := by
  have conditions : Alike short (bound - 1) (condition fuel) (condition fuel) :=
    condition_alike enough
  intro token
  refine .here fun start => .peek ?_
  cases token with
  | mark kind =>
    cases kind with
    | kwBegin =>
      exact (compound_alike next enough).bind (fun body _ => .previous fun _ => .pure _) _
    | kwIf =>
      refine .advance (by simp) fun _ => conditions.bind fun cond token => .expect (by decide) ?_
      refine (next.mono (Nat.sub_le _ 1)).bind fun branch token => .ifEat (by decide) ?_ ?_
      · refine (next.mono (by omega)).bind fun otherwise token => ?_
        exact .previous fun _ => .pure _
      · exact .previous fun _ => .pure _
    | kwRepeat =>
      refine .advance (by simp) fun _ => ?_
      refine (sepBy_alike (by decide) next enough).bind fun body token => .expect (by decide) ?_
      refine (conditions.mono (Nat.sub_le _ 1)).bind fun cond token => ?_
      exact .previous fun _ => .pure _
    | _ => exact .pure _
  | integer | real | text => exact .pure _
  | ident => exact assignmentOrCall_alike enough _

theorem statement_alike (enough : short ∨ bound ≤ fuel) :
    Alike short bound (statement fuel) (statement fuel) := by
  induction fuel generalizing bound with
  | zero => exact .outOfFuel (enough.imp_right (by omega))
  | succ fuel ih =>
    exact statementRound_alike (ih (enough.imp_right (by omega))) (enough.imp_right (by omega))

end Statements

section Declarations

theorem varType_alike : Alike short bound varType varType := by
  intro token
  refine .peek ?_
  split
  · exact .advance (by simp) fun _ _ => .pure _
  · exact .advance (by simp) fun _ _ => .pure _
  · exact .unexpected _

theorem typedNames_alike (enough : short ∨ bound ≤ fuel) :
    Alike short bound (typedNames fuel) (typedNames fuel) := by
  refine (sepBy_alike (by decide) ident_alike enough).bind fun names token => ?_
  exact .expect (by decide) (varType_alike.bind fun type _ => .pure _)

theorem variableGroupsRound_alike {again again' : Parser (List Decl)}
    (next : Alike short (bound - 1) again again') (enough : short ∨ bound ≤ fuel) :
    Alike short bound (variableGroupsRound fuel again) (variableGroupsRound fuel again') := by
  refine (typedNames_alike enough).bind fun (names, type) token => .expect (by decide) fun token => ?_
  exact .ifAtIdent (next.bind (fun others _ => .pure _) token) (.pure _)

theorem variableGroups_alike (enough : short ∨ bound ≤ fuel - 1) :
    Alike short bound (variableGroups fuel) (variableGroups fuel) := by
  induction fuel generalizing bound with
  | zero => exact .outOfFuel (enough.imp_right (by omega))
  | succ fuel ih =>
    exact variableGroupsRound_alike (ih (enough.imp_right (by omega))) (enough.imp_right (by omega))

theorem parameterList_alike (enough : short ∨ bound ≤ fuel) :
    Alike short bound (parameterList fuel) (parameterList fuel) := by
  intro token
  refine .ifEat (by decide) (fun token => .ifEat (by decide) (fun _ => .pure _) ?_) (.pure _)
  have groups : Alike short bound (sepBy .semicolon (typedNames fuel) fuel)
      (sepBy .semicolon (typedNames fuel) fuel) :=
    sepBy_alike (by decide) (typedNames_alike enough) enough
  refine (groups.mono (Nat.sub_le _ 1)).bind (fun groups token => ?_) token
  exact .expect (by decide) fun _ => .pure _

variable {block block' : Parser Block}

theorem routine_alike (blocks : Alike short (bound - 1) block block')
    (enough : short ∨ bound - 1 ≤ fuel) (kind : RoutineKind) :
    AlikeAt short (.mark kind.mark) bound (routine fuel block kind) (routine fuel block' kind) := by
  have params : Alike short (bound - 1) (parameterList fuel) (parameterList fuel) :=
    parameterList_alike enough
  refine .advance (by cases kind <;> simp [RoutineKind.mark]) fun keyword token => ?_
  refine .ident fun name => (params.mono (Nat.sub_le _ 1)).bind fun params => ?_
  have rest (result : Option VarType) : Alike short (bound - 1 - 1)
      (do
        expect .semicolon
        let body ← block
        note (.parsedRoutine name.name params.length)
        let heading : Heading := ⟨name, params, result, keyword.span.merge (← previous)⟩
        return Decl.routine heading body.declarations body.body)
      (do
        expect .semicolon
        let body ← block'
        note (.parsedRoutine name.name params.length)
        let heading : Heading := ⟨name, params, result, keyword.span.merge (← previous)⟩
        return Decl.routine heading body.declarations body.body) := by
    intro token
    refine .expect (by decide) ((blocks.mono (by omega)).bind fun body => ?_)
    exact (note_alike _).bind fun _ _ => .previous fun _ => .pure _
  cases kind with
  | procedure => exact rest none
  | function =>
    simp only [bind_map_left]
    intro token
    refine .expect (by decide) (varType_alike.bind fun type => ?_)
    exact (rest (some type)).mono (Nat.sub_le _ 1)

theorem routinesRound_alike {again again' : Parser (List Decl)}
    (blocks : Alike short (bound - 1) block block') (next : Alike short (bound - 1) again again')
    (enough : short ∨ bound - 1 ≤ fuel) :
    Alike short bound (routinesRound block fuel again) (routinesRound block' fuel again') := by
  have declared (kind : RoutineKind) : AlikeAt short (.mark kind.mark) bound
      (do
        let first ← routine fuel block kind
        expect .semicolon
        return first :: (← again))
      (do
        let first ← routine fuel block' kind
        expect .semicolon
        return first :: (← again')) := by
    refine (routine_alike blocks enough kind).bind fun first token => ?_
    exact .expect (by decide) (next.bind fun others _ => .pure _)
  intro token
  refine .peek ?_
  split
  · exact declared .procedure
  · exact declared .function
  · exact .pure _

theorem routines_alike (blocks : Alike short (bound - 1) block block')
    (enough : short ∨ bound ≤ fuel) :
    Alike short bound (routines block fuel) (routines block' fuel) := by
  induction fuel generalizing bound with
  | zero => exact .outOfFuel (enough.imp_right (by omega))
  | succ fuel ih =>
    have next := ih (blocks.mono (Nat.sub_le _ 1)) (enough.imp_right (by omega))
    exact routinesRound_alike blocks next (enough.imp_right (by omega))

theorem blockRound_alike (blocks : Alike short (bound - 1) block block')
    (enough : short ∨ bound ≤ fuel) :
    Alike short bound (blockRound fuel block) (blockRound fuel block') := by
  have rest (vars : List Decl) : Alike short bound
      (do
        let nested ← routines block fuel
        let body ← compound fuel (statement fuel)
        return Block.mk (vars ++ nested) body)
      (do
        let nested ← routines block' fuel
        let body ← compound fuel (statement fuel)
        return Block.mk (vars ++ nested) body) := by
    refine (routines_alike blocks enough).bind fun nested => ?_
    have statements : Alike short (bound - 1) (statement fuel) (statement fuel) :=
      statement_alike (enough.imp_right (by omega))
    exact (compound_alike statements (enough.imp_right (by omega))).bind fun body _ => .pure _
  intro token
  refine .ifEat (by decide) ?_ (rest [] token)
  exact (variableGroups_alike (enough.imp_right (by omega))).bind fun vars =>
    (rest vars).mono (Nat.sub_le _ 1)

theorem block_alike (enough : short ∨ bound ≤ fuel - 1) :
    Alike short bound (Parser.block fuel) (Parser.block fuel) := by
  induction fuel generalizing bound with
  | zero => exact .outOfFuel (enough.imp_right (by omega))
  | succ fuel ih => exact blockRound_alike (ih (enough.imp_right (by omega))) (enough.imp_right (by omega))

theorem program_alike (enough : short ∨ bound ≤ fuel - 1) :
    Alike short bound (program fuel) (program fuel) := by
  intro token
  refine .expect (by decide) fun token => .ident fun name token => .expect (by decide) ?_
  refine (block_alike (enough.imp_right (by omega))).bind fun body token => .expect (by decide) ?_
  exact (expect_alike _).bind fun _ => (note_alike _).bind fun _ _ => .pure _

end Declarations

section Rounds

theorem Forward.of_alike {rule : Parser α} (alike : ∀ bound, Alike True bound rule rule) :
    Forward rule :=
  fun cursor => (alike (cursor.pending + 1) _ cursor rfl (Nat.lt_succ_self _)).2.1

/-- Inner rules that differ only where nothing has been consumed yet make no difference. -/
theorem Consumes.of_alike {outer : Parser α → Parser β}
    (alike : ∀ bound inner inner', Alike True (bound - 1) inner inner' →
      Alike True bound (outer inner) (outer inner')) : Consumes outer := by
  rintro cursor inside ⟨inner, inner', forward, same, differ⟩
  refine Nat.lt_of_not_le fun ahead => differ ?_
  refine (alike (cursor.pending + 1) inner inner' ?_ _ cursor rfl (Nat.lt_succ_self _)).1
  intro token other _ low
  refine ⟨same other ?_, forward other, fun _ _ => trivial⟩
  rintro rfl
  exact absurd ahead (Nat.not_le.mpr low)

theorem sepBy_rounds {separator : Mark} {item : Parser α} (inner : separator ≠ .endOfInput)
    (items : ∀ bound, Alike True bound item item) :
    Rounds (sepBy separator item) fun _ => sepByRound separator item where
  unrolls _ := rfl
  forward _ := .of_alike fun bound => sepBy_alike inner (items bound) (.inl trivial)
  consumes _ := .of_alike fun bound _ _ next => sepByRound_alike inner (items bound) next

theorem chain_rounds {operator? : Token → Option BinaryOp} {operand : Parser Expr}
    (ends : operator? (.mark .endOfInput) = none)
    (operands : ∀ bound, Alike True bound operand operand) : ChainRounds operator? operand where
  unrolls _ _ := rfl
  forward _ left := .of_alike fun bound => chain_alike ends (operands bound) (.inl trivial) left
  consumes left := .of_alike fun bound _ _ next =>
    chainRound_alike ends (operands bound) (fun _ => next) left

theorem factor_rounds : Rounds factor factorRound where
  unrolls _ := rfl
  forward _ := .of_alike fun _ => factor_alike (.inl trivial)
  consumes _ := .of_alike fun _ _ _ next => factorRound_alike next (.inl trivial)

theorem statement_rounds : Rounds statement statementRound where
  unrolls _ := rfl
  forward _ := .of_alike fun _ => statement_alike (.inl trivial)
  consumes _ := .of_alike fun _ _ _ next => statementRound_alike next (.inl trivial)

theorem variableGroups_rounds : Rounds variableGroups variableGroupsRound where
  unrolls _ := rfl
  forward _ := .of_alike fun _ => variableGroups_alike (.inl trivial)
  consumes _ := .of_alike fun _ _ _ next => variableGroupsRound_alike next (.inl trivial)

theorem routines_rounds (fuel : Nat) :
    Rounds (routines (block fuel)) (routinesRound (block fuel)) where
  unrolls _ := rfl
  forward _ := .of_alike fun _ => routines_alike (block_alike (.inl trivial)) (.inl trivial)
  consumes _ := .of_alike fun _ _ _ next =>
    routinesRound_alike (block_alike (.inl trivial)) next (.inl trivial)

theorem block_rounds : Rounds block blockRound where
  unrolls _ := rfl
  forward _ := .of_alike fun _ => block_alike (.inl trivial)
  consumes _ := .of_alike fun _ _ _ next => blockRound_alike next (.inl trivial)

end Rounds

end Parser

theorem Scan.cursor_pending {scan : Scan} {cursor : Cursor} (opens : scan.cursor = .ok cursor) :
    cursor.pending ≤ scan.lexemes.length := by
  obtain ⟨lexemes, failure⟩ := scan
  match lexemes, failure with
  | first :: rest, _ =>
    cases opens
    exact List.countP_le_length
  | [], none =>
    cases opens
    exact Nat.le_refl _
  | [], some _ => cases opens

/-- Parsing ends on every scan, whatever its tokens are and wherever it was cut off. -/
theorem Scan.parse_ends (scan : Scan) : (∃ program, scan.parse.outcome = .ok program) ∨
    ∃ cause, scan.parse.outcome = .error (.error cause) := by
  cases opens : scan.cursor with
  | error stop =>
    obtain ⟨lexemes, failure⟩ := scan
    match lexemes, failure with
    | [], some failure => exact .inr ⟨.lexical failure, rfl⟩
    | [], none => cases opens
    | _ :: _, _ => cases opens
  | ok cursor =>
    have pending := Scan.cursor_pending opens
    have enough : False ∨ scan.lexemes.length + 1 ≤ scan.lexemes.length + 3 - 1 := .inr (by omega)
    have fuelled := (Parser.program_alike enough _ cursor rfl (by omega)).2.2
    simp only [Scan.parse, opens]
    cases run : Parser.program (scan.lexemes.length + 3) cursor with
    | ok program after => exact .inl ⟨program, rfl⟩
    | error stop after =>
      cases stop with
      | error cause => exact .inr ⟨cause, rfl⟩
      | outOfFuel => exact (fuelled after run).elim

open MiniPascal.Parser in
/-- The parser makes progress. It ends on every scan with a tree or an error. Each of its loops
consumes a token other than the end of the input before it goes round again, and so does each of the
three rules through which all recursion goes before it runs itself inside it. Yet a statement may
consume nothing, and behind the last token of a scan there is always another end of the input. -/
theorem parse_progress :
    (∀ scan : Scan, (∃ program, scan.parse.outcome = .ok program) ∨
      ∃ cause, scan.parse.outcome = .error (.error cause)) ∧
    -- lists of names, of groups of parameters, of statements and of arguments
    Rounds (sepBy .comma ident) (fun _ => sepByRound .comma ident) ∧
    (∀ fuel, Rounds (sepBy .semicolon (typedNames fuel)) fun _ =>
      sepByRound .semicolon (typedNames fuel)) ∧
    (∀ fuel, Rounds (sepBy .semicolon (statement fuel)) fun _ =>
      sepByRound .semicolon (statement fuel)) ∧
    (∀ fuel, Rounds (sepBy .comma (expression fuel)) fun _ =>
      sepByRound .comma (expression fuel)) ∧
    -- sums and products
    (∀ fuel, ChainRounds sumOp? (product fuel (factor fuel))) ∧
    (∀ fuel, ChainRounds productOp? (factor fuel)) ∧
    -- groups of variables, and routines
    Rounds variableGroups variableGroupsRound ∧
    (∀ fuel, Rounds (routines (block fuel)) (routinesRound (block fuel))) ∧
    -- recursion
    Rounds factor factorRound ∧ Rounds statement statementRound ∧ Rounds block blockRound ∧
    (∀ fuel span rest failure previous events,
      let cursor : Cursor := ⟨⟨.mark .kwEnd, span⟩, rest, failure, previous, events⟩
      statement (fuel + 1) cursor = .ok (.empty (.point span.start)) cursor) ∧
    ∀ current previous events, advance ⟨current, [], none, previous, events⟩ =
      .ok current ⟨⟨.mark .endOfInput, .point current.span.stop⟩, [], none, current.span, events⟩ := by
  refine ⟨Scan.parse_ends, sepBy_rounds (by decide) fun _ => ident_alike, ?_, ?_, ?_, ?_, ?_,
    variableGroups_rounds, routines_rounds, factor_rounds, statement_rounds, block_rounds,
    fun _ _ _ _ _ _ => rfl, fun _ _ _ => rfl⟩
  · exact fun _ => sepBy_rounds (by decide) fun _ => typedNames_alike (.inl trivial)
  · exact fun _ => sepBy_rounds (by decide) fun _ => statement_alike (.inl trivial)
  · exact fun _ => sepBy_rounds (by decide) fun _ => expression_alike (.inl trivial)
  · exact fun _ => chain_rounds rfl fun _ => product_alike (factor_alike (.inl trivial)) (.inl trivial)
  · exact fun _ => chain_rounds rfl fun _ => factor_alike (.inl trivial)

open MiniPascal.Parser in
/-- Behind a semicolon the list of statements goes round again, and the semicolon is consumed. -/
theorem parse_progress_semicolon :
    let cursor : Cursor := ⟨⟨.mark .semicolon, .point 0⟩, [⟨.mark .kwEnd, .point 1⟩], none, .point 0, []⟩
    let inside : Cursor := ⟨⟨.mark .kwEnd, .point 1⟩, [], none, .point 0, []⟩
    Enters (sepByRound .semicolon (statement 1)) cursor inside ∧ inside.pending < cursor.pending := by
  classical
  intro cursor inside
  have enters : Enters (sepByRound .semicolon (statement 1)) cursor inside := by
    let other : Parser (List Stmt) := fun place =>
      if place = inside then .ok [.empty (.point 0)] place else .ok [] place
    refine ⟨pure [], other, fun _ => Nat.le_refl _, fun place away => (if_neg away).symm, ?_⟩
    have left : sepByRound .semicolon (statement 1) (pure []) cursor =
        .ok [.empty (.point 0)] inside := rfl
    have right : sepByRound .semicolon (statement 1) other cursor =
        .ok [.empty (.point 0), .empty (.point 0)] inside := by
      have again : other inside = .ok [.empty (.point 0)] inside := if_pos rfl
      have begins : sepByRound .semicolon (statement 1) other cursor =
          (other >>= fun others => pure (.empty (.point 0) :: others)) inside := rfl
      rw [begins, bind_of_ok again]
      rfl
    rw [left, right]
    intro same
    cases same
  obtain ⟨-, -, -, statements, -⟩ := parse_progress
  exact ⟨enters, (statements 1).consumes 0 cursor inside enters⟩

end MiniPascal
