import MiniPascal.Parse.Cursor

namespace MiniPascal

namespace Parser

/-- One or more items with a mark between them. -/
def sepBy {α : Type} (separator : Mark) (item : Parser α) : Nat → Parser (List α)
  | 0 => outOfFuel
  | fuel + 1 => do
    let first ← item
    if ← eat separator then
      let others ← sepBy separator item fuel
      return first :: others
    else
      return [first]

/-- Goes on with a chain of operators that associate to the left. -/
def chain (operator? : Token → Option BinaryOp) (operand : Parser Expr) : Nat → Expr → Parser Expr
  | 0, _ => outOfFuel
  | fuel + 1, left => do
    match operator? (← peek) with
    | none => return left
    | some op =>
      let _ ← advance
      let right ← operand
      chain operator? operand fuel (.binary left op right (left.span.merge right.span))

/-- Operators between the factors of a product. -/
def productOp? : Token → Option BinaryOp
  | .mark .star => some .mul
  | .mark .kwDiv => some .intDiv
  | .mark .slash => some .realDiv
  | _ => none

/-- Operators between the terms of a sum. -/
def sumOp? : Token → Option BinaryOp
  | .mark .plus => some .add
  | .mark .minus => some .sub
  | _ => none

/-- Comparison operators. -/
def relationalOp? : Token → Option RelationalOp
  | .mark .greater => some .greater
  | .mark .less => some .less
  | .mark .equal => some .equal
  | _ => none

/-- A product is `factor ((STAR | DIV | SLASH) factor)*`. -/
def product (fuel : Nat) (factor : Parser Expr) : Parser Expr := do
  chain productOp? factor fuel (← factor)

/-- A sum is `product ((PLUS | MINUS) product)*`. -/
def sum (fuel : Nat) (factor : Parser Expr) : Parser Expr := do
  chain sumOp? (product fuel factor) fuel (← product fuel factor)

/-- Arguments are `LPAREN (expression (COMMA expression)*)? RPAREN`. -/
def arguments (fuel : Nat) (expression : Parser Expr) : Parser (List Expr) := do
  expect .leftParen
  if ← eat .rightParen then
    return []
  else
    let args ← sepBy .comma expression fuel
    expect .rightParen
    return args

/-- A factor is `(PLUS | MINUS) factor | constant | LPAREN expression RPAREN | id arguments?`. -/
def factor : Nat → Parser Expr
  | 0 => outOfFuel
  | fuel + 1 => do
    let start ← here
    match ← peek with
    | .mark .plus =>
      let _ ← advance
      let operand ← factor fuel
      return .unary .plus operand (start.merge operand.span)
    | .mark .minus =>
      let _ ← advance
      let operand ← factor fuel
      return .unary .minus operand (start.merge operand.span)
    | .integer value =>
      let _ ← advance
      return .number (.integer value) start
    | .real value =>
      let _ ← advance
      return .number (.real value) start
    | .text value =>
      let _ ← advance
      return .text value start
    | .mark .leftParen =>
      let _ ← advance
      let inner ← sum fuel (factor fuel)
      expect .rightParen
      return inner.withSpan (start.merge (← previous))
    | .ident _ =>
      let name ← ident
      if ← sees .leftParen then
        let args ← arguments fuel (sum fuel (factor fuel))
        return .call name args (start.merge (← previous))
      else
        return .var name.name name.span
    | _ => unexpected .expression

/-- An arithmetic expression. -/
def expression (fuel : Nat) : Parser Expr := sum fuel (factor fuel)

/-- A condition is `expression (GREATER | LESS | EQUAL) expression`. -/
def condition (fuel : Nat) : Parser Expr := do
  let left ← expression fuel
  match relationalOp? (← peek) with
  | none => unexpected .relationalOperator
  | some op =>
    let _ ← advance
    let right ← expression fuel
    return .relational left op right (left.span.merge right.span)

/-- An assignment is `id ASSIGN expression`, a call is `id arguments?`. -/
def assignmentOrCall (fuel : Nat) : Parser Stmt := do
  let name ← ident
  match ← peek with
  | .mark .assign =>
    let _ ← advance
    let value ← expression fuel
    return .assign name value (name.span.merge (← previous))
  | .mark .leftParen =>
    let args ← arguments fuel (expression fuel)
    return .call name args (name.span.merge (← previous))
  | _ => return .call name [] (name.span.merge (← previous))

/-- A compound is `BEGIN statement (SEMI statement)* END`. -/
def compound (fuel : Nat) (statement : Parser Stmt) : Parser (List Stmt) := do
  expect .kwBegin
  let body ← sepBy .semicolon statement fuel
  expect .kwEnd
  return body

/-- A statement is `compound | IF condition THEN statement (ELSE statement)? |
REPEAT statement (SEMI statement)* UNTIL condition | assignment | call`, or nothing. An `ELSE` goes to
the innermost `IF` that can take it. -/
def statement : Nat → Parser Stmt
  | 0 => outOfFuel
  | fuel + 1 => do
    let start ← here
    match ← peek with
    | .mark .kwBegin =>
      let body ← compound fuel (statement fuel)
      return .compound body (start.merge (← previous))
    | .mark .kwIf =>
      let _ ← advance
      let cond ← condition fuel
      expect .kwThen
      let branch ← statement fuel
      if ← eat .kwElse then
        let otherwise ← statement fuel
        return .ifElse cond branch otherwise (start.merge (← previous))
      else
        return .ifThen cond branch (start.merge (← previous))
    | .mark .kwRepeat =>
      let _ ← advance
      let body ← sepBy .semicolon (statement fuel) fuel
      expect .kwUntil
      let cond ← condition fuel
      return .repeatUntil body cond (start.merge (← previous))
    | .ident _ => assignmentOrCall fuel
    | _ => return .empty (.point start.start)

/-- A type is `INTEGER | REAL`. -/
def varType : Parser VarType := do
  match ← peek with
  | .mark .kwInteger =>
    let _ ← advance
    return .integer
  | .mark .kwReal =>
    let _ ← advance
    return .real
  | _ => unexpected .typeName

/-- Typed names are `id (COMMA id)* COLON type`. -/
def typedNames (fuel : Nat) : Parser (List Ident × VarType) := do
  let names ← sepBy .comma ident fuel
  expect .colon
  return (names, ← varType)

/-- Is an identifier in view? -/
def atIdent : Parser Bool := do
  match ← peek with
  | .ident _ => return true
  | _ => return false

/-- Variables are `(typedNames SEMI)+`, going on as long as an identifier follows. -/
def variableGroups : Nat → Parser (List Decl)
  | 0 => outOfFuel
  | fuel + 1 => do
    let (names, type) ← typedNames fuel
    expect .semicolon
    let group := names.map fun name => Decl.var name type
    if ← atIdent then
      return group ++ (← variableGroups fuel)
    else
      return group

/-- Parameters are `LPAREN (typedNames (SEMI typedNames)*)? RPAREN`, or nothing. -/
def parameterList (fuel : Nat) : Parser (List Param) := do
  if ← eat .leftParen then
    if ← eat .rightParen then
      return []
    else
      let groups ← sepBy .semicolon (typedNames fuel) fuel
      expect .rightParen
      return groups.flatMap fun (names, type) => names.map fun name => Param.mk name type
  else
    return []

/-- A routine is `PROCEDURE id parameters SEMI block | FUNCTION id parameters COLON type SEMI block`;
the keyword in view has decided which. -/
def routine (fuel : Nat) (block : Parser Block) (kind : RoutineKind) : Parser Decl := do
  let keyword ← advance
  let name ← ident
  let params ← parameterList fuel
  let result ← match kind with
    | .function => do
      expect .colon
      some <$> varType
    | .procedure => pure none
  expect .semicolon
  let body ← block
  note (.parsedRoutine name.name params.length)
  let heading : Heading := ⟨name, params, result, keyword.span.merge (← previous)⟩
  return .routine heading body.declarations body.body

/-- Routines are `(routine SEMI)*`. -/
def routines (block : Parser Block) : Nat → Parser (List Decl)
  | 0 => outOfFuel
  | fuel + 1 => do
    let declared (kind : RoutineKind) : Parser (List Decl) := do
      let first ← routine fuel block kind
      expect .semicolon
      return first :: (← routines block fuel)
    match ← peek with
    | .mark .kwProcedure => declared .procedure
    | .mark .kwFunction => declared .function
    | _ => return []

/-- A block is `(VAR variables)? routines compound`. -/
def block : Nat → Parser Block
  | 0 => outOfFuel
  | fuel + 1 => do
    let vars ← if ← eat .kwVar then variableGroups fuel else pure []
    let nested ← routines (block fuel) fuel
    let body ← compound fuel (statement fuel)
    return ⟨vars ++ nested, body⟩

/-- A program is `PROGRAM id SEMI block DOT` and the end of the input. -/
def program (fuel : Nat) : Parser Program := do
  expect .kwProgram
  let name ← ident
  expect .semicolon
  let body ← block fuel
  expect .dot
  expect .endOfInput
  note (.parsedProgram name.name)
  return ⟨name, body⟩

end Parser

/-- What parsing gives: the program or why there is none, and the events in order. -/
structure Parsed where
  outcome : Except ParseStop Program
  events : List ParseEvent

/-- Places the cursor before the first token of a scan. -/
def Scan.cursor (scan : Scan) : Except ParseStop Cursor :=
  match scan.lexemes, scan.failure with
  | first :: rest, failure => .ok ⟨first, rest, failure, .point 0, []⟩
  | [], some failure => .error (.error (.lexical failure))
  | [], none => .ok ⟨⟨.mark .endOfInput, .point 0⟩, [], none, .point 0, []⟩

/-- Parses the tokens of a scan. Every repetition and every nesting consumes a token, so their number
bounds both. -/
def Scan.parse (scan : Scan) : Parsed :=
  match scan.cursor with
  | .error stop => ⟨.error stop, []⟩
  | .ok cursor =>
    match Parser.program (scan.lexemes.length + 3) cursor with
    | .ok program cursor => ⟨.ok program, cursor.events.reverse⟩
    | .error stop cursor => ⟨.error stop, cursor.events.reverse⟩

/-- Parses a source text. -/
def parse (source : String) : Parsed := (scan source).parse

end MiniPascal
