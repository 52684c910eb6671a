import MiniPascal.Tree.Encode

namespace MiniPascal

/-- A tag without content. -/
def Json.bareTag? (json : Json) : Option String :=
  match json.tagged? with
  | some (tag, .null) => some tag
  | _ => none

/-- Reads a span. -/
def Span.ofJson? (json : Json) : Option Span := do
  match ← json.record? ["start", "end"] with
  | [start, stop] => return ⟨← start.nat64?, ← stop.nat64?⟩
  | _ => none

/-- Reads a node by `read` and its span. -/
def Json.spannedOf? {α : Type} (read : Json → Option α) (json : Json) : Option (α × Span) := do
  match ← json.record? ["node", "span"] with
  | [node, span] => return (← read node, ← Span.ofJson? span)
  | _ => none

/-- Reads a name. -/
def Ident.ofJson? (json : Json) : Option Ident := do
  let (name, span) ← json.spannedOf? Json.text?
  return ⟨name, span⟩

/-- Reads a type. -/
def VarType.ofJson? (json : Json) : Option VarType :=
  match json.bareTag? with
  | some "Integer" => some .integer
  | some "Real" => some .real
  | _ => none

/-- Reads an arithmetic operator. -/
def BinaryOp.ofJson? (json : Json) : Option BinaryOp :=
  match json.bareTag? with
  | some "Add" => some .add
  | some "Sub" => some .sub
  | some "Mul" => some .mul
  | some "IntDiv" => some .intDiv
  | some "FloatDiv" => some .realDiv
  | _ => none

/-- Reads a comparison. -/
def RelationalOp.ofJson? (json : Json) : Option RelationalOp :=
  match json.bareTag? with
  | some "Gt" => some .greater
  | some "Lt" => some .less
  | some "Eq" => some .equal
  | _ => none

/-- Reads a sign. -/
def UnaryOp.ofJson? (json : Json) : Option UnaryOp :=
  match json.bareTag? with
  | some "Plus" => some .plus
  | some "Minus" => some .minus
  | _ => none

/-- Reads a numeric literal. -/
def Literal.ofJson? (json : Json) : Option Literal := do
  match ← json.tagged? with
  | ("Integer", value) => return .integer (← value.int64?)
  | ("Real", value) => return .real (← value.real?)
  | _ => none

/-- Reads the callee and, by `read`, the arguments of a call. -/
def Json.callOf? (read : Json → Option Expr) (json : Json) : Option (Ident × List Expr) := do
  match ← json.record? ["name", "args"] with
  | [name, args] => return (← Ident.ofJson? name, ← args.listOf? read)
  | _ => none

/-- Reads an expression whose data nests at most `depth` deep. -/
def Expr.ofJson? : Nat → Json → Option Expr
  | 0, _ => none
  | depth + 1, json => do
    let (node, span) ← json.spannedOf? some
    match ← node.tagged? with
    | ("Number", value) => return .number (← Literal.ofJson? value) span
    | ("Str", value) => return .text (← value.text?) span
    | ("Var", value) => return .var (← value.text?) span
    | ("Unary", value) =>
      match ← value.record? ["op", "expr"] with
      | [op, operand] => return .unary (← UnaryOp.ofJson? op) (← ofJson? depth operand) span
      | _ => none
    | ("Binary", value) =>
      match ← value.record? ["left", "op", "right"] with
      | [left, op, right] =>
        return .binary (← ofJson? depth left) (← BinaryOp.ofJson? op) (← ofJson? depth right) span
      | _ => none
    | ("Relational", value) =>
      match ← value.record? ["left", "op", "right"] with
      | [left, op, right] =>
        return .relational (← ofJson? depth left) (← RelationalOp.ofJson? op) (← ofJson? depth right) span
      | _ => none
    | ("Call", value) =>
      let (callee, args) ← value.callOf? (ofJson? depth)
      return .call callee args span
    | _ => none

/-- Reads, by `read`, the statements between `BEGIN` and `END` or in a loop. -/
def Json.statementsOf? (read : Json → Option Stmt) (json : Json) : Option (List Stmt) := do
  match ← json.record? ["statements"] with
  | [statements] => statements.listOf? read
  | _ => none

/-- Reads a statement whose data nests at most `depth` deep. -/
def Stmt.ofJson? : Nat → Json → Option Stmt
  | 0, _ => none
  | depth + 1, json => do
    let (node, span) ← json.spannedOf? some
    match ← node.tagged? with
    | ("Compound", value) => return .compound (← value.statementsOf? (ofJson? depth)) span
    | ("Assign", value) =>
      match ← value.record? ["target", "value"] with
      | [target, value] => return .assign (← Ident.ofJson? target) (← Expr.ofJson? depth value) span
      | _ => none
    | ("Call", value) =>
      let (callee, args) ← value.callOf? (Expr.ofJson? depth)
      return .call callee args span
    | ("If", value) =>
      match ← value.record? ["cond", "then_branch", "else_branch"] with
      | [cond, branch, otherwise] =>
        let cond ← Expr.ofJson? depth cond
        let branch ← ofJson? depth branch
        match ← otherwise.optional? (ofJson? depth) with
        | none => return .ifThen cond branch span
        | some otherwise => return .ifElse cond branch otherwise span
      | _ => none
    | ("Repeat", value) =>
      match ← value.record? ["body", "cond"] with
      | [body, cond] =>
        return .repeatUntil (← body.statementsOf? (ofJson? depth)) (← Expr.ofJson? depth cond) span
      | _ => none
    | ("NoOp", .null) => return .empty span
    | _ => none

/-- Reads a declared name and its type. -/
def Param.ofJson? (json : Json) : Option Param := do
  match ← json.record? ["name", "ty"] with
  | [name, type] => return ⟨← Ident.ofJson? name, ← VarType.ofJson? type⟩
  | _ => none

/-- Reads a block, its declarations by `read` and its statements to a depth. -/
def Json.blockOf? (depth : Nat) (read : Json → Option Decl) (json : Json) : Option Block := do
  match ← json.record? ["declarations", "compound"] with
  | [declarations, body] =>
    return ⟨← declarations.listOf? read, ← body.statementsOf? (Stmt.ofJson? depth)⟩
  | _ => none

/-- Reads a declaration whose data nests at most `depth` deep. -/
def Decl.ofJson? : Nat → Json → Option Decl
  | 0, _ => none
  | depth + 1, json => do
    match ← json.tagged? with
    | ("Var", value) =>
      let declared ← Param.ofJson? value
      return .var declared.name declared.type
    | ("Routine", value) =>
      match ← value.record? ["name", "params", "ret_ty", "block", "span"] with
      | [name, params, result, block, span] =>
        let heading : Heading := ⟨← Ident.ofJson? name, ← params.listOf? Param.ofJson?,
          ← result.optional? VarType.ofJson?, ← Span.ofJson? span⟩
        let block ← block.blockOf? depth (ofJson? depth)
        return .routine heading block.declarations block.body
      | _ => none
    | _ => none

/-- Reads a program: the data must have every part of the tree and no other shape. -/
def Program.ofJson? (json : Json) : Option Program := do
  match ← json.record? ["name", "block"] with
  | [name, block] =>
    return ⟨← Ident.ofJson? name, ← block.blockOf? json.depth (Decl.ofJson? json.depth)⟩
  | _ => none

end MiniPascal
