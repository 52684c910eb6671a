import MiniPascal.Json.Basic
import MiniPascal.Tree.Basic

namespace MiniPascal

/-- A tagged value. -/
def Json.tag (name : String) (content : Json) : Json := .obj [(name, content)]

/-- A span as data. -/
def Span.toJson (span : Span) : Json := .obj [("start", .int span.start), ("end", .int span.stop)]

/-- A node of the tree with its span. -/
def Json.spanned (node : Json) (span : Span) : Json := .obj [("node", node), ("span", span.toJson)]

/-- A name as data. -/
def Ident.toJson (ident : Ident) : Json := .spanned (.str ident.name) ident.span

/-- A type as data. -/
def VarType.toJson : VarType → Json
  | .integer => .str "Integer"
  | .real => .str "Real"

/-- An arithmetic operator as data. -/
def BinaryOp.toJson : BinaryOp → Json
  | .add => .str "Add"
  | .sub => .str "Sub"
  | .mul => .str "Mul"
  | .intDiv => .str "IntDiv"
  | .realDiv => .str "FloatDiv"

/-- A comparison as data. -/
def RelationalOp.toJson : RelationalOp → Json
  | .greater => .str "Gt"
  | .less => .str "Lt"
  | .equal => .str "Eq"

/-- A sign as data. -/
def UnaryOp.toJson : UnaryOp → Json
  | .plus => .str "Plus"
  | .minus => .str "Minus"

/-- A numeric literal as data: a number, and `null` for a real that has no numeral. -/
def Literal.toJson : Literal → Json
  | .integer value => .tag "Integer" (.int value.toInt)
  | .real value => .tag "Real" (.ofReal value)

/-- A call as data. -/
def Json.call (callee : Ident) (args : List Json) : Json :=
  .tag "Call" (.obj [("name", callee.toJson), ("args", .arr args)])

mutual

/-- An expression as data, its literals written by `literal`. -/
def Expr.toJson (literal : Literal → Json) : Expr → Json
  | .number value span => .spanned (.tag "Number" (literal value)) span
  | .text value span => .spanned (.tag "Str" (.str value)) span
  | .var name span => .spanned (.tag "Var" (.str name)) span
  | .unary op operand span =>
    .spanned (.tag "Unary" (.obj [("op", op.toJson), ("expr", operand.toJson literal)])) span
  | .binary left op right span =>
    .spanned (.tag "Binary" (.obj [("left", left.toJson literal), ("op", op.toJson),
      ("right", right.toJson literal)])) span
  | .relational left op right span =>
    .spanned (.tag "Relational" (.obj [("left", left.toJson literal), ("op", op.toJson),
      ("right", right.toJson literal)])) span
  | .call callee args span => .spanned (.call callee (listToJson literal args)) span

/-- Expressions as data. -/
def Expr.listToJson (literal : Literal → Json) : List Expr → List Json
  | [] => []
  | first :: rest => first.toJson literal :: listToJson literal rest

end

/-- Statements between `BEGIN` and `END` or in a loop. -/
def Json.statements (items : List Json) : Json := .obj [("statements", .arr items)]

mutual

/-- A statement as data, its literals written by `literal`. -/
def Stmt.toJson (literal : Literal → Json) : Stmt → Json
  | .compound body span => .spanned (.tag "Compound" (.statements (listToJson literal body))) span
  | .assign target value span =>
    .spanned (.tag "Assign" (.obj [("target", target.toJson), ("value", value.toJson literal)])) span
  | .call callee args span => .spanned (.call callee (Expr.listToJson literal args)) span
  | .ifThen cond branch span =>
    .spanned (.tag "If" (.obj [("cond", cond.toJson literal), ("then_branch", branch.toJson literal),
      ("else_branch", .null)])) span
  | .ifElse cond branch otherwise span =>
    .spanned (.tag "If" (.obj [("cond", cond.toJson literal), ("then_branch", branch.toJson literal),
      ("else_branch", otherwise.toJson literal)])) span
  | .repeatUntil body cond span =>
    .spanned (.tag "Repeat" (.obj [("body", .statements (listToJson literal body)),
      ("cond", cond.toJson literal)])) span
  | .empty span => .spanned (.str "NoOp") span

/-- Statements as data. -/
def Stmt.listToJson (literal : Literal → Json) : List Stmt → List Json
  | [] => []
  | first :: rest => first.toJson literal :: listToJson literal rest

end

/-- A declared name and its type as data. -/
def Ident.typedToJson (name : Ident) (type : VarType) : Json :=
  .obj [("name", name.toJson), ("ty", type.toJson)]

/-- A parameter as data. -/
def Param.toJson (param : Param) : Json := param.name.typedToJson param.type

/-- The parts of a block as data. -/
def Json.block (declarations : List Json) (body : List Json) : Json :=
  .obj [("declarations", .arr declarations), ("compound", .statements body)]

mutual

/-- A declaration as data, its literals written by `literal`. -/
def Decl.toJson (literal : Literal → Json) : Decl → Json
  | .var name type => .tag "Var" (name.typedToJson type)
  | .routine heading declarations body =>
    .tag "Routine" (.obj [
      ("name", heading.name.toJson),
      ("params", .arr (heading.params.map Param.toJson)),
      ("ret_ty", (heading.result.map VarType.toJson).getD .null),
      ("block", .block (listToJson literal declarations) (Stmt.listToJson literal body)),
      ("span", heading.span.toJson)])

/-- Declarations as data. -/
def Decl.listToJson (literal : Literal → Json) : List Decl → List Json
  | [] => []
  | first :: rest => first.toJson literal :: listToJson literal rest

end

/-- A block as data, its literals written by `literal`. -/
def Block.toJson (literal : Literal → Json) (block : Block) : Json :=
  .block (Decl.listToJson literal block.declarations) (Stmt.listToJson literal block.body)

/-- A program as data, its literals written by `literal`. -/
def Program.toJsonWith (literal : Literal → Json) (program : Program) : Json :=
  .obj [("name", program.name.toJson), ("block", program.block.toJson literal)]

/-- A program as data. -/
def Program.toJson (program : Program) : Json := program.toJsonWith Literal.toJson

end MiniPascal
