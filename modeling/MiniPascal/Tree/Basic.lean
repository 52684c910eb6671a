import MiniPascal.Source.Span

namespace MiniPascal

/-- The declared type of a variable, parameter or function result. -/
inductive VarType where
  | integer
  | real
deriving DecidableEq

/-- The name of a declared type. -/
def VarType.name : VarType → String
  | .integer => "INTEGER"
  | .real => "REAL"

/-- Arithmetic operators; `intDiv` divides integers, `realDiv` always gives a real. -/
inductive BinaryOp where
  | add
  | sub
  | mul
  | intDiv
  | realDiv
deriving DecidableEq

/-- The spelling of an arithmetic operator. -/
def BinaryOp.spelling : BinaryOp → String
  | .add => "+"
  | .sub => "-"
  | .mul => "*"
  | .intDiv => "DIV"
  | .realDiv => "/"

/-- Comparisons. -/
inductive RelationalOp where
  | greater
  | less
  | equal
deriving DecidableEq

/-- The spelling of a comparison. -/
def RelationalOp.spelling : RelationalOp → String
  | .greater => ">"
  | .less => "<"
  | .equal => "="

/-- Signs in front of an operand. -/
inductive UnaryOp where
  | plus
  | minus
deriving DecidableEq

/-- The spelling of a sign. -/
def UnaryOp.spelling : UnaryOp → String
  | .plus => "+"
  | .minus => "-"

/-- A name where it stands in the source. -/
structure Ident where
  name : String
  span : Span
deriving DecidableEq

/-- A numeric literal. -/
inductive Literal where
  | integer (value : Int64)
  | real (value : Float)
deriving DecidableEq

/-- An expression. Every node carries its span, the outermost parentheses included. -/
inductive Expr where
  | number (literal : Literal) (span : Span)
  | text (value : String) (span : Span)
  | var (name : String) (span : Span)
  | unary (op : UnaryOp) (operand : Expr) (span : Span)
  | binary (left : Expr) (op : BinaryOp) (right : Expr) (span : Span)
  | relational (left : Expr) (op : RelationalOp) (right : Expr) (span : Span)
  | call (callee : Ident) (args : List Expr) (span : Span)

/-- The source span of an expression. -/
def Expr.span : Expr → Span
  | number _ span | text _ span | var _ span | unary _ _ span | binary _ _ _ span
  | relational _ _ _ span | call _ _ span => span

/-- The same expression with another span, as a pair of parentheses around it gives. -/
def Expr.withSpan (span : Span) : Expr → Expr
  | number literal _ => number literal span
  | text value _ => text value span
  | var name _ => var name span
  | unary op operand _ => unary op operand span
  | binary left op right _ => binary left op right span
  | relational left op right _ => relational left op right span
  | call callee args _ => call callee args span

/-- A statement. -/
inductive Stmt where
  | compound (body : List Stmt) (span : Span)
  | assign (target : Ident) (value : Expr) (span : Span)
  | call (callee : Ident) (args : List Expr) (span : Span)
  | ifThen (cond : Expr) (branch : Stmt) (span : Span)
  | ifElse (cond : Expr) (branch : Stmt) (otherwise : Stmt) (span : Span)
  | repeatUntil (body : List Stmt) (cond : Expr) (span : Span)
  | empty (span : Span)

/-- The source span of a statement. -/
def Stmt.span : Stmt → Span
  | compound _ span | assign _ _ span | call _ _ span | ifThen _ _ span | ifElse _ _ _ span
  | repeatUntil _ _ span | empty span => span

/-- A formal parameter. -/
structure Param where
  name : Ident
  type : VarType
deriving DecidableEq

/-- What a routine declares before its block; a routine with a result type is a function, one
without is a procedure. -/
structure Heading where
  name : Ident
  params : List Param
  result : Option VarType
  span : Span
deriving DecidableEq

/-- An entry of a declaration part. A routine holds the declarations and the body of its block. -/
inductive Decl where
  | var (name : Ident) (type : VarType)
  | routine (heading : Heading) (declarations : List Decl) (body : List Stmt)

/-- The name that a declaration introduces. -/
def Decl.name : Decl → Ident
  | var name _ => name
  | routine heading _ _ => heading.name

/-- Declarations and the statements that they scope over. -/
structure Block where
  declarations : List Decl
  body : List Stmt

/-- A declared procedure or function. -/
structure Routine where
  heading : Heading
  block : Block

/-- A whole program. -/
structure Program where
  name : Ident
  block : Block

/-- Procedures give no result, functions do. -/
inductive RoutineKind where
  | procedure
  | function
deriving DecidableEq

/-- The word for a kind of routine. -/
def RoutineKind.word : RoutineKind → String
  | .procedure => "procedure"
  | .function => "function"

/-- A heading with a result type is that of a function. -/
def Heading.kind (heading : Heading) : RoutineKind :=
  if heading.result.isSome then .function else .procedure

end MiniPascal
