import MiniPascal.Value

namespace MiniPascal

/-- Values of a kind that an operation does not take. -/
inductive Mismatch where
  | unary (op : UnaryOp) (operand : ValueKind)
  | binary (op : BinaryOp) (left right : ValueKind)
  | relational (op : RelationalOp) (left right : ValueKind)
  | condition (kind : ValueKind)
  | assignment (name : String) (stored : ValueKind) (type : VarType)
  | noResult (name : String)
deriving DecidableEq

/-- The operation that a mismatch is about. -/
def Mismatch.operation : Mismatch → String
  | .unary op _ => "unary " ++ op.spelling
  | .binary op _ _ => op.spelling
  | .relational op _ _ => op.spelling
  | .condition _ => "condition"
  | .assignment name _ _ => "assignment to " ++ name
  | .noResult name => "call to " ++ name

/-- What the operation was given. -/
def Mismatch.operands : Mismatch → String
  | .unary _ operand => operand.name
  | .binary op left right => left.name ++ " " ++ op.spelling ++ " " ++ right.name
  | .relational op left right => left.name ++ " " ++ op.spelling ++ " " ++ right.name
  | .condition kind => kind.name
  | .assignment _ stored type => "cannot store " ++ stored.name ++ " in " ++ type.name
  | .noResult _ => "procedure has no result"

/-- Integer operations that can leave the range of 64 bits. -/
inductive IntegerOp where
  | negation
  | binary (op : BinaryOp)
deriving DecidableEq

/-- The name of an integer operation. -/
def IntegerOp.name : IntegerOp → String
  | .negation => "unary -"
  | .binary op => op.spelling

/-- Why a run ends early. -/
inductive Fault where
  | undeclaredVariable (name : String)
  | uninitializedVariable (name : String)
  | duplicateDeclaration (name : String)
  | undefinedRoutine (name : String)
  | arityMismatch (name : String) (expected actual : Nat)
  | typeMismatch (cause : Mismatch)
  | recursionLimit (depth : Nat)
  | divisionByZero
  | integerOverflow (operation : IntegerOp)
  | sinkClosed
deriving DecidableEq

/-- The text of a fault. -/
def Fault.message : Fault → String
  | .undeclaredVariable name => "undeclared variable: " ++ name
  | .uninitializedVariable name => "variable " ++ name ++ " is read before it is assigned"
  | .duplicateDeclaration name => "duplicate declaration: " ++ name
  | .undefinedRoutine name => "undefined procedure or function: " ++ name
  | .arityMismatch name expected actual =>
    name ++ " expects " ++ toString expected ++ " argument(s), got " ++ toString actual
  | .typeMismatch cause => "type mismatch in " ++ cause.operation ++ ": " ++ cause.operands
  | .recursionLimit depth => "recursion limit exceeded: call depth " ++ toString depth
  | .divisionByZero => "division by zero"
  | .integerOverflow operation => "integer overflow in " ++ operation.name
  | .sinkClosed => "output error: sink closed"

end MiniPascal
