import MiniPascal.Fault

namespace MiniPascal

/-- An exact integer result as a value, if 64 bits hold it. -/
def IntegerOp.checked (operation : IntegerOp) (result : Int) : Except Fault Value :=
  if Int64.minValue.toInt ≤ result ∧ result ≤ Int64.maxValue.toInt then .ok (.integer (Int64.ofInt result))
  else .error (.integerOverflow operation)

/-- A sign keeps the kind of its operand. -/
def UnaryOp.apply : UnaryOp → Value → Except Fault Value
  | .plus, .integer value => .ok (.integer value)
  | .plus, .real value => .ok (.real value)
  | .minus, .integer value => IntegerOp.negation.checked (-value.toInt)
  | .minus, .real value => .ok (.real (-value))
  | op, value => .error (.typeMismatch (.unary op value.kind))

/-- Two integers under an operator; division truncates toward zero. For `/` there is no integer
result. -/
def BinaryOp.applyIntegers? (op : BinaryOp) (left right : Int) : Option (Except Fault Value) :=
  let checked := IntegerOp.checked (.binary op)
  match op with
  | .add => some (checked (left + right))
  | .sub => some (checked (left - right))
  | .mul => some (checked (left * right))
  | .intDiv => some (if right = 0 then .error .divisionByZero else checked (left.tdiv right))
  | .realDiv => none

/-- Two reals under an operator; `DIV` takes none. -/
def BinaryOp.applyReals? (op : BinaryOp) (left right : Float) : Option Float :=
  match op with
  | .add => some (left + right)
  | .sub => some (left - right)
  | .mul => some (left * right)
  | .intDiv => none
  | .realDiv => some (left / right)

/-- Both operands as reals, if both are numeric. -/
def Value.asReals? (left right : Value) : Option (Float × Float) := do
  return (← left.asReal?, ← right.asReal?)

/-- Arithmetic on reals after widening, or the mismatch that stands against it. -/
def BinaryOp.applyWidened (op : BinaryOp) (left right : Value) : Except Fault Value :=
  match (left.asReals? right).bind fun (left, right) => op.applyReals? left right with
  | some result => .ok (.real result)
  | none => .error (.typeMismatch (.binary op left.kind right.kind))

/-- Arithmetic: integers give an integer, any real operand makes the result real, `/` always gives a
real, and `DIV` takes integers only. -/
def BinaryOp.apply (op : BinaryOp) : Value → Value → Except Fault Value
  | .integer left, .integer right =>
    match op.applyIntegers? left.toInt right.toInt with
    | some result => result
    | none => op.applyWidened (.integer left) (.integer right)
  | left, right => op.applyWidened left right

/-- A comparison of integers. -/
def RelationalOp.holdsInt (op : RelationalOp) (left right : Int) : Bool :=
  match op with
  | .greater => right < left
  | .less => left < right
  | .equal => left = right

/-- A comparison of reals; with a not-a-number none holds. -/
def RelationalOp.holdsReal (op : RelationalOp) (left right : Float) : Bool :=
  match op with
  | .greater => right < left
  | .less => left < right
  | .equal => left == right

/-- Two integers compare exactly, a mixed pair as reals. -/
def RelationalOp.apply (op : RelationalOp) (left right : Value) : Except Fault Value :=
  match left, right with
  | .integer left, .integer right => .ok (.boolean (op.holdsInt left.toInt right.toInt))
  | left, right =>
    match left.asReals? right with
    | some (left, right) => .ok (.boolean (op.holdsReal left right))
    | none => .error (.typeMismatch (.relational op left.kind right.kind))

end MiniPascal
