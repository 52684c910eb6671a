import MiniPascal.Tree.Basic
import MiniPascal.Decimal.Layout
import MiniPascal.Text.Quoted

namespace MiniPascal

/-- A value at run time. Only integers and reals are ever stored; a boolean is the outcome of a
comparison, and a text is a string literal. -/
inductive Value where
  | integer (value : Int64)
  | real (value : Float)
  | boolean (value : Bool)
  | text (value : String)
deriving DecidableEq

/-- The kinds of values. -/
inductive ValueKind where
  | integer
  | real
  | boolean
  | text
deriving DecidableEq

/-- What messages call a kind of value. -/
def ValueKind.name : ValueKind → String
  | .integer => "INTEGER"
  | .real => "REAL"
  | .boolean => "BOOLEAN"
  | .text => "STRING"

/-- The kind of a value. -/
def Value.kind : Value → ValueKind
  | .integer _ => .integer
  | .real _ => .real
  | .boolean _ => .boolean
  | .text _ => .text

/-- The kind of the values that a variable of a type holds. -/
def VarType.kind : VarType → ValueKind
  | .integer => .integer
  | .real => .real

/-- The value of a literal. -/
def Value.ofLiteral : Literal → Value
  | .integer value => .integer value
  | .real value => .real value

/-- What a function returns that never assigned its result. -/
def Value.zero : VarType → Value
  | .integer => .integer 0
  | .real => .real 0.0

/-- Integers and reals are numeric. -/
def Value.isNumeric : Value → Bool
  | .integer _ | .real _ => true
  | _ => false

/-- A numeric value as a real, the nearest one to an integer. -/
def Value.asReal? : Value → Option Float
  | .integer value => some (Float.ofInt value.toInt)
  | .real value => some value
  | _ => none

/-- The truth value of a boolean. -/
def Value.asBool? : Value → Option Bool
  | .boolean value => some value
  | _ => none

/-- A value as a variable of the type stores it: integers widen to reals, and nothing narrows. -/
def Value.coerce? : VarType → Value → Option Value
  | .integer, .integer value => some (.integer value)
  | .real, .integer value => some (.real (Float.ofInt value.toInt))
  | .real, .real value => some (.real value)
  | _, _ => none

/-- A value as a program writes it. -/
def Value.display : Value → String
  | .integer value => toString value.toInt
  | .real value => Layout.plain.text value
  | .boolean value => if value then "TRUE" else "FALSE"
  | .text value => value

/-- A value as a log shows it. -/
def Value.listing : Value → String
  | .integer value => "Integer(" ++ toString value.toInt ++ ")"
  | .real value => "Real(" ++ Layout.debug.text value ++ ")"
  | .boolean value => "Boolean(" ++ (if value then "true" else "false") ++ ")"
  | .text value => "Str(" ++ quoted value ++ ")"

end MiniPascal
