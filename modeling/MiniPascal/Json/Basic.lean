namespace MiniPascal

/-- A data value as JSON has it. Whole numbers are kept apart from reals, and the fields of an object
keep their order. -/
inductive Json where
  | null
  | bool (value : Bool)
  | int (value : Int)
  | real (value : Float)
  | str (text : String)
  | arr (items : List Json)
  | obj (fields : List (String × Json))

/-- A real as data: infinities and the not-a-number have no numeral and become `null`. -/
def Json.ofReal (value : Float) : Json := if value.isFinite then .real value else .null

mutual

/-- How deep lists and objects nest in a value; a value of another kind has depth one. -/
def Json.depth : Json → Nat
  | .arr items => depthItems items + 1
  | .obj fields => depthFields fields + 1
  | _ => 1

/-- The greatest depth of the items of a list. -/
def Json.depthItems : List Json → Nat
  | [] => 0
  | item :: rest => max item.depth (depthItems rest)

/-- The greatest depth of the fields of an object. -/
def Json.depthFields : List (String × Json) → Nat
  | [] => 0
  | (_, value) :: rest => max value.depth (depthFields rest)

end

/-- The value of a field of an object: the last of several fields of one name counts, and a missing
one is `null`. -/
def Json.field (name : String) (fields : List (String × Json)) : Json :=
  fields.foldl (fun found field => if field.1 = name then field.2 else found) .null

/-- The parts of a record in the order of `names`. An object gives them by name, fields of other
names aside; a list gives them by position. -/
def Json.record? (names : List String) : Json → Option (List Json)
  | .obj fields => some (names.map fun name => field name fields)
  | .arr items => if items.length = names.length then some items else none
  | _ => none

/-- The tag and the content of a tagged value: an object of one field, or a bare tag without
content. -/
def Json.tagged? : Json → Option (String × Json)
  | .str tag => some (tag, .null)
  | .obj [(tag, content)] => some (tag, content)
  | _ => none

/-- The items of a list, each read by `read`. -/
def Json.listOf? {α : Type} (read : Json → Option α) : Json → Option (List α)
  | .arr items => items.mapM read
  | _ => none

/-- A value that may be `null`. -/
def Json.optional? {α : Type} (read : Json → Option α) : Json → Option (Option α)
  | .null => some none
  | json => (read json).map some

/-- A text. -/
def Json.text? : Json → Option String
  | .str text => some text
  | _ => none

/-- A natural number of at most 64 bits. -/
def Json.nat64? : Json → Option Nat
  | .int value => if 0 ≤ value ∧ value < UInt64.size then some value.toNat else none
  | _ => none

/-- A signed integer of 64 bits. -/
def Json.int64? : Json → Option Int64
  | .int value =>
    if Int64.minValue.toInt ≤ value ∧ value ≤ Int64.maxValue.toInt then some (Int64.ofInt value)
    else none
  | _ => none

/-- A real; a whole number is one too. -/
def Json.real? : Json → Option Float
  | .int value => some (Float.ofInt value)
  | .real value => some value
  | _ => none

end MiniPascal
