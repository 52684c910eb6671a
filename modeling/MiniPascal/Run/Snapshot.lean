import MiniPascal.Json.Basic
import MiniPascal.Scope.Basic

namespace MiniPascal

/-- The variables of the outermost scope that have a value at the end of a run, by kind of value and
in the order of their declaration. -/
structure Snapshot where
  integers : List (String × Int64)
  reals : List (String × Float)
  booleans : List (String × Bool)
  texts : List (String × String)
deriving DecidableEq

/-- The integer of a binding. -/
def Binding.integer? (binding : Binding) : Option (String × Int64) :=
  match binding.value with
  | some (.integer value) => some (binding.name, value)
  | _ => none

/-- The real of a binding. -/
def Binding.real? (binding : Binding) : Option (String × Float) :=
  match binding.value with
  | some (.real value) => some (binding.name, value)
  | _ => none

/-- The boolean of a binding. -/
def Binding.boolean? (binding : Binding) : Option (String × Bool) :=
  match binding.value with
  | some (.boolean value) => some (binding.name, value)
  | _ => none

/-- The text of a binding. -/
def Binding.text? (binding : Binding) : Option (String × String) :=
  match binding.value with
  | some (.text value) => some (binding.name, value)
  | _ => none

/-- Sorts the assigned variables of a scope by kind. -/
def Snapshot.ofScope (scope : Scope) : Snapshot where
  integers := scope.bindings.filterMap Binding.integer?
  reals := scope.bindings.filterMap Binding.real?
  booleans := scope.bindings.filterMap Binding.boolean?
  texts := scope.bindings.filterMap Binding.text?

/-- No variable has a value. -/
def Snapshot.isEmpty (snapshot : Snapshot) : Bool :=
  snapshot.integers.isEmpty && snapshot.reals.isEmpty && snapshot.booleans.isEmpty &&
    snapshot.texts.isEmpty

/-- The value of a variable. -/
def Snapshot.lookup? {α : Type} (entries : List (String × α)) (name : String) : Option α :=
  (entries.find? (·.1 == name)).map Prod.snd

/-- One line for each variable, kind after kind. -/
def Snapshot.text (snapshot : Snapshot) : String :=
  let line (kind : ValueKind) (name value : String) := name ++ ": " ++ kind.name ++ " = " ++ value ++ "\n"
  String.join (
    (snapshot.integers.map fun (name, value) => line .integer name (toString value.toInt)) ++
    (snapshot.reals.map fun (name, value) => line .real name (Layout.plain.text value)) ++
    (snapshot.booleans.map fun (name, value) => line .boolean name (if value then "true" else "false")) ++
    (snapshot.texts.map fun (name, value) => line .text name ("'" ++ value ++ "'")))

/-- The snapshot as data: an object for each kind. -/
def Snapshot.toJson (snapshot : Snapshot) : Json :=
  .obj [
    ("integers", .obj (snapshot.integers.map fun (name, value) => (name, .int value.toInt))),
    ("reals", .obj (snapshot.reals.map fun (name, value) => (name, .ofReal value))),
    ("booleans", .obj (snapshot.booleans.map fun (name, value) => (name, .bool value))),
    ("strings", .obj (snapshot.texts.map fun (name, value) => (name, .str value)))]

end MiniPascal
