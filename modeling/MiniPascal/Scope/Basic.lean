import MiniPascal.Fault

namespace MiniPascal

/-- A variable and its value, once it has one. -/
structure Binding where
  name : String
  type : VarType
  value : Option Value

/-- The number of a scope in a store. -/
abbrev ScopeId := Nat

/-- A routine and the scope that declares it. -/
structure Closure where
  routine : Routine
  home : ScopeId

/-- The name of the routine of a closure. -/
def Closure.name (closure : Closure) : String := closure.routine.heading.name.name

/-- The record of one activation: variables in the order of their declaration, routines, and the
scopes around it, the innermost first. -/
structure Scope where
  name : String
  bindings : List Binding
  routines : List Closure
  enclosing : List ScopeId

/-- The outermost scope of a program. -/
def Scope.global : Scope := ⟨"global", [], [], []⟩

/-- The binding of a variable. -/
def Scope.binding? (scope : Scope) (name : String) : Option Binding :=
  scope.bindings.find? (·.name == name)

/-- The routine of a name. -/
def Scope.routine? (scope : Scope) (name : String) : Option Closure :=
  scope.routines.find? (·.name == name)

/-- Variables and routines of a scope share one name space. -/
def Scope.declares (scope : Scope) (name : String) : Bool :=
  (scope.binding? name).isSome || (scope.routine? name).isSome

/-- Declares a variable without a value. -/
def Scope.declareVar (scope : Scope) (name : String) (type : VarType) : Except Fault Scope :=
  if scope.declares name then .error (.duplicateDeclaration name)
  else .ok { scope with bindings := scope.bindings ++ [⟨name, type, none⟩] }

/-- Declares a routine. -/
def Scope.declareRoutine (scope : Scope) (closure : Closure) : Except Fault Scope :=
  if scope.declares closure.name then .error (.duplicateDeclaration closure.name)
  else .ok { scope with routines := scope.routines ++ [closure] }

/-- The value of a variable of this scope, if it has one. -/
def Scope.localValue? (scope : Scope) (name : String) : Option Value :=
  (scope.binding? name).bind Binding.value

/-- A value as a binding stores it. -/
def Binding.accept (binding : Binding) (value : Value) : Except Fault Value :=
  match value.coerce? binding.type with
  | some stored => .ok stored
  | none => .error (.typeMismatch (.assignment binding.name value.kind binding.type))

/-- Replaces the value of the variable of a name. -/
def Scope.setValue (scope : Scope) (name : String) (value : Value) : Scope :=
  { scope with bindings := scope.bindings.map fun binding =>
      if binding.name = name then { binding with value := some value } else binding }

/-- Declares a parameter and stores its argument. -/
def Scope.bindParam (scope : Scope) (param : Param) (arg : Value) : Except Fault Scope := do
  let declared ← scope.declareVar param.name.name param.type
  let stored ← Binding.accept ⟨param.name.name, param.type, none⟩ arg
  return declared.setValue param.name.name stored

/-- Binds parameters to arguments, in order. -/
def Scope.bindParams (scope : Scope) : List Param → List Value → Except Fault Scope
  | param :: params, arg :: args => do (← scope.bindParam param arg).bindParams params args
  | _, _ => .ok scope

end MiniPascal
