import MiniPascal.Scope.Basic

namespace MiniPascal

/-- All scopes, numbered in the order of their creation. A scope encloses only scopes of higher
numbers. -/
structure Store where
  scopes : Array Scope

/-- The store of no scopes. -/
def Store.empty : Store := ⟨#[]⟩

/-- The store of a program that has just begun. -/
def Store.initial : Store := ⟨#[Scope.global]⟩

/-- The number of scopes. -/
def Store.size (store : Store) : Nat := store.scopes.size

/-- The scope of a number. -/
def Store.scope? (store : Store) (id : ScopeId) : Option Scope := store.scopes[id]?

/-- The scopes that are searched from one: itself, then those around it. -/
def Store.chain (store : Store) (id : ScopeId) : List ScopeId :=
  match store.scope? id with
  | some scope => id :: scope.enclosing
  | none => []

/-- An empty scope directly inside another. -/
def Store.inner (store : Store) (name : String) (parent : ScopeId) : Scope :=
  ⟨name, [], [], store.chain parent⟩

/-- Adds a scope. -/
def Store.push (store : Store) (scope : Scope) : Store := ⟨store.scopes.push scope⟩

/-- Removes the latest scope. -/
def Store.pop (store : Store) : Store := ⟨store.scopes.pop⟩

/-- Replaces a scope. -/
def Store.set (store : Store) (id : ScopeId) (scope : Scope) : Store :=
  ⟨store.scopes.setIfInBounds id scope⟩

/-- The binding that a name means in a scope, and the scope that holds it: the innermost one
counts. -/
def Store.binding? (store : Store) (id : ScopeId) (name : String) : Option (ScopeId × Binding) :=
  (store.chain id).findSome? fun owner =>
    ((store.scope? owner).bind (·.binding? name)).map (owner, ·)

/-- The routine that a name means in a scope. -/
def Store.routine? (store : Store) (id : ScopeId) (name : String) : Option Closure :=
  (store.chain id).findSome? fun owner => (store.scope? owner).bind (·.routine? name)

/-- Reads a variable. -/
def Store.get (store : Store) (id : ScopeId) (name : String) : Except Fault Value :=
  match store.binding? id name with
  | none => .error (.undeclaredVariable name)
  | some (_, binding) =>
    match binding.value with
    | none => .error (.uninitializedVariable name)
    | some value => .ok value

/-- Stores a value in the variable that a name means. -/
def Store.assign (store : Store) (id : ScopeId) (name : String) (value : Value) : Except Fault Store :=
  match store.binding? id name with
  | none => .error (.undeclaredVariable name)
  | some (owner, binding) => do
    let stored ← binding.accept value
    return ⟨store.scopes.modify owner (·.setValue name stored)⟩

/-- Changes a scope by an operation that may fail. -/
def Store.update (store : Store) (id : ScopeId) (change : Scope → Except Fault Scope) :
    Except Fault Store :=
  match store.scope? id with
  | none => .ok store
  | some scope => do return store.set id (← change scope)

/-- Declares a variable in a scope. -/
def Store.declareVar (store : Store) (id : ScopeId) (name : String) (type : VarType) :
    Except Fault Store :=
  store.update id (·.declareVar name type)

/-- Declares a routine in a scope. -/
def Store.declareRoutine (store : Store) (id : ScopeId) (closure : Closure) : Except Fault Store :=
  store.update id (·.declareRoutine closure)

end MiniPascal
