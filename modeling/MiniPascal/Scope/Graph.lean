import MiniPascal.Scope.Store

namespace MiniPascal

/-- Scopes worked on one operation at a time, through handles that can be given up. -/
structure ScopeGraph where
  store : Store
  dropped : List ScopeId

/-- The graph of one global scope. -/
def ScopeGraph.initial : ScopeGraph := ⟨.initial, []⟩

/-- Is there a handle of this number that was not given up? -/
def ScopeGraph.held (graph : ScopeGraph) (id : ScopeId) : Bool :=
  id < graph.store.size && !graph.dropped.contains id

/-- A scope lives as long as its handle is held or some scope inside it lives. -/
def ScopeGraph.alive (graph : ScopeGraph) (id : ScopeId) : Bool :=
  (List.range graph.store.size).any fun inner =>
    graph.held inner && (graph.store.chain inner).contains id

/-- An operation on a scope of the graph. -/
inductive ScopeOp where
  | child (name : String)
  | drop
  | declareVar (name : String) (type : VarType)
  | declareRoutine (name : String) (owner : ScopeId)
  | assign (name : String) (value : Value)
  | get (name : String)
  | localValue (name : String)
  | resolve (name : String)
  | name
  | bindings

/-- What an operation answers. A routine is answered with its name and the name of the scope that
owns it, as long as that lives. -/
inductive ScopeAnswer where
  | done
  | scope (id : ScopeId)
  | value (value : Value)
  | optionalValue (value : Option Value)
  | routine (found : Option (String × Option String))
  | name (name : String)
  | bindings (bindings : List Binding)

/-- A procedure without parameters that does nothing. -/
def Routine.stub (name : String) : Routine := ⟨⟨⟨name, .point 0⟩, [], none, .point 0⟩, ⟨[], []⟩⟩

/-- The name of the scope that owns a closure, as long as it lives. -/
def ScopeGraph.ownerName? (graph : ScopeGraph) (closure : Closure) : Option String :=
  if graph.alive closure.home then (graph.store.scope? closure.home).map Scope.name else none

/-- Performs an operation on a scope. One that fails leaves the graph as it was. -/
def ScopeGraph.apply (graph : ScopeGraph) (id : ScopeId) (scope : Scope) :
    ScopeOp → Except Fault (ScopeGraph × ScopeAnswer)
  | .child name =>
    let store := graph.store.push (graph.store.inner name id)
    .ok ({ graph with store := store }, .scope graph.store.size)
  | .drop => .ok ({ graph with dropped := id :: graph.dropped }, .done)
  | .declareVar name type => do
    return ({ graph with store := ← graph.store.declareVar id name type }, .done)
  | .declareRoutine name owner => do
    return ({ graph with store := ← graph.store.declareRoutine id ⟨.stub name, owner⟩ }, .done)
  | .assign name value => do
    return ({ graph with store := ← graph.store.assign id name value }, .done)
  | .get name => do return (graph, .value (← graph.store.get id name))
  | .localValue name => .ok (graph, .optionalValue (scope.localValue? name))
  | .resolve name =>
    let found := (graph.store.routine? id name).map fun closure =>
      (closure.name, graph.ownerName? closure)
    .ok (graph, .routine found)
  | .name => .ok (graph, .name scope.name)
  | .bindings => .ok (graph, .bindings scope.bindings)

/-- Why a step on the graph fails: there is no such handle, or the operation has a fault. -/
inductive ScopeFailure where
  | noSuchScope
  | fault (cause : Fault)
deriving DecidableEq

/-- Performs an operation through a handle. An owner of a routine must be held too. -/
def ScopeGraph.step (graph : ScopeGraph) (id : ScopeId) (op : ScopeOp) :
    Except ScopeFailure (ScopeGraph × ScopeAnswer) :=
  let ownerHeld := match op with
    | .declareRoutine _ owner => graph.held owner
    | _ => true
  match graph.store.scope? id with
  | some scope =>
    if graph.held id && ownerHeld then
      match graph.apply id scope op with
      | .ok result => .ok result
      | .error cause => .error (.fault cause)
    else .error .noSuchScope
  | none => .error .noSuchScope

/-- Performs an operation through a handle and goes on, also after a failure: the graph that later
operations work on, and the answer. -/
def ScopeGraph.perform (graph : ScopeGraph) (id : ScopeId) (op : ScopeOp) :
    ScopeGraph × Except ScopeFailure ScopeAnswer :=
  match graph.step id op with
  | .ok (next, answer) => (next, .ok answer)
  | .error failure => (graph, .error failure)

end MiniPascal
