import MiniPascal.Operator
import MiniPascal.Run.Machine
import MiniPascal.Run.Duplicates
import MiniPascal.Run.Snapshot

namespace MiniPascal

/-- What a call can name. -/
inductive Callee where
  | routine (closure : Closure)
  | builtin (builtin : Builtin)

/-- How an activation of a routine is run on its arguments; a function gives a value. -/
abbrev Activate := Closure → List Value → Action (Option Value)

namespace Action

/-- The callee of a call with so many arguments: the innermost visible routine of the name, or else a
builtin. -/
def callee (name : String) (actual : Nat) : Action Callee := do
  let machine ← get
  match machine.store.routine? machine.current name with
  | some closure =>
    let expected := closure.routine.heading.params.length
    if expected = actual then return .routine closure
    else fault (.arityMismatch closure.name expected actual)
  | none =>
    match Builtin.find? name with
    | some builtin =>
      if builtin.arity = actual then return .builtin builtin
      else fault (.arityMismatch name builtin.arity actual)
    | none => fault (.undefinedRoutine name)

/-- Calls a callee on the values of its arguments. -/
def call (activate : Activate) : Callee → List Value → Action (Option Value)
  | .routine closure, args => activate closure args
  | .builtin builtin, args => do
    runBuiltin builtin args
    return none

/-- The value of a call that stands in an expression. -/
def result (name : String) : Option Value → Action Value
  | some value => return value
  | none => fault (.typeMismatch (.noResult name))

/-- Reads a name in an expression: a variable, or failing that a call without arguments of a visible
routine. -/
def readName (activate : Activate) (name : String) : Action Value := do
  let machine ← get
  match machine.store.get machine.current name with
  | .error (.undeclaredVariable missing) =>
    if (machine.store.routine? machine.current name).isSome then
      let called ← callee name 0
      result name (← call activate called [])
    else fault (.undeclaredVariable missing)
  | outcome => ofExcept outcome

mutual

/-- Evaluates an expression, operands from left to right. -/
def eval (activate : Activate) : Expr → Action Value
  | .number literal _ => return .ofLiteral literal
  | .text value _ => return .text value
  | .var name _ => readName activate name
  | .unary op operand _ => do
    let value ← eval activate operand
    ofExcept (op.apply value)
  | .binary left op right _ => do
    let left ← eval activate left
    let right ← eval activate right
    ofExcept (op.apply left right)
  | .relational left op right _ => do
    let left ← eval activate left
    let right ← eval activate right
    ofExcept (op.apply left right)
  | .call name args _ => do
    let called ← callee name.name args.length
    let values ← evalAll activate args
    result name.name (← call activate called values)

/-- Evaluates expressions from left to right. -/
def evalAll (activate : Activate) : List Expr → Action (List Value)
  | [] => return []
  | first :: rest => do
    let value ← eval activate first
    let values ← evalAll activate rest
    return value :: values

end

/-- Evaluates a condition, which must be a boolean. -/
def evalCondition (activate : Activate) (cond : Expr) : Action Bool := do
  let value ← eval activate cond
  match value.asBool? with
  | some truth => return truth
  | none => fault (.typeMismatch (.condition value.kind))

/-- Repeats rounds until one says that it was the last, for at most the given number of rounds. -/
def repeatUntil (round : Action Bool) : Nat → Action Unit
  | 0 => outOfFuel
  | rounds + 1 => do
    if ← round then return
    else repeatUntil round rounds

mutual

/-- Executes a statement; a loop may make at most `rounds` rounds. -/
def exec (activate : Activate) (rounds : Nat) : Stmt → Action Unit
  | .compound body _ => execAll activate rounds body
  | .assign target value _ => do
    let value ← eval activate value
    assign target.name value
  | .call name args _ => do
    let called ← callee name.name args.length
    let values ← evalAll activate args
    let _ ← call activate called values
  | .ifThen cond branch _ => do
    if ← evalCondition activate cond then exec activate rounds branch
  | .ifElse cond branch otherwise _ => do
    if ← evalCondition activate cond then exec activate rounds branch
    else exec activate rounds otherwise
  | .repeatUntil body cond _ =>
    repeatUntil (do execAll activate rounds body; evalCondition activate cond) rounds
  | .empty _ => return

/-- Executes statements in order. -/
def execAll (activate : Activate) (rounds : Nat) : List Stmt → Action Unit
  | [] => return
  | first :: rest => do
    exec activate rounds first
    execAll activate rounds rest

end

/-- Makes a declaration in the current scope. -/
def declare : Decl → Action Unit
  | .var name type => updateStore fun current store => store.declareVar current name.name type
  | .routine heading declarations body => do
    let machine ← get
    let scope := ((machine.store.scope? machine.current).map Scope.name).getD ""
    note (.declare heading.kind heading.name.name scope)
    let routine : Routine := ⟨heading, ⟨declarations, body⟩⟩
    updateStore fun current store => store.declareRoutine current ⟨routine, current⟩

/-- Makes declarations in order. -/
def declareAll : List Decl → Action Unit
  | [] => return
  | first :: rest => do
    declare first
    declareAll rest

/-- Makes the declarations of a block in the current scope, then executes its statements. -/
def execBlock (activate : Activate) (rounds : Nat) (block : Block) : Action Unit := do
  declareAll block.declarations
  execAll activate rounds block.body

end Action

/-- The scope in which an activation begins: parameters bound to arguments, then the result variable
of a function. -/
def Heading.frame (heading : Heading) (scope : Scope) (args : List Value) : Except Fault Scope := do
  let bound ← scope.bindParams heading.params args
  match heading.result with
  | none => return bound
  | some type => bound.declareVar heading.name.name type

namespace Action

/-- The body of an activation, in its own scope: what its function returns is what its result
variable holds at the end, or zero. -/
def activation (activate : Activate) (rounds : Nat) (routine : Routine) : Action (Option Value) := do
  let heading := routine.heading
  note (.enter heading.kind heading.name.name (← get).callDepth)
  execBlock activate rounds routine.block
  let machine ← get
  let stored := (machine.store.scope? machine.current).bind (·.localValue? heading.name.name)
  return heading.result.map fun type => stored.getD (.zero type)

/-- Activates a routine in a new scope inside the one that declares it, unless too many activations
are live. The fuel bounds how deep activations nest and how many rounds a loop makes. -/
def activate (config : Config) : Nat → Activate
  | 0, _, _ => outOfFuel
  | fuel + 1, closure, args => do
    let machine ← get
    if config.maxCallDepth ≤ machine.callDepth then fault (.recursionLimit config.maxCallDepth)
    else
      match machine.store.scope? closure.home with
      | none => fault (.undefinedRoutine closure.name)
      | some _ =>
        let heading := closure.routine.heading
        let frame ← ofExcept (heading.frame (machine.store.inner closure.name closure.home) args)
        let value ← inScope frame (activation (activate config fuel) fuel closure.routine)
        note (.leave heading.kind closure.name value)
        return value

/-- Executes the block of a program in the current scope, and gives the variables of that scope. -/
def main (config : Config) (fuel : Nat) (program : Program) : Action Snapshot := do
  execBlock (activate config fuel) fuel program.block
  let machine ← get
  let snapshot := Snapshot.ofScope ((machine.store.scope? machine.current).getD .global)
  note (.runFinished program.name.name)
  return snapshot

/-- Runs a program in a global scope of its own. One that declares a name twice is refused before the
scopes are touched. -/
def run (config : Config) (fuel : Nat) (program : Program) : Action Snapshot := do
  note (.runStart program.name.name)
  match program.block.duplicate? with
  | some name => fault (.duplicateDeclaration name)
  | none => afresh (main config fuel program)

end Action

/-- What a run gives: the final variables or why there are none, the sink afterwards, and the events
in order. -/
structure RunReport where
  outcome : Except RunStop Snapshot
  sink : Sink
  events : List RunEvent

/-- What programs run on, one after another: the limits, the scopes of the live activations, and the
sink. -/
structure Session where
  config : Config
  stack : Store
  sink : Sink

/-- A session in which nothing has run. -/
def Session.start (config : Config) (sink : Sink) : Session := ⟨config, .empty, sink⟩

/-- Runs a program: its report, and what the next program runs on. -/
def Session.run (session : Session) (fuel : Nat) (program : Program) : RunReport × Session :=
  match Action.run session.config fuel program ⟨session.stack, session.sink, []⟩ with
  | .ok snapshot machine =>
    (⟨.ok snapshot, machine.sink, machine.events.reverse⟩,
      { session with stack := machine.store, sink := machine.sink })
  | .error stop machine =>
    (⟨.error stop, machine.sink, machine.events.reverse⟩,
      { session with stack := machine.store, sink := machine.sink })

/-- Runs a program by itself, on a session of its own. -/
def Program.run (config : Config) (fuel : Nat) (sink : Sink) (program : Program) : RunReport :=
  ((Session.start config sink).run fuel program).1

end MiniPascal
