import MiniPascal.Scope.Store
import MiniPascal.Builtin
import MiniPascal.Config
import MiniPascal.Log

namespace MiniPascal

/-- What a run reports. -/
inductive RunEvent where
  | runStart (program : String)
  | declare (kind : RoutineKind) (routine scope : String)
  | enter (kind : RoutineKind) (routine : String) (depth : Nat)
  | leave (kind : RoutineKind) (routine : String) (result : Option Value)
  | runFinished (program : String)
deriving DecidableEq

/-- An optional value as a log shows it. -/
def Value.optionListing : Option Value → String
  | none => "None"
  | some value => "Some(" ++ value.listing ++ ")"

/-- A run event as a log shows it. -/
def RunEvent.entry : RunEvent → LogEntry
  | .runStart program => ⟨.debug, "run start", [("program", program)]⟩
  | .declare kind routine scope =>
    ⟨.trace, "declare " ++ kind.word, [("routine", routine), ("scope", scope)]⟩
  | .enter kind routine depth =>
    ⟨.debug, "enter " ++ kind.word, [("depth", toString depth), ("routine", routine)]⟩
  | .leave kind routine result =>
    ⟨.trace, "leave " ++ kind.word, [("result", Value.optionListing result), ("routine", routine)]⟩
  | .runFinished program => ⟨.debug, "run finished", [("program", program)]⟩

/-- The state of a run: the scopes of the live activations, the outermost first, the sink, and the
events so far, the latest first. Code always executes in the latest scope. -/
structure Machine where
  store : Store
  sink : Sink
  events : List RunEvent

/-- Why a run stops early: a fault of the program, or the bound on activations and rounds was too
low. -/
inductive RunStop where
  | fault (cause : Fault)
  | outOfFuel
deriving DecidableEq

/-- A computation of a run. It keeps the state it reached where it stops. -/
abbrev Action := EStateM RunStop Machine

/-- The scope in which code executes. -/
def Machine.current (machine : Machine) : ScopeId := machine.store.size - 1

/-- The number of live activations of routines. -/
def Machine.callDepth (machine : Machine) : Nat := machine.store.size - 1

namespace Action

/-- Stops with a fault. -/
def fault {α : Type} (cause : Fault) : Action α := throw (.fault cause)

/-- Stops because the bound on activations and rounds is used up. -/
def outOfFuel {α : Type} : Action α := throw .outOfFuel

/-- Goes on with a result, or stops with the fault. -/
def ofExcept {α : Type} : Except Fault α → Action α
  | .ok result => pure result
  | .error cause => fault cause

/-- Notes an event. -/
def note (event : RunEvent) : Action Unit :=
  modify fun machine => { machine with events := event :: machine.events }

/-- Changes the store by an operation that may fail. -/
def updateStore (change : ScopeId → Store → Except Fault Store) : Action Unit := do
  let machine ← get
  let store ← ofExcept (change machine.current machine.store)
  set { machine with store := store }

/-- Assigns to a variable. -/
def assign (name : String) (value : Value) : Action Unit :=
  updateStore fun current store => store.assign current name value

/-- Runs a builtin. What the sink took before a fault stays in it. -/
def runBuiltin (builtin : Builtin) (args : List Value) : Action Unit := fun ⟨store, sink, events⟩ =>
  match builtin.run args sink with
  | (sink, none) => .ok () ⟨store, sink, events⟩
  | (sink, some cause) => .error (.fault cause) ⟨store, sink, events⟩

/-- Runs a body inside a further scope, which is gone afterwards however the body ends. -/
def inScope {α : Type} (scope : Scope) (body : Action α) : Action α := fun machine =>
  match body { machine with store := machine.store.push scope } with
  | .ok result machine => .ok result { machine with store := machine.store.pop }
  | .error stop machine => .error stop { machine with store := machine.store.pop }

/-- Runs a body in one new global scope. The scopes of before are cleared away first, and none is
left, however the body ends. -/
def afresh {α : Type} (body : Action α) : Action α := fun machine =>
  match body { machine with store := .initial } with
  | .ok result machine => .ok result { machine with store := .empty }
  | .error stop machine => .error stop { machine with store := .empty }

end Action

end MiniPascal
