import MiniPascal.Proofs.Scope.Declared

namespace MiniPascal

/-- A block with the heading of its routine; the outermost block of a program has none. -/
structure Level where
  heading : Option Heading
  block : Block

def Routine.level (routine : Routine) : Level := ⟨some routine.heading, routine.block⟩

def Program.level (program : Program) : Level := ⟨none, program.block⟩

namespace Level

def name (level : Level) : String :=
  match level.heading with
  | none => Scope.global.name
  | some heading => heading.name.name

def bound (level : Level) : List (String × VarType) :=
  match level.heading with
  | none => []
  | some heading => heading.bound

/-- The variables of every activation: parameters, the result of a function, then the declared ones. -/
def vars (level : Level) : List (String × VarType) :=
  level.bound ++ level.block.declarations.filterMap Decl.var?

def routines (level : Level) : List Routine := level.block.declarations.filterMap Decl.routine?

def var? (level : Level) (name : String) : Option VarType :=
  (level.vars.find? (·.1 == name)).map Prod.snd

def routine? (level : Level) (name : String) : Option Routine :=
  level.routines.find? (·.heading.name.name == name)

end Level

/-- What the innermost level knows that knows anything, and how many levels out that is. -/
def resolve {α : Type} (known : Level → Option α) : List Level → Option (Nat × α)
  | [] => none
  | level :: levels =>
    match known level with
    | some found => some (0, found)
    | none => (resolve known levels).map fun (out, found) => (out + 1, found)

/-- The variable that a name means in code of the innermost level. -/
def resolveVar (levels : List Level) (name : String) : Option (Nat × VarType) :=
  resolve (·.var? name) levels

def resolveRoutine (levels : List Level) (name : String) : Option (Nat × Routine) :=
  resolve (·.routine? name) levels

theorem resolve_some {α : Type} {known : Level → Option α} {levels : List Level} {out : Nat} {found : α}
    (resolved : resolve known levels = some (out, found)) :
    ∃ level, levels[out]? = some level ∧ known level = some found := by
  induction levels generalizing out with
  | nil => cases resolved
  | cons level levels ih =>
    rw [resolve] at resolved
    cases here : known level with
    | some own =>
      rw [here] at resolved
      cases resolved
      exact ⟨level, rfl, here⟩
    | none =>
      rw [here] at resolved
      obtain ⟨⟨inner, own⟩, outer, same⟩ := Option.map_eq_some_iff.mp resolved
      cases same
      exact ih outer

theorem resolveRoutine_name {levels : List Level} {name : String} {out : Nat} {routine : Routine}
    (resolves : resolveRoutine levels name = some (out, routine)) :
    routine.heading.name.name = name := by
  obtain ⟨level, -, known⟩ := resolve_some resolves
  have named := List.find?_some known
  simpa using named

/-- The blocks around a place in a program, the innermost first. -/
inductive Program.Nests (program : Program) : List Level → Prop where
  | whole : Nests program [program.level]
  | routine {level : Level} {around : List Level} {routine : Routine}
    (nests : Nests program (level :: around)) (declared : routine ∈ level.routines) :
    Nests program (routine.level :: level :: around)

theorem Program.Nests.drop {program : Program} {levels : List Level} {level : Level} {out : Nat}
    (nests : program.Nests levels) (found : levels[out]? = some level) :
    ∃ around, levels.drop out = level :: around ∧ program.Nests (level :: around) := by
  induction nests generalizing out with
  | whole =>
    cases out with
    | zero =>
      cases found
      exact ⟨[], rfl, .whole⟩
    | succ out => simp at found
  | routine nests declared ih =>
    cases out with
    | zero =>
      cases found
      exact ⟨_, rfl, .routine nests declared⟩
    | succ out => exact ih found

end MiniPascal
