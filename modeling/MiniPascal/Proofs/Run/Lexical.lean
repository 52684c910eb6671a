import Mathlib
import MiniPascal.Proofs.Run.Activations

namespace MiniPascal

def Task.parts : Task → List Task
  | .stmts (first :: rest) => [.stmt first, .stmts rest]
  | .stmt (.compound body _) => [.stmts body]
  | .stmt (.assign _ value _) => [.expr value]
  | .stmt (.call _ args _) => [.exprs args]
  | .stmt (.ifThen cond branch _) => [.expr cond, .stmt branch]
  | .stmt (.ifElse cond branch otherwise _) => [.expr cond, .stmt branch, .stmt otherwise]
  | .rounds body cond _ => [.stmts body, .expr cond]
  | .expr (.unary _ operand _) => [.expr operand]
  | .expr (.binary left _ right _) => [.expr left, .expr right]
  | .expr (.relational left _ right _) => [.expr left, .expr right]
  | .expr (.call _ args _) => [.exprs args]
  | .exprs (first :: rest) => [.expr first, .exprs rest]
  | _ => []

def Task.callee? : Task → Option String
  | .stmt (.call name _ _) => some name.name
  | .expr (.call name _ _) => some name.name
  | .expr (.var name _) => some name
  | _ => none

/-- The tasks that the text of a block gives rise to, the routines that it declares apart. -/
inductive Block.Contains (block : Block) : Task → Prop where
  | body : Contains block (.stmts block.body)
  | part {task part : Task} (within : Contains block task) (listed : part ∈ task.parts) :
    Contains block part
  | rounds {body : List Stmt} {cond : Expr} {span : Span} (left : Nat)
    (within : Contains block (.stmt (.repeatUntil body cond span))) :
    Contains block (.rounds body cond left)
  | nextRound {body : List Stmt} {cond : Expr} {left : Nat}
    (within : Contains block (.rounds body cond (left + 1))) : Contains block (.rounds body cond left)
  | enter {task : Task} {closure : Closure} (args : List Value) (within : Contains block task)
    (named : task.callee? = some closure.name) : Contains block (.enter closure args)

theorem Action.length_of_evalAll {enter : Activate} {exprs : List Expr} {machine after : Machine}
    {values : List Value} (run : evalAll enter exprs machine = .ok values after) :
    values.length = exprs.length := by
  induction exprs generalizing machine values with
  | nil =>
    rw [evalAll] at run
    cases run
    rfl
  | cons first rest ih =>
    rw [evalAll] at run
    obtain ⟨value, middle, -, run⟩ := ok_of_bind run
    obtain ⟨others, last, later, run⟩ := ok_of_bind run
    cases run
    rw [List.length_cons, List.length_cons, ih later]

/-- A point of a run lies in a block of the program whose code sees one activation of each block
around it. A routine that is entered there is the one that its name means. -/
structure Point.Placed (program : Program) (point : Point) (level : Level) (around : List Level) :
    Prop where
  nests : program.Nests (level :: around)
  within : level.block.Contains point.task
  executes : point.machine.Executes (level :: around)
  enters : ∀ closure args, point.task = .enter closure args → ∃ out,
    resolveRoutine (level :: around) closure.name = some (out, closure.routine) ∧
      point.machine.chain[out]? = some closure.home ∧
      closure.routine.heading.params.length = args.length

section

variable {config : Config} {program : Program} {fuel later : Nat} {task piece : Task}
  {machine after : Machine} {level : Level} {around : List Level}

theorem Task.enter_not_mem_parts (closure : Closure) (args : List Value) :
    .enter closure args ∉ task.parts := by
  fun_cases Task.parts task <;> simp

theorem Point.Placed.part (placed : Point.Placed program ⟨fuel, task, machine⟩ level around)
    (listed : piece ∈ task.parts) (executes : after.Executes (level :: around)) :
    Point.Placed program ⟨later, piece, after⟩ level around := by
  refine ⟨placed.nests, placed.within.part listed, executes, ?_⟩
  rintro closure args rfl
  exact absurd listed (Task.enter_not_mem_parts closure args)

theorem Point.Placed.call {name : String} {actual : Nat} {closure : Closure} {args : List Value}
    (placed : Point.Placed program ⟨fuel, task, machine⟩ level around)
    (named : task.callee? = some name)
    (found : Action.callee name actual machine = .ok (.routine closure) machine)
    (arity : actual = args.length) (evolves : machine.store.Evolves machine.chain after.store) :
    Point.Placed program ⟨later, .enter closure args, after⟩ level around := by
  obtain ⟨means, expected⟩ := (Action.callee_ok found).2 closure rfl
  have executes := placed.executes
  rw [executes.routine? name] at means
  obtain ⟨⟨out, routine⟩, resolves, means⟩ := Option.bind_eq_some_iff.mp means
  obtain ⟨home, atHome, rfl⟩ := Option.map_eq_some_iff.mp means
  have nameEq : (Closure.mk routine home).name = name := resolveRoutine_name resolves
  refine ⟨placed.nests, .enter args placed.within (nameEq ▸ named), executes.evolve evolves, ?_⟩
  rintro _ _ ⟨⟩
  refine ⟨out, nameEq ▸ resolves, ?_, expected.trans arity⟩
  rw [Machine.chain_eq evolves]
  exact atHome

theorem Point.Placed.enter {closure : Closure} {args : List Value}
    (placed : Point.Placed program ⟨fuel, .enter closure args, machine⟩ level around)
    (begins : Begins config closure args machine after) :
    ∃ around, Point.Placed program ⟨later, .stmts closure.routine.block.body, after⟩
      closure.routine.level around := by
  obtain ⟨out, resolves, atHome, arity⟩ := placed.enters closure args rfl
  obtain ⟨owner, atOwner, known⟩ := resolve_some resolves
  obtain ⟨outer, dropped, nests⟩ := placed.nests.drop atOwner
  have executes := (begins.executes placed.executes atHome arity).2
  rw [dropped] at executes
  refine ⟨owner :: outer, .routine nests (List.mem_of_find?_eq_some known), .body, executes, ?_⟩
  rintro _ _ ⟨⟩

/-- One step stays within the text of the block, or enters a routine that the block sees. -/
theorem Step.placed {point next : Point} (step : Step config point next)
    (placed : point.Placed program level around) :
    ∃ level around, next.Placed program level around := by
  have sound := Action.activate_confined config point.fuel
  have executes := placed.executes
  cases step with
  | first => exact ⟨_, _, placed.part (by simp [Task.parts]) executes⟩
  | rest run =>
    exact ⟨_, _, placed.part (by simp [Task.parts]) (executes.after_exec run)⟩
  | compound => exact ⟨_, _, placed.part (by simp [Task.parts]) executes⟩
  | assigned => exact ⟨_, _, placed.part (by simp [Task.parts]) executes⟩
  | stmtArgs found =>
    obtain ⟨rfl, -⟩ := Action.callee_ok found
    exact ⟨_, _, placed.part (by simp [Task.parts]) executes⟩
  | stmtCall found run =>
    obtain ⟨rfl, -⟩ := Action.callee_ok found
    have evolves := (Action.evalAll_confined sound _ executes.linked).evolves run
    exact ⟨_, _, placed.call rfl found (Action.length_of_evalAll run).symm evolves⟩
  | ifThenCond => exact ⟨_, _, placed.part (by simp [Task.parts]) executes⟩
  | ifThenBranch run =>
    exact ⟨_, _, placed.part (by simp [Task.parts]) (executes.after_condition run)⟩
  | ifElseCond => exact ⟨_, _, placed.part (by simp [Task.parts]) executes⟩
  | ifElseBranch run =>
    exact ⟨_, _, placed.part (by simp [Task.parts]) (executes.after_condition run)⟩
  | ifElseOtherwise run =>
    exact ⟨_, _, placed.part (by simp [Task.parts]) (executes.after_condition run)⟩
  | loop => exact ⟨_, _, placed.nests, placed.within.rounds _, executes, by rintro _ _ ⟨⟩⟩
  | roundBody => exact ⟨_, _, placed.part (by simp [Task.parts]) executes⟩
  | roundCond run =>
    exact ⟨_, _, placed.part (by simp [Task.parts]) (executes.after_execAll run)⟩
  | nextRound run again =>
    have later := (executes.after_execAll run).after_condition again
    exact ⟨_, _, placed.nests, placed.within.nextRound, later, by rintro _ _ ⟨⟩⟩
  | nameCall unbound found =>
    obtain ⟨rfl, -⟩ := Action.callee_ok found
    exact ⟨_, _, placed.call rfl found rfl (.refl _ _)⟩
  | operand => exact ⟨_, _, placed.part (by simp [Task.parts]) executes⟩
  | left => exact ⟨_, _, placed.part (by simp [Task.parts]) executes⟩
  | right run =>
    exact ⟨_, _, placed.part (by simp [Task.parts]) (executes.after_eval run)⟩
  | comparedLeft => exact ⟨_, _, placed.part (by simp [Task.parts]) executes⟩
  | comparedRight run =>
    exact ⟨_, _, placed.part (by simp [Task.parts]) (executes.after_eval run)⟩
  | exprArgs found =>
    obtain ⟨rfl, -⟩ := Action.callee_ok found
    exact ⟨_, _, placed.part (by simp [Task.parts]) executes⟩
  | exprCall found run =>
    obtain ⟨rfl, -⟩ := Action.callee_ok found
    have evolves := (Action.evalAll_confined sound _ executes.linked).evolves run
    exact ⟨_, _, placed.call rfl found (Action.length_of_evalAll run).symm evolves⟩
  | firstExpr => exact ⟨_, _, placed.part (by simp [Task.parts]) executes⟩
  | restExprs run =>
    exact ⟨_, _, placed.part (by simp [Task.parts]) (executes.after_eval run)⟩
  | enter begins => exact ⟨_, placed.enter begins⟩

/-- Every point of a run lies in a block of the program. -/
theorem Reached.placed {sink : Sink} {point : Point}
    (reached : Reached config program fuel sink point) :
    ∃ level around, point.Placed program level around := by
  induction reached with
  | start distinct declared =>
    have opens := Scope.global_opens program
    have executes := (Machine.executes_of_declared opens .nil .nil declared).2
    exact ⟨_, _, .whole, .body, executes, by rintro _ _ ⟨⟩⟩
  | step reached step ih =>
    obtain ⟨level, around, placed⟩ := ih
    exact step.placed placed

/-- Static scoping. At every point of a run the code that executes belongs to a block of the program,
and sees exactly one activation of each block around it, the innermost first and the global scope
last. Its names mean what the text says, and a routine that it enters gets a scope directly inside
the activation of the block that declares the routine, which is one of those that the code sees. A
variable that is read there is the one that its name means, and so is the target of an assignment
once the right side has its value: whatever that has called, the code sees the same activations. -/
theorem lexical_scoping {sink : Sink} {point : Point}
    (reached : Reached config program fuel sink point) :
    ∃ level around, program.Nests (level :: around) ∧ level.block.Contains point.task ∧
      List.Forall₂ point.machine.store.Activation point.machine.chain (level :: around) ∧
      point.machine.ResolvesLexically (level :: around) ∧
      (∀ closure args, point.task = .enter closure args → ∃ out,
        resolveRoutine (level :: around) closure.name = some (out, closure.routine) ∧
          point.machine.chain[out]? = some closure.home ∧
          ∀ after, Begins config closure args point.machine after →
            after.chain = point.machine.store.size :: point.machine.chain.drop out) ∧
      (∀ name span, point.task = .expr (.var name span) →
        Action.eval (Action.activate config point.fuel) (.var name span) point.machine =
          point.machine.readLexically (level :: around) (Action.activate config point.fuel) name) ∧
      ∀ target expr span value after, point.task = .stmt (.assign target expr span) →
        Action.eval (Action.activate config point.fuel) expr point.machine = .ok value after →
        after.chain = point.machine.chain ∧ after.ResolvesLexically (level :: around) ∧
          ∀ rounds, Action.exec (Action.activate config point.fuel) rounds
            (.assign target expr span) point.machine =
              after.assignLexically (level :: around) target.name value := by
  obtain ⟨level, around, placed⟩ := reached.placed
  have executes := placed.executes
  refine ⟨level, around, placed.nests, placed.within, executes.activations,
    executes.resolvesLexically, ?_, ?_, ?_⟩
  · intro closure args entering
    obtain ⟨out, resolves, atHome, arity⟩ := placed.enters closure args entering
    refine ⟨out, resolves, atHome, fun after begins => ?_⟩
    exact (begins.executes executes atHome arity).1
  · intro name span reads
    rw [Action.eval]
    exact executes.read _ name
  · intro target expr span value after assigns run
    have later := executes.after_eval run
    have chain := Machine.chain_eq (executes.evolves_of_eval run)
    exact ⟨chain, later.resolvesLexically, fun _ => executes.exec_assign run⟩

end

/-- A procedure reads a variable whose name its caller declares anew. -/
def shadowing : Program where
  name := ⟨"Main", .point 0⟩
  block := {
    declarations := [
      .var ⟨"x", .point 0⟩ .integer,
      .var ⟨"seen", .point 0⟩ .integer,
      .routine ⟨⟨"Show", .point 0⟩, [], none, .point 0⟩ []
        [.assign ⟨"seen", .point 0⟩ (.var "x" (.point 0)) (.point 0)],
      .routine ⟨⟨"Caller", .point 0⟩, [], none, .point 0⟩ [.var ⟨"x", .point 0⟩ .integer]
        [.assign ⟨"x", .point 0⟩ (.number (.integer 99) (.point 0)) (.point 0),
          .call ⟨"Show", .point 0⟩ [] (.point 0)]]
    body := [
      .assign ⟨"x", .point 0⟩ (.number (.integer 1) (.point 0)) (.point 0),
      .call ⟨"Caller", .point 0⟩ [] (.point 0)] }

/-- The activation of the caller, which is scope 1, is not among those that the procedure sees, and
neither is its variable. -/
theorem shadowing_reached : ∃ machine,
    Reached .default shadowing 2 (.empty none) ⟨0, .expr (.var "x" (.point 0)), machine⟩ ∧
      machine.chain = [2, 0] ∧
      Action.eval (Action.activate .default 0) (.var "x" (.point 0)) machine =
        .ok (.integer 1) machine := by
  have start := @Reached.start .default shadowing 2 (.empty none) _ (by decide) (by cbv)
  have atCaller := ((start.step (.rest (by cbv))).step .first).step (.stmtCall (by cbv) (by cbv))
  have inCaller := atCaller.step (.enter ⟨by decide, by cbv, _, by cbv, by cbv⟩)
  have atShow := ((inCaller.step (.rest (by cbv))).step .first).step (.stmtCall (by cbv) (by cbv))
  have inShow := atShow.step (.enter ⟨by decide, by cbv, _, by cbv, by cbv⟩)
  exact ⟨_, (inShow.step .first).step .assigned, by cbv, by cbv⟩

theorem lexical_scoping_shadowing : ∃ machine level around,
    Reached .default shadowing 2 (.empty none) ⟨0, .expr (.var "x" (.point 0)), machine⟩ ∧
      machine.chain = [2, 0] ∧ shadowing.Nests (level :: around) ∧
      List.Forall₂ machine.store.Activation machine.chain (level :: around) ∧
      machine.readLexically (level :: around) (Action.activate .default 0) "x" =
        .ok (.integer 1) machine := by
  obtain ⟨machine, reached, chain, value⟩ := shadowing_reached
  obtain ⟨level, around, nests, -, activations, -, -, reads, -⟩ := lexical_scoping reached
  have read := (reads "x" (.point 0) rfl).symm.trans value
  exact ⟨machine, level, around, reached, chain, nests, activations, read⟩

end MiniPascal
