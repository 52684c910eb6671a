import MiniPascal.Proofs.Run.SafeExecution
import MiniPascal.Proofs.Run.Lexical

namespace MiniPascal

/-- Does a task keep the rules in code of the innermost of some nested blocks? -/
def Task.Checks (levels : List Level) : Task → Prop
  | .stmts body => Stmt.checkAll levels body = true
  | .stmt code => code.checks levels = true
  | .rounds body cond _ => Stmt.checkAll levels body = true ∧ cond.kind? levels = some .boolean
  | .expr code => ∃ kind, code.kind? levels = some kind
  | .exprs codes => ∃ kinds, Expr.kinds? levels codes = some kinds
  | .enter _ _ => True

theorem Task.Checks.parts {levels : List Level} {task : Task} (checked : task.Checks levels) :
    ∀ piece ∈ task.parts, piece.Checks levels := by
  fun_cases Task.parts task with
  | case1 first rest =>
    rw [Task.Checks, Stmt.checkAll, Bool.and_eq_true] at checked
    simpa [Task.Checks] using checked
  | case2 body span =>
    rw [Task.Checks, Stmt.checks] at checked
    simpa [Task.Checks] using checked
  | case3 target value span =>
    rw [Task.Checks, Stmt.checks] at checked
    split at checked
    · rename_i typed
      simp [Task.Checks, typed]
    · cases checked
  | case4 name args span =>
    rw [Task.Checks, Stmt.checks] at checked
    split at checked
    · rename_i typed
      simp [Task.Checks, typed]
    · cases checked
  | case5 cond branch span =>
    rw [Task.Checks, Stmt.checks, Bool.and_eq_true, decide_eq_true_eq] at checked
    simp [Task.Checks, checked]
  | case6 cond branch otherwise span =>
    rw [Task.Checks, Stmt.checks, Bool.and_eq_true, Bool.and_eq_true, decide_eq_true_eq] at checked
    simp [Task.Checks, checked]
  | case7 body cond left =>
    rw [Task.Checks] at checked
    simp [Task.Checks, checked]
  | case8 op operand span =>
    obtain ⟨kind, typed⟩ := checked
    rw [Expr.kind?] at typed
    obtain ⟨inner, operandTyped, -⟩ := Option.bind_eq_some_iff.mp typed
    simp [Task.Checks, operandTyped]
  | case9 left op right span =>
    obtain ⟨kind, typed⟩ := checked
    rw [Expr.kind?] at typed
    obtain ⟨first, leftTyped, typed⟩ := Option.bind_eq_some_iff.mp typed
    obtain ⟨second, rightTyped, -⟩ := Option.bind_eq_some_iff.mp typed
    simp [Task.Checks, leftTyped, rightTyped]
  | case10 left op right span =>
    obtain ⟨kind, typed⟩ := checked
    rw [Expr.kind?] at typed
    obtain ⟨first, leftTyped, typed⟩ := Option.bind_eq_some_iff.mp typed
    obtain ⟨second, rightTyped, -⟩ := Option.bind_eq_some_iff.mp typed
    simp [Task.Checks, leftTyped, rightTyped]
  | case11 name args span =>
    obtain ⟨kind, typed⟩ := checked
    rw [Expr.kind?] at typed
    obtain ⟨kinds, argsTyped, -⟩ := Option.bind_eq_some_iff.mp typed
    simp [Task.Checks, argsTyped]
  | case12 first rest =>
    obtain ⟨kinds, typed⟩ := checked
    rw [Expr.kinds?] at typed
    obtain ⟨kind, firstTyped, typed⟩ := Option.bind_eq_some_iff.mp typed
    obtain ⟨others, restTyped, -⟩ := Option.bind_eq_some_iff.mp typed
    simp [Task.Checks, firstTyped, restTyped]
  | case13 => simp

/-- All code of a block that keeps the rules does. -/
theorem Block.Contains.checks {level : Level} {around : List Level} {task : Task}
    (checked : level.checks around = true) (within : level.block.Contains task) :
    task.Checks (level :: around) := by
  induction within with
  | body => exact (Level.checks_iff.mp checked).2.2
  | part within listed ih => exact ih.parts _ listed
  | rounds left within ih =>
    rw [Task.Checks, Stmt.checks, Bool.and_eq_true, decide_eq_true_eq] at ih
    exact ih
  | nextRound within ih => exact ih
  | enter args within named ih => trivial

/-- A program that keeps the rules never ends in a fault that they are there to exclude, whatever the
limit on activations, the sink and the length of the run, and at every point of the run an
expression that gives a value gives one of the kind that the text says. -/
theorem checked_program_sound {program : Program} (checked : program.checks = true) (config : Config)
    (fuel : Nat) (sink : Sink) :
    (∀ cause, (program.run config fuel sink).outcome = .error (.fault cause) →
      cause.isStatic = false) ∧
    ∀ depth expr machine value after,
      Reached config program fuel sink ⟨depth, .expr expr, machine⟩ →
      Action.eval (Action.activate config depth) expr machine = .ok value after →
      ∃ level around, program.Nests (level :: around) ∧ level.block.Contains (.expr expr) ∧
        List.Forall₂ machine.store.Activation machine.chain (level :: around) ∧
        expr.kind? (level :: around) = some value.kind := by
  constructor
  · intro cause ended
    have safe := Action.run_safe checked config fuel sink
    rw [Action.Safe] at safe
    cases run : Action.run config fuel program ⟨.empty, sink, []⟩ with
    | ok snapshot machine =>
      rw [Program.run_of_ok run] at ended
      cases ended
    | error stop machine =>
      rw [Program.run_of_error run] at ended
      cases ended
      rw [run] at safe
      exact safe
  · intro depth expr machine value after reached run
    obtain ⟨level, around, placed⟩ := reached.placed
    obtain ⟨kind, typed⟩ := placed.within.checks (placed.nests.checks checked)
    have safe := Action.eval_safe (Action.activate_safe checked config depth) placed.nests expr
      placed.executes typed
    refine ⟨level, around, placed.nests, placed.within, placed.executes.activations, ?_⟩
    rw [safe.good run]
    exact typed

theorem checked_program_sound_shadowing : shadowing.checks = true ∧
    ∀ config fuel sink cause, (shadowing.run config fuel sink).outcome = .error (.fault cause) →
      cause.isStatic = false := by
  have checked : shadowing.checks = true := by decide
  exact ⟨checked, fun config fuel sink => (checked_program_sound checked config fuel sink).1⟩

end MiniPascal
