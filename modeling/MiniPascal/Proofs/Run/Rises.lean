import MiniPascal.Proofs.Run.Endings
import MiniPascal.Proofs.Run.Reached

namespace MiniPascal

/-- A computation under ever higher bounds: it does the same under a higher one, unless the lower
one was too low for it. -/
def Action.Rises {α : Type} (family : Nat → Action α) : Prop :=
  ∀ low high, low ≤ high → ∀ machine, family low machine = family high machine ∨
    ∃ last, family low machine = .error .outOfFuel last

section

variable {α : Type} {family : Nat → Action α} {tight wide : Action α} {stop : RunStop}
  {machine after : Machine} {low high : Nat} {result : α}

theorem Shortfall.Falls.same (falls : (Shortfall.ofBound stop).Falls tight wide)
    (machine : Machine) :
    tight machine = wide machine ∨ ∃ last, tight machine = .error stop last := by
  have equal {low high : Machine} (alike : (Shortfall.ofBound stop).Alike low high) :
      low = high := by
    obtain ⟨store, sink, events⟩ := low
    obtain ⟨rfl, sinks, rfl⟩ := alike
    obtain rfl : sink = high.sink := sinks
    rfl
  rcases falls.compares machine machine ⟨rfl, rfl, rfl⟩ with agrees | ⟨last, stopped, -⟩
  · generalize tight machine = one at agrees ⊢
    generalize wide machine = other at agrees ⊢
    cases agrees with
    | ok alike => exact .inl (by rw [equal alike])
    | stop alike => exact .inl (by rw [equal alike])
  · exact .inr ⟨last, stopped⟩

namespace Action

theorem Rises.ok (rises : Rises family) (run : family low machine = .ok result after)
    (le : low ≤ high) : family high machine = .ok result after := by
  rcases rises _ _ le machine with same | ⟨last, stopped⟩
  · rw [← same, run]
  · rw [run] at stopped
    cases stopped

/-- What a computation gives under one bound it gives under every other that is not too low. -/
theorem Rises.ok_or (rises : Rises family) (run : family low machine = .ok result after)
    (bound : Nat) : family bound machine = .ok result after ∨
      ∃ last, family bound machine = .error .outOfFuel last := by
  rcases Nat.le_total low bound with le | le
  · exact .inl (rises.ok run le)
  · rcases rises _ _ le machine with same | stopped
    · exact .inl (same.trans run)
    · exact .inr stopped

theorem within_of_le (le : low ≤ high) :
    (Shortfall.ofBound .outOfFuel).Within .outOfFuel low high :=
  .inr ⟨le, rfl, fun {_ _} same => same ▸ .refl _⟩

theorem activates_of_le (config : Config) (le : low ≤ high) :
    ActivatesFall (.ofBound .outOfFuel) (activate config low) (activate config high) :=
  activate_falls (within_of_le le) (.inl rfl)

theorem rises_eval (config : Config) (code : Expr) :
    Rises fun fuel => eval (activate config fuel) code :=
  fun _ _ le => (eval_falls (activates_of_le config le) code).same

theorem rises_evalAll (config : Config) (codes : List Expr) :
    Rises fun fuel => evalAll (activate config fuel) codes :=
  fun _ _ le => (evalAll_falls (activates_of_le config le) codes).same

theorem rises_evalCondition (config : Config) (cond : Expr) :
    Rises fun fuel => evalCondition (activate config fuel) cond :=
  fun _ _ le => (evalCondition_falls (activates_of_le config le) cond).same

theorem rises_exec (config : Config) (code : Stmt) :
    Rises fun fuel => exec (activate config fuel) fuel code :=
  fun _ _ le => (exec_falls (activates_of_le config le) (within_of_le le) code).same

theorem rises_execAll (config : Config) (body : List Stmt) :
    Rises fun fuel => execAll (activate config fuel) fuel body :=
  fun _ _ le => (execAll_falls (activates_of_le config le) (within_of_le le) body).same

theorem rises_call (config : Config) (called : Callee) (args : List Value) :
    Rises fun fuel => call (activate config fuel) called args :=
  fun _ _ le => (call_falls (activates_of_le config le) called args).same

end Action

end

/-- The same task with more rounds for the loop that it is in. -/
def Task.raise (more : Nat) : Task → Task
  | .rounds body cond left => .rounds body cond (more + left)
  | task => task

/-- The same point where the evaluator has more fuel. -/
def Point.raise (more : Nat) (point : Point) : Point :=
  ⟨more + point.fuel, point.task.raise more, point.machine⟩

section

open MiniPascal.Action

variable {config : Config} {program : Program} {fuel : Nat} {sink : Sink} {point next : Point}

/-- More fuel leads to the same places. -/
theorem Step.raise (step : Step config point next) (more : Nat) :
    Step config (point.raise more) (next.raise more) := by
  have enough (fuel : Nat) : fuel ≤ more + fuel := Nat.le_add_left fuel more
  cases step with
  | first => exact .first
  | rest run => exact .rest ((rises_exec config _).ok run (enough _))
  | compound => exact .compound
  | assigned => exact .assigned
  | stmtArgs found => exact .stmtArgs found
  | stmtCall found run => exact .stmtCall found ((rises_evalAll config _).ok run (enough _))
  | ifThenCond => exact .ifThenCond
  | ifThenBranch run => exact .ifThenBranch ((rises_evalCondition config _).ok run (enough _))
  | ifElseCond => exact .ifElseCond
  | ifElseBranch run => exact .ifElseBranch ((rises_evalCondition config _).ok run (enough _))
  | ifElseOtherwise run =>
    exact .ifElseOtherwise ((rises_evalCondition config _).ok run (enough _))
  | loop => exact .loop
  | roundBody => exact .roundBody
  | roundCond run => exact .roundCond ((rises_execAll config _).ok run (enough _))
  | nextRound run again =>
    exact .nextRound ((rises_execAll config _).ok run (enough _))
      ((rises_evalCondition config _).ok again (enough _))
  | nameCall unbound found => exact .nameCall unbound found
  | operand => exact .operand
  | left => exact .left
  | right run => exact .right ((rises_eval config _).ok run (enough _))
  | comparedLeft => exact .comparedLeft
  | comparedRight run => exact .comparedRight ((rises_eval config _).ok run (enough _))
  | exprArgs found => exact .exprArgs found
  | exprCall found run => exact .exprCall found ((rises_evalAll config _).ok run (enough _))
  | firstExpr => exact .firstExpr
  | restExprs run => exact .restExprs ((rises_eval config _).ok run (enough _))
  | enter begins => exact .enter begins

theorem Reached.raise (reached : Reached config program fuel sink point) (more : Nat) :
    Reached config program (more + fuel) sink (point.raise more) := by
  induction reached with
  | start distinct declared => exact .start distinct declared
  | step reached step ih => exact .step ih (step.raise more)

end

end MiniPascal
