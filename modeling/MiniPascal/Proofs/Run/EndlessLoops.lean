import MiniPascal.Proofs.Run.Divergence
import MiniPascal.Proofs.Run.RecursionLimit

namespace MiniPascal

open MiniPascal.Action

/-- A round of a loop after which the loop goes on. -/
def Round (config : Config) (body : List Stmt) (cond : Expr) (before after : Machine) : Prop :=
  ∃ fuel, round config body cond fuel before = .ok false after

/-- The run comes to a loop that from there on makes one round after another, without end. -/
def Program.Loops (program : Program) (config : Config) (sink : Sink) : Prop :=
  ∃ fuel depth left body cond, ∃ rounds : Nat → Machine,
    Reached config program fuel sink ⟨depth, .rounds body cond left, rounds 0⟩ ∧
      ∀ count, Round config body cond (rounds count) (rounds (count + 1))

/-- What a run can still do without another round of a loop: enter routines until the limit is met,
and take apart the code at hand. -/
noncomputable def Point.load (config : Config) (point : Point) : Nat × Nat :=
  (config.maxCallDepth + 1 - point.machine.store.size, point.task.size.1)

def Point.Lighter (config : Config) (next point : Point) : Prop :=
  Prod.Lex (· < ·) (· < ·) (next.load config) (point.load config)

theorem Point.lighter_wellFounded (config : Config) : WellFounded (Point.Lighter config) :=
  InvImage.wf (Point.load config) (Prod.lex Nat.lt_wfRel Nat.lt_wfRel).wf

section

variable {config : Config} {program : Program} {fuel : Nat} {sink : Sink} {point next : Point}

theorem Point.load_raise (more : Nat) : (point.raise more).load config = point.load config := by
  obtain ⟨fuel, task, machine⟩ := point
  cases task <;> rfl

theorem Task.rounds_of_raise {task : Task} {body : List Stmt} {cond : Expr} {more left : Nat}
    (raised : task.raise more = .rounds body cond left) :
    ∃ fewer, task = .rounds body cond fewer := by
  cases task with
  | rounds body cond fewer =>
    cases raised
    exact ⟨fewer, rfl⟩
  | _ => cases raised

theorem Begins.size {closure : Closure} {args : List Value} {before begun : Machine}
    (begins : Begins config closure args before begun) :
    begun.store.size = before.store.size + 1 := by
  obtain ⟨frame, -, declared⟩ := begins.declared
  obtain ⟨scope, same⟩ := declareAll_store declared
  rw [same, Store.size_push]

/-- A step that stays in the same activations and takes code apart. -/
theorem Point.lighter_of_size (same : next.machine.store.size = point.machine.store.size)
    (smaller : next.task.size.1 < point.task.size.1) : next.Lighter config point := by
  rw [Point.Lighter, Point.load, Point.load, same]
  exact .right _ smaller

/-- A step makes the rest lighter, unless it goes on to the next round of a loop. -/
theorem Step.lighter_or_round (linked : point.machine.Linked) (step : Step config point next) :
    next.Lighter config point ∨
      next.load config = point.load config ∧ ∃ body cond left,
        point.task = .rounds body cond (left + 1) ∧ next.task = .rounds body cond left ∧
          Round config body cond point.machine next.machine := by
  rcases step.evolves_or_begins linked with evolves | ⟨closure, args, entering, begins⟩
  · have same := evolves.size
    cases step with
    | nextRound run again =>
      refine .inr ⟨?_, _, _, _, rfl, rfl, _, (bind_of_ok run).trans again⟩
      simp only [Point.load, Task.size, same]
    | roundBody | roundCond run =>
      refine .inl (Point.lighter_of_size same ?_)
      simp only [Task.size]
      omega
    | enter begins => exact absurd (begins.size.symm.trans same) (Nat.succ_ne_self _)
    | _ =>
      refine .inl (Point.lighter_of_size same ?_)
      simp only [Task.size, List.cons.sizeOf_spec, Stmt.compound.sizeOf_spec,
        Stmt.assign.sizeOf_spec, Stmt.call.sizeOf_spec, Stmt.ifThen.sizeOf_spec,
        Stmt.ifElse.sizeOf_spec, Stmt.repeatUntil.sizeOf_spec, Expr.unary.sizeOf_spec,
        Expr.var.sizeOf_spec, Expr.binary.sizeOf_spec, Expr.relational.sizeOf_spec,
        Expr.call.sizeOf_spec]
      omega
  · have grown := begins.size
    have room := begins.room
    rw [Machine.callDepth] at room
    refine .inl (.left _ _ ?_)
    omega

/-- A task of the run that has no end leads to another one that is lighter, unless it goes on to the
next round of a loop. -/
theorem Reached.leadsOn (reached : Reached config program fuel sink point)
    (diverges : point.task.Diverges config point.machine) :
    ∃ fuel next, Reached config program fuel sink next ∧
      next.task.Diverges config next.machine ∧
      (next.Lighter config point ∨
        next.load config = point.load config ∧ ∃ body cond left rest,
          point.task = .rounds body cond left ∧ next.task = .rounds body cond rest ∧
            Round config body cond point.machine next.machine) := by
  obtain ⟨more, next, step, onward⟩ := diverges.leadsOn
  have raised := reached.raise more
  obtain ⟨level, around, placed⟩ := raised.placed
  refine ⟨_, next, raised.step step, onward, ?_⟩
  rcases step.lighter_or_round placed.executes.linked with
    lighter | ⟨same, body, cond, left, here, there, round⟩
  · left
    rw [Point.Lighter, Point.load_raise] at lighter
    exact lighter
  · right
    obtain ⟨fewer, here⟩ := Task.rounds_of_raise here
    exact ⟨same.trans (Point.load_raise more), body, cond, fewer, left, here, there, round⟩

/-- A loop without end whose rounds come to an end is stuck in one of them. -/
theorem Reached.stuck {body : List Stmt} {cond : Expr} {depth left : Nat} {machine : Machine}
    (ends : Acc (fun after before => Round config body cond before after) machine)
    (reached : Reached config program fuel sink ⟨depth, .rounds body cond left, machine⟩)
    (diverges : (Task.rounds body cond left).Diverges config machine) :
    ∃ fuel next, Reached config program fuel sink next ∧ next.task.Diverges config next.machine ∧
      next.Lighter config ⟨depth, .rounds body cond left, machine⟩ := by
  -- From round to round the load stays the same, so the induction is on the rounds.
  induction ends generalizing fuel depth left with
  | intro machine _ ih =>
    obtain ⟨fuel, next, further, onward, lighter | ⟨same, _, _, _, rest, here, there, round⟩⟩ :=
      reached.leadsOn diverges
    · exact ⟨fuel, next, further, onward, lighter⟩
    · cases here
      obtain ⟨depth, task, after⟩ := next
      obtain rfl : task = _ := there
      obtain ⟨fuel, last, found, stuck, lighter⟩ := ih after round further onward
      rw [Point.Lighter, same] at lighter
      exact ⟨fuel, last, found, stuck, lighter⟩

/-- A run with a task that has no end comes to a loop that goes on without end. -/
theorem Reached.loops (reached : Reached config program fuel sink point)
    (diverges : point.task.Diverges config point.machine) : program.Loops config sink := by
  induction point using (Point.lighter_wellFounded config).induction generalizing fuel with
  | _ point ih =>
    by_contra tame
    obtain ⟨fuel, next, further, onward, lighter⟩ : ∃ fuel next,
        Reached config program fuel sink next ∧ next.task.Diverges config next.machine ∧
          next.Lighter config point := by
      obtain ⟨depth, task, machine⟩ := point
      obtain ⟨_, next, further, onward, lighter | ⟨-, body, cond, left, _, here, -⟩⟩ :=
        reached.leadsOn diverges
      · exact ⟨_, next, further, onward, lighter⟩
      obtain rfl : task = _ := here
      refine reached.stuck ?_ diverges
      by_contra endless
      obtain ⟨rounds, rfl, again⟩ := not_acc_iff_exists_descending_chain.mp endless
      exact tame ⟨_, depth, left, body, cond, rounds, reached, again⟩
    exact tame (ih next lighter further onward)

/-- A loop that goes on without end uses up every bound. -/
theorem rounds_outOfFuel {body : List Stmt} {cond : Expr} {rounds : Nat → Machine}
    (again : ∀ count, Round config body cond (rounds count) (rounds (count + 1)))
    (depth left : Nat) : ∀ count, ∃ last,
      repeatUntil (round config body cond depth) left (rounds count) = .error .outOfFuel last := by
  induction left with
  | zero => exact fun count => ⟨_, rfl⟩
  | succ left ih =>
    intro count
    obtain ⟨fuel, run⟩ := again count
    rw [repeatUntil]
    rcases (rises_round config body cond).ok_or run depth with same | ⟨last, stopped⟩
    · rw [bind_of_ok same]
      exact ih (count + 1)
    · exact ⟨last, bind_of_error stopped⟩

theorem Program.Loops.outOfFuel (loops : program.Loops config sink) (fuel : Nat) :
    (program.run config fuel sink).outcome = .error .outOfFuel := by
  obtain ⟨enough, depth, left, body, cond, rounds, reached, again⟩ := loops
  have ended : (program.run config (fuel + enough) sink).outcome = .error .outOfFuel :=
    (reached.raise fuel).stops (rounds_outOfFuel again _ _ 0)
  rcases Program.run_fuel_le config sink (Nat.le_add_right fuel enough) with same | short
  · rw [same, ended]
  · exact short.outcome

/-- A run that no bound is enough for has a loop that goes on without end. -/
theorem Program.loops_of_outOfFuel
    (endless : ∀ fuel, (program.run config fuel sink).outcome = .error .outOfFuel) :
    program.Loops config sink := by
  cases check : program.block.duplicate? with
  | some name =>
    have stopped := endless 0
    rw [Program.run_of_duplicate config 0 sink check] at stopped
    cases stopped
  | none =>
    obtain ⟨machine, declared⟩ := declared_of_distinct check sink
    have start : Reached config program 0 sink ⟨0, .stmts program.block.body, machine⟩ :=
      .start check declared
    refine start.loops fun fuel => ?_
    have stopped := endless fuel
    rcases Program.run_of_declared config fuel check declared with
      ⟨last, -, same⟩ | ⟨stop, last, failed, same⟩
    · rw [same] at stopped
      cases stopped
    · rw [same] at stopped
      cases stopped
      exact ⟨last, failed⟩

end

mutual

/-- Is there no `REPEAT` in a statement? -/
def Stmt.loopFree : Stmt → Bool
  | .compound body _ => loopFreeAll body
  | .ifThen _ branch _ => branch.loopFree
  | .ifElse _ branch otherwise _ => branch.loopFree && otherwise.loopFree
  | .repeatUntil _ _ _ => false
  | .assign _ _ _ | .call _ _ _ | .empty _ => true

def Stmt.loopFreeAll : List Stmt → Bool
  | [] => true
  | first :: rest => first.loopFree && loopFreeAll rest

end

mutual

/-- Is there no `REPEAT` in a declaration, at any depth? -/
def Decl.loopFree : Decl → Bool
  | .var _ _ => true
  | .routine _ declarations body => loopFreeAll declarations && Stmt.loopFreeAll body

def Decl.loopFreeAll : List Decl → Bool
  | [] => true
  | first :: rest => first.loopFree && loopFreeAll rest

end

/-- Is there no `REPEAT` in a block or in the blocks within it? -/
def Block.loopFree (block : Block) : Bool :=
  Decl.loopFreeAll block.declarations && Stmt.loopFreeAll block.body

/-- A task without a loop. What an activation executes is for its own block to say. -/
def Task.loopFree : Task → Bool
  | .stmts body => Stmt.loopFreeAll body
  | .stmt code => code.loopFree
  | .rounds _ _ _ => false
  | .expr _ | .exprs _ | .enter _ _ => true

section

variable {config : Config} {program : Program} {fuel : Nat} {sink : Sink} {block : Block}
  {task : Task}

theorem Task.loopFree_parts (free : task.loopFree = true) :
    ∀ part ∈ task.parts, part.loopFree = true := by
  fun_cases Task.parts task <;> simp_all [Task.loopFree, Stmt.loopFree, Stmt.loopFreeAll]

theorem Block.Contains.loopFree (within : block.Contains task) (free : block.loopFree = true) :
    task.loopFree = true := by
  rw [Block.loopFree, Bool.and_eq_true_iff] at free
  induction within with
  | body => exact free.2
  | part within listed ih => exact Task.loopFree_parts ih _ listed
  | rounds left within ih => cases ih
  | nextRound within ih => cases ih
  | enter args within named ih => rfl

theorem Decl.loopFree_of_mem {decl : Decl} {declarations : List Decl}
    (free : loopFreeAll declarations = true) (member : decl ∈ declarations) :
    decl.loopFree = true := by
  induction declarations with
  | nil => cases member
  | cons first rest ih =>
    rw [loopFreeAll, Bool.and_eq_true_iff] at free
    rcases List.mem_cons.mp member with rfl | later
    · exact free.1
    · exact ih free.2 later

theorem Program.Nests.loopFree {levels : List Level} (nests : program.Nests levels)
    (free : program.block.loopFree = true) : ∀ level ∈ levels, level.block.loopFree = true := by
  induction nests with
  | whole => simpa [Program.level] using free
  | @routine level around routine nests declared ih =>
    have outer := ih level List.mem_cons_self
    rw [Block.loopFree, Bool.and_eq_true_iff] at outer
    refine List.forall_mem_cons.mpr ⟨?_, ih⟩
    obtain ⟨decl, member, same⟩ := List.mem_filterMap.mp declared
    have inner := Decl.loopFree_of_mem outer.1 member
    cases decl with
    | var name type => cases same
    | routine heading declarations body =>
      cases same
      exact inner

/-- A run never comes to a loop that the program does not have. -/
theorem Program.not_loops (free : program.block.loopFree = true) : ¬ program.Loops config sink := by
  rintro ⟨fuel, depth, left, body, cond, rounds, reached, -⟩
  obtain ⟨level, around, placed⟩ := reached.placed
  have inside := placed.within.loopFree (placed.nests.loopFree free level List.mem_cons_self)
  cases inside

/-- Without loops every run ends, whatever the limit on activations and the sink are, and however
routines call each other. With them, a run does not end if and only if it comes to a loop that goes
on with one round after another, without end. -/
theorem endless_runs_loop (program : Program) (config : Config) (sink : Sink) :
    (program.block.loopFree = true → ∃ report, program.Ends config sink report) ∧
    ((∀ report, ¬ program.Ends config sink report) ↔ program.Loops config sink) := by
  have endless_iff : (∀ report, ¬ program.Ends config sink report) ↔ program.Loops config sink := by
    constructor
    · intro endless
      refine Program.loops_of_outOfFuel fun fuel => ?_
      by_contra finished
      exact endless _ ⟨finished, fuel, rfl⟩
    · rintro loops report ⟨finished, fuel, rfl⟩
      exact finished (loops.outOfFuel fuel)
  refine ⟨fun free => ?_, endless_iff⟩
  by_contra endless
  exact Program.not_loops free (endless_iff.mp (not_exists.mp endless))

end

/-- A program that repeats nothing until one is two. -/
def spinning : Program where
  name := ⟨"Main", .point 0⟩
  block := {
    declarations := []
    body := [.repeatUntil [] (.relational (.number (.integer 1) (.point 0)) .equal
      (.number (.integer 2) (.point 0)) (.point 0)) (.point 0)] }

theorem spinning_loops : spinning.Loops ⟨3⟩ (.empty none) := by
  have start := @Reached.start ⟨3⟩ spinning 0 (.empty none) _ (by decide) (by cbv)
  exact ⟨0, 0, 0, _, _, fun _ => _, (start.step .first).step .loop, fun _ => ⟨0, by cbv⟩⟩

/-- A procedure that calls itself without end is stopped by the limit, a loop by nothing. -/
theorem endless_runs_loop_both :
    (endless.block.loopFree = true ∧ ∃ report, endless.Ends ⟨3⟩ (.empty none) report) ∧
      ∀ report, ¬ spinning.Ends ⟨3⟩ (.empty none) report := by
  have free : endless.block.loopFree = true := by decide
  obtain ⟨ends, -⟩ := endless_runs_loop endless ⟨3⟩ (.empty none)
  obtain ⟨-, loops⟩ := endless_runs_loop spinning ⟨3⟩ (.empty none)
  exact ⟨⟨free, ends free⟩, loops.mpr spinning_loops⟩

end MiniPascal
