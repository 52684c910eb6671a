import MiniPascal.Proofs.Parse.Canonical
import MiniPascal.Proofs.Run.Completed
import MiniPascal.Proofs.Run.TypedStore

namespace MiniPascal

open MiniPascal.Action

def Expr.isRelational : Expr → Bool
  | .relational _ _ _ _ => true
  | _ => false

/-- The expressions whose values an expression needs. -/
def Expr.operands : Expr → List Expr
  | .number _ _ | .text _ _ | .var _ _ => []
  | .unary _ operand _ => [operand]
  | .binary left _ right _ => [left, right]
  | .relational left _ right _ => [left, right]
  | .call _ args _ => args

/-- Tasks that test a condition: branches, and the rounds of a loop. -/
def Task.decides : Task → Bool
  | .stmt (.ifThen _ _ _) | .stmt (.ifElse _ _ _ _) | .rounds _ _ _ => true
  | _ => false

/-- The fault of a condition that is no boolean. -/
def Fault.isCondition : Fault → Bool
  | .typeMismatch (.condition _) => true
  | _ => false

/-- All uses of values in a run other than as a condition. A builtin prints its arguments. -/
inductive Uses (config : Config) : Point → Value → Prop where
  | operand {fuel op operand span machine value after}
    (run : eval (activate config fuel) operand machine = .ok value after) :
    Uses config ⟨fuel, .expr (.unary op operand span), machine⟩ value
  | left {fuel left op right span machine value after}
    (run : eval (activate config fuel) left machine = .ok value after) :
    Uses config ⟨fuel, .expr (.binary left op right span), machine⟩ value
  | right {fuel left op right span machine first middle value after}
    (run : eval (activate config fuel) left machine = .ok first middle)
    (next : eval (activate config fuel) right middle = .ok value after) :
    Uses config ⟨fuel, .expr (.binary left op right span), machine⟩ value
  | comparedLeft {fuel left op right span machine value after}
    (run : eval (activate config fuel) left machine = .ok value after) :
    Uses config ⟨fuel, .expr (.relational left op right span), machine⟩ value
  | comparedRight {fuel left op right span machine first middle value after}
    (run : eval (activate config fuel) left machine = .ok first middle)
    (next : eval (activate config fuel) right middle = .ok value after) :
    Uses config ⟨fuel, .expr (.relational left op right span), machine⟩ value
  | argument {fuel task name args called machine values value after}
    (invokes : Invokes machine task name args)
    (found : callee name args.length machine = .ok called machine)
    (run : evalAll (activate config fuel) args machine = .ok values after)
    (listed : value ∈ values) : Uses config ⟨fuel, task, machine⟩ value
  | assigned {fuel target code span machine value after}
    (run : eval (activate config fuel) code machine = .ok value after) :
    Uses config ⟨fuel, .stmt (.assign target code span), machine⟩ value
  | passed {fuel closure args machine value} (listed : value ∈ args) :
    Uses config ⟨fuel, .enter closure args, machine⟩ value
  | returned {fuel closure args machine value after}
    (run : activate config fuel closure args machine = .ok (some value) after) :
    Uses config ⟨fuel, .enter closure args, machine⟩ value
  | held {fuel task machine id scope binding value}
    (found : machine.store.scope? id = some scope) (listed : binding ∈ scope.bindings)
    (stored : binding.value = some value) : Uses config ⟨fuel, task, machine⟩ value

section Operators

/-- A value of a good kind, or a fault that has nothing to do with conditions. -/
def Unconditional (good : ValueKind → Prop) : Except Fault Value → Prop
  | .ok value => good value.kind
  | .error cause => cause.isCondition = false

theorem Unconditional.error {good : ValueKind → Prop} {outcome : Except Fault Value} {cause : Fault}
    (unconditional : Unconditional good outcome) (failed : outcome = .error cause) :
    cause.isCondition = false := by
  rw [failed] at unconditional
  exact unconditional

theorem IntegerOp.checked_unconditional (operation : IntegerOp) (result : Int) :
    Unconditional (· ≠ .boolean) (operation.checked result) := by
  rw [IntegerOp.checked]
  split
  · exact fun same => by cases same
  · exact rfl

theorem UnaryOp.apply_unconditional (op : UnaryOp) (value : Value) :
    Unconditional (· ≠ .boolean) (op.apply value) := by
  fun_cases UnaryOp.apply op value with
  | case1 | case2 | case4 => exact fun same => by cases same
  | case3 => exact IntegerOp.checked_unconditional _ _
  | case5 => exact rfl

theorem BinaryOp.applyWidened_unconditional (op : BinaryOp) (left right : Value) :
    Unconditional (· ≠ .boolean) (op.applyWidened left right) := by
  rw [BinaryOp.applyWidened]
  split
  · exact fun same => by cases same
  · exact rfl

theorem BinaryOp.apply_unconditional (op : BinaryOp) (left right : Value) :
    Unconditional (· ≠ .boolean) (op.apply left right) := by
  fun_cases BinaryOp.apply op left right with
  | case1 left right result found =>
    cases op with
    | add | sub | mul =>
      cases found
      exact IntegerOp.checked_unconditional _ _
    | intDiv =>
      cases found
      split
      · exact rfl
      · exact IntegerOp.checked_unconditional _ _
    | realDiv => cases found
  | case2 | case3 => exact BinaryOp.applyWidened_unconditional _ _ _

theorem RelationalOp.apply_unconditional (op : RelationalOp) (left right : Value) :
    Unconditional (· = .boolean) (op.apply left right) := by
  fun_cases RelationalOp.apply op left right with
  | case1 | case2 | case3 => exact rfl

variable {cause : Fault}

theorem Binding.accept_unconditional {binding : Binding} {value : Value}
    (failed : binding.accept value = .error cause) : cause.isCondition = false := by
  rw [Binding.accept] at failed
  split at failed
  · cases failed
  · cases failed
    rfl

theorem Store.assign_unconditional {store : Store} {id : ScopeId} {name : String} {value : Value}
    (failed : store.assign id name value = .error cause) : cause.isCondition = false := by
  rw [Store.assign] at failed
  split at failed
  · cases failed
    rfl
  · rcases except_bind_error.mp failed with refused | ⟨stored, -, failed⟩
    · exact Binding.accept_unconditional refused
    · cases failed

theorem Scope.declareVar_unconditional {scope : Scope} {name : String} {type : VarType}
    (failed : scope.declareVar name type = .error cause) : cause.isCondition = false := by
  obtain ⟨rfl, -⟩ := Scope.declareVar_error failed
  rfl

theorem Scope.bindParams_unconditional {scope : Scope} {params : List Param} {args : List Value}
    (failed : scope.bindParams params args = .error cause) : cause.isCondition = false := by
  induction params generalizing scope args with
  | nil =>
    rw [Scope.bindParams.eq_2 _ _ _ (by simp)] at failed
    cases failed
  | cons param params ih =>
    cases args with
    | nil => cases failed
    | cons arg args =>
      rcases except_bind_error.mp failed with refused | ⟨middle, -, failed⟩
      · rcases except_bind_error.mp refused with taken | ⟨declared, -, refused⟩
        · exact Scope.declareVar_unconditional taken
        · rcases except_bind_error.mp refused with misfit | ⟨stored, -, refused⟩
          · exact Binding.accept_unconditional misfit
          · cases refused
      · exact ih failed

theorem Heading.frame_unconditional {heading : Heading} {scope : Scope} {args : List Value}
    (failed : heading.frame scope args = .error cause) : cause.isCondition = false := by
  rcases except_bind_error.mp failed with refused | ⟨bound, -, failed⟩
  · exact Scope.bindParams_unconditional refused
  · cases result : heading.result with
    | none =>
      rw [result] at failed
      cases failed
    | some type =>
      rw [result] at failed
      exact Scope.declareVar_unconditional failed

end Operators

section

variable {config : Config} {program : Program} {fuel depth : Nat} {sink : Sink} {point : Point}
  {code : Expr} {machine after : Machine} {value : Value}

theorem VarType.kind_ne_boolean (type : VarType) : type.kind ≠ .boolean := by
  cases type <;> exact nofun

theorem ofExcept_result {α : Type} {outcome : Except Fault α} {result : α}
    (run : ofExcept outcome machine = .ok result after) : outcome = .ok result := by
  cases outcome with
  | ok value =>
    cases run
    rfl
  | error cause => cases run

theorem Reached.held_kind (reached : Reached config program fuel sink point) {id : ScopeId}
    {scope : Scope} {binding : Binding} (found : point.machine.store.scope? id = some scope)
    (listed : binding ∈ scope.bindings) (stored : binding.value = some value) :
    value.kind ≠ .boolean := by
  have typed := (reached.satisfies (Store.Invariant.orderly config)).typed
  rw [typed id scope found binding listed value stored]
  exact VarType.kind_ne_boolean _

/-- What a function gives, wherever it is called, is of a type that variables have. -/
theorem Reached.called_kind {name : String} {args : List Expr}
    (reached : Reached config program fuel sink ⟨depth, .expr code, machine⟩)
    (invokes : Invokes machine (.expr code) name args)
    (run : eval (activate config depth) code machine = .ok value after) :
    value.kind ≠ .boolean := by
  rw [invokes.eval_eq] at run
  obtain ⟨called, same, found, evaluating⟩ := ok_of_bind run
  obtain rfl := (callee_ok found).1
  obtain ⟨values, before, evaluated, calling⟩ := ok_of_bind evaluating
  obtain ⟨given, last, gives, ending⟩ := ok_of_bind calling
  cases called with
  | builtin builtin =>
    rw [Action.call_builtin gives] at ending
    cases ending
  | routine closure =>
    have kinds := (reached.step (invokes.enters found evaluated)).result_kind gives
    cases given with
    | none => cases ending
    | some given =>
      cases ending
      obtain ⟨type, -, same⟩ := Option.map_eq_some_iff.mp kinds.symm
      rw [← same]
      exact type.kind_ne_boolean

/-- In every run, of whatever tree, comparisons give booleans and no other expression does. -/
theorem Reached.boolean_iff
    (reached : Reached config program fuel sink ⟨depth, .expr code, machine⟩)
    (run : eval (activate config depth) code machine = .ok value after) :
    value.kind = .boolean ↔ code.isRelational = true := by
  have other (no : value.kind ≠ .boolean) (plain : code.isRelational = false) :
      value.kind = .boolean ↔ code.isRelational = true := by
    simp [no, plain]
  cases code with
  | number literal span =>
    rw [eval] at run
    cases run
    exact other (by cases literal <;> exact nofun) rfl
  | text literal span =>
    rw [eval] at run
    cases run
    exact other nofun rfl
  | var name span =>
    refine other ?_ rfl
    cases bound : machine.store.binding? machine.current name with
    | some held =>
      rw [eval, readName_apply, bound] at run
      simp only at run
      split at run
      · rename_i stored
        cases run
        obtain ⟨-, scope, found, listed⟩ := Store.binding?_some bound
        exact reached.held_kind found (Scope.mem_of_binding? listed).1 stored
      · cases run
    | none =>
      by_cases visible : (machine.store.routine? machine.current name).isSome
      · exact reached.called_kind (.name bound visible) run
      · rw [eval, readName_apply, bound] at run
        simp only [visible] at run
        cases run
  | unary op operand span =>
    rw [eval] at run
    obtain ⟨first, middle, -, combined⟩ := ok_of_bind run
    have kind := op.apply_unconditional first
    rw [ofExcept_result combined] at kind
    exact other kind rfl
  | binary left op right span =>
    rw [eval] at run
    obtain ⟨first, middle, -, run⟩ := ok_of_bind run
    obtain ⟨second, last, -, combined⟩ := ok_of_bind run
    have kind := op.apply_unconditional first second
    rw [ofExcept_result combined] at kind
    exact other kind rfl
  | relational left op right span =>
    rw [eval] at run
    obtain ⟨first, middle, -, run⟩ := ok_of_bind run
    obtain ⟨second, last, -, combined⟩ := ok_of_bind run
    have kind := op.apply_unconditional first second
    rw [ofExcept_result combined] at kind
    exact ⟨fun _ => rfl, fun _ => kind⟩
  | call name args span => exact other (reached.called_kind .expr run) rfl

end

section Shape

/-- Tasks of programs that can be written: comparisons stand as conditions and nowhere else. -/
def Task.Shaped : Task → Prop
  | .stmts body => ∀ stmt ∈ body, stmt.WellShaped
  | .stmt code => code.WellShaped
  | .rounds body cond _ => (∀ stmt ∈ body, stmt.WellShaped) ∧ cond.IsCondition
  | .expr code => code.WellShaped ∨ code.IsCondition
  | .exprs codes => ∀ code ∈ codes, code.WellShaped
  | .enter _ _ => True

variable {config : Config} {program : Program} {fuel depth : Nat} {sink : Sink} {point : Point}
  {code : Expr} {machine : Machine} {level : Level} {task : Task}

/-- Neither an expression nor a condition has a comparison for an operand. -/
theorem Expr.operands_shaped (shaped : code.WellShaped ∨ code.IsCondition) :
    ∀ operand ∈ code.operands, operand.WellShaped := by
  rcases shaped with shaped | compares
  · cases shaped with
    | number | text | var => exact List.forall_mem_nil _
    | unary shaped => exact List.forall_mem_singleton.mpr shaped
    | binary first second =>
      exact List.forall_mem_cons.mpr ⟨first, List.forall_mem_singleton.mpr second⟩
    | call named shaped => exact shaped
  · cases compares with
    | relational first second =>
      exact List.forall_mem_cons.mpr ⟨first, List.forall_mem_singleton.mpr second⟩

theorem Task.Shaped.parts (shaped : task.Shaped) : ∀ piece ∈ task.parts, piece.Shaped := by
  fun_cases Task.parts task with
  | case1 first rest =>
    rw [Task.Shaped, List.forall_mem_cons] at shaped
    simpa [Task.Shaped] using shaped
  | case2 body span =>
    cases shaped with
    | compound nonempty shaped => simpa [Task.Shaped] using shaped
  | case3 target value span =>
    cases shaped with
    | assign named shaped => simp [Task.Shaped, shaped]
  | case4 name args span =>
    cases shaped with
    | call named shaped => simpa [Task.Shaped] using shaped
  | case5 cond branch span =>
    cases shaped with
    | ifThen compares shaped => simp [Task.Shaped, compares, shaped]
  | case6 cond branch otherwise span =>
    cases shaped with
    | ifElse compares shaped other => simp [Task.Shaped, compares, shaped, other]
  | case7 body cond left =>
    obtain ⟨shaped, compares⟩ := shaped
    simpa [Task.Shaped, compares] using shaped
  | case8 op operand span =>
    have operands := Expr.operands_shaped shaped
    simp_all [Task.Shaped, Expr.operands]
  | case9 left op right span | case10 left op right span =>
    have operands := Expr.operands_shaped shaped
    simp_all [Task.Shaped, Expr.operands]
  | case11 name args span =>
    have operands := Expr.operands_shaped shaped
    simpa [Task.Shaped, Expr.operands] using operands
  | case12 first rest =>
    rw [Task.Shaped, List.forall_mem_cons] at shaped
    simpa [Task.Shaped, shaped.1] using shaped.2
  | case13 => simp

/-- All code of a block that can be written can be written. -/
theorem Block.Contains.shaped (shaped : level.block.WellShaped)
    (within : level.block.Contains task) : task.Shaped := by
  induction within with
  | body => exact shaped.shapedBody
  | part within listed ih => exact ih.parts _ listed
  | rounds left within ih =>
    cases ih with
    | repeatUntil nonempty shaped compares => exact ⟨shaped, compares⟩
  | nextRound within ih => exact ih
  | enter args within named ih => trivial

theorem Program.Nests.shaped {around : List Level} (shaped : program.block.WellShaped)
    (nests : program.Nests (level :: around)) : level.block.WellShaped := by
  generalize same : level :: around = levels at nests
  induction nests generalizing level around with
  | whole =>
    cases same
    exact shaped
  | routine nests declared ih =>
    cases same
    obtain ⟨decl, member, found⟩ := List.mem_filterMap.mp declared
    have known := (ih rfl).shaped decl member
    cases known with
    | var named => cases found
    | routine named params ordered inner nonempty body =>
      cases found
      exact ⟨ordered, inner, nonempty, body⟩

theorem Reached.shaped (shaped : program.block.WellShaped)
    (reached : Reached config program fuel sink point) : point.task.Shaped := by
  obtain ⟨level, around, placed⟩ := reached.placed
  exact placed.within.shaped (placed.nests.shaped shaped)

theorem Expr.WellShaped.isRelational (shaped : code.WellShaped) : code.isRelational = false := by
  cases shaped <;> rfl

theorem Expr.IsCondition.isRelational (compares : code.IsCondition) : code.isRelational = true := by
  cases compares
  rfl

/-- A task that tests a condition leads to a comparison, and no other task does. -/
theorem Step.relational_iff (step : Step config point ⟨depth, .expr code, machine⟩)
    (shaped : point.task.Shaped) : code.isRelational = point.task.decides := by
  cases step with
  | assigned =>
    cases shaped with
    | assign named shaped => exact shaped.isRelational
  | ifThenCond =>
    cases shaped with
    | ifThen compares shaped => exact compares.isRelational
  | ifElseCond =>
    cases shaped with
    | ifElse compares shaped other => exact compares.isRelational
  | roundCond run => exact shaped.2.isRelational
  | operand | left | comparedLeft =>
    exact (Expr.operands_shaped shaped _ List.mem_cons_self).isRelational
  | right | comparedRight =>
    exact (Expr.operands_shaped shaped _ (List.mem_cons_of_mem _ List.mem_cons_self)).isRelational
  | firstExpr => exact (shaped _ List.mem_cons_self).isRelational

end Shape

section

variable {config : Config} {program : Program} {fuel depth : Nat} {sink : Sink} {point : Point}
  {code : Expr} {machine after : Machine} {value : Value}

/-- The value of an expression is a boolean exactly where a condition is tested. -/
theorem Step.boolean_iff (shaped : program.block.WellShaped)
    (reached : Reached config program fuel sink point)
    (step : Step config point ⟨depth, .expr code, machine⟩)
    (run : eval (activate config depth) code machine = .ok value after) :
    value.kind = .boolean ↔ point.task.decides = true := by
  rw [(reached.step step).boolean_iff run, step.relational_iff (reached.shaped shaped)]

/-- The values of arguments are values of the expressions that stand there. -/
theorem Reached.mem_evalAll {codes : List Expr} {values : List Value}
    (reached : Reached config program fuel sink ⟨depth, .exprs codes, machine⟩)
    (run : evalAll (activate config depth) codes machine = .ok values after)
    (listed : value ∈ values) :
    ∃ rest code before last,
      Reached config program fuel sink ⟨depth, .exprs (code :: rest), before⟩ ∧
      eval (activate config depth) code before = .ok value last := by
  induction codes generalizing machine values with
  | nil =>
    rw [evalAll] at run
    cases run
    cases listed
  | cons first rest ih =>
    rw [evalAll] at run
    obtain ⟨head, middle, evaluated, run⟩ := ok_of_bind run
    obtain ⟨others, last, later, run⟩ := ok_of_bind run
    cases run
    rcases List.mem_cons.mp listed with rfl | listed
    · exact ⟨rest, first, machine, middle, reached, evaluated⟩
    · exact ih (reached.step (.restExprs evaluated)) later listed

theorem Reached.argument_kind (shaped : program.block.WellShaped) {codes : List Expr}
    {values : List Value}
    (reached : Reached config program fuel sink ⟨depth, .exprs codes, machine⟩)
    (run : evalAll (activate config depth) codes machine = .ok values after)
    (listed : value ∈ values) : value.kind ≠ .boolean := by
  obtain ⟨rest, code, before, last, reached, evaluated⟩ := reached.mem_evalAll run listed
  intro boolean
  have decides := (Step.boolean_iff shaped reached .firstExpr evaluated).mp boolean
  cases decides

theorem Reached.passed_kind (shaped : program.block.WellShaped) {closure : Closure}
    {args : List Value}
    (reached : Reached config program fuel sink ⟨depth, .enter closure args, machine⟩)
    (listed : value ∈ args) : value.kind ≠ .boolean := by
  cases reached with
  | step reached step =>
    cases step with
    | stmtCall found run => exact (reached.step (.stmtArgs found)).argument_kind shaped run listed
    | exprCall found run => exact (reached.step (.exprArgs found)).argument_kind shaped run listed
    | nameCall unbound found => cases listed

/-- No boolean is used but as a condition. -/
theorem Reached.uses_kind (shaped : program.block.WellShaped)
    (reached : Reached config program fuel sink point) (uses : Uses config point value) :
    value.kind ≠ .boolean := by
  have plain {depth : Nat} {code : Expr} {machine after : Machine}
      (step : Step config point ⟨depth, .expr code, machine⟩) (other : point.task.decides = false)
      (run : eval (activate config depth) code machine = .ok value after) :
      value.kind ≠ .boolean := by
    rw [Ne, Step.boolean_iff shaped reached step run, other]
    exact Bool.false_ne_true
  cases uses with
  | operand run => exact plain .operand rfl run
  | left run => exact plain .left rfl run
  | right run next => exact plain (.right run) rfl next
  | comparedLeft run => exact plain .comparedLeft rfl run
  | comparedRight run next => exact plain (.comparedRight run) rfl next
  | assigned run => exact plain .assigned rfl run
  | argument invokes found run listed =>
    rcases invokes.evaluates found with rfl | step
    · cases run
      cases listed
    · exact (reached.step step).argument_kind shaped run listed
  | passed listed => exact reached.passed_kind shaped listed
  | returned run =>
    obtain ⟨type, -, same⟩ := Option.map_eq_some_iff.mp (reached.result_kind run).symm
    rw [← same]
    exact type.kind_ne_boolean
  | held found listed stored => exact reached.held_kind found listed stored

/-- Only a test complains of a condition, and only if the condition is no boolean. -/
theorem Raises.decides {cause : Fault} (raises : Raises config point cause)
    (condition : cause.isCondition = true) :
    ∃ depth code machine value after, Step config point ⟨depth, .expr code, machine⟩ ∧
      eval (activate config depth) code machine = .ok value after ∧ value.asBool? = none ∧
      point.task.decides = true := by
  have absurd (other : cause.isCondition = false) : False := by simp [condition] at other
  cases raises with
  | ifThen run other => exact ⟨_, _, _, _, _, .ifThenCond, run, other, rfl⟩
  | ifElse run other => exact ⟨_, _, _, _, _, .ifElseCond, run, other, rfl⟩
  | round executed run other => exact ⟨_, _, _, _, _, .roundCond executed, run, other, rfl⟩
  | uncallable invokes failed =>
    rcases callee_cause failed with ⟨known, expected, rfl⟩ | ⟨rfl, -⟩ <;> cases condition
  | builtin invokes found run failed =>
    cases runBuiltin_error failed
    cases condition
  | noResult | unset | unknown => cases condition
  | unary run failed => exact (absurd ((UnaryOp.apply_unconditional _ _).error failed)).elim
  | binary run next failed =>
    exact (absurd ((BinaryOp.apply_unconditional _ _ _).error failed)).elim
  | relational run next failed =>
    exact (absurd ((RelationalOp.apply_unconditional _ _ _).error failed)).elim
  | assign run failed => exact (absurd (Store.assign_unconditional failed)).elim
  | refused refuses =>
    cases refuses with
    | frame failed => exact (absurd (Heading.frame_unconditional failed)).elim
    | depth | home | declarations => cases condition

theorem Program.condition_never_fails (shaped : program.block.WellShaped) {cause : Fault}
    (ended : (program.run config fuel sink).outcome = .error (.fault cause)) :
    cause.isCondition = false := by
  rcases Program.run_raised ended with ⟨name, -, rfl⟩ | ⟨point, reached, raises⟩
  · rfl
  · by_contra condition
    obtain ⟨depth, code, machine, value, after, step, run, other, decides⟩ :=
      raises.decides (Bool.eq_true_of_not_eq_false condition)
    have boolean := (Step.boolean_iff shaped reached step run).mpr decides
    cases value with
    | boolean truth => cases other
    | integer | real | text => cases boolean

end

/-- Booleans stay in conditions. In every run of a program that a text is parsed as, the value of an
expression is a boolean exactly where the expression is the condition of a branch or a loop, no
boolean is used for anything else, and no condition is anything but a boolean. -/
theorem booleans_only_conditions {source : String} {program : Program}
    (accepted : (parse source).outcome = .ok program) (config : Config) (fuel : Nat) (sink : Sink) :
    (∀ point depth code machine value after, Reached config program fuel sink point →
      Step config point ⟨depth, .expr code, machine⟩ →
      eval (activate config depth) code machine = .ok value after →
        (value.kind = .boolean ↔ point.task.decides = true)) ∧
    (∀ point value, Reached config program fuel sink point → Uses config point value →
      value.kind ≠ .boolean) ∧
    ∀ kind, (program.run config fuel sink).outcome ≠
      .error (.fault (.typeMismatch (.condition kind))) := by
  obtain ⟨derived, settled⟩ := derives_of_parse accepted
  have shaped : program.block.WellShaped :=
    .of_bare (derived.program_shaped (scan_readable source)).2
  refine ⟨?_, ?_, ?_⟩
  · intro point depth code machine value after reached step run
    exact Step.boolean_iff shaped reached step run
  · intro point value reached uses
    exact reached.uses_kind shaped uses
  · intro kind ended
    cases Program.condition_never_fails shaped ended

/-- A program of one branch. -/
def branching : Program :=
  ⟨⟨"P", 8, 9⟩, [], [.ifThen (.relational (.number (.integer 1) ⟨20, 21⟩) .less
    (.number (.integer 2) ⟨24, 25⟩) ⟨20, 25⟩) (.empty ⟨31, 31⟩) ⟨17, 30⟩]⟩

theorem booleans_only_conditions_branching : ∃ point code machine,
    (parse "PROGRAM P; BEGIN IF 1 < 2 THEN END.").outcome = .ok branching ∧
      Reached .default branching 1 (.empty none) point ∧
      Step .default point ⟨1, .expr code, machine⟩ ∧
      eval (activate .default 1) code machine = .ok (.boolean true) machine ∧
      point.task.decides = true ∧
      ∀ value, Uses .default ⟨1, .expr code, machine⟩ value → value.kind ≠ .boolean := by
  have scanned : scan "PROGRAM P; BEGIN IF 1 < 2 THEN END." =
      ⟨[⟨.mark .kwProgram, 0, 7⟩, ⟨.ident "P", 8, 9⟩, ⟨.mark .semicolon, 9, 10⟩,
        ⟨.mark .kwBegin, 11, 16⟩, ⟨.mark .kwIf, 17, 19⟩, ⟨.integer 1, 20, 21⟩,
        ⟨.mark .less, 22, 23⟩, ⟨.integer 2, 24, 25⟩, ⟨.mark .kwThen, 26, 30⟩,
        ⟨.mark .kwEnd, 31, 34⟩, ⟨.mark .dot, 34, 35⟩, ⟨.mark .endOfInput, 35, 35⟩], none⟩ := by
    decide +kernel
  have accepted : (parse "PROGRAM P; BEGIN IF 1 < 2 THEN END.").outcome = .ok branching := by
    rw [parse, scanned]
    rfl
  obtain ⟨conditions, uses, -⟩ := booleans_only_conditions accepted .default 1 (.empty none)
  have start := @Reached.start .default branching 1 (.empty none) _ (by decide) (by cbv)
  have branch := start.step .first
  have holds (machine : Machine) : eval (activate .default 1)
      (.relational (.number (.integer 1) ⟨20, 21⟩) .less (.number (.integer 2) ⟨24, 25⟩) ⟨20, 25⟩)
      machine = .ok (.boolean true) machine := by
    simp only [eval, pure_bind]
    rfl
  exact ⟨_, _, _, accepted, branch, .ifThenCond, holds _,
    (conditions _ _ _ _ _ _ branch .ifThenCond (holds _)).mp rfl,
    fun value => uses _ value (branch.step .ifThenCond)⟩

end MiniPascal
