import MiniPascal.Proofs.Run.Activations
import MiniPascal.Proofs.Static.Checks

namespace MiniPascal

/-- The faults that the rules which need no run are there to exclude. -/
def Fault.isStatic : Fault → Bool
  | .undeclaredVariable _ | .undefinedRoutine _ | .arityMismatch _ _ _ | .typeMismatch _
  | .duplicateDeclaration _ => true
  | .uninitializedVariable _ | .recursionLimit _ | .divisionByZero | .integerOverflow _
  | .sinkClosed => false

/-- A good result, or a fault that only a run can show. -/
def SafeOutcome {α : Type} (good : α → Prop) : Except Fault α → Prop
  | .ok result => good result
  | .error cause => cause.isStatic = false

section

variable {left right value : Value} {kind : ValueKind} {type : VarType}

theorem IntegerOp.checked_safe (operation : IntegerOp) (result : Int) :
    SafeOutcome (·.kind = .integer) (operation.checked result) := by
  rw [IntegerOp.checked]
  split
  · exact rfl
  · exact rfl

theorem UnaryOp.apply_safe (op : UnaryOp) (typed : UnaryOp.kind? value.kind = some kind) :
    SafeOutcome (·.kind = kind) (op.apply value) := by
  cases value with
  | integer value =>
    cases typed
    cases op with
    | plus => exact rfl
    | minus => exact IntegerOp.checked_safe _ _
  | real value =>
    cases typed
    cases op with
    | plus => exact rfl
    | minus => exact rfl
  | boolean value => cases typed
  | text value => cases typed

theorem BinaryOp.apply_safe (op : BinaryOp) (typed : op.kind? left.kind right.kind = some kind) :
    SafeOutcome (·.kind = kind) (op.apply left right) := by
  cases left with
  | integer left =>
    cases right with
    | integer right =>
      cases op with
      | add | sub | mul =>
        cases typed
        exact IntegerOp.checked_safe _ _
      | intDiv =>
        cases typed
        simp only [BinaryOp.apply, BinaryOp.applyIntegers?]
        split
        · exact rfl
        · exact IntegerOp.checked_safe _ _
      | realDiv =>
        cases typed
        exact rfl
    | real right => cases op <;> cases typed <;> exact rfl
    | boolean right | text right => cases typed
  | real left =>
    cases right with
    | integer right | real right => cases op <;> cases typed <;> exact rfl
    | boolean right | text right => cases typed
  | boolean left | text left => cases typed

theorem RelationalOp.apply_safe (op : RelationalOp)
    (typed : RelationalOp.kind? left.kind right.kind = some kind) :
    SafeOutcome (·.kind = kind) (op.apply left right) := by
  cases left with
  | integer left | real left =>
    cases right with
    | integer right | real right =>
      cases typed
      exact rfl
    | boolean right | text right => cases typed
  | boolean left | text left => cases typed

theorem Value.coerce?_isSome (takes : type.takes value.kind = true) :
    ∃ stored, value.coerce? type = some stored := by
  cases type with
  | integer =>
    cases value with
    | integer value => exact ⟨_, rfl⟩
    | real value | boolean value | text value => cases takes
  | real =>
    cases value with
    | integer value | real value => exact ⟨_, rfl⟩
    | boolean value | text value => cases takes

end

theorem Binding.accept_ok {binding : Binding} {value : Value}
    (takes : binding.type.takes value.kind = true) : ∃ stored, binding.accept value = .ok stored := by
  obtain ⟨stored, coerced⟩ := Value.coerce?_isSome takes
  exact ⟨stored, by rw [Binding.accept, coerced]⟩

theorem Scope.declareVar_ok {scope : Scope} {name : String} (type : VarType)
    (fresh : name ∉ scope.names) : ∃ after, scope.declareVar name type = .ok after := by
  have declares : ¬ scope.declares name = true := fun taken => fresh (Scope.declares_iff.mp taken)
  exact ⟨_, by rw [Scope.declareVar, if_neg declares]⟩

/-- Parameters take arguments of fitting kinds, as long as their names are new. -/
theorem Scope.bindParams_ok {id : ScopeId} {params : List Param} {args : List Value} {scope : Scope}
    (sound : scope.Sound id) (takes : Param.take params (args.map Value.kind) = true)
    (distinct : ((Param.vars params).map Prod.fst).Nodup)
    (fresh : ∀ name ∈ (Param.vars params).map Prod.fst, name ∉ scope.names) :
    ∃ after, scope.bindParams params args = .ok after := by
  induction params generalizing args scope with
  | nil => exact ⟨scope, Scope.bindParams.eq_2 _ _ _ (by simp)⟩
  | cons param params ih =>
    cases args with
    | nil => cases takes
    | cons arg args =>
      rw [List.map_cons, Param.take, Bool.and_eq_true] at takes
      obtain ⟨single, distinct⟩ := List.nodup_cons.mp distinct
      obtain ⟨declared, added⟩ := Scope.declareVar_ok param.type (fresh _ List.mem_cons_self)
      obtain ⟨stored, accepted⟩ : ∃ stored,
          Binding.accept ⟨param.name.name, param.type, none⟩ arg = .ok stored :=
        Binding.accept_ok takes.1
      have first : scope.bindParam param arg = .ok (declared.setValue param.name.name stored) :=
        except_bind_ok.mpr ⟨declared, added, except_bind_ok.mpr ⟨stored, accepted, rfl⟩⟩
      have binds := Scope.bindParam_binds sound first
      have later name (member : name ∈ (Param.vars params).map Prod.fst) :
          name ∉ (declared.setValue param.name.name stored).names := by
        rw [binds.mem_names]
        rintro (old | new)
        · exact fresh name (List.mem_cons_of_mem _ member) old
        · obtain rfl := List.mem_singleton.mp new
          exact single member
      obtain ⟨after, rest⟩ := ih binds.sound takes.2 distinct later
      exact ⟨after, except_bind_ok.mpr ⟨_, first, rest⟩⟩

theorem Heading.frame_ok {heading : Heading} {args : List Value} (name : String)
    (enclosing : List ScopeId) (takes : Param.take heading.params (args.map Value.kind) = true)
    (distinct : (heading.bound.map Prod.fst).Nodup) :
    ∃ frame, heading.frame ⟨name, [], [], enclosing⟩ args = .ok frame := by
  rw [Heading.bound, List.map_append] at distinct
  obtain ⟨params, -, apart⟩ := List.nodup_append.mp distinct
  have empty : (Scope.mk name [] [] enclosing).Sound 0 := Scope.sound_of_empty name enclosing
  obtain ⟨bound, parameters⟩ := Scope.bindParams_ok empty takes params (by simp [Scope.names])
  cases result : heading.result with
  | none =>
    refine ⟨bound, except_bind_ok.mpr ⟨bound, parameters, ?_⟩⟩
    rw [result]
    rfl
  | some type =>
    have binds := Scope.bindParams_binds empty parameters
    have arity := Param.length_of_take takes
    rw [List.length_map] at arity
    rw [← arity, List.take_length] at binds
    have fresh : heading.name.name ∉ bound.names := by
      rw [binds.mem_names]
      rintro (old | param)
      · simp [Scope.names] at old
      · exact apart _ param _ (by simp [result]) rfl
    obtain ⟨frame, declared⟩ := Scope.declareVar_ok type fresh
    refine ⟨frame, except_bind_ok.mpr ⟨bound, parameters, ?_⟩⟩
    rw [result]
    exact declared

namespace Action

variable {α β : Type} {machine after : Machine}

/-- The action ends with a good result, or in a way that only a run can show. -/
def Safe (action : Action α) (good : α → Prop) (machine : Machine) : Prop :=
  match action machine with
  | .ok result _ => good result
  | .error (.fault cause) _ => cause.isStatic = false
  | .error .outOfFuel _ => True

theorem Safe.of_ok {action : Action α} {good : α → Prop} {result : α}
    (run : action machine = .ok result after) (fine : good result) : Safe action good machine := by
  rw [Safe, run]
  exact fine

theorem Safe.of_fault {action : Action α} {good : α → Prop} {cause : Fault}
    (run : action machine = .error (.fault cause) after) (dynamic : cause.isStatic = false) :
    Safe action good machine := by
  rw [Safe, run]
  exact dynamic

theorem Safe.good {action : Action α} {good : α → Prop} {result : α}
    (safe : Safe action good machine) (run : action machine = .ok result after) : good result := by
  rw [Safe, run] at safe
  exact safe

/-- Where one action stops as a safe one does, it is safe too. -/
theorem Safe.stop {action : Action α} {other : Action β} {good : α → Prop} {fine : β → Prop}
    {stop : RunStop} {before between : Machine} (safe : Safe action good machine)
    (run : action machine = .error stop after) (same : other before = .error stop between) :
    Safe other fine before := by
  rw [Safe, run] at safe
  rw [Safe, same]
  cases stop with
  | fault cause => exact safe
  | outOfFuel => trivial

theorem Safe.bind {first : Action α} {next : α → Action β} {good : α → Prop} {fine : β → Prop}
    (start : Safe first good machine)
    (rest : ∀ result after, first machine = .ok result after → good result →
      Safe (next result) fine after) : Safe (first >>= next) fine machine := by
  cases run : first machine with
  | ok result after =>
    have later := rest result after run (start.good run)
    rw [Safe, bind_of_ok run]
    exact later
  | error stop after => exact start.stop run (bind_of_error run)

theorem Safe.afresh {action : Action α} {good : α → Prop}
    (safe : Safe action good { machine with store := .initial }) :
    Safe (afresh action) good machine := by
  cases run : action { machine with store := .initial } with
  | ok result after => exact .of_ok (afresh_of_ok run) (safe.good run)
  | error stop after => exact safe.stop run (afresh_of_error run)

theorem Safe.ofExcept {outcome : Except Fault α} {good : α → Prop}
    (safe : SafeOutcome good outcome) : Safe (ofExcept outcome) good machine := by
  cases outcome with
  | ok result => exact safe
  | error cause => exact safe

end Action

end MiniPascal
