import MiniPascal.Proofs.Sequence
import MiniPascal.Proofs.Scope.Assign
import MiniPascal.Run.Eval

namespace MiniPascal

variable {scope before middle after : Scope} {id : ScopeId} {decl : Decl} {name : String}

def Decl.var? : Decl → Option (String × VarType)
  | var name type => some (name.name, type)
  | routine _ _ _ => none

def Decl.routine? : Decl → Option Routine
  | var _ _ => none
  | routine heading declarations body => some ⟨heading, ⟨declarations, body⟩⟩

/-- The names of a scope, those of the variables first. -/
def Scope.names (scope : Scope) : List String :=
  scope.bindings.map Binding.name ++ scope.routines.map Closure.name

theorem Scope.declares_iff : scope.declares name = true ↔ name ∈ scope.names := by
  simp [Scope.declares, Scope.names, Scope.binding?, Scope.routine?]

def Scope.add (id : ScopeId) (scope : Scope) : Decl → Scope
  | .var name type => { scope with bindings := scope.bindings ++ [⟨name.name, type, none⟩] }
  | .routine heading declarations body =>
    { scope with routines := scope.routines ++ [⟨⟨heading, ⟨declarations, body⟩⟩, id⟩] }

/-- The scope with further declarations, made in order. -/
def Scope.addAll (id : ScopeId) (scope : Scope) (declarations : List Decl) : Scope :=
  declarations.foldl (Scope.add id) scope

theorem Scope.name_addAll (declarations : List Decl) :
    (scope.addAll id declarations).name = scope.name := by
  induction declarations generalizing scope with
  | nil => rfl
  | cons first rest ih => cases first <;> exact ih

theorem Scope.enclosing_addAll (declarations : List Decl) :
    (scope.addAll id declarations).enclosing = scope.enclosing := by
  induction declarations generalizing scope with
  | nil => rfl
  | cons first rest ih => cases first <;> exact ih

theorem Scope.signature_addAll (declarations : List Decl) :
    (scope.addAll id declarations).signature =
      scope.signature ++ declarations.filterMap Decl.var? := by
  induction declarations generalizing scope with
  | nil => simp [Scope.addAll]
  | cons first rest ih =>
    refine (@ih (scope.add id first)).trans ?_
    cases first <;> simp [Scope.add, Scope.signature, List.filterMap_cons, Decl.var?]

theorem Scope.routines_addAll (declarations : List Decl) :
    (scope.addAll id declarations).routines =
      scope.routines ++ (declarations.filterMap Decl.routine?).map (Closure.mk · id) := by
  induction declarations generalizing scope with
  | nil => simp [Scope.addAll]
  | cons first rest ih =>
    refine (@ih (scope.add id first)).trans ?_
    cases first <;> simp [Scope.add, List.filterMap_cons, Decl.routine?]

theorem Scope.mem_names_add : name ∈ (scope.add id decl).names ↔
    name ∈ scope.names ∨ name = decl.name.name := by
  cases decl with
  | var ident type =>
    simp only [Scope.add, Scope.names, List.map_append, List.map_cons, List.map_nil, List.mem_append,
      List.mem_singleton, Decl.name]
    exact or_right_comm
  | routine heading declarations body =>
    simp only [Scope.add, Scope.names, List.map_append, List.map_cons, List.map_nil, List.mem_append,
      List.mem_singleton, Decl.name, Closure.name]
    exact or_assoc.symm

theorem Scope.mem_names_addAll (declarations : List Decl) :
    name ∈ (scope.addAll id declarations).names ↔
      name ∈ scope.names ∨ name ∈ Decl.names declarations := by
  induction declarations generalizing scope with
  | nil => simp [Scope.addAll, Decl.names]
  | cons first rest ih =>
    refine (@ih (scope.add id first)).trans ?_
    rw [Scope.mem_names_add, or_assoc, Decl.names, Decl.names, List.map_cons, List.mem_cons]

theorem Scope.Orderly.addVar (orderly : scope.Orderly) (type : VarType)
    (fresh : name ∉ scope.bindings.map Binding.name) :
    Scope.Orderly { scope with bindings := scope.bindings ++ [⟨name, type, none⟩] } := by
  constructor
  · have extended := orderly.distinct.concat fresh
    simpa [List.concat_eq_append] using extended
  · intro binding member value held
    rcases List.mem_append.mp member with old | new
    · exact orderly.typed binding old value held
    · obtain rfl := List.mem_singleton.mp new
      cases held

theorem Scope.Sound.add (sound : scope.Sound id) (fresh : decl.name.name ∉ scope.names) :
    (scope.add id decl).Sound id := by
  cases decl with
  | var name type =>
    have unbound : name.name ∉ scope.bindings.map Binding.name :=
      fun listed => fresh (List.mem_append_left _ listed)
    exact (sound.orderly.addVar type unbound).sound sound.owned
  | routine heading declarations body =>
    refine ⟨?_, sound.distinct, sound.typed⟩
    intro closure member
    rcases List.mem_append.mp member with old | new
    · exact sound.owned closure old
    · obtain rfl := List.mem_singleton.mp new
      rfl

theorem Scope.declareVar_eq (id : ScopeId) (name : Ident) (type : VarType) :
    scope.declareVar name.name type =
      if name.name ∈ scope.names then .error (.duplicateDeclaration name.name)
      else .ok (scope.add id (.var name type)) := by
  simp only [Scope.declareVar, Scope.declares_iff, Scope.add]

theorem Scope.declareRoutine_eq (heading : Heading) (declarations : List Decl) (body : List Stmt) :
    scope.declareRoutine ⟨⟨heading, ⟨declarations, body⟩⟩, id⟩ =
      if heading.name.name ∈ scope.names then .error (.duplicateDeclaration heading.name.name)
      else .ok (scope.add id (.routine heading declarations body)) := by
  simp only [Scope.declareRoutine, Scope.declares_iff, Scope.add, Closure.name]

def Param.vars (params : List Param) : List (String × VarType) :=
  params.map fun param => (param.name.name, param.type)

/-- The variables that an activation begins with: the parameters, and the result of a function. -/
def Heading.bound (heading : Heading) : List (String × VarType) :=
  Param.vars heading.params ++ (heading.result.map (heading.name.name, ·)).toList

theorem Scope.sound_of_empty (name : String) (enclosing : List ScopeId) :
    (Scope.mk name [] [] enclosing).Sound id :=
  ⟨by simp, by simp, by simp⟩

/-- A scope that has gained variables, and nothing else. -/
structure Scope.Binds (id : ScopeId) (vars : List (String × VarType)) (before after : Scope) :
    Prop where
  name : after.name = before.name
  enclosing : after.enclosing = before.enclosing
  routines : after.routines = before.routines
  signature : after.signature = before.signature ++ vars
  sound : after.Sound id

theorem Scope.Binds.refl (sound : scope.Sound id) : scope.Binds id [] scope :=
  ⟨rfl, rfl, rfl, by simp, sound⟩

theorem Scope.Binds.trans {first second : List (String × VarType)}
    (old : before.Binds id first middle) (new : middle.Binds id second after) :
    before.Binds id (first ++ second) after := by
  refine ⟨new.name.trans old.name, new.enclosing.trans old.enclosing,
    new.routines.trans old.routines, ?_, new.sound⟩
  rw [new.signature, old.signature, List.append_assoc]

theorem Scope.Binds.mem_names {vars : List (String × VarType)} (binds : before.Binds id vars after) :
    name ∈ after.names ↔ name ∈ before.names ∨ name ∈ vars.map Prod.fst := by
  rw [Scope.names, Scope.names, ← Scope.map_fst_signature, ← Scope.map_fst_signature,
    binds.signature, binds.routines]
  simp only [List.map_append, List.mem_append]
  tauto

theorem Scope.declareVar_binds {type : VarType} (sound : before.Sound id)
    (taken : before.declareVar name type = .ok after) : before.Binds id [(name, type)] after := by
  rw [before.declareVar_eq id ⟨name, .point 0⟩ type] at taken
  split at taken
  · cases taken
  · rename_i fresh
    cases taken
    exact ⟨rfl, rfl, rfl, by simp [Scope.add, Scope.signature], sound.add fresh⟩

theorem Scope.Evolves.binds {vars : List (String × VarType)} (old : before.Binds id vars middle)
    (evolves : middle.Evolves after) : before.Binds id vars after :=
  ⟨evolves.name.trans old.name, evolves.enclosing.trans old.enclosing,
    evolves.routines.trans old.routines, evolves.signature.trans old.signature,
    evolves.sound old.sound⟩

theorem Scope.bindParam_binds {param : Param} {arg : Value} (sound : before.Sound id)
    (taken : before.bindParam param arg = .ok after) :
    before.Binds id (Param.vars [param]) after := by
  obtain ⟨declared, added, taken⟩ := except_bind_ok.mp taken
  obtain ⟨stored, accepted, taken⟩ := except_bind_ok.mp taken
  cases taken
  have binds := Scope.declareVar_binds sound added
  rw [Scope.declareVar] at added
  split at added
  · cases added
  · rename_i fresh
    cases added
    have unbound : before.bindings.find? (·.name == param.name.name) = none := by
      simp only [Scope.declares, Scope.binding?, Bool.or_eq_true, not_or, Bool.not_eq_true,
        Option.isSome_eq_false_iff, Option.isNone_iff_eq_none] at fresh
      exact fresh.1
    refine Scope.Evolves.binds binds (Scope.setValue_evolves binds.sound.orderly ?_
      (Binding.kind_of_accept accepted))
    simp [Scope.binding?, List.find?_append, unbound]

theorem Scope.bindParams_binds {params : List Param} {args : List Value} (sound : before.Sound id)
    (taken : before.bindParams params args = .ok after) :
    before.Binds id (Param.vars (params.take args.length)) after := by
  induction params generalizing before args with
  | nil =>
    rw [Scope.bindParams.eq_2 _ _ _ (by simp)] at taken
    cases taken
    rw [List.take_nil]
    exact .refl sound
  | cons param params ih =>
    cases args with
    | nil =>
      cases taken
      exact .refl sound
    | cons arg args =>
      obtain ⟨middle, first, taken⟩ := except_bind_ok.mp taken
      have binds := Scope.bindParam_binds sound first
      exact binds.trans (ih binds.sound taken)

/-- An activation begins with the variables that its heading names. -/
theorem Heading.frame_binds (id : ScopeId) {heading : Heading} {args : List Value} (sound : before.Sound id)
    (taken : heading.frame before args = .ok after) :
    ∃ vars, before.Binds id vars after ∧
      (heading.params.length = args.length → vars = heading.bound) := by
  obtain ⟨middle, params, taken⟩ := except_bind_ok.mp taken
  have binds := Scope.bindParams_binds sound params
  cases result : heading.result with
  | none =>
    rw [result] at taken
    cases taken
    refine ⟨_, binds, fun arity => ?_⟩
    simp [Heading.bound, result, ← arity]
  | some type =>
    rw [result] at taken
    refine ⟨_, binds.trans (Scope.declareVar_binds binds.sound taken), fun arity => ?_⟩
    simp [Heading.bound, result, ← arity]

section

variable {cause : Fault}

theorem Binding.accept_error {binding : Binding} {value : Value}
    (failed : binding.accept value = .error cause) : ∃ mismatch, cause = .typeMismatch mismatch := by
  rw [Binding.accept] at failed
  split at failed
  · cases failed
  · cases failed
    exact ⟨_, rfl⟩

theorem Scope.declareVar_error {type : VarType} (failed : scope.declareVar name type = .error cause) :
    cause = .duplicateDeclaration name ∧ name ∈ scope.names := by
  rw [Scope.declareVar] at failed
  split at failed
  · rename_i taken
    cases failed
    exact ⟨rfl, Scope.declares_iff.mp taken⟩
  · cases failed

theorem Scope.bindParam_error {param : Param} {arg : Value}
    (failed : before.bindParam param arg = .error cause) :
    (∃ mismatch, cause = .typeMismatch mismatch) ∨
      cause = .duplicateDeclaration param.name.name ∧ param.name.name ∈ before.names := by
  rcases except_bind_error.mp failed with taken | ⟨declared, -, failed⟩
  · exact .inr (Scope.declareVar_error taken)
  · rcases except_bind_error.mp failed with refused | ⟨stored, -, failed⟩
    · exact .inl (Binding.accept_error refused)
    · cases failed

/-- Parameters are refused for an argument that does not fit, or for a name that is taken. -/
theorem Scope.bindParams_error {params : List Param} {args : List Value} (sound : before.Sound id)
    (failed : before.bindParams params args = .error cause) :
    (∃ mismatch, cause = .typeMismatch mismatch) ∨
      ∃ name ∈ (Param.vars params).map Prod.fst, cause = .duplicateDeclaration name ∧
        (name ∈ before.names ∨ ¬ ((Param.vars params).map Prod.fst).Nodup) := by
  induction params generalizing before args with
  | nil =>
    rw [Scope.bindParams.eq_2 _ _ _ (by simp)] at failed
    cases failed
  | cons param params ih =>
    cases args with
    | nil => cases failed
    | cons arg args =>
      rcases except_bind_error.mp failed with refused | ⟨middle, first, failed⟩
      · refine (Scope.bindParam_error refused).imp_right fun ⟨same, taken⟩ => ?_
        exact ⟨param.name.name, List.mem_cons_self, same, .inl taken⟩
      · have binds := Scope.bindParam_binds sound first
        refine (ih binds.sound failed).imp_right ?_
        rintro ⟨name, member, same, taken⟩
        refine ⟨name, List.mem_cons_of_mem _ member, same, ?_⟩
        rcases taken with taken | again
        · rcases binds.mem_names.mp taken with old | new
          · exact .inl old
          · obtain rfl := List.mem_singleton.mp new
            exact .inr fun distinct => (List.nodup_cons.mp distinct).1 member
        · exact .inr fun distinct => again (List.nodup_cons.mp distinct).2

/-- An activation is refused its variables for an argument that does not fit, or because its heading
binds a name twice. -/
theorem Heading.frame_error {heading : Heading} {args : List Value} {enclosing : List ScopeId}
    (failed : heading.frame ⟨name, [], [], enclosing⟩ args = .error cause) :
    (∃ mismatch, cause = .typeMismatch mismatch) ∨
      (∃ name, cause = .duplicateDeclaration name) ∧ ¬ (heading.bound.map Prod.fst).Nodup := by
  have empty : (Scope.mk name [] [] enclosing).Sound 0 := Scope.sound_of_empty name enclosing
  rw [Heading.bound, List.map_append]
  rcases except_bind_error.mp failed with refused | ⟨bound, parameters, failed⟩
  · refine (Scope.bindParams_error empty refused).imp_right ?_
    rintro ⟨name, -, same, old | again⟩
    · simp [Scope.names] at old
    · exact ⟨⟨name, same⟩, fun distinct => again (List.nodup_append.mp distinct).1⟩
  · cases result : heading.result with
    | none =>
      rw [result] at failed
      cases failed
    | some type =>
      rw [result] at failed
      obtain ⟨same, taken⟩ := Scope.declareVar_error failed
      refine .inr ⟨⟨_, same⟩, fun distinct => ?_⟩
      rcases (Scope.bindParams_binds empty parameters).mem_names.mp taken with old | param
      · simp [Scope.names] at old
      · have among : heading.name.name ∈ (Param.vars heading.params).map Prod.fst := by
          obtain ⟨var, listed, named⟩ := List.mem_map.mp param
          rw [Param.vars, List.map_take] at listed
          exact List.mem_map.mpr ⟨var, List.mem_of_mem_take listed, named⟩
        exact (List.nodup_append.mp distinct).2.2 _ among _ (by simp) rfl

end

end MiniPascal
