import Mathlib.Data.List.Induction
import Mathlib.Logic.Function.Basic
import MiniPascal.Proofs.Scope.Laws

namespace MiniPascal

/-- A table of slots that names are entered into one after another, each with the number of those
before it. A name that came again would move to its later slot. -/
def slotTable (names : List String) : String → Option Nat :=
  names.zipIdx.foldl (fun table (name, slot) => Function.update table name (some slot)) fun _ => none

theorem slotTable_concat (names : List String) (last : String) :
    slotTable (names ++ [last]) = Function.update (slotTable names) last (some names.length) := by
  rw [slotTable, List.zipIdx_append, List.foldl_append, ← slotTable]
  simp

theorem slotTable_eq_none (names : List String) (name : String) :
    slotTable names name = none ↔ name ∉ names := by
  induction names using List.reverseRecOn with
  | nil => simp [slotTable]
  | append_singleton names last ih =>
    rw [slotTable_concat]
    by_cases same : name = last
    · simp [same]
    · simp [ih, same]

theorem slotTable_eq_some {names : List String} (distinct : names.Nodup) (name : String)
    (slot : Nat) : slotTable names name = some slot ↔ names[slot]? = some name := by
  induction names using List.reverseRecOn with
  | nil => simp [slotTable]
  | append_singleton names last ih =>
    obtain ⟨others, -, apart⟩ := List.nodup_append.mp distinct
    have fresh : last ∉ names := fun listed => apart last listed last (List.mem_singleton_self _) rfl
    have placed : (names ++ [last])[slot]? =
        if slot < names.length then names[slot]? else [last][slot - names.length]? :=
      List.getElem?_append
    rw [slotTable_concat]
    by_cases same : name = last
    · subst same
      have missing : names[slot]? ≠ some name := fun found => fresh (List.mem_of_getElem? found)
      rw [Function.update_self]
      grind
    · rw [Function.update_of_ne same, ih others]
      grind

/-- The slots of the variables of a scope. -/
def Scope.index (scope : Scope) : String → Option Nat :=
  slotTable (scope.bindings.map Binding.name)

/-- The tables of a scope, kept side by side: variables in the order of their declaration, the slot
of each name among them, and routines. -/
structure Tables where
  bindings : List Binding
  index : String → Option Nat
  routines : String → Option Closure

/-- The tables that a scope comes to. -/
def Scope.tables (scope : Scope) : Tables := ⟨scope.bindings, scope.index, scope.routine?⟩

namespace Tables

/-- A name is looked up in the slots and in the routines. -/
def declares (tables : Tables) (name : String) : Bool :=
  (tables.index name).isSome || (tables.routines name).isSome

/-- Enters a variable: its slot is the number of those that are there. -/
def declareVar (tables : Tables) (name : String) (type : VarType) : Except Fault Tables :=
  if tables.declares name then .error (.duplicateDeclaration name)
  else .ok { tables with
    bindings := tables.bindings ++ [⟨name, type, none⟩]
    index := Function.update tables.index name (some tables.bindings.length) }

/-- Enters a routine. -/
def declareRoutine (tables : Tables) (closure : Closure) : Except Fault Tables :=
  if tables.declares closure.name then .error (.duplicateDeclaration closure.name)
  else .ok { tables with
    routines := Function.update tables.routines closure.name (some closure) }

/-- Writes a value into the slot of a name. -/
def setValue (tables : Tables) (name : String) (value : Value) : Tables :=
  match tables.index name with
  | none => tables
  | some slot =>
    { tables with bindings := tables.bindings.modify slot ({ · with value := some value }) }

end Tables

/-- The variables of a scope are those of a list, in this order, and no name stands for two things. -/
structure Scope.Records (declared : List (String × VarType)) (scope : Scope) : Prop where
  order : scope.signature = declared
  distinct : scope.names.Nodup

/-- A scope whose tables are in step: the slot of a name is where a variable of that name stands,
names are distinct, and none has a slot and a routine. Declarations and assignments change the tables
as they change the scope. -/
structure Scope.InStep (scope : Scope) : Prop where
  slots : ∀ name slot, scope.index name = some slot ↔
    ∃ binding, scope.bindings[slot]? = some binding ∧ binding.name = name
  distinct : (scope.bindings.map Binding.name).Nodup
  apart : ∀ name, scope.index name = none ∨ scope.routine? name = none
  declareVar : ∀ name type,
    (scope.declareVar name type).map Scope.tables = scope.tables.declareVar name type
  declareRoutine : ∀ closure,
    (scope.declareRoutine closure).map Scope.tables = scope.tables.declareRoutine closure
  setValue : ∀ name value, (scope.setValue name value).tables = scope.tables.setValue name value

section

variable {scope after : Scope} {name : String} {slot : Nat} {type : VarType} {closure : Closure}
  {declared : List (String × VarType)} {id : ScopeId} {decl : Decl}

theorem Scope.index_eq_none (scope : Scope) (name : String) :
    scope.index name = none ↔ scope.binding? name = none := by
  rw [Scope.index, slotTable_eq_none, Scope.binding?_eq_none]

theorem Scope.declares_tables (scope : Scope) (name : String) :
    scope.tables.declares name = scope.declares name := by
  have same : (scope.index name).isSome = (scope.binding? name).isSome := by
    rw [Bool.eq_iff_iff, Option.isSome_iff_ne_none, Option.isSome_iff_ne_none]
    exact not_congr (scope.index_eq_none name)
  rw [Tables.declares, Scope.declares, ← same]
  rfl

/-- A declaration keeps slots and variables in step, with the slot at the end. -/
theorem Scope.tables_declareVar (scope : Scope) (name : String) (type : VarType) :
    (scope.declareVar name type).map Scope.tables = scope.tables.declareVar name type := by
  rw [Scope.declareVar, Tables.declareVar, Scope.declares_tables]
  by_cases taken : scope.declares name = true
  · rw [if_pos taken, if_pos taken]
    rfl
  · rw [if_neg taken, if_neg taken, Except.map, Scope.tables, Scope.index, List.map_append,
      List.map_singleton, slotTable_concat, List.length_map]
    rfl

theorem Scope.tables_declareRoutine (scope : Scope) (closure : Closure) :
    (scope.declareRoutine closure).map Scope.tables = scope.tables.declareRoutine closure := by
  rw [Scope.declareRoutine, Tables.declareRoutine, Scope.declares_tables]
  by_cases taken : scope.declares closure.name = true
  · rw [if_pos taken, if_pos taken]
    rfl
  · have unknown : scope.routine? closure.name = none := by
      rw [Scope.declares, Bool.or_eq_true] at taken
      exact Option.not_isSome_iff_eq_none.mp (not_or.mp taken).2
    have added (name : String) : (scope.routines ++ [closure]).find? (·.name == name) =
        Function.update scope.routine? closure.name (some closure) name := by
      rw [List.find?_append]
      by_cases same : name = closure.name
      · rw [same, Function.update_self, ← Scope.routine?, unknown]
        simp
      · rw [Function.update_of_ne same, ← Scope.routine?]
        simp [Ne.symm same]
    rw [if_neg taken, if_neg taken]
    exact congrArg Except.ok (congrArg (Tables.mk _ _) (funext added))

theorem Scope.signature_setValue (scope : Scope) (name : String) (value : Value) :
    (scope.setValue name value).signature = scope.signature := by
  rw [Scope.signature, Scope.signature, Scope.setValue, List.map_map]
  refine List.map_congr_left fun binding _ => ?_
  by_cases same : binding.name = name <;> simp [same]

theorem Scope.names_of_signature (order : after.signature = scope.signature)
    (routines : after.routines = scope.routines) : after.names = scope.names := by
  rw [Scope.names, Scope.names, ← Scope.map_fst_signature, order, Scope.map_fst_signature, routines]

theorem Scope.names_add_perm (id : ScopeId) (decl : Decl) :
    (scope.add id decl).names.Perm (decl.name.name :: scope.names) := by
  cases decl with
  | var ident type =>
    simp only [Scope.add, Scope.names, List.map_append, List.map_singleton, List.append_assoc]
    exact List.perm_middle
  | routine heading declarations body =>
    simp only [Scope.add, Scope.names, List.map_append, List.map_singleton, ← List.append_assoc]
    exact List.perm_append_singleton _ _

namespace Scope.Records

theorem empty (name : String) (enclosing : List ScopeId) :
    (Scope.mk name [] [] enclosing).Records [] := ⟨rfl, .nil⟩

theorem same (records : scope.Records declared) (order : after.signature = scope.signature)
    (routines : after.routines = scope.routines) : after.Records declared :=
  ⟨order.trans records.order, Scope.names_of_signature order routines ▸ records.distinct⟩

theorem setValue (records : scope.Records declared) (name : String) (value : Value) :
    (scope.setValue name value).Records declared :=
  records.same (Scope.signature_setValue scope name value) rfl

theorem evolve (records : scope.Records declared) (evolves : scope.Evolves after) :
    after.Records declared :=
  records.same evolves.signature evolves.routines

theorem add (records : scope.Records declared) (id : ScopeId) (decl : Decl)
    (fresh : decl.name.name ∉ scope.names) :
    (scope.add id decl).Records (declared ++ [decl].filterMap Decl.var?) := by
  constructor
  · rw [← records.order]
    exact Scope.signature_addAll [decl]
  · rw [(Scope.names_add_perm id decl).nodup_iff]
    exact List.nodup_cons.mpr ⟨fresh, records.distinct⟩

theorem declareVar (records : scope.Records declared)
    (taken : scope.declareVar name type = .ok after) :
    after.Records (declared ++ [(name, type)]) := by
  rw [scope.declareVar_eq 0 ⟨name, .point 0⟩ type] at taken
  split at taken
  · cases taken
  · rename_i fresh
    cases taken
    exact records.add 0 (.var ⟨name, .point 0⟩ type) fresh

theorem declareRoutine (records : scope.Records declared)
    (taken : scope.declareRoutine closure = .ok after) : after.Records declared := by
  obtain ⟨⟨heading, declarations, body⟩, home⟩ := closure
  rw [Scope.declareRoutine_eq] at taken
  split at taken
  · cases taken
  · rename_i fresh
    cases taken
    have added := records.add home (.routine heading declarations body) fresh
    rwa [List.filterMap_cons_none rfl, List.filterMap_nil, List.append_nil] at added

theorem bindParam {param : Param} {arg : Value} (records : scope.Records declared)
    (taken : scope.bindParam param arg = .ok after) :
    after.Records (declared ++ Param.vars [param]) := by
  obtain ⟨added, declares, taken⟩ := except_bind_ok.mp taken
  obtain ⟨stored, -, taken⟩ := except_bind_ok.mp taken
  cases taken
  exact (records.declareVar declares).setValue _ stored

theorem bindParams {params : List Param} {args : List Value} (records : scope.Records declared)
    (taken : scope.bindParams params args = .ok after) :
    after.Records (declared ++ Param.vars (params.take args.length)) := by
  induction params generalizing scope declared args with
  | nil =>
    rw [Scope.bindParams.eq_2 _ _ _ (by simp)] at taken
    cases taken
    simpa [Param.vars] using records
  | cons param params ih =>
    cases args with
    | nil =>
      cases taken
      simpa [Param.vars] using records
    | cons arg args =>
      obtain ⟨middle, first, taken⟩ := except_bind_ok.mp taken
      have later := ih (records.bindParam first) taken
      rwa [List.append_assoc] at later

/-- An activation begins with its parameters in order, and the result of a function behind them. -/
theorem frame {heading : Heading} {args : List Value} (records : scope.Records declared)
    (arity : heading.params.length = args.length) (taken : heading.frame scope args = .ok after) :
    after.Records (declared ++ heading.bound) := by
  obtain ⟨middle, params, taken⟩ := except_bind_ok.mp taken
  have bound := records.bindParams params
  rw [← arity, List.take_length] at bound
  rw [Heading.bound, ← List.append_assoc]
  cases result : heading.result with
  | none =>
    rw [result] at taken
    cases taken
    simpa using bound
  | some type =>
    rw [result] at taken
    exact bound.declareVar taken

theorem index_iff (records : scope.Records declared) (name : String) (slot : Nat) :
    scope.index name = some slot ↔
      ∃ binding, scope.bindings[slot]? = some binding ∧ binding.name = name := by
  have distinct := (List.nodup_append.mp records.distinct).1
  rw [Scope.index, slotTable_eq_some distinct, List.getElem?_map, Option.map_eq_some_iff]

theorem apart (records : scope.Records declared) (name : String) :
    scope.index name = none ∨ scope.routine? name = none := by
  have disjoint := (List.nodup_append.mp records.distinct).2.2
  by_cases listed : name ∈ scope.bindings.map Binding.name
  · refine .inr (List.find?_eq_none.mpr fun closure member same => ?_)
    have named : closure.name = name := beq_iff_eq.mp same
    exact disjoint name listed closure.name (List.mem_map_of_mem member) named.symm
  · exact .inl ((slotTable_eq_none _ name).mpr listed)

/-- A value goes to the one slot of its name. -/
theorem tables_setValue (records : scope.Records declared) (name : String) (value : Value) :
    (scope.setValue name value).tables = scope.tables.setValue name value := by
  have index : (scope.setValue name value).index = scope.index := by
    rw [Scope.index, ← Scope.map_fst_signature, Scope.signature_setValue, Scope.map_fst_signature,
      Scope.index]
  rw [Scope.tables, index, Tables.setValue]
  cases held : scope.index name with
  | none =>
    have others : name ∉ scope.bindings.map Binding.name := (slotTable_eq_none _ name).mp held
    have same : (scope.setValue name value).bindings = scope.bindings := by
      refine (List.map_congr_left fun binding member => ?_).trans (List.map_id _)
      have different : binding.name ≠ name := by
        rintro rfl
        exact others (List.mem_map_of_mem member)
      exact if_neg different
    simp only [Scope.tables, held, same]
    rfl
  | some place =>
    have same : (scope.setValue name value).bindings =
        scope.bindings.modify place ({ · with value := some value }) := by
      refine List.ext_getElem? fun slot => ?_
      rw [Scope.setValue, List.getElem?_map, List.getElem?_modify]
      cases found : scope.bindings[slot]? with
      | none => rfl
      | some binding =>
        have named : place = slot ↔ binding.name = name := by
          have slots := records.index_iff name slot
          rw [held, found] at slots
          simpa using slots
        by_cases here : place = slot
        · simp [here, named.mp here]
        · simp [here, mt named.mpr here]
    simp only [Scope.tables, held, same]
    rfl

theorem inStep (records : scope.Records declared) : scope.InStep where
  slots := records.index_iff
  distinct := (List.nodup_append.mp records.distinct).1
  apart := records.apart
  declareVar := scope.tables_declareVar
  declareRoutine := scope.tables_declareRoutine
  setValue := records.tables_setValue

/-- The slot of a name leads to the variable that a search finds. -/
theorem binding?_eq (records : scope.Records declared) (name : String) :
    scope.binding? name = (scope.index name).bind (scope.bindings[·]?) := by
  cases found : scope.binding? name with
  | none =>
    have unlisted : name ∉ scope.bindings.map Binding.name := by
      intro listed
      obtain ⟨binding, member, rfl⟩ := List.mem_map.mp listed
      simpa using List.find?_eq_none.mp found binding member
    rw [Scope.index, (slotTable_eq_none _ name).mpr unlisted, Option.bind_none]
  | some binding =>
    obtain ⟨member, named⟩ := Scope.mem_of_binding? found
    obtain ⟨slot, bound, rfl⟩ := List.mem_iff_getElem.mp member
    have atSlot := List.getElem?_eq_getElem bound
    rw [(records.index_iff name slot).mpr ⟨_, atSlot, named⟩, Option.bind_some, atSlot]

end Scope.Records

end

end MiniPascal
