import MiniPascal.Proofs.Static.Levels
import MiniPascal.Run.Duplicates
import MiniPascal.Builtin

namespace MiniPascal

def ValueKind.isNumeric : ValueKind → Bool
  | .integer | .real => true
  | .boolean | .text => false

/-- Does a variable of the type take a value of the kind? An integer may go where a real is expected. -/
def VarType.takes : VarType → ValueKind → Bool
  | .integer, .integer | .real, .integer | .real, .real => true
  | _, _ => false

def UnaryOp.kind? (operand : ValueKind) : Option ValueKind :=
  if operand.isNumeric then some operand else none

def BinaryOp.kind? (op : BinaryOp) (left right : ValueKind) : Option ValueKind :=
  if !left.isNumeric || !right.isNumeric then none
  else
    match op, left, right with
    | .realDiv, _, _ => some .real
    | _, .integer, .integer => some .integer
    | .intDiv, _, _ => none
    | _, _, _ => some .real

def RelationalOp.kind? (left right : ValueKind) : Option ValueKind :=
  if left.isNumeric && right.isNumeric then some .boolean else none

def Param.take : List Param → List ValueKind → Bool
  | [], [] => true
  | param :: params, kind :: kinds => param.type.takes kind && take params kinds
  | _, _ => false

theorem Param.length_of_take {params : List Param} {kinds : List ValueKind}
    (takes : Param.take params kinds = true) : params.length = kinds.length := by
  induction params generalizing kinds with
  | nil =>
    cases kinds with
    | nil => rfl
    | cons kind kinds => cases takes
  | cons param params ih =>
    cases kinds with
    | nil => cases takes
    | cons kind kinds =>
      rw [Param.take, Bool.and_eq_true] at takes
      rw [List.length_cons, List.length_cons, ih takes.2]

/-- The kind of a call of a routine on arguments of these kinds. A procedure has none. -/
def Heading.kind? (heading : Heading) (kinds : List ValueKind) : Option ValueKind :=
  if Param.take heading.params kinds then heading.result.map VarType.kind else none

mutual

/-- The kind of the values of an expression in code of the innermost of some nested blocks; none if
the expression breaks a rule. -/
def Expr.kind? (levels : List Level) : Expr → Option ValueKind
  | .number literal _ => some (Value.ofLiteral literal).kind
  | .text _ _ => some .text
  | .var name _ =>
    match resolveVar levels name with
    | some (_, type) => some type.kind
    | none => do (← resolveRoutine levels name).2.heading.kind? []
  | .unary _ operand _ => do UnaryOp.kind? (← operand.kind? levels)
  | .binary left op right _ => do op.kind? (← left.kind? levels) (← right.kind? levels)
  | .relational left _ right _ => do RelationalOp.kind? (← left.kind? levels) (← right.kind? levels)
  | .call name args _ => do
    let kinds ← Expr.kinds? levels args
    (← resolveRoutine levels name.name).2.heading.kind? kinds

def Expr.kinds? (levels : List Level) : List Expr → Option (List ValueKind)
  | [] => some []
  | first :: rest => do return (← first.kind? levels) :: (← Expr.kinds? levels rest)

end

theorem Expr.length_of_kinds? {levels : List Level} {exprs : List Expr} {kinds : List ValueKind}
    (typed : Expr.kinds? levels exprs = some kinds) : exprs.length = kinds.length := by
  induction exprs generalizing kinds with
  | nil =>
    rw [Expr.kinds?] at typed
    cases typed
    rfl
  | cons first rest ih =>
    rw [Expr.kinds?] at typed
    obtain ⟨kind, -, typed⟩ := Option.bind_eq_some_iff.mp typed
    obtain ⟨others, restTyped, typed⟩ := Option.bind_eq_some_iff.mp typed
    cases typed
    rw [List.length_cons, List.length_cons, ih restTyped]

/-- Do arguments of these kinds fit what a called name means, a visible routine or else a builtin? -/
def fitsCall (levels : List Level) (name : String) (kinds : List ValueKind) : Bool :=
  match resolveRoutine levels name with
  | some (_, routine) => Param.take routine.heading.params kinds
  | none =>
    match Builtin.find? name with
    | some builtin => builtin.arity = kinds.length
    | none => false

mutual

/-- Does a statement keep the rules in code of the innermost of some nested blocks? -/
def Stmt.checks (levels : List Level) : Stmt → Bool
  | .compound body _ => Stmt.checkAll levels body
  | .assign target value _ =>
    match resolveVar levels target.name, value.kind? levels with
    | some (_, type), some kind => type.takes kind
    | _, _ => false
  | .call name args _ =>
    match Expr.kinds? levels args with
    | some kinds => fitsCall levels name.name kinds
    | none => false
  | .ifThen cond branch _ => cond.kind? levels = some .boolean && branch.checks levels
  | .ifElse cond branch otherwise _ =>
    cond.kind? levels = some .boolean && branch.checks levels && otherwise.checks levels
  | .repeatUntil body cond _ => Stmt.checkAll levels body && cond.kind? levels = some .boolean
  | .empty _ => true

def Stmt.checkAll (levels : List Level) : List Stmt → Bool
  | [] => true
  | first :: rest => first.checks levels && Stmt.checkAll levels rest

end

/-- The names that share the name space of an activation. -/
def Level.names (level : Level) : List String :=
  level.bound.map Prod.fst ++ Decl.names level.block.declarations

mutual

def Decl.checks (levels : List Level) : Decl → Bool
  | .var _ _ => true
  | .routine heading declarations body =>
    let level : Level := ⟨some heading, ⟨declarations, body⟩⟩
    level.names.Nodup && Decl.checkAll (level :: levels) declarations &&
      Stmt.checkAll (level :: levels) body

def Decl.checkAll (levels : List Level) : List Decl → Bool
  | [] => true
  | first :: rest => first.checks levels && Decl.checkAll levels rest

end

def Level.checks (level : Level) (around : List Level) : Bool :=
  level.names.Nodup && Decl.checkAll (level :: around) level.block.declarations &&
    Stmt.checkAll (level :: around) level.block.body

theorem Level.checks_iff {level : Level} {around : List Level} : level.checks around = true ↔
    level.names.Nodup ∧ Decl.checkAll (level :: around) level.block.declarations = true ∧
      Stmt.checkAll (level :: around) level.block.body = true := by
  rw [Level.checks, Bool.and_eq_true, Bool.and_eq_true, decide_eq_true_eq, and_assoc]

/-- Does a program keep the rules of the language that need no run: no name is declared twice in one
name space, names mean what their use asks for, and operands, arguments and stored values are of
fitting kinds? -/
def Program.checks (program : Program) : Bool := program.level.checks []

theorem Decl.checks_of_mem {levels : List Level} {declarations : List Decl} {decl : Decl}
    (checked : Decl.checkAll levels declarations = true) (member : decl ∈ declarations) :
    decl.checks levels = true := by
  induction declarations with
  | nil => cases member
  | cons first rest ih =>
    rw [Decl.checkAll, Bool.and_eq_true] at checked
    rcases List.mem_cons.mp member with rfl | later
    · exact checked.1
    · exact ih checked.2 later

theorem Decl.routine?_eq_some {decl : Decl} {routine : Routine} (found : decl.routine? = some routine) :
    decl = .routine routine.heading routine.block.declarations routine.block.body := by
  cases decl with
  | var name type => cases found
  | routine heading declarations body =>
    cases found
    rfl

/-- In a program that keeps the rules every block does. -/
theorem Program.Nests.checks {program : Program} {level : Level} {around : List Level}
    (checked : program.checks = true) (nests : program.Nests (level :: around)) :
    level.checks around = true := by
  generalize at_levels : level :: around = levels at nests
  induction nests generalizing level around with
  | whole =>
    cases at_levels
    exact checked
  | routine nests declared ih =>
    cases at_levels
    obtain ⟨decl, member, found⟩ := List.mem_filterMap.mp declared
    obtain ⟨-, outer, -⟩ := Level.checks_iff.mp (ih rfl)
    have inner := Decl.checks_of_mem outer member
    rw [Decl.routine?_eq_some found, Decl.checks] at inner
    exact inner

theorem firstRepeated?_eq_none {seen names : List String} :
    firstRepeated? seen names = none ↔ names.Nodup ∧ ∀ name ∈ names, name ∉ seen := by
  induction names generalizing seen with
  | nil => simp [firstRepeated?]
  | cons name rest ih =>
    rw [firstRepeated?]
    split
    · rename_i known
      simp [known]
    · rename_i fresh
      rw [ih]
      constructor
      · rintro ⟨distinct, unseen⟩
        refine ⟨List.nodup_cons.mpr ⟨fun again => unseen name again List.mem_cons_self, distinct⟩, ?_⟩
        rintro other member
        rcases List.mem_cons.mp member with rfl | later
        · exact fresh
        · exact fun known => unseen other later (List.mem_cons_of_mem _ known)
      · rintro ⟨distinct, unseen⟩
        obtain ⟨single, distinct⟩ := List.nodup_cons.mp distinct
        refine ⟨distinct, fun other later known => ?_⟩
        rcases List.mem_cons.mp known with rfl | before
        · exact single later
        · exact unseen other (List.mem_cons_of_mem _ later) before

theorem Heading.map_fst_bound (heading : Heading) : heading.bound.map Prod.fst = heading.boundNames := by
  cases result : heading.result with
  | none => simp [Heading.bound, Heading.boundNames, Param.vars, result]
  | some type => simp [Heading.bound, Heading.boundNames, Param.vars, result]

mutual

theorem Decl.duplicate?_eq_none {levels : List Level} (decl : Decl)
    (checked : decl.checks levels = true) : decl.duplicate? = none := by
  cases decl with
  | var name type => rw [Decl.duplicate?]
  | routine heading declarations body =>
    simp only [Decl.checks, Level.names, Level.bound, Bool.and_eq_true, decide_eq_true_eq,
      Heading.map_fst_bound] at checked
    obtain ⟨⟨distinct, nested⟩, -⟩ := checked
    rw [Decl.duplicate?, firstRepeated?_eq_none.mpr ⟨distinct, by simp⟩,
      Decl.duplicateIn?_eq_none declarations nested, Option.none_or]

theorem Decl.duplicateIn?_eq_none {levels : List Level} (declarations : List Decl)
    (checked : Decl.checkAll levels declarations = true) : Decl.duplicateIn? declarations = none := by
  cases declarations with
  | nil => rw [Decl.duplicateIn?]
  | cons first rest =>
    rw [Decl.checkAll, Bool.and_eq_true] at checked
    rw [Decl.duplicateIn?, Decl.duplicate?_eq_none first checked.1,
      Decl.duplicateIn?_eq_none rest checked.2, Option.none_or]

end

/-- A program that keeps the rules passes the check for duplicates with which a run begins. -/
theorem Program.duplicate?_eq_none {program : Program} (checked : program.checks = true) :
    program.block.duplicate? = none := by
  obtain ⟨distinct, nested, -⟩ := Level.checks_iff.mp checked
  simp only [Level.names, Program.level, Level.bound, List.map_nil, List.nil_append] at distinct
  rw [Block.duplicate?, firstRepeated?_eq_none.mpr ⟨distinct, by simp⟩,
    Decl.duplicateIn?_eq_none program.block.declarations nested, Option.none_or]

end MiniPascal
