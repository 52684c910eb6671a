import MiniPascal.Proofs.Run.Equations

namespace MiniPascal

/-- The integers that 64 bits hold, from `-2 ^ 63` to `2 ^ 63 - 1`. -/
def FitsWord (number : Int) : Prop :=
  -9223372036854775808 ≤ number ∧ number ≤ 9223372036854775807

instance : DecidablePred FitsWord := fun number =>
  inferInstanceAs (Decidable (-9223372036854775808 ≤ number ∧ number ≤ 9223372036854775807))

/-- A sign over the unbounded integers. -/
def UnaryOp.unbounded : UnaryOp → Int → Int
  | .plus, value => value
  | .minus, value => -value

/-- An operator over the unbounded integers: `DIV` truncates toward zero, and there is nothing to
divide by zero. -/
def BinaryOp.unbounded? : BinaryOp → Int → Int → Option Int
  | .add, left, right => some (left + right)
  | .sub, left, right => some (left - right)
  | .mul, left, right => some (left * right)
  | .intDiv, left, right => if right = 0 then none else some (left.tdiv right)
  | .realDiv, _, _ => none

/-- The fault of an operation whose exact result does not fit. -/
def IntegerOp.overflow? (operation : IntegerOp) (number : Int) : Option Fault :=
  if FitsWord number then none else some (.integerOverflow operation)

namespace Expr

/-- The value of an expression over the unbounded integers. -/
def unbounded? (env : String → Int64) : Expr → Option Int
  | .number (.integer value) _ => some value.toInt
  | .var name _ => some (env name).toInt
  | .unary op operand _ => (operand.unbounded? env).map op.unbounded
  | .binary left op right _ =>
    (left.unbounded? env).bind fun left =>
      (right.unbounded? env).bind fun right => op.unbounded? left right
  | _ => none

/-- The nodes of an arithmetic expression, each behind its operands, and those from left to
right. -/
def postorder : Expr → List Expr
  | .unary op operand span => operand.postorder ++ [.unary op operand span]
  | .binary left op right span =>
    left.postorder ++ (right.postorder ++ [.binary left op right span])
  | expr => [expr]

/-- What is wrong at a node: its divisor is zero, or else its exact value does not fit. -/
def offence? (env : String → Int64) (node : Expr) : Option Fault :=
  match node with
  | .unary .minus _ _ => (node.unbounded? env).bind IntegerOp.negation.overflow?
  | .binary _ op right _ =>
    if op = .intDiv ∧ right.unbounded? env = some 0 then some .divisionByZero
    else (node.unbounded? env).bind (IntegerOp.binary op).overflow?
  | _ => none

/-- Expressions of integer literals, variables that hold integers, signs, `+`, `-`, `*` and
`DIV`. -/
inductive Integral (machine : Machine) (env : String → Int64) : Expr → Prop where
  | number (value : Int64) (span : Span) : Integral machine env (.number (.integer value) span)
  | var {name : String} (span : Span)
    (holds : machine.store.get machine.current name = .ok (.integer (env name))) :
    Integral machine env (.var name span)
  | unary (op : UnaryOp) {operand : Expr} (span : Span) (inner : Integral machine env operand) :
    Integral machine env (.unary op operand span)
  | binary {left right : Expr} {op : BinaryOp} (span : Span) (whole : op ≠ .realDiv)
    (first : Integral machine env left) (second : Integral machine env right) :
    Integral machine env (.binary left op right span)

end Expr

section

variable {machine : Machine} {env : String → Int64} {expr node : Expr} {number : Int}

theorem fitsWord_toInt (value : Int64) : FitsWord value.toInt := by
  have low := value.le_toInt
  have high := value.toInt_lt
  exact ⟨low, by omega⟩

theorem toInt_ofInt (fits : FitsWord number) : (Int64.ofInt number).toInt = number := by
  obtain ⟨low, high⟩ := fits
  exact Int64.toInt_ofInt_of_le (by omega) (by omega)

/-- An outcome agrees with exact arithmetic: it is the first fault, if there is one, and else the
exact value. -/
def Expr.Settles (env : String → Int64) (expr : Expr) (offence : Option Fault)
    (outcome : Except Fault Value) : Prop :=
  match offence with
  | some fault => outcome = .error fault
  | none => ∃ value, expr.unbounded? env = some value.toInt ∧ outcome = .ok (.integer value)

theorem IntegerOp.checked_settles (operation : IntegerOp)
    (known : expr.unbounded? env = some number) :
    expr.Settles env (operation.overflow? number) (operation.checked number) := by
  rw [IntegerOp.overflow?]
  by_cases fits : FitsWord number
  · rw [if_pos fits]
    refine ⟨Int64.ofInt number, by rw [known, toInt_ofInt fits], ?_⟩
    exact if_pos fits
  · rw [if_neg fits]
    exact if_neg fits

namespace Expr

theorem unary_settles (op : UnaryOp) {operand : Expr} (span : Span) {value : Int64}
    (known : operand.unbounded? env = some value.toInt) :
    (Expr.unary op operand span).Settles env ((Expr.unary op operand span).offence? env)
      (op.apply (.integer value)) := by
  have signed : (Expr.unary op operand span).unbounded? env = some (op.unbounded value.toInt) := by
    rw [unbounded?, known, Option.map_some]
  cases op with
  | plus => exact ⟨value, signed, rfl⟩
  | minus =>
    rw [offence?, signed]
    exact IntegerOp.negation.checked_settles signed

theorem binary_settles {op : BinaryOp} {left right : Expr} (span : Span) {first second : Int64}
    (whole : op ≠ .realDiv) (knownLeft : left.unbounded? env = some first.toInt)
    (knownRight : right.unbounded? env = some second.toInt) :
    (Expr.binary left op right span).Settles env ((Expr.binary left op right span).offence? env)
      (op.apply (.integer first) (.integer second)) := by
  have computed : (Expr.binary left op right span).unbounded? env =
      op.unbounded? first.toInt second.toInt := by
    rw [unbounded?, knownLeft, knownRight, Option.bind_some, Option.bind_some]
  rw [offence?, knownRight]
  cases op with
  | realDiv => exact absurd rfl whole
  | add | sub | mul =>
    rw [if_neg (by simp), computed]
    exact (IntegerOp.binary _).checked_settles computed
  | intDiv =>
    by_cases zero : second.toInt = 0
    · rw [if_pos ⟨rfl, by rw [zero]⟩]
      simp [Settles, BinaryOp.apply, BinaryOp.applyIntegers?, zero]
    · rw [BinaryOp.unbounded?, if_neg zero] at computed
      rw [if_neg (by simp [zero]), computed]
      simp only [BinaryOp.apply, BinaryOp.applyIntegers?, if_neg zero]
      exact (IntegerOp.binary .intDiv).checked_settles computed

/-- A computation agrees with exact arithmetic and leaves the machine alone. -/
def SettledBy (env : String → Int64) (expr : Expr) (offence : Option Fault) (action : Action Value)
    (machine : Machine) : Prop :=
  ∃ outcome, action machine = Action.ofExcept outcome machine ∧ expr.Settles env offence outcome

/-- A fault of an operand ends the whole, and else its exact value is what the rest goes on with. -/
theorem SettledBy.bind {operand whole : Expr} {offence rest : Option Fault} {action : Action Value}
    {next : Value → Action Value} (first : operand.SettledBy env offence action machine)
    (second : ∀ value : Int64, operand.unbounded? env = some value.toInt →
      whole.SettledBy env rest (next (.integer value)) machine) :
    whole.SettledBy env (offence.or rest) (action >>= next) machine := by
  obtain ⟨outcome, run, settles⟩ := first
  cases offence with
  | some fault =>
    obtain rfl : outcome = .error fault := settles
    exact ⟨.error fault, bind_of_error run, rfl⟩
  | none =>
    obtain ⟨value, known, rfl⟩ := settles
    obtain ⟨outcome, ended, settles⟩ := second value known
    exact ⟨outcome, (bind_of_ok run).trans ended, settles⟩

theorem Integral.settledBy_eval (integral : expr.Integral machine env) (enter : Activate) :
    expr.SettledBy env (expr.postorder.findSome? (offence? env)) (Action.eval enter expr)
      machine := by
  induction integral with
  | number value span => exact ⟨.ok (.integer value), rfl, value, rfl, rfl⟩
  | @var name span holds =>
    refine ⟨.ok (.integer (env name)), ?_, env name, rfl, rfl⟩
    rw [Action.eval, Action.readName, Action.get_bind, holds]
  | @unary op operand span inner ih =>
    rw [postorder, List.findSome?_append, List.findSome?_singleton, Action.eval]
    exact ih.bind fun value known => ⟨_, rfl, unary_settles op span known⟩
  | @binary left right op span whole first second ihLeft ihRight =>
    rw [postorder, List.findSome?_append, List.findSome?_append, List.findSome?_singleton,
      Action.eval]
    exact ihLeft.bind fun value knownLeft => ihRight.bind fun other knownRight =>
      ⟨_, rfl, binary_settles span whole knownLeft knownRight⟩

theorem Integral.of_mem (integral : expr.Integral machine env) (member : node ∈ expr.postorder) :
    node.Integral machine env ∧ node.postorder ⊆ expr.postorder := by
  induction integral with
  | number value span =>
    obtain rfl := List.mem_singleton.mp member
    exact ⟨.number value span, List.Subset.refl _⟩
  | var span holds =>
    obtain rfl := List.mem_singleton.mp member
    exact ⟨.var span holds, List.Subset.refl _⟩
  | unary op span inner ih =>
    rw [postorder] at member ⊢
    rcases List.mem_append.mp member with below | here
    · exact ⟨(ih below).1, List.subset_append_of_subset_left _ (ih below).2⟩
    · obtain rfl := List.mem_singleton.mp here
      exact ⟨.unary op span inner, List.Subset.refl _⟩
  | binary span whole first second ihLeft ihRight =>
    rw [postorder] at member ⊢
    rcases List.mem_append.mp member with below | below
    · exact ⟨(ihLeft below).1, List.subset_append_of_subset_left _ (ihLeft below).2⟩
    rcases List.mem_append.mp below with below | here
    · exact ⟨(ihRight below).1, List.subset_append_of_subset_right _
        (List.subset_append_of_subset_left _ (ihRight below).2)⟩
    · obtain rfl := List.mem_singleton.mp here
      exact ⟨.binary span whole first second, List.Subset.refl _⟩

theorem offence?_eq_none (value : node.unbounded? env = some number) (fits : FitsWord number) :
    node.offence? env = none := by
  have within (operation : IntegerOp) : operation.overflow? number = none := if_pos fits
  cases node with
  | unary op operand span =>
    cases op with
    | plus => rfl
    | minus => rw [offence?, value, Option.bind_some, within]
  | binary left op right span =>
    rw [offence?, value, Option.bind_some, within, if_neg]
    -- A zero divisor leaves the node without an exact value.
    rintro ⟨rfl, zero⟩
    rw [unbounded?, zero] at value
    obtain ⟨first, -, value⟩ := Option.bind_eq_some_iff.mp value
    cases value
  | _ => rfl

/-- There is no fault exactly where every intermediate result exists and fits. -/
theorem Integral.clean_iff (integral : expr.Integral machine env) :
    expr.postorder.findSome? (offence? env) = none ↔
      ∀ node ∈ expr.postorder, ∃ number, node.unbounded? env = some number ∧ FitsWord number := by
  rw [List.findSome?_eq_none_iff]
  constructor
  · intro clean node member
    obtain ⟨whole, below⟩ := integral.of_mem member
    obtain ⟨outcome, -, settles⟩ := whole.settledBy_eval fun _ _ => pure none
    rw [List.findSome?_eq_none_iff.mpr fun part inside => clean part (below inside)] at settles
    obtain ⟨value, known, -⟩ := settles
    exact ⟨_, known, fitsWord_toInt value⟩
  · intro fits node member
    obtain ⟨number, value, within⟩ := fits node member
    exact offence?_eq_none value within

end Expr

/-- Integer arithmetic is exact or fails. An expression gives an integer if and only if, over the
unbounded integers, no divisor in it is zero and all its intermediate results fit into 64 bits, and
it is the exact one. Else it fails with the fault of the first node in its way, operands before
operators and from left to right. Either way the machine stays as it is. -/
theorem integer_arithmetic_exact (integral : expr.Integral machine env) (enter : Activate) :
    (∀ value after, Action.eval enter expr machine = .ok value after ↔
      after = machine ∧ ∃ result : Int64, value = .integer result ∧
        expr.unbounded? env = some result.toInt ∧
        ∀ node ∈ expr.postorder, ∃ number, node.unbounded? env = some number ∧ FitsWord number) ∧
    ∀ stop after, Action.eval enter expr machine = .error stop after ↔
      after = machine ∧ ∃ fault, stop = .fault fault ∧
        ∃ before node rest, expr.postorder = before ++ node :: rest ∧
          node.offence? env = some fault ∧ ∀ earlier ∈ before, earlier.offence? env = none := by
  obtain ⟨outcome, run, settles⟩ := integral.settledBy_eval enter
  simp only [← integral.clean_iff, ← List.findSome?_eq_some_iff]
  cases found : expr.postorder.findSome? (Expr.offence? env) with
  | none =>
    rw [found] at settles
    obtain ⟨result, known, rfl⟩ := settles
    have done : Action.eval enter expr machine = .ok (.integer result) machine := run
    rw [done]
    refine ⟨fun value after => ⟨?_, ?_⟩, fun stop after => ⟨?_, ?_⟩⟩
    · rintro ⟨⟩
      exact ⟨rfl, result, rfl, known, rfl⟩
    · rintro ⟨rfl, other, rfl, same, -⟩
      have equal : result.toInt = other.toInt := Option.some.inj (known.symm.trans same)
      rw [Int64.toInt_inj.mp equal]
    · rintro ⟨⟩
    · rintro ⟨-, fault, -, ⟨⟩⟩
  | some fault =>
    rw [found] at settles
    obtain rfl : outcome = .error fault := settles
    have failed : Action.eval enter expr machine = .error (.fault fault) machine := run
    rw [failed]
    refine ⟨fun value after => ⟨?_, ?_⟩, fun stop after => ⟨?_, ?_⟩⟩
    · rintro ⟨⟩
    · rintro ⟨-, result, -, -, ⟨⟩⟩
    · rintro ⟨⟩
      exact ⟨rfl, fault, rfl, rfl⟩
    · rintro ⟨rfl, other, rfl, ⟨⟩⟩
      rfl

end

example (span : Span) : (Expr.binary (.var "X" span) .intDiv
    (.unary .minus (.number (.integer 1) span) span) span).offence? (fun _ => Int64.minValue) =
      some (.integerOverflow (.binary .intDiv)) := rfl

/-- The expression `(X + 1 - 1) DIV 0`. -/
def roundTrip : Expr :=
  .binary (.binary (.binary (.var "X" ⟨1, 2⟩) .add (.number (.integer 1) ⟨5, 6⟩) ⟨1, 6⟩) .sub
    (.number (.integer 1) ⟨9, 10⟩) ⟨0, 11⟩) .intDiv (.number (.integer 0) ⟨16, 17⟩) ⟨0, 17⟩

/-- A machine with the greatest integer in `X`. -/
def brimful : Machine :=
  ⟨⟨#[⟨"global", [⟨"X", .integer, some (.integer Int64.maxValue)⟩], [], []⟩]⟩, .empty none, []⟩

theorem roundTrip_integral : roundTrip.Integral brimful fun _ => Int64.maxValue :=
  .binary ⟨0, 17⟩ nofun (.binary ⟨0, 11⟩ nofun (.binary ⟨1, 6⟩ nofun (.var ⟨1, 2⟩ rfl)
    (.number 1 ⟨5, 6⟩)) (.number 1 ⟨9, 10⟩)) (.number 0 ⟨16, 17⟩)

/-- An addition that leaves the range fails, although what follows would lead back into it, and
before the division by zero behind it. -/
theorem integer_arithmetic_exact_overflow :
    Action.eval (fun _ _ => pure none) roundTrip brimful =
      .error (.fault (.integerOverflow (.binary .add))) brimful := by
  obtain ⟨-, fails⟩ := integer_arithmetic_exact roundTrip_integral fun _ _ => pure none
  refine (fails _ brimful).mpr ⟨rfl, _, rfl,
    [.var "X" ⟨1, 2⟩, .number (.integer 1) ⟨5, 6⟩], _, _, rfl, ?_, ?_⟩
  · decide
  · decide

end MiniPascal
