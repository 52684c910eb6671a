import MiniPascal.Parse.Rules
import MiniPascal.Proofs.Sequence
import MiniPascal.Proofs.Tree.Leaves

namespace MiniPascal

/-- A span that ends, and so starts, by an offset. -/
def Span.Within (bound : Nat) (span : Span) : Prop := span.start ≤ bound ∧ span.stop ≤ bound

/-- A leaf whose span, if it is one, ends by an offset. -/
def Leaf.Within (bound : Nat) : Leaf → Prop
  | Leaf.span place => place.Within bound
  | Leaf.literal _ => True

/-- The spans of an expression end by an offset. -/
def Expr.Within (bound : Nat) (expr : Expr) : Prop := Leaf.All (Leaf.Within bound) expr.leaves

/-- The spans of a statement end by an offset. -/
def Stmt.Within (bound : Nat) (stmt : Stmt) : Prop := Leaf.All (Leaf.Within bound) stmt.leaves

/-- The spans of a declaration end by an offset. -/
def Decl.Within (bound : Nat) (decl : Decl) : Prop := Leaf.All (Leaf.Within bound) decl.leaves

/-- The spans of a block end by an offset. -/
structure Block.Within (bound : Nat) (block : Block) : Prop where
  declarations : ∀ decl ∈ block.declarations, decl.Within bound
  body : ∀ stmt ∈ block.body, stmt.Within bound

/-- The spans that a cursor shows, has passed last and has ahead end by an offset. -/
structure Cursor.Within (bound : Nat) (cursor : Cursor) : Prop where
  current : cursor.current.span.Within bound
  rest : ∀ lexeme ∈ cursor.rest, lexeme.span.Within bound
  previous : cursor.previous.Within bound

variable {α β : Type} {bound : Nat}

section Spans

variable {left right : Span}

theorem Span.Within.merge (first : left.Within bound) (second : right.Within bound) :
    (left.merge right).Within bound :=
  ⟨Nat.le_trans (Nat.min_le_left _ _) first.1, Nat.max_le.mpr ⟨first.2, second.2⟩⟩

theorem Expr.Within.span {expr : Expr} (within : expr.Within bound) : expr.span.Within bound := by
  cases expr <;> simp only [Expr.Within, Expr.leaves, Leaf.all_cons] at within <;> exact within.1

theorem Expr.Within.withSpan {expr : Expr} (within : expr.Within bound)
    (outer : left.Within bound) : (expr.withSpan left).Within bound := by
  cases expr <;> simp only [Expr.Within, Expr.withSpan, Expr.leaves, Leaf.all_cons] at within ⊢ <;>
    exact ⟨outer, within.2⟩

end Spans

namespace Parser

/-- From a cursor within a bound, the results of a rule are good and the cursor stays within it. -/
def Keeps (bound : Nat) (parser : Parser α) (good : α → Prop) : Prop :=
  ∀ cursor result after, cursor.Within bound → parser cursor = .ok result after →
    good result ∧ after.Within bound

section Steps

variable {parser yes no : Parser α} {next : α → Parser β} {good : α → Prop} {fine : β → Prop}

theorem Keeps.pure {result : α} (holds : good result) : Keeps bound (Pure.pure result) good := by
  intro cursor _ _ within run
  cases run
  exact ⟨holds, within⟩

theorem Keeps.bind (head : Keeps bound parser good)
    (tail : ∀ result, good result → Keeps bound (next result) fine) :
    Keeps bound (parser >>= next) fine := by
  intro cursor result after within run
  obtain ⟨middle, between, first, second⟩ := ok_of_bind run
  obtain ⟨holds, within⟩ := head _ _ _ within first
  exact tail middle holds _ _ _ within second

theorem Keeps.unexpected (expected : Expected) :
    Keeps bound (Parser.unexpected expected) good := by
  intro _ _ _ _ run
  cases run

theorem Keeps.outOfFuel : Keeps bound Parser.outOfFuel good := by
  intro _ _ _ _ run
  cases run

theorem Keeps.ite {condition : Prop} [Decidable condition] (taken : Keeps bound yes good)
    (left : Keeps bound no good) : Keeps bound (if condition then yes else no) good := by
  split
  · exact taken
  · exact left

theorem peek_keeps : Keeps bound peek fun _ => True := by
  intro _ _ _ within run
  cases run
  exact ⟨trivial, within⟩

theorem here_keeps : Keeps bound here (·.Within bound) := by
  intro _ _ _ within run
  cases run
  exact ⟨within.current, within⟩

theorem previous_keeps : Keeps bound previous (·.Within bound) := by
  intro _ _ _ within run
  cases run
  exact ⟨within.previous, within⟩

theorem note_keeps (event : ParseEvent) : Keeps bound (note event) fun _ => True := by
  intro _ _ _ within run
  cases run
  exact ⟨trivial, within.current, within.rest, within.previous⟩

theorem advance_keeps : Keeps bound advance (·.span.Within bound) := by
  rintro ⟨current, rest, failure, previous, events⟩ result after within run
  match rest, failure with
  | next :: rest, _ =>
    cases run
    have ahead := List.forall_mem_cons.mp within.rest
    exact ⟨within.current, ahead.1, ahead.2, within.current⟩
  | [], some _ => cases run
  | [], none =>
    cases run
    exact ⟨within.current, ⟨within.current.2, within.current.2⟩, within.rest, within.current⟩

theorem sees_keeps (kind : Mark) : Keeps bound (sees kind) fun _ => True :=
  peek_keeps.bind fun _ _ => .pure trivial

theorem eat_keeps (kind : Mark) : Keeps bound (eat kind) fun _ => True :=
  (sees_keeps kind).bind fun _ _ =>
    .ite (advance_keeps.bind fun _ _ => .pure trivial) (.pure trivial)

theorem expect_keeps (kind : Mark) : Keeps bound (expect kind) fun _ => True :=
  (sees_keeps kind).bind fun _ _ =>
    .ite (advance_keeps.bind fun _ _ => .pure trivial) (.unexpected _)

theorem ident_keeps : Keeps bound ident (·.span.Within bound) := by
  refine peek_keeps.bind fun token _ => ?_
  cases token with
  | ident name => exact advance_keeps.bind fun _ within => .pure within
  | mark | integer | real | text => exact .unexpected _

theorem sepBy_keeps (separator : Mark) (items : Keeps bound parser good) (fuel : Nat) :
    Keeps bound (sepBy separator parser fuel) fun results => ∀ result ∈ results, good result := by
  induction fuel with
  | zero => exact .outOfFuel
  | succ fuel ih =>
    refine items.bind fun first holds => (eat_keeps separator).bind fun _ _ => .ite ?_ ?_
    · exact ih.bind fun others hold => .pure (List.forall_mem_cons.mpr ⟨holds, hold⟩)
    · exact .pure (List.forall_mem_singleton.mpr holds)

end Steps

section Expressions

theorem chain_keeps {operand : Parser Expr} (operator? : Token → Option BinaryOp)
    (operands : Keeps bound operand (Expr.Within bound)) (fuel : Nat) (left : Expr)
    (first : left.Within bound) :
    Keeps bound (chain operator? operand fuel left) (Expr.Within bound) := by
  induction fuel generalizing left with
  | zero => exact .outOfFuel
  | succ fuel ih =>
    refine peek_keeps.bind fun token _ => ?_
    cases operator? token with
    | none => exact .pure first
    | some op =>
      refine advance_keeps.bind fun _ _ => operands.bind fun right second => ih _ ?_
      simp only [Expr.Within, Expr.leaves, Leaf.all_cons, Leaf.all_append]
      exact ⟨first.span.merge second.span, first, second⟩

variable {factor expression : Parser Expr}

theorem product_keeps (factors : Keeps bound factor (Expr.Within bound)) (fuel : Nat) :
    Keeps bound (product fuel factor) (Expr.Within bound) :=
  factors.bind fun left within => chain_keeps productOp? factors fuel left within

theorem sum_keeps (factors : Keeps bound factor (Expr.Within bound)) (fuel : Nat) :
    Keeps bound (sum fuel factor) (Expr.Within bound) := by
  have products := product_keeps factors fuel
  exact products.bind fun left within => chain_keeps sumOp? products fuel left within

theorem arguments_keeps (expressions : Keeps bound expression (Expr.Within bound)) (fuel : Nat) :
    Keeps bound (arguments fuel expression) fun args => ∀ arg ∈ args, arg.Within bound := by
  refine (expect_keeps .leftParen).bind fun _ _ => (eat_keeps .rightParen).bind fun _ _ => ?_
  refine .ite (.pure (List.forall_mem_nil _)) ?_
  refine (sepBy_keeps .comma expressions fuel).bind fun args within => ?_
  exact (expect_keeps .rightParen).bind fun _ _ => .pure within

end Expressions

theorem factor_keeps (fuel : Nat) : Keeps bound (factor fuel) (Expr.Within bound) := by
  induction fuel with
  | zero => exact .outOfFuel
  | succ fuel ih =>
    have inner := sum_keeps ih fuel
    refine here_keeps.bind fun start begins => peek_keeps.bind fun token _ => ?_
    cases token with
    | mark kind =>
      cases kind with
      | plus | minus =>
        refine advance_keeps.bind fun _ _ => ih.bind fun operand within => .pure ?_
        simp only [Expr.Within, Expr.leaves, Leaf.all_cons]
        exact ⟨begins.merge within.span, within⟩
      | leftParen =>
        refine advance_keeps.bind fun _ _ => inner.bind fun expr within => ?_
        refine (expect_keeps .rightParen).bind fun _ _ => previous_keeps.bind fun _ ends => ?_
        exact .pure (within.withSpan (begins.merge ends))
      | _ => exact .unexpected _
    | integer | real | text =>
      refine advance_keeps.bind fun _ _ => .pure ?_
      simpa [Expr.Within, Expr.leaves, Leaf.Within] using begins
    | ident =>
      refine ident_keeps.bind fun name named => (sees_keeps .leftParen).bind fun _ _ => .ite ?_ ?_
      · refine (arguments_keeps inner fuel).bind fun args within => ?_
        refine previous_keeps.bind fun _ ends => .pure ?_
        simp only [Expr.Within, Expr.leaves, Expr.leavesIn_eq, Leaf.all_cons, Leaf.all_flatMap]
        exact ⟨begins.merge ends, named, within⟩
      · refine .pure ?_
        simpa [Expr.Within, Expr.leaves, Leaf.Within] using named

theorem expression_keeps (fuel : Nat) : Keeps bound (expression fuel) (Expr.Within bound) :=
  sum_keeps (factor_keeps fuel) fuel

theorem condition_keeps (fuel : Nat) : Keeps bound (condition fuel) (Expr.Within bound) := by
  refine (expression_keeps fuel).bind fun left first => peek_keeps.bind fun token _ => ?_
  cases relationalOp? token with
  | none => exact .unexpected _
  | some op =>
    refine advance_keeps.bind fun _ _ => (expression_keeps fuel).bind fun right second => .pure ?_
    simp only [Expr.Within, Expr.leaves, Leaf.all_cons, Leaf.all_append]
    exact ⟨first.span.merge second.span, first, second⟩

theorem assignmentOrCall_keeps (fuel : Nat) :
    Keeps bound (assignmentOrCall fuel) (Stmt.Within bound) := by
  refine ident_keeps.bind fun name named => peek_keeps.bind fun token _ => ?_
  have called (args : List Expr) (within : ∀ arg ∈ args, arg.Within bound) :
      Keeps bound (do return Stmt.call name args (name.span.merge (← previous)))
        (Stmt.Within bound) := by
    refine previous_keeps.bind fun _ ends => .pure ?_
    simp only [Stmt.Within, Stmt.leaves, Expr.leavesIn_eq, Leaf.all_cons, Leaf.all_flatMap]
    exact ⟨named.merge ends, named, within⟩
  cases token with
  | mark kind =>
    cases kind with
    | assign =>
      refine advance_keeps.bind fun _ _ => (expression_keeps fuel).bind fun value within => ?_
      refine previous_keeps.bind fun _ ends => .pure ?_
      simp only [Stmt.Within, Stmt.leaves, Leaf.all_cons]
      exact ⟨named.merge ends, named, within⟩
    | leftParen => exact (arguments_keeps (expression_keeps fuel) fuel).bind called
    | _ => exact called [] (List.forall_mem_nil _)
  | integer | real | text | ident => exact called [] (List.forall_mem_nil _)

theorem compound_keeps {statement : Parser Stmt}
    (statements : Keeps bound statement (Stmt.Within bound)) (fuel : Nat) :
    Keeps bound (compound fuel statement) fun body => ∀ stmt ∈ body, stmt.Within bound := by
  refine (expect_keeps .kwBegin).bind fun _ _ => ?_
  refine (sepBy_keeps .semicolon statements fuel).bind fun body within => ?_
  exact (expect_keeps .kwEnd).bind fun _ _ => .pure within

theorem statement_keeps (fuel : Nat) : Keeps bound (statement fuel) (Stmt.Within bound) := by
  induction fuel with
  | zero => exact .outOfFuel
  | succ fuel ih =>
    refine here_keeps.bind fun start begins => peek_keeps.bind fun token _ => ?_
    have nothing : Keeps bound (Pure.pure (Stmt.empty (.point start.start))) (Stmt.Within bound) := by
      refine .pure ?_
      simp only [Stmt.Within, Stmt.leaves, Leaf.all_cons, Leaf.all_nil, and_true]
      exact ⟨begins.1, begins.1⟩
    cases token with
    | mark kind =>
      cases kind with
      | kwBegin =>
        refine (compound_keeps ih fuel).bind fun body within => ?_
        refine previous_keeps.bind fun _ ends => .pure ?_
        simp only [Stmt.Within, Stmt.leaves, Stmt.leavesIn_eq, Leaf.all_cons, Leaf.all_flatMap]
        exact ⟨begins.merge ends, within⟩
      | kwIf =>
        refine advance_keeps.bind fun _ _ => (condition_keeps fuel).bind fun cond tested => ?_
        refine (expect_keeps .kwThen).bind fun _ _ => ih.bind fun branch taken => ?_
        refine (eat_keeps .kwElse).bind fun _ _ => .ite ?_ ?_
        · refine ih.bind fun otherwise left => previous_keeps.bind fun _ ends => .pure ?_
          simp only [Stmt.Within, Stmt.leaves, Leaf.all_cons, Leaf.all_append]
          exact ⟨begins.merge ends, ⟨tested, taken⟩, left⟩
        · refine previous_keeps.bind fun _ ends => .pure ?_
          simp only [Stmt.Within, Stmt.leaves, Leaf.all_cons, Leaf.all_append]
          exact ⟨begins.merge ends, tested, taken⟩
      | kwRepeat =>
        refine advance_keeps.bind fun _ _ => ?_
        refine (sepBy_keeps .semicolon ih fuel).bind fun body within => ?_
        refine (expect_keeps .kwUntil).bind fun _ _ => (condition_keeps fuel).bind fun cond tested => ?_
        refine previous_keeps.bind fun _ ends => .pure ?_
        simp only [Stmt.Within, Stmt.leaves, Stmt.leavesIn_eq, Leaf.all_cons, Leaf.all_append,
          Leaf.all_flatMap]
        exact ⟨begins.merge ends, within, tested⟩
      | _ => exact nothing
    | integer | real | text => exact nothing
    | ident => exact assignmentOrCall_keeps fuel

section Declarations

theorem varType_keeps : Keeps bound varType fun _ => True := by
  refine peek_keeps.bind fun token _ => ?_
  cases token with
  | mark kind =>
    cases kind with
    | kwInteger | kwReal => exact advance_keeps.bind fun _ _ => .pure trivial
    | _ => exact .unexpected _
  | integer | real | text | ident => exact .unexpected _

theorem atIdent_keeps : Keeps bound atIdent fun _ => True := by
  refine peek_keeps.bind fun token _ => ?_
  cases token with
  | ident | mark | integer | real | text => exact .pure trivial

theorem typedNames_keeps (fuel : Nat) :
    Keeps bound (typedNames fuel) fun typed => ∀ name ∈ typed.1, name.span.Within bound := by
  refine (sepBy_keeps .comma ident_keeps fuel).bind fun names within => ?_
  exact (expect_keeps .colon).bind fun _ _ => varType_keeps.bind fun _ _ => .pure within

theorem variableGroups_keeps (fuel : Nat) :
    Keeps bound (variableGroups fuel) fun decls => ∀ decl ∈ decls, decl.Within bound := by
  induction fuel with
  | zero => exact .outOfFuel
  | succ fuel ih =>
    refine (typedNames_keeps fuel).bind fun (names, type) within => ?_
    have group : ∀ decl ∈ names.map fun name => Decl.var name type, decl.Within bound := by
      intro decl listed
      obtain ⟨name, member, rfl⟩ := List.mem_map.mp listed
      simpa [Decl.Within, Decl.leaves, Leaf.Within] using within name member
    refine (expect_keeps .semicolon).bind fun _ _ => atIdent_keeps.bind fun _ _ => ?_
    refine .ite (ih.bind fun others rest => .pure ?_) (.pure group)
    exact List.forall_mem_append.mpr ⟨group, rest⟩

theorem parameterList_keeps (fuel : Nat) :
    Keeps bound (parameterList fuel) fun params => ∀ param ∈ params, param.name.span.Within bound := by
  have none : ∀ param ∈ ([] : List Param), param.name.span.Within bound := List.forall_mem_nil _
  refine (eat_keeps .leftParen).bind fun _ _ => .ite ?_ (.pure none)
  refine (eat_keeps .rightParen).bind fun _ _ => .ite (.pure none) ?_
  refine (sepBy_keeps .semicolon (typedNames_keeps fuel) fuel).bind fun groups within => ?_
  refine (expect_keeps .rightParen).bind fun _ _ => .pure ?_
  intro param listed
  obtain ⟨⟨names, type⟩, group, listed⟩ := List.mem_flatMap.mp listed
  obtain ⟨name, member, rfl⟩ := List.mem_map.mp listed
  exact within _ group name member

variable {block : Parser Block}

theorem routine_keeps (blocks : Keeps bound block (Block.Within bound)) (fuel : Nat)
    (kind : RoutineKind) : Keeps bound (routine fuel block kind) (Decl.Within bound) := by
  refine advance_keeps.bind fun keyword begins => ident_keeps.bind fun name named => ?_
  refine (parameterList_keeps fuel).bind fun params listed => ?_
  have rest (result : Option VarType) : Keeps bound
      (do
        expect .semicolon
        let body ← block
        note (.parsedRoutine name.name params.length)
        let heading : Heading := ⟨name, params, result, keyword.span.merge (← previous)⟩
        return Decl.routine heading body.declarations body.body)
      (Decl.Within bound) := by
    refine (expect_keeps .semicolon).bind fun _ _ => blocks.bind fun body within => ?_
    refine (note_keeps _).bind fun _ _ => previous_keeps.bind fun _ ends => .pure ?_
    simp only [Decl.Within, Decl.leaves, Heading.leaves, Decl.leavesIn_eq, Stmt.leavesIn_eq,
      List.cons_append, Leaf.all_cons, Leaf.all_append, Leaf.all_flatMap, Leaf.all_nil, and_true]
    refine ⟨named, ⟨⟨?_, begins.merge ends⟩, within.declarations⟩, within.body⟩
    exact List.forall_mem_map.mpr listed
  cases kind with
  | procedure => exact rest none
  | function =>
    simp only [bind_map_left]
    exact (expect_keeps .colon).bind fun _ _ => varType_keeps.bind fun type _ => rest (some type)

theorem routines_keeps (blocks : Keeps bound block (Block.Within bound)) (fuel : Nat) :
    Keeps bound (routines block fuel) fun decls => ∀ decl ∈ decls, decl.Within bound := by
  induction fuel with
  | zero => exact .outOfFuel
  | succ fuel ih =>
    have declared (kind : RoutineKind) : Keeps bound
        (do
          let first ← routine fuel block kind
          expect .semicolon
          return first :: (← routines block fuel))
        fun decls => ∀ decl ∈ decls, decl.Within bound := by
      refine (routine_keeps blocks fuel kind).bind fun first within => ?_
      refine (expect_keeps .semicolon).bind fun _ _ => ih.bind fun others rest => .pure ?_
      exact List.forall_mem_cons.mpr ⟨within, rest⟩
    refine peek_keeps.bind fun token _ => ?_
    cases token with
    | mark kind =>
      cases kind with
      | kwProcedure => exact declared .procedure
      | kwFunction => exact declared .function
      | _ => exact .pure (List.forall_mem_nil _)
    | integer | real | text | ident => exact .pure (List.forall_mem_nil _)

end Declarations

theorem block_keeps (fuel : Nat) : Keeps bound (block fuel) (Block.Within bound) := by
  induction fuel with
  | zero => exact .outOfFuel
  | succ fuel ih =>
    have rest (vars : List Decl) (declared : ∀ decl ∈ vars, decl.Within bound) : Keeps bound
        (do
          let nested ← routines (block fuel) fuel
          let body ← compound fuel (statement fuel)
          return Block.mk (vars ++ nested) body)
        (Block.Within bound) := by
      refine (routines_keeps ih fuel).bind fun nested within => ?_
      refine (compound_keeps (statement_keeps fuel) fuel).bind fun body inside => .pure ?_
      exact ⟨List.forall_mem_append.mpr ⟨declared, within⟩, inside⟩
    refine (eat_keeps .kwVar).bind fun _ _ => .ite ?_ ?_
    · exact (variableGroups_keeps fuel).bind rest
    · exact (Keeps.pure (List.forall_mem_nil _)).bind rest

theorem program_keeps (fuel : Nat) :
    Keeps bound (program fuel) fun program => Leaf.All (Leaf.Within bound) program.leaves := by
  refine (expect_keeps .kwProgram).bind fun _ _ => ident_keeps.bind fun name named => ?_
  refine (expect_keeps .semicolon).bind fun _ _ => (block_keeps fuel).bind fun body within => ?_
  refine (expect_keeps .dot).bind fun _ _ => (expect_keeps .endOfInput).bind fun _ _ => ?_
  refine (note_keeps _).bind fun _ _ => .pure ?_
  simp only [Program.leaves, Decl.leavesIn_eq, Stmt.leavesIn_eq, Leaf.all_cons, Leaf.all_append,
    Leaf.all_flatMap]
  exact ⟨named, within.declarations, within.body⟩

end Parser

theorem Scan.cursor_within {scan : Scan} {cursor : Cursor}
    (ahead : ∀ lexeme ∈ scan.lexemes, lexeme.span.Within bound) (opens : scan.cursor = .ok cursor) :
    cursor.Within bound := by
  have origin : (Span.point 0).Within bound := ⟨Nat.zero_le _, Nat.zero_le _⟩
  obtain ⟨lexemes, failure⟩ := scan
  match lexemes, failure with
  | first :: rest, _ =>
    cases opens
    exact ⟨ahead first List.mem_cons_self, (List.forall_mem_cons.mp ahead).2, origin⟩
  | [], some _ => cases opens
  | [], none =>
    cases opens
    exact ⟨origin, List.forall_mem_nil _, origin⟩

/-- The spans of a tree end where the tokens end that it was read from. -/
theorem Scan.parse_within {scan : Scan} {program : Program}
    (ahead : ∀ lexeme ∈ scan.lexemes, lexeme.span.Within bound)
    (parses : scan.parse.outcome = .ok program) : Leaf.All (Leaf.Within bound) program.leaves := by
  rw [Scan.parse] at parses
  cases opens : scan.cursor with
  | error stop => simp [opens] at parses
  | ok cursor =>
    rw [opens] at parses
    cases run : Parser.program (scan.lexemes.length + 3) cursor with
    | error stop after => simp [run] at parses
    | ok result after =>
      simp only [run, Except.ok.injEq] at parses
      subst parses
      exact (Parser.program_keeps _ _ _ _ (Scan.cursor_within ahead opens) run).1

end MiniPascal
