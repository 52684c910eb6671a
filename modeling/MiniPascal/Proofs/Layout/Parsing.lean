import MiniPascal.Parse.Rules
import MiniPascal.Proofs.Grammar.Bare
import MiniPascal.Proofs.Sequence

namespace MiniPascal

section

variable {ε σ α β γ δ : Type} {stop : ε → ε} {state : σ → σ}

/-- An outcome with its result, its reason to stop and its state changed. -/
def mapOutcome (stop : ε → ε) (state : σ → σ) (result : α → β) :
    EStateM.Result ε σ α → EStateM.Result ε σ β
  | .ok value after => .ok (result value) (state after)
  | .error cause after => .error (stop cause) (state after)

/-- The second of two computations does on the images of states what the first does on the states. -/
def Mirrors (stop : ε → ε) (state : σ → σ) (result : α → β) (plain : EStateM ε σ α)
    (image : EStateM ε σ β) : Prop :=
  ∀ before, image (state before) = mapOutcome stop state result (plain before)

theorem Mirrors.bind {result : α → β} {result' : γ → δ} {plain : EStateM ε σ α}
    {image : EStateM ε σ β} {next : α → EStateM ε σ γ} {next' : β → EStateM ε σ δ}
    (first : Mirrors stop state result plain image)
    (rest : ∀ value, Mirrors stop state result' (next value) (next' (result value))) :
    Mirrors stop state result' (plain >>= next) (image >>= next') := by
  intro before
  have same := first before
  cases run : plain before with
  | ok value after =>
    rw [run] at same
    rw [bind_of_ok run, bind_of_ok same]
    exact rest value after
  | error cause after =>
    rw [run] at same
    rw [bind_of_error run, bind_of_error same]
    rfl

theorem Mirrors.pure (result : α → β) (value : α) :
    Mirrors stop state result (Pure.pure value) (Pure.pure (result value)) := fun _ => rfl

theorem Mirrors.returns {result : α → β} {value : α} {image : β} (same : result value = image) :
    Mirrors stop state result (Pure.pure value) (Pure.pure image) := by
  subst same
  exact .pure result value

theorem Mirrors.ite {result : α → β} {condition : Prop} [Decidable condition]
    {yes no : EStateM ε σ α} {yes' no' : EStateM ε σ β} (taken : Mirrors stop state result yes yes')
    (left : Mirrors stop state result no no') :
    Mirrors stop state result (if condition then yes else no) (if condition then yes' else no') := by
  split
  · exact taken
  · exact left

end

/-- A token without its place. -/
def Lexeme.bare (lexeme : Lexeme) : Lexeme := ⟨lexeme.token, .blank⟩

def ScanError.bare (error : ScanError) : ScanError := ⟨error.char, .blank⟩

/-- What a text is read as, without the places: its tokens, and the character at which it is none. -/
def Scan.bare (scan : Scan) : Scan :=
  ⟨scan.lexemes.map Lexeme.bare, scan.failure.map ScanError.bare⟩

def SourceError.bare : SourceError → SourceError
  | .lexical cause => .lexical cause.bare
  | .grammatical expected found => .grammatical expected found.bare

def ParseStop.bare : ParseStop → ParseStop
  | .error cause => .error cause.bare
  | .outOfFuel => .outOfFuel

def Cursor.bare (cursor : Cursor) : Cursor :=
  ⟨cursor.current.bare, cursor.rest.map Lexeme.bare, cursor.failure.map ScanError.bare, .blank,
    cursor.events⟩

@[simp] theorem Span.merge_blank : Span.blank.merge .blank = .blank := rfl

@[simp] theorem Expr.bare_span (expr : Expr) : expr.bare.span = .blank := by
  cases expr <;> rw [bare, span]

@[simp] theorem Ident.bare_span (ident : Ident) : ident.bare.span = .blank := rfl

theorem Expr.bare_withSpan (expr : Expr) : expr.bare.withSpan .blank = expr.bare := by
  cases expr <;> rw [bare, withSpan]

namespace Parser

variable {α β : Type}

/-- Without the places of its tokens a rule reads the same, and gives the same without places. -/
abbrev Blanks (result : α → β) (plain : Parser α) (image : Parser β) : Prop :=
  Mirrors ParseStop.bare Cursor.bare result plain image

theorem unexpected_blanks (result : α → β) (expected : Expected) :
    Blanks result (unexpected expected) (unexpected expected) := fun _ => rfl

theorem outOfFuel_blanks (result : α → β) : Blanks result outOfFuel outOfFuel := fun _ => rfl

theorem peek_blanks : Blanks id peek peek := fun _ => rfl

theorem here_blanks : Blanks (fun _ => .blank) here here := fun _ => rfl

theorem previous_blanks : Blanks (fun _ => .blank) previous previous := fun _ => rfl

theorem note_blanks (event : ParseEvent) : Blanks id (note event) (note event) := fun _ => rfl

theorem advance_blanks : Blanks Lexeme.bare advance advance := by
  rintro ⟨current, rest, failure, previous, events⟩
  match rest, failure with
  | next :: rest, _ => rfl
  | [], some _ => rfl
  | [], none => rfl

theorem sees_blanks (kind : Mark) : Blanks id (sees kind) (sees kind) :=
  peek_blanks.bind fun _ => .pure id _

theorem eat_blanks (kind : Mark) : Blanks id (eat kind) (eat kind) :=
  (sees_blanks kind).bind fun _ => .ite (advance_blanks.bind fun _ => .pure id _) (.pure id _)

theorem expect_blanks (kind : Mark) : Blanks id (expect kind) (expect kind) :=
  (sees_blanks kind).bind fun _ =>
    .ite (advance_blanks.bind fun _ => .pure id _) (unexpected_blanks id _)

theorem ident_blanks : Blanks Ident.bare ident ident := by
  refine peek_blanks.bind fun token => ?_
  cases token with
  | ident name => exact advance_blanks.bind fun _ => .pure Ident.bare _
  | mark | integer | real | text => exact unexpected_blanks _ _

theorem sepBy_blanks {item : Parser α} {item' : Parser β} {result : α → β} (separator : Mark)
    (items : Blanks result item item') (fuel : Nat) :
    Blanks (List.map result) (sepBy separator item fuel) (sepBy separator item' fuel) := by
  induction fuel with
  | zero => exact outOfFuel_blanks _
  | succ fuel ih =>
    refine items.bind fun first => (eat_blanks separator).bind fun _ => .ite ?_ (.pure _ [first])
    exact ih.bind fun others => .pure _ (first :: others)

theorem chain_blanks {operand : Parser Expr} (operator? : Token → Option BinaryOp)
    (operands : Blanks Expr.bare operand operand) (fuel : Nat) (left : Expr) :
    Blanks Expr.bare (chain operator? operand fuel left) (chain operator? operand fuel left.bare) := by
  induction fuel generalizing left with
  | zero => exact outOfFuel_blanks _
  | succ fuel ih =>
    refine peek_blanks.bind fun token => ?_
    dsimp only [id]
    cases operator? token with
    | none => exact .pure _ left
    | some op =>
      refine advance_blanks.bind fun _ => operands.bind fun right => ?_
      have next := ih (.binary left op right (left.span.merge right.span))
      simpa only [Expr.bare, Expr.bare_span, Span.merge_blank] using next

section Expressions

variable {factor expression : Parser Expr}

theorem product_blanks (factors : Blanks Expr.bare factor factor) (fuel : Nat) :
    Blanks Expr.bare (product fuel factor) (product fuel factor) :=
  factors.bind fun first => chain_blanks productOp? factors fuel first

theorem sum_blanks (factors : Blanks Expr.bare factor factor) (fuel : Nat) :
    Blanks Expr.bare (sum fuel factor) (sum fuel factor) := by
  have products := product_blanks factors fuel
  exact products.bind fun first => chain_blanks sumOp? products fuel first

theorem arguments_blanks (expressions : Blanks Expr.bare expression expression) (fuel : Nat) :
    Blanks Expr.bareAll (arguments fuel expression) (arguments fuel expression) := by
  refine (expect_blanks .leftParen).bind fun _ => (eat_blanks .rightParen).bind fun _ => ?_
  refine .ite (.pure _ []) ?_
  refine (sepBy_blanks .comma expressions fuel).bind fun args => ?_
  rw [← Expr.bareAll_eq_map]
  exact (expect_blanks .rightParen).bind fun _ => .pure _ args

end Expressions

theorem factor_blanks (fuel : Nat) : Blanks Expr.bare (factor fuel) (factor fuel) := by
  induction fuel with
  | zero => exact outOfFuel_blanks _
  | succ fuel ih =>
    have inner := sum_blanks ih fuel
    refine here_blanks.bind fun start => peek_blanks.bind fun token => ?_
    dsimp only [id]
    cases token with
    | mark kind =>
      cases kind with
      | plus | minus =>
        refine advance_blanks.bind fun _ => ih.bind fun operand => ?_
        rw [Expr.bare_span]
        exact .pure Expr.bare (.unary _ operand _)
      | leftParen =>
        refine advance_blanks.bind fun _ => inner.bind fun expr => ?_
        refine (expect_blanks .rightParen).bind fun _ => previous_blanks.bind fun last => ?_
        rw [Span.merge_blank, Expr.bare_withSpan, ← expr.withSpan_bare (start.merge last)]
        exact .pure Expr.bare _
      | _ => exact unexpected_blanks _ _
    | integer value => exact advance_blanks.bind fun _ => .pure Expr.bare (.number _ start)
    | real value => exact advance_blanks.bind fun _ => .pure Expr.bare (.number _ start)
    | text value => exact advance_blanks.bind fun _ => .pure Expr.bare (.text _ start)
    | ident =>
      refine ident_blanks.bind fun name => (sees_blanks .leftParen).bind fun _ => .ite ?_ ?_
      · refine (arguments_blanks inner fuel).bind fun args => previous_blanks.bind fun _ => ?_
        exact .pure Expr.bare (.call name args _)
      · exact .pure Expr.bare (.var name.name _)

theorem expression_blanks (fuel : Nat) : Blanks Expr.bare (expression fuel) (expression fuel) :=
  sum_blanks (factor_blanks fuel) fuel

theorem condition_blanks (fuel : Nat) : Blanks Expr.bare (condition fuel) (condition fuel) := by
  refine (expression_blanks fuel).bind fun left => peek_blanks.bind fun token => ?_
  dsimp only [id]
  cases relationalOp? token with
  | none => exact unexpected_blanks _ _
  | some op =>
    refine advance_blanks.bind fun _ => (expression_blanks fuel).bind fun right => ?_
    rw [Expr.bare_span, Expr.bare_span]
    exact .pure Expr.bare (.relational left op right _)

theorem assignmentOrCall_blanks (fuel : Nat) :
    Blanks Stmt.bare (assignmentOrCall fuel) (assignmentOrCall fuel) := by
  have bare (name : Ident) : Blanks Stmt.bare
      (do return Stmt.call name [] (name.span.merge (← previous)))
      (do return Stmt.call name.bare [] (name.bare.span.merge (← previous))) :=
    previous_blanks.bind fun _ => .pure Stmt.bare (.call name [] _)
  refine ident_blanks.bind fun name => peek_blanks.bind fun token => ?_
  dsimp only [id]
  cases token with
  | mark kind =>
    cases kind with
    | assign =>
      refine advance_blanks.bind fun _ => (expression_blanks fuel).bind fun value => ?_
      exact previous_blanks.bind fun _ => .pure Stmt.bare (.assign name value _)
    | leftParen =>
      refine (arguments_blanks (expression_blanks fuel) fuel).bind fun args => ?_
      exact previous_blanks.bind fun _ => .pure Stmt.bare (.call name args _)
    | _ => exact bare name
  | integer | real | text | ident => exact bare name

theorem compound_blanks {statement : Parser Stmt} (statements : Blanks Stmt.bare statement statement)
    (fuel : Nat) : Blanks Stmt.bareAll (compound fuel statement) (compound fuel statement) := by
  refine (expect_blanks .kwBegin).bind fun _ => ?_
  refine (sepBy_blanks .semicolon statements fuel).bind fun body => ?_
  rw [← Stmt.bareAll_eq_map]
  exact (expect_blanks .kwEnd).bind fun _ => .pure _ body

theorem statement_blanks (fuel : Nat) : Blanks Stmt.bare (statement fuel) (statement fuel) := by
  induction fuel with
  | zero => exact outOfFuel_blanks _
  | succ fuel ih =>
    refine here_blanks.bind fun start => peek_blanks.bind fun token => ?_
    dsimp only [id]
    cases token with
    | mark kind =>
      cases kind with
      | kwBegin =>
        refine (compound_blanks ih fuel).bind fun body => ?_
        exact previous_blanks.bind fun _ => .pure Stmt.bare (.compound body _)
      | kwIf =>
        refine advance_blanks.bind fun _ => (condition_blanks fuel).bind fun cond => ?_
        refine (expect_blanks .kwThen).bind fun _ => ih.bind fun branch => ?_
        refine (eat_blanks .kwElse).bind fun _ => .ite ?_ ?_
        · refine ih.bind fun otherwise => previous_blanks.bind fun _ => ?_
          exact .pure Stmt.bare (.ifElse cond branch otherwise _)
        · exact previous_blanks.bind fun _ => .pure Stmt.bare (.ifThen cond branch _)
      | kwRepeat =>
        refine advance_blanks.bind fun _ => ?_
        refine (sepBy_blanks .semicolon ih fuel).bind fun body => ?_
        rw [← Stmt.bareAll_eq_map]
        refine (expect_blanks .kwUntil).bind fun _ => (condition_blanks fuel).bind fun cond => ?_
        exact previous_blanks.bind fun _ => .pure Stmt.bare (.repeatUntil body cond _)
      | _ => exact .pure Stmt.bare (.empty _)
    | integer | real | text => exact .pure Stmt.bare (.empty _)
    | ident => exact assignmentOrCall_blanks fuel

theorem varType_blanks : Blanks id varType varType := by
  refine peek_blanks.bind fun token => ?_
  cases token with
  | mark kind =>
    cases kind with
    | kwInteger | kwReal => exact advance_blanks.bind fun _ => .pure id _
    | _ => exact unexpected_blanks _ _
  | integer | real | text | ident => exact unexpected_blanks _ _

theorem atIdent_blanks : Blanks id atIdent atIdent := by
  refine peek_blanks.bind fun token => ?_
  cases token with
  | ident name => exact .pure id _
  | mark | integer | real | text => exact .pure id _

theorem typedNames_blanks (fuel : Nat) :
    Blanks Ident.bareGroup (typedNames fuel) (typedNames fuel) := by
  refine (sepBy_blanks .comma ident_blanks fuel).bind fun names => ?_
  refine (expect_blanks .colon).bind fun _ => varType_blanks.bind fun type => ?_
  exact .pure Ident.bareGroup (names, type)

theorem variableGroups_blanks (fuel : Nat) :
    Blanks Decl.bareAll (variableGroups fuel) (variableGroups fuel) := by
  induction fuel with
  | zero => exact outOfFuel_blanks _
  | succ fuel ih =>
    refine (typedNames_blanks fuel).bind fun (names, type) => ?_
    refine (expect_blanks .semicolon).bind fun _ => atIdent_blanks.bind fun _ => .ite ?_ ?_
    · refine ih.bind fun others => .returns ?_
      rw [Decl.bareAll_append, Decl.bareAll_variables]
    · exact .returns (Decl.bareAll_variables names type)

theorem parameterList_blanks (fuel : Nat) :
    Blanks (List.map Param.bare) (parameterList fuel) (parameterList fuel) := by
  refine (eat_blanks .leftParen).bind fun _ => .ite ?_ (.pure _ [])
  refine (eat_blanks .rightParen).bind fun _ => .ite (.pure _ []) ?_
  refine (sepBy_blanks .semicolon (typedNames_blanks fuel) fuel).bind fun groups => ?_
  refine (expect_blanks .rightParen).bind fun _ => .returns ?_
  simp only [List.map_flatMap, List.flatMap_map, List.map_map, Function.comp_def, Ident.bareGroup,
    Param.bare]

section Blocks

variable {block : Parser Block}

theorem routine_blanks (blocks : Blanks Block.bare block block) (fuel : Nat) (kind : RoutineKind) :
    Blanks Decl.bare (routine fuel block kind) (routine fuel block kind) := by
  refine advance_blanks.bind fun keyword => ident_blanks.bind fun name => ?_
  refine (parameterList_blanks fuel).bind fun params => ?_
  have rest (result : Option VarType) : Blanks Decl.bare
      (do
        expect .semicolon
        let body ← block
        note (.parsedRoutine name.name params.length)
        let heading : Heading := ⟨name, params, result, keyword.span.merge (← previous)⟩
        return Decl.routine heading body.declarations body.body)
      (do
        expect .semicolon
        let body ← block
        note (.parsedRoutine name.bare.name (params.map Param.bare).length)
        let heading : Heading :=
          ⟨name.bare, params.map Param.bare, result, keyword.bare.span.merge (← previous)⟩
        return Decl.routine heading body.declarations body.body) := by
    refine (expect_blanks .semicolon).bind fun _ => blocks.bind fun body => ?_
    rw [List.length_map]
    refine (note_blanks _).bind fun _ => previous_blanks.bind fun _ => .returns ?_
    rw [Decl.bare]
    rfl
  cases kind with
  | procedure => exact rest none
  | function =>
    simp only [bind_map_left]
    exact (expect_blanks .colon).bind fun _ => varType_blanks.bind fun type => rest (some type)

theorem routines_blanks (blocks : Blanks Block.bare block block) (fuel : Nat) :
    Blanks Decl.bareAll (routines block fuel) (routines block fuel) := by
  induction fuel with
  | zero => exact outOfFuel_blanks _
  | succ fuel ih =>
    have declared (kind : RoutineKind) : Blanks Decl.bareAll
        (do
          let first ← routine fuel block kind
          expect .semicolon
          return first :: (← routines block fuel))
        (do
          let first ← routine fuel block kind
          expect .semicolon
          return first :: (← routines block fuel)) := by
      refine (routine_blanks blocks fuel kind).bind fun first => ?_
      exact (expect_blanks .semicolon).bind fun _ => ih.bind fun others => .returns rfl
    refine peek_blanks.bind fun token => ?_
    dsimp only [id]
    cases token with
    | mark kind =>
      cases kind with
      | kwProcedure => exact declared .procedure
      | kwFunction => exact declared .function
      | _ => exact .returns rfl
    | integer | real | text | ident => exact .returns rfl

end Blocks

theorem block_blanks (fuel : Nat) : Blanks Block.bare (block fuel) (block fuel) := by
  induction fuel with
  | zero => exact outOfFuel_blanks _
  | succ fuel ih =>
    have rest (vars : List Decl) : Blanks Block.bare
        (do
          let nested ← routines (block fuel) fuel
          let body ← compound fuel (statement fuel)
          return Block.mk (vars ++ nested) body)
        (do
          let nested ← routines (block fuel) fuel
          let body ← compound fuel (statement fuel)
          return Block.mk (Decl.bareAll vars ++ nested) body) := by
      refine (routines_blanks ih fuel).bind fun nested => ?_
      refine (compound_blanks (statement_blanks fuel) fuel).bind fun body => .returns ?_
      rw [Block.bare, Decl.bareAll_append]
    refine (eat_blanks .kwVar).bind fun _ => .ite ?_ ?_
    · exact (variableGroups_blanks fuel).bind rest
    · exact (Mirrors.pure Decl.bareAll []).bind rest

/-- What the parser decides, at every token, is independent of where the tokens stand. -/
theorem program_blanks (fuel : Nat) : Blanks Program.bare (program fuel) (program fuel) := by
  refine (expect_blanks .kwProgram).bind fun _ => ident_blanks.bind fun name => ?_
  refine (expect_blanks .semicolon).bind fun _ => (block_blanks fuel).bind fun body => ?_
  refine (expect_blanks .dot).bind fun _ => (expect_blanks .endOfInput).bind fun _ => ?_
  exact (note_blanks _).bind fun _ => .returns rfl

end Parser

/-- What parsing gives, without places. -/
def Parsed.bare (parsed : Parsed) : Parsed where
  outcome := (parsed.outcome.map Program.bare).mapError ParseStop.bare
  events := parsed.events

theorem Scan.cursor_bare (scan : Scan) :
    scan.bare.cursor = (scan.cursor.map Cursor.bare).mapError ParseStop.bare := by
  obtain ⟨lexemes, failure⟩ := scan
  match lexemes, failure with
  | first :: rest, _ => rfl
  | [], some _ => rfl
  | [], none => rfl

/-- The tokens alone decide what parsing gives, but for places. -/
theorem Scan.parse_bare (scan : Scan) : scan.bare.parse = scan.parse.bare := by
  have length : scan.bare.lexemes.length = scan.lexemes.length := List.length_map _
  rw [Scan.parse, Scan.parse, Scan.cursor_bare, length]
  cases scan.cursor with
  | error stop => rfl
  | ok cursor =>
    have mirrored := Parser.program_blanks (scan.lexemes.length + 3) cursor
    have started : (Except.map Cursor.bare (.ok cursor)).mapError ParseStop.bare = .ok cursor.bare := rfl
    simp only [started, mirrored]
    cases Parser.program (scan.lexemes.length + 3) cursor with
    | ok program after => rfl
    | error stop after => rfl

end MiniPascal
