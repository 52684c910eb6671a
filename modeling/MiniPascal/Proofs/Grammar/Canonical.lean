import MiniPascal.Proofs.Grammar.Sentences
import MiniPascal.Proofs.Grammar.Shape

namespace MiniPascal

/-- How tightly an operator binds. -/
def BinaryOp.level : BinaryOp → Nat
  | .add | .sub => 0
  | .mul | .intDiv | .realDiv => 1

/-- How tightly an expression holds together. -/
def Expr.level : Expr → Nat
  | .binary _ op _ _ => op.level
  | .relational _ _ _ _ => 0
  | _ => 2

/-- Tokens, between parentheses if these are needed. -/
def Token.enclosed (needed : Bool) (tokens : List Token) : List Token :=
  if needed then .mark .leftParen :: (tokens ++ [.mark .rightParen]) else tokens

/-- Rows of tokens with a mark between one and the next. -/
def Token.joined (separator : Mark) (rows : List (List Token)) : List Token :=
  [.mark separator].intercalate rows

mutual

/-- An expression in tokens. An operand is enclosed unless it holds together as tightly as it must:
a left operand like its operator, a right one tighter, since operators associate to the left. -/
def Expr.tokens : Expr → List Token
  | .number literal _ => [literal.token]
  | .text value _ => [.text value]
  | .var name _ => [.ident name]
  | .unary op operand _ => .mark op.mark :: Token.enclosed (operand.level < 2) operand.tokens
  | .binary left op right _ =>
    Token.enclosed (left.level < op.level) left.tokens ++
      .mark op.mark :: Token.enclosed (right.level < op.level + 1) right.tokens
  | .relational left op right _ => left.tokens ++ .mark op.mark :: right.tokens
  | .call callee args _ =>
    .ident callee.name :: Token.enclosed true (Token.joined .comma (allTokens args))

def Expr.allTokens : List Expr → List (List Token)
  | [] => []
  | first :: rest => first.tokens :: allTokens rest

end

mutual

/-- A statement in tokens. -/
def Stmt.tokens : Stmt → List Token
  | .compound body _ =>
    .mark .kwBegin :: (Token.joined .semicolon (allTokens body) ++ [.mark .kwEnd])
  | .assign target value _ => .ident target.name :: .mark .assign :: value.tokens
  | .call callee args _ =>
    .ident callee.name :: Token.enclosed (!args.isEmpty) (Token.joined .comma (Expr.allTokens args))
  | .ifThen cond branch _ => .mark .kwIf :: (cond.tokens ++ .mark .kwThen :: branch.tokens)
  | .ifElse cond branch otherwise _ =>
    .mark .kwIf :: (cond.tokens ++
      .mark .kwThen :: (branch.tokens ++ .mark .kwElse :: otherwise.tokens))
  | .repeatUntil body cond _ =>
    .mark .kwRepeat :: (Token.joined .semicolon (allTokens body) ++ .mark .kwUntil :: cond.tokens)
  | .empty _ => []

def Stmt.allTokens : List Stmt → List (List Token)
  | [] => []
  | first :: rest => first.tokens :: allTokens rest

end

/-- A name with its type. -/
def Ident.typed (ident : Ident) (type : VarType) : List Token :=
  [.ident ident.name, .mark .colon, .mark type.mark]

def Heading.tokens (heading : Heading) : List Token :=
  .mark heading.kind.mark :: .ident heading.name.name ::
    (Token.enclosed (!heading.params.isEmpty)
        (Token.joined .semicolon (heading.params.map fun param => param.name.typed param.type)) ++
      (heading.result.elim [] fun type => [.mark .colon, .mark type.mark]))

/-- The tokens of a block, from those of its declarations and its statements. -/
def Block.layout (declares : Bool) (decls : List (List Token)) (body : List (List Token)) :
    List Token :=
  (if declares then [.mark .kwVar] else []) ++ decls.flatMap (· ++ [.mark .semicolon]) ++
    .mark .kwBegin :: (Token.joined .semicolon body ++ [.mark .kwEnd])

mutual

/-- A declaration in tokens. -/
def Decl.tokens : Decl → List Token
  | .var name type => name.typed type
  | .routine heading declarations body =>
    heading.tokens ++ .mark .semicolon ::
      Block.layout (declarations.any isVariable) (allTokens declarations) (Stmt.allTokens body)

def Decl.allTokens : List Decl → List (List Token)
  | [] => []
  | first :: rest => first.tokens :: allTokens rest

end

def Block.tokens (block : Block) : List Token :=
  Block.layout (block.declarations.any Decl.isVariable) (Decl.allTokens block.declarations)
    (Stmt.allTokens block.body)

/-- A program in tokens, without the end of the input. -/
def Program.tokens (program : Program) : List Token :=
  .mark .kwProgram :: .ident program.name.name :: .mark .semicolon ::
    (program.block.tokens ++ [.mark .dot])

/-- The canonical text of a program: its tokens spelled out, with single spaces between them. -/
def Program.text (reals : RealSpelling) (program : Program) : String :=
  .ofList (Token.spelled reals program.tokens)

theorem Expr.allTokens_eq_map (exprs : List Expr) : allTokens exprs = exprs.map tokens := by
  induction exprs with
  | nil => rfl
  | cons first rest ih => rw [allTokens, ih, List.map_cons]

theorem Stmt.allTokens_eq_map (stmts : List Stmt) : allTokens stmts = stmts.map tokens := by
  induction stmts with
  | nil => rfl
  | cons first rest ih => rw [allTokens, ih, List.map_cons]

theorem Decl.allTokens_eq_map (decls : List Decl) : allTokens decls = decls.map tokens := by
  induction decls with
  | nil => rfl
  | cons first rest ih => rw [allTokens, ih, List.map_cons]

section Joined

@[simp] theorem Token.joined_singleton (separator : Mark) (row : List Token) :
    joined separator [row] = row := List.intercalate_singleton

@[simp] theorem Token.joined_cons_cons (separator : Mark) (first second : List Token)
    (rest : List (List Token)) : joined separator (first :: second :: rest) =
      first ++ .mark separator :: joined separator (second :: rest) := by
  simp [joined, List.intercalate_cons_cons]

theorem Separated.ne_nil {α : Type} {separator : Mark} {Item : List Token → α → Prop}
    {tokens : List Token} {items : List α} (list : Separated separator Item tokens items) :
    items ≠ [] := by
  cases list <;> exact List.cons_ne_nil _ _

theorem Separated.joined {α β : Type} {separator : Mark} {Item : List Token → β → Prop}
    {items : List α} {row : α → List Token} {tree : α → β} (nonempty : items ≠ [])
    (each : ∀ item ∈ items, Item (row item) (tree item)) :
    Separated separator Item (Token.joined separator (items.map row)) (items.map tree) := by
  induction items with
  | nil => exact absurd rfl nonempty
  | cons first rest ih =>
    obtain ⟨head, tail⟩ := List.forall_mem_cons.mp each
    cases rest with
    | nil =>
      rw [List.map_singleton, List.map_singleton, Token.joined_singleton]
      exact .one head
    | cons second rest =>
      have others := ih (List.cons_ne_nil _ _) tail
      rw [List.map_cons, List.map_cons, List.map_cons, Token.joined_cons_cons]
      exact .more head others

end Joined

section Expressions

/-- Derivations of expressions that hold together at least as tightly as a level asks. -/
def Stands : Nat → List Token → Expr → Prop
  | 0 => Derives .expr
  | 1 => Derives .term
  | _ + 2 => Derives .factor

variable {level : Nat} {tokens others : List Token} {expr left right : Expr}

theorem Stands.loosen (stands : Stands (level + 1) tokens expr) : Stands level tokens expr := by
  match level with
  | 0 => exact .expr (.operand stands)
  | 1 => exact .term (.operand stands)
  | _ + 2 => exact stands

theorem Stands.mono {lower : Nat} (stands : Stands level tokens expr) (loose : lower ≤ level) :
    Stands lower tokens expr := by
  induction loose with
  | refl => exact stands
  | step _ ih => exact ih stands.loosen

theorem Stands.factor (derived : Derives .factor tokens expr) : Stands level tokens expr := by
  have tight : Stands (level + 2) tokens expr := derived
  exact tight.mono (by omega)

theorem Stands.enclosed {inner : Nat} (stands : Stands inner tokens expr) :
    Stands level (Token.enclosed (inner < level) tokens) expr := by
  by_cases loose : inner < level
  · rw [Token.enclosed, if_pos (by simpa using loose)]
    exact .factor (.parentheses (stands.mono (Nat.zero_le inner)))
  · rw [Token.enclosed, if_neg (by simpa using loose)]
    exact stands.mono (Nat.le_of_not_lt loose)

theorem BinaryOp.sums_or_products (op : BinaryOp) : op ∈ sums ∨ op ∈ products := by
  cases op <;> decide

theorem BinaryOp.level_of_sums {op : BinaryOp} (listed : op ∈ sums) : op.level = 0 := by
  revert op
  decide

theorem BinaryOp.level_of_products {op : BinaryOp} (listed : op ∈ products) : op.level = 1 := by
  revert op
  decide

theorem Stands.binary (op : BinaryOp) (standsLeft : Stands op.level tokens left)
    (standsRight : Stands (op.level + 1) others right) :
    Stands op.level (tokens ++ .mark op.mark :: others) (.binary left op right .blank) := by
  rcases op.sums_or_products with listed | listed
  · rw [BinaryOp.level_of_sums listed] at standsLeft standsRight ⊢
    cases standsLeft with
    | expr chained => exact .expr (.operator chained listed standsRight)
  · rw [BinaryOp.level_of_products listed] at standsLeft standsRight ⊢
    cases standsLeft with
    | term chained => exact .term (.operator chained listed standsRight)

theorem Derives.arguments_joined {args : List Expr}
    (each : ∀ arg ∈ args, Derives .expr arg.tokens arg.bare) :
    Derives .arguments (Token.enclosed true (Token.joined .comma (Expr.allTokens args)))
      (Expr.bareAll args) := by
  rw [Expr.allTokens_eq_map, Expr.bareAll_eq_map]
  by_cases none : args = []
  · subst none
    exact .noArguments
  · exact .someArguments (.joined none each)

theorem Expr.WellShaped.stands (shaped : expr.WellShaped) :
    Stands expr.level expr.tokens expr.bare := by
  induction shaped with
  | @number literal _ _ =>
    cases literal with
    | integer value => exact .factor .integer
    | real value => exact .factor .real
  | text => exact .factor .text
  | var _ => exact .factor .var
  | @unary op operand _ _ ih =>
    have tight : Stands 2 _ operand.bare := ih.enclosed
    exact .factor (.sign op tight)
  | @binary left right op _ _ _ ihLeft ihRight => exact .binary op ihLeft.enclosed ihRight.enclosed
  | call _ _ ih =>
    refine .factor (.callFactor (.arguments_joined ?_))
    exact fun arg member => (ih arg member).mono (Nat.zero_le _)

theorem Expr.WellShaped.derives (shaped : expr.WellShaped) :
    Derives .expr expr.tokens expr.bare := shaped.stands.mono (Nat.zero_le _)

theorem Expr.IsCondition.derives (compares : expr.IsCondition) :
    Derives .condition expr.tokens expr.bare := by
  cases compares with
  | relational shapedLeft shapedRight => exact .condition _ shapedLeft.derives shapedRight.derives

end Expressions

section Statements

theorem Derives.statements_joined {body : List Stmt} (nonempty : body ≠ [])
    (each : ∀ stmt ∈ body, Derives .statement stmt.tokens stmt.bare) :
    Derives .statementList (Token.joined .semicolon (Stmt.allTokens body)) (Stmt.bareAll body) := by
  rw [Stmt.allTokens_eq_map, Stmt.bareAll_eq_map]
  exact .statementList (.joined nonempty each)

theorem Stmt.WellShaped.derives {stmt : Stmt} (shaped : stmt.WellShaped) :
    Derives .statement stmt.tokens stmt.bare := by
  induction shaped with
  | compound nonempty _ ih =>
    exact .compoundStatement (.compound (.statements_joined nonempty ih))
  | assign _ shaped => exact .assignmentStatement (.assignment shaped.derives)
  | @call _ args _ _ shaped =>
    cases args with
    | nil => exact .callStatement .bareCall
    | cons first rest =>
      exact .callStatement (.call (.arguments_joined fun arg member => (shaped arg member).derives))
  | ifThen compares _ ih => exact .conditionalStatement (.ifThen compares.derives ih)
  | ifElse compares _ _ ih ihOther =>
    exact .conditionalStatement (.ifElse compares.derives ih ihOther)
  | repeatUntil nonempty _ compares ih =>
    exact .loopStatement (.loop (.statements_joined nonempty ih) compares.derives)
  | empty => exact .emptyStatement

end Statements

section Declarations

theorem Derives.type_mark (type : VarType) : Derives .type [.mark type.mark] type := by
  cases type with
  | integer => exact .integerType
  | real => exact .realType

theorem Derives.typed (ident : Ident) (type : VarType) :
    Derives .typedNames (ident.typed type) ([ident.bare], type) :=
  .typedNames (.one ⟨_, rfl, rfl⟩) (.type_mark type)

theorem Derives.params_joined (params : List Param) :
    Derives .params (Token.enclosed (!params.isEmpty)
      (Token.joined .semicolon (params.map fun param => param.name.typed param.type)))
      (params.map Param.bare) := by
  by_cases none : params = []
  · subst none
    exact .absentParams
  · have each : ∀ param ∈ params,
        Derives .typedNames (param.name.typed param.type) ([param.name.bare], param.type) :=
      fun param _ => .typed param.name param.type
    have derived := Derives.someParams (.joined none each)
    rw [List.flatMap_map] at derived
    simpa [Token.enclosed, none, List.map_eq_flatMap, Param.bare] using derived

theorem Derives.variables_flatMap {vars : List Decl} (nonempty : vars ≠ [])
    (leading : ∀ decl ∈ vars, decl.isVariable = true) :
    Derives .variableGroups ((vars.map Decl.tokens).flatMap (· ++ [.mark .semicolon]))
      (vars.map Decl.bare) := by
  induction vars with
  | nil => exact absurd rfl nonempty
  | cons first rest ih =>
    obtain ⟨declared, others⟩ := List.forall_mem_cons.mp leading
    cases first with
    | routine => cases declared
    | var name type =>
      cases rest with
      | nil => simpa [Decl.tokens, Decl.bare] using Derives.lastVariables (.typed name type)
      | cons second rest =>
        have derived := Derives.moreVariables (.typed name type) (ih (List.cons_ne_nil _ _) others)
        simpa [Decl.tokens, Decl.bare] using derived

theorem Derives.routines_flatMap {decls : List Decl}
    (each : ∀ decl ∈ decls, Derives .routine decl.tokens decl.bare) :
    Derives .routines ((decls.map Decl.tokens).flatMap (· ++ [.mark .semicolon]))
      (decls.map Decl.bare) := by
  induction decls with
  | nil => exact .noRoutines
  | cons first rest ih =>
    obtain ⟨head, tail⟩ := List.forall_mem_cons.mp each
    simpa using Derives.moreRoutines head (ih tail)

theorem Derives.declarations_flatMap {decls : List Decl} (ordered : Decl.Ordered decls)
    (each : ∀ decl ∈ decls, decl.isVariable = false → Derives .routine decl.tokens decl.bare) :
    Derives .declarations ((if decls.any Decl.isVariable then [.mark .kwVar] else []) ++
      (Decl.allTokens decls).flatMap (· ++ [.mark .semicolon])) (Decl.bareAll decls) := by
  obtain ⟨vars, routines, rfl, leading, others⟩ := ordered
  have derived : Derives .routines _ (routines.map Decl.bare) :=
    .routines_flatMap fun decl member =>
      each decl (List.mem_append_right vars member) (others decl member)
  rw [Decl.allTokens_eq_map, Decl.bareAll_eq_map, List.map_append, List.map_append,
    List.flatMap_append]
  by_cases none : vars = []
  · subst none
    have undeclared : ([] ++ routines).any Decl.isVariable = false := by simpa using others
    rw [undeclared]
    exact .noVariables derived
  · obtain ⟨first, rest, rfl⟩ := List.exists_cons_of_ne_nil none
    have declared : (first :: rest ++ routines).any Decl.isVariable = true := by
      simp [leading first List.mem_cons_self]
    rw [declared, if_pos rfl, List.singleton_append]
    exact .someVariables (.variables_flatMap none leading) derived

theorem Derives.block_layout {decls : List Decl} {body : List Stmt} (ordered : Decl.Ordered decls)
    (each : ∀ decl ∈ decls, decl.isVariable = false → Derives .routine decl.tokens decl.bare)
    (nonempty : body ≠ []) (shaped : ∀ stmt ∈ body, stmt.WellShaped) :
    Derives .block
      (Block.layout (decls.any Decl.isVariable) (Decl.allTokens decls) (Stmt.allTokens body))
      ⟨Decl.bareAll decls, Stmt.bareAll body⟩ :=
  .block (.declarations_flatMap ordered each)
    (.compound (.statements_joined nonempty fun stmt member => (shaped stmt member).derives))

theorem Decl.WellShaped.derives {decl : Decl} (shaped : decl.WellShaped)
    (routine : decl.isVariable = false) : Derives .routine decl.tokens decl.bare := by
  induction shaped with
  | var => cases routine
  | @routine heading declarations body _ _ ordered _ nonempty shapedBody ih =>
    have block := Derives.block_layout ordered ih nonempty shapedBody
    obtain ⟨name, params, result, span⟩ := heading
    cases result with
    | none =>
      simp only [tokens, Heading.tokens, Option.elim_none, List.cons_append, List.append_nil]
      exact .procedure (.params_joined params) block
    | some type =>
      simp only [tokens, Heading.tokens, Option.elim_some, List.cons_append, List.append_assoc,
        List.nil_append]
      exact .function (.params_joined params) (.type_mark type) block

theorem Block.WellShaped.derives {block : Block} (shaped : block.WellShaped) :
    Derives .block block.tokens block.bare :=
  .block_layout shaped.ordered (fun decl member => (shaped.shaped decl member).derives)
    shaped.nonempty shaped.shapedBody

theorem Program.WellShaped.derives {program : Program} (shaped : program.WellShaped) :
    Derives .program (program.tokens ++ [.mark .endOfInput]) program.bare := by
  simp only [tokens, List.cons_append, List.append_assoc, List.nil_append]
  exact .program shaped.shaped.derives

end Declarations

section Readable

@[simp] theorem Token.readable_enclosed {needed : Bool} {tokens : List Token} :
    Readable (enclosed needed tokens) ↔ Readable tokens := by
  cases needed <;> simp [enclosed]

theorem Token.readable_joined {separator : Mark} {rows : List (List Token)}
    (each : ∀ row ∈ rows, Readable row) : Readable (joined separator rows) := by
  induction rows with
  | nil => exact readable_nil
  | cons first rest ih =>
    obtain ⟨head, tail⟩ := List.forall_mem_cons.mp each
    cases rest with
    | nil => rwa [joined_singleton]
    | cons second rest => simp [head, ih tail]

theorem Expr.readable_joined {args : List Expr} (each : ∀ arg ∈ args, Token.Readable arg.tokens) :
    Token.Readable (Token.joined .comma (allTokens args)) := by
  rw [allTokens_eq_map]
  exact Token.readable_joined (List.forall_mem_map.mpr each)

theorem Expr.WellShaped.readable {expr : Expr} (shaped : expr.WellShaped) :
    Token.Readable expr.tokens := by
  induction shaped with
  | @number literal _ written =>
    cases literal with
    | integer value => exact Token.readable_integer.mpr ⟨written, Token.readable_nil⟩
    | real value => exact Token.readable_real.mpr ⟨written, Token.readable_nil⟩
  | text => exact Token.readable_text.mpr Token.readable_nil
  | var named => exact Token.readable_ident.mpr ⟨named, Token.readable_nil⟩
  | unary _ ih => simpa [tokens] using ih
  | binary _ _ ihLeft ihRight => simp [tokens, ihLeft, ihRight]
  | call named _ ih => simp [tokens, named, readable_joined ih]

theorem Expr.IsCondition.readable {expr : Expr} (compares : expr.IsCondition) :
    Token.Readable expr.tokens := by
  cases compares with
  | relational shapedLeft shapedRight => simp [tokens, shapedLeft.readable, shapedRight.readable]

theorem Stmt.readable_joined {body : List Stmt} (each : ∀ stmt ∈ body, Token.Readable stmt.tokens) :
    Token.Readable (Token.joined .semicolon (allTokens body)) := by
  rw [allTokens_eq_map]
  exact Token.readable_joined (List.forall_mem_map.mpr each)

theorem Stmt.WellShaped.readable {stmt : Stmt} (shaped : stmt.WellShaped) :
    Token.Readable stmt.tokens := by
  induction shaped with
  | compound _ _ ih => simp [tokens, readable_joined ih]
  | assign named shaped => simp [tokens, named, shaped.readable]
  | call named shaped =>
    simp [tokens, named, Expr.readable_joined fun arg member => (shaped arg member).readable]
  | ifThen compares _ ih => simp [tokens, compares.readable, ih]
  | ifElse compares _ _ ih ihOther => simp [tokens, compares.readable, ih, ihOther]
  | repeatUntil _ _ compares ih => simp [tokens, compares.readable, readable_joined ih]
  | empty => exact Token.readable_nil

theorem Ident.readable_typed {ident : Ident} (named : Named ident.name) (type : VarType) :
    Token.Readable (ident.typed type) := by
  simp [typed, named]

theorem Heading.readable {heading : Heading} (named : Named heading.name.name)
    (params : ∀ param ∈ heading.params, Named param.name.name) :
    Token.Readable heading.tokens := by
  have listed : Token.Readable (Token.joined .semicolon
      (heading.params.map fun param => param.name.typed param.type)) :=
    Token.readable_joined (List.forall_mem_map.mpr fun param member =>
      Ident.readable_typed (params param member) param.type)
  cases typed : heading.result with
  | none => simp [tokens, named, listed, typed]
  | some type => simp [tokens, named, listed, typed]

theorem Block.readable_layout {declares : Bool} {decls : List Decl} {body : List Stmt}
    (each : ∀ decl ∈ decls, Token.Readable decl.tokens) (shaped : ∀ stmt ∈ body, stmt.WellShaped) :
    Token.Readable (layout declares (Decl.allTokens decls) (Stmt.allTokens body)) := by
  have listed : Token.Readable ((Decl.allTokens decls).flatMap (· ++ [.mark .semicolon])) := by
    rw [Decl.allTokens_eq_map]
    intro token member
    obtain ⟨row, listed, member⟩ := List.mem_flatMap.mp member
    obtain ⟨decl, declared, rfl⟩ := List.mem_map.mp listed
    exact (Token.readable_append.mpr ⟨each decl declared, by simp⟩) token member
  have body := Stmt.readable_joined fun stmt member => (shaped stmt member).readable
  cases declares <;> simp [layout, listed, body]

theorem Decl.WellShaped.readable {decl : Decl} (shaped : decl.WellShaped) :
    Token.Readable decl.tokens := by
  induction shaped with
  | var named => exact Ident.readable_typed named _
  | routine named params _ _ _ shapedBody ih =>
    simp [tokens, Heading.readable named params, Block.readable_layout ih shapedBody]

theorem Program.WellShaped.readable {program : Program} (shaped : program.WellShaped) :
    Token.Readable program.tokens := by
  have block : Token.Readable program.block.tokens := Block.readable_layout
    (fun decl member => (shaped.shaped.shaped decl member).readable) shaped.shaped.shapedBody
  simp [tokens, shaped.named, block]

/-- The tokens of a program that can be written can be spelled. -/
theorem Program.WellShaped.spellable {program : Program} (shaped : program.WellShaped) :
    ∀ token ∈ program.tokens, token.Spellable := by
  have free : Token.NoEnd program.tokens := by
    have inner := shaped.shaped.derives.noEnd.resolve_left (by simp)
    simp [tokens, inner]
  intro token member
  refine (shaped.readable token member).resolve_left ?_
  rintro rfl
  exact free member

end Readable

section Parentheses

/-- An expression in tokens where it has to hold together as tightly as a level asks. -/
def Expr.within (level : Nat) (expr : Expr) : List Token :=
  Token.enclosed (expr.level < level) expr.tokens

@[simp] theorem Expr.within_zero (expr : Expr) : expr.within 0 = expr.tokens := by
  simp [within, Token.enclosed]

theorem Token.sublist_enclosed (needed : Bool) (tokens : List Token) :
    tokens.Sublist (enclosed needed tokens) := by
  cases needed with
  | false => exact .refl _
  | true => exact .cons _ (List.sublist_append_left _ _)

theorem Token.enclosed_sublist (needed : Bool) {tokens others : List Token}
    (inner : tokens.Sublist others) : (enclosed needed tokens).Sublist (enclosed true others) := by
  cases needed with
  | false => exact inner.trans (sublist_enclosed true others)
  | true => exact .cons_cons _ (inner.append (.refl _))

theorem Expr.within_mono {lower level : Nat} (loose : lower ≤ level) (expr : Expr) :
    (expr.within lower).Sublist (expr.within level) := by
  by_cases inside : expr.level < lower
  · have outside : expr.level < level := Nat.lt_of_lt_of_le inside loose
    simp [within, inside, outside]
  · rw [within, Token.enclosed, if_neg (by simpa using inside)]
    exact Token.sublist_enclosed _ _

theorem Expr.within_binary {tokens others : List Token} {left right : Expr} (op : BinaryOp)
    (keepsLeft : (left.within op.level).Sublist tokens)
    (keepsRight : (right.within (op.level + 1)).Sublist others) :
    ((Expr.binary left op right .blank).within op.level).Sublist
      (tokens ++ .mark op.mark :: others) := by
  rw [within, Token.enclosed, if_neg (by simp [level]), Expr.tokens]
  exact keepsLeft.append (.cons_cons _ keepsRight)

/-- The tokens that no derivation of an expression can do without. -/
def Nonterminal.Keeps : (symbol : Nonterminal) → symbol.Tree → List Token → Prop
  | .expr, tree, tokens => (tree.within 0).Sublist tokens
  | .term, tree, tokens => (tree.within 1).Sublist tokens
  | .factor, tree, tokens => (tree.within 2).Sublist tokens
  | .arguments, args, tokens =>
    (Token.enclosed true (Token.joined .comma (Expr.allTokens args))).Sublist tokens
  | _, _, _ => True

theorem Derives.keeps {symbol : Nonterminal} {tokens : List Token} {tree : symbol.Tree}
    (derived : Derives symbol tokens tree) : symbol.Keeps tree tokens := by
  -- One motive for the derivations, and one for each kind of list or chain inside them.
  apply @Derives.rec (fun symbol tokens tree _ => symbol.Keeps tree tokens) (fun _ _ _ => True)
    (fun _ _ _ => True) (fun tokens expr _ => (expr.within 0).Sublist tokens)
    (fun tokens expr _ => (expr.within 1).Sublist tokens)
    (fun tokens args _ => (Token.joined .comma (Expr.allTokens args)).Sublist tokens)
  case t => exact derived
  case expr | term => exact fun _ keeps => keeps
  case sign => exact fun op _ _ _ keeps => .cons_cons _ keeps
  case integer | real | text | var => exact .refl _
  case parentheses =>
    intro tokens expr _ keeps
    rw [Nonterminal.Keeps, Expr.within_zero] at keeps
    exact Token.enclosed_sublist _ keeps
  case callFactor => exact fun _ keeps => .cons_cons _ keeps
  case noArguments => exact .refl _
  case someArguments => exact fun _ keeps => Token.enclosed_sublist true keeps
  case operand => exact fun _ keeps => (Expr.within_mono (Nat.zero_le 1) _).trans keeps
  case operand => exact fun _ keeps => (Expr.within_mono (Nat.le_succ 1) _).trans keeps
  case operator =>
    intro tokens others left op right _ listed _ keepsLeft keepsRight
    have whole := @Expr.within_binary tokens others left right op
    rw [BinaryOp.level_of_sums listed] at whole
    exact whole keepsLeft keepsRight
  case operator =>
    intro tokens others left op right _ listed _ keepsLeft keepsRight
    have whole := @Expr.within_binary tokens others left right op
    rw [BinaryOp.level_of_products listed] at whole
    exact whole keepsLeft keepsRight
  case one | more | one | more =>
    intros
    exact trivial
  case one =>
    intro tokens arg _ keeps
    rw [Nonterminal.Keeps, Expr.within_zero] at keeps
    simpa [Expr.allTokens] using keeps
  case more =>
    intro tokens others arg args _ list keeps keepsRest
    obtain ⟨second, rest, rfl⟩ := List.exists_cons_of_ne_nil list.ne_nil
    rw [Nonterminal.Keeps, Expr.within_zero] at keeps
    rw [Expr.allTokens, Expr.allTokens, Token.joined_cons_cons]
    exact keeps.append (.cons_cons _ keepsRest)
  -- the other symbols derive no expressions
  all_goals
    intros
    exact trivial

/-- Whatever tokens an expression is derived from, its own are among them: it has no parentheses
that it can do without. -/
theorem Expr.tokens_sublist {tokens : List Token} {expr : Expr}
    (derived : Derives .expr tokens expr) : expr.tokens.Sublist tokens := by
  have keeps := derived.keeps
  rwa [Nonterminal.Keeps, within_zero] at keeps

end Parentheses

end MiniPascal
