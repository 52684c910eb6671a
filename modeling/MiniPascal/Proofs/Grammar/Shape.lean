import MiniPascal.Proofs.Grammar.Settled
import MiniPascal.Proofs.Token.Spelling

namespace MiniPascal

/-- Literals that can be written: no sign is part of a literal. -/
def Literal.Written : Literal → Prop
  | .integer value => 0 ≤ value.toInt
  | .real value => ∃ word, RealLiteral value word

/-- Expressions that can be written. No comparison is part of one. -/
inductive Expr.WellShaped : Expr → Prop where
  | number {literal : Literal} {span : Span} (written : literal.Written) :
    WellShaped (.number literal span)
  | text {value : String} {span : Span} : WellShaped (.text value span)
  | var {name : String} {span : Span} (named : Named name) : WellShaped (.var name span)
  | unary {op : UnaryOp} {operand : Expr} {span : Span} (shaped : WellShaped operand) :
    WellShaped (.unary op operand span)
  | binary {left right : Expr} {op : BinaryOp} {span : Span} (shapedLeft : WellShaped left)
    (shapedRight : WellShaped right) : WellShaped (.binary left op right span)
  | call {callee : Ident} {args : List Expr} {span : Span} (named : Named callee.name)
    (shaped : ∀ arg ∈ args, WellShaped arg) : WellShaped (.call callee args span)

/-- The conditions of branches and loops: comparisons. -/
inductive Expr.IsCondition : Expr → Prop where
  | relational {left right : Expr} {op : RelationalOp} {span : Span} (shapedLeft : left.WellShaped)
    (shapedRight : right.WellShaped) : IsCondition (.relational left op right span)

inductive Stmt.WellShaped : Stmt → Prop where
  | compound {body : List Stmt} {span : Span} (nonempty : body ≠ [])
    (shaped : ∀ stmt ∈ body, WellShaped stmt) : WellShaped (.compound body span)
  | assign {target : Ident} {value : Expr} {span : Span} (named : Named target.name)
    (shaped : value.WellShaped) : WellShaped (.assign target value span)
  | call {callee : Ident} {args : List Expr} {span : Span} (named : Named callee.name)
    (shaped : ∀ arg ∈ args, arg.WellShaped) : WellShaped (.call callee args span)
  | ifThen {cond : Expr} {branch : Stmt} {span : Span} (compares : cond.IsCondition)
    (shaped : WellShaped branch) : WellShaped (.ifThen cond branch span)
  | ifElse {cond : Expr} {branch otherwise : Stmt} {span : Span} (compares : cond.IsCondition)
    (shapedBranch : WellShaped branch) (shapedOther : WellShaped otherwise) :
    WellShaped (.ifElse cond branch otherwise span)
  | repeatUntil {body : List Stmt} {cond : Expr} {span : Span} (nonempty : body ≠ [])
    (shaped : ∀ stmt ∈ body, WellShaped stmt) (compares : cond.IsCondition) :
    WellShaped (.repeatUntil body cond span)
  | empty {span : Span} : WellShaped (.empty span)

def Decl.isVariable : Decl → Bool
  | .var _ _ => true
  | .routine _ _ _ => false

/-- Variables stand before routines. -/
def Decl.Ordered (decls : List Decl) : Prop :=
  ∃ vars routines, decls = vars ++ routines ∧ (∀ decl ∈ vars, decl.isVariable = true) ∧
    ∀ decl ∈ routines, decl.isVariable = false

inductive Decl.WellShaped : Decl → Prop where
  | var {name : Ident} {type : VarType} (named : Named name.name) : WellShaped (.var name type)
  | routine {heading : Heading} {declarations : List Decl} {body : List Stmt}
    (named : Named heading.name.name) (params : ∀ param ∈ heading.params, Named param.name.name)
    (ordered : Ordered declarations) (shaped : ∀ decl ∈ declarations, WellShaped decl)
    (nonempty : body ≠ []) (shapedBody : ∀ stmt ∈ body, stmt.WellShaped) :
    WellShaped (.routine heading declarations body)

structure Block.WellShaped (block : Block) : Prop where
  ordered : Decl.Ordered block.declarations
  shaped : ∀ decl ∈ block.declarations, decl.WellShaped
  nonempty : block.body ≠ []
  shapedBody : ∀ stmt ∈ block.body, stmt.WellShaped

/-- Programs that can be written: names that are no keywords, literals without signs, comparisons as
conditions and nowhere else, no empty list of statements, variables before routines, and no `ELSE`
that an inner `IF` would take. -/
structure Program.WellShaped (program : Program) : Prop where
  named : Named program.name.name
  shaped : program.block.WellShaped
  settled : program.isSettled = true

section Bare

theorem Expr.bare_mem_bareAll {expr : Expr} {exprs : List Expr} (member : expr ∈ exprs) :
    expr.bare ∈ bareAll exprs := by
  rw [bareAll_eq_map]
  exact List.mem_map_of_mem member

theorem Stmt.bare_mem_bareAll {stmt : Stmt} {stmts : List Stmt} (member : stmt ∈ stmts) :
    stmt.bare ∈ bareAll stmts := by
  rw [bareAll_eq_map]
  exact List.mem_map_of_mem member

theorem Decl.bare_mem_bareAll {decl : Decl} {decls : List Decl} (member : decl ∈ decls) :
    decl.bare ∈ bareAll decls := by
  rw [bareAll_eq_map]
  exact List.mem_map_of_mem member

theorem Expr.WellShaped.of_bare {expr : Expr} (shaped : expr.bare.WellShaped) :
    expr.WellShaped := by
  generalize same : expr.bare = tree at shaped
  induction shaped generalizing expr with
  | number written => cases expr <;> cases same; exact .number written
  | text => cases expr <;> cases same; exact .text
  | var named => cases expr <;> cases same; exact .var named
  | unary _ ih => cases expr <;> cases same; exact .unary (ih rfl)
  | binary _ _ ihLeft ihRight => cases expr <;> cases same; exact .binary (ihLeft rfl) (ihRight rfl)
  | call named _ ih =>
    cases expr <;> cases same
    exact .call named fun arg member => ih arg.bare (bare_mem_bareAll member) rfl

theorem Expr.WellShaped.of_bareAll {exprs : List Expr}
    (shaped : ∀ expr ∈ bareAll exprs, expr.WellShaped) : ∀ expr ∈ exprs, expr.WellShaped :=
  fun expr member => .of_bare (shaped expr.bare (bare_mem_bareAll member))

theorem Expr.IsCondition.of_bare {expr : Expr} (compares : expr.bare.IsCondition) :
    expr.IsCondition := by
  cases expr with
  | relational left op right span =>
    cases compares with
    | relational shapedLeft shapedRight => exact .relational shapedLeft.of_bare shapedRight.of_bare
  | _ => cases compares

theorem Stmt.bareAll_ne_nil {stmts : List Stmt} (nonempty : bareAll stmts ≠ []) : stmts ≠ [] := by
  rintro rfl
  exact nonempty rfl

theorem Stmt.WellShaped.of_bare {stmt : Stmt} (shaped : stmt.bare.WellShaped) :
    stmt.WellShaped := by
  generalize same : stmt.bare = tree at shaped
  induction shaped generalizing stmt with
  | compound nonempty _ ih =>
    cases stmt <;> cases same
    exact .compound (bareAll_ne_nil nonempty) fun stmt member =>
      ih stmt.bare (bare_mem_bareAll member) rfl
  | assign named shaped => cases stmt <;> cases same; exact .assign named shaped.of_bare
  | call named shaped => cases stmt <;> cases same; exact .call named (.of_bareAll shaped)
  | ifThen compares _ ih => cases stmt <;> cases same; exact .ifThen compares.of_bare (ih rfl)
  | ifElse compares _ _ ih ihOther =>
    cases stmt <;> cases same
    exact .ifElse compares.of_bare (ih rfl) (ihOther rfl)
  | repeatUntil nonempty _ compares ih =>
    cases stmt <;> cases same
    exact .repeatUntil (bareAll_ne_nil nonempty)
      (fun stmt member => ih stmt.bare (bare_mem_bareAll member) rfl) compares.of_bare
  | empty => cases stmt <;> cases same; exact .empty

theorem Stmt.WellShaped.of_bareAll {stmts : List Stmt}
    (shaped : ∀ stmt ∈ bareAll stmts, stmt.WellShaped) : ∀ stmt ∈ stmts, stmt.WellShaped :=
  fun stmt member => .of_bare (shaped stmt.bare (bare_mem_bareAll member))

@[simp] theorem Decl.isVariable_bare (decl : Decl) : decl.bare.isVariable = decl.isVariable := by
  cases decl <;> rfl

theorem Decl.Ordered.of_bareAll {decls : List Decl} (ordered : Ordered (bareAll decls)) :
    Ordered decls := by
  obtain ⟨_, _, split, leading, others⟩ := ordered
  rw [bareAll_eq_map] at split
  obtain ⟨vars, routines, rfl, rfl, rfl⟩ := List.map_eq_append_iff.mp split
  exact ⟨vars, routines, rfl, by simpa using leading, by simpa using others⟩

theorem Decl.WellShaped.of_bare {decl : Decl} (shaped : decl.bare.WellShaped) :
    decl.WellShaped := by
  generalize same : decl.bare = tree at shaped
  induction shaped generalizing decl with
  | var named => cases decl <;> cases same; exact .var named
  | routine named params ordered _ nonempty shapedBody ih =>
    cases decl <;> cases same
    refine .routine named ?_ (.of_bareAll ordered) ?_ (Stmt.bareAll_ne_nil nonempty)
      (.of_bareAll shapedBody)
    · exact fun param member => params param.bare (List.mem_map_of_mem member)
    · exact fun decl member => ih decl.bare (bare_mem_bareAll member) rfl

theorem Block.WellShaped.of_bare {block : Block} (shaped : block.bare.WellShaped) :
    block.WellShaped := by
  refine ⟨.of_bareAll shaped.ordered, ?_, Stmt.bareAll_ne_nil shaped.nonempty,
    .of_bareAll shaped.shapedBody⟩
  exact fun decl member => .of_bare (shaped.shaped decl.bare (Decl.bare_mem_bareAll member))

@[simp] theorem Stmt.endsOpen_bare (stmt : Stmt) : stmt.bare.endsOpen = stmt.endsOpen := by
  fun_induction Stmt.endsOpen stmt with
  | case1 => rfl
  | case2 cond branch otherwise span ih => exact ih
  | case3 stmt notThen notElse =>
    cases stmt with
    | ifThen cond branch span => exact absurd rfl (notThen cond branch span)
    | ifElse cond branch otherwise span => exact absurd rfl (notElse cond branch otherwise span)
    | _ => rfl

mutual

@[simp] theorem Stmt.isSettled_bare : ∀ stmt : Stmt, stmt.bare.isSettled = stmt.isSettled
  | .compound body _ => allSettled_bareAll body
  | .ifThen _ branch _ => isSettled_bare branch
  | .ifElse _ branch otherwise _ => by
    simp [bare, isSettled, isSettled_bare branch, isSettled_bare otherwise]
  | .repeatUntil body _ _ => allSettled_bareAll body
  | .assign _ _ _ | .call _ _ _ | .empty _ => rfl

@[simp] theorem Stmt.allSettled_bareAll : ∀ stmts : List Stmt,
    allSettled (bareAll stmts) = allSettled stmts
  | [] => rfl
  | first :: rest => by
    rw [bareAll, allSettled, allSettled, isSettled_bare first, allSettled_bareAll rest]

end

mutual

theorem Decl.isSettled_bare : ∀ decl : Decl, decl.bare.isSettled = decl.isSettled
  | .var _ _ => rfl
  | .routine _ declarations body => by
    simp [bare, isSettled, allSettled_bareAll declarations]

theorem Decl.allSettled_bareAll : ∀ decls : List Decl,
    allSettled (bareAll decls) = allSettled decls
  | [] => rfl
  | first :: rest => by
    rw [bareAll, allSettled, allSettled, isSettled_bare first, allSettled_bareAll rest]

end

theorem Program.isSettled_bare (program : Program) :
    program.bare.isSettled = program.isSettled := by
  simp [Program.isSettled, Program.bare, Block.isSettled, Block.bare, Decl.allSettled_bareAll]

theorem Program.WellShaped.of_bare {program : Program} (shaped : program.bare.WellShaped) :
    program.WellShaped :=
  ⟨shaped.named, shaped.shaped.of_bare, program.isSettled_bare ▸ shaped.settled⟩

end Bare

section Derived

variable {symbol : Nonterminal} {tokens : List Token}

/-- The shape of the expressions that a symbol of the grammar derives. -/
def Nonterminal.ShapedExpr : (symbol : Nonterminal) → symbol.Tree → Prop
  | .expr, tree | .term, tree | .factor, tree => tree.WellShaped
  | .arguments, args => ∀ arg ∈ args, arg.WellShaped
  | _, _ => True

theorem Derives.expr_shaped {tree : symbol.Tree} (derived : Derives symbol tokens tree) :
    Token.Readable tokens → symbol.ShapedExpr tree := by
  -- One motive for the derivations, and one for each kind of list or chain inside them.
  apply @Derives.rec (fun symbol tokens tree _ => Token.Readable tokens → symbol.ShapedExpr tree)
    (fun _ _ _ => True) (fun _ _ _ => True)
    (fun tokens expr _ => Token.Readable tokens → expr.WellShaped)
    (fun tokens expr _ => Token.Readable tokens → expr.WellShaped)
    (fun tokens args _ => Token.Readable tokens → ∀ arg ∈ args, arg.WellShaped)
  case t => exact derived
  case expr | term => exact fun _ ih => ih
  case sign => exact fun op _ _ _ ih readable => .unary (ih (Token.readable_mark.mp readable))
  case integer => exact fun readable => .number (Token.readable_integer.mp readable).1
  case real => exact fun readable => .number (Token.readable_real.mp readable).1
  case text => exact fun _ => .text
  case var => exact fun readable => .var (Token.readable_ident.mp readable).1
  case parentheses | someArguments =>
    intro tokens tree _ ih readable
    rw [Token.readable_mark, Token.readable_append] at readable
    exact ih readable.1
  case callFactor =>
    intro name tokens args _ ih readable
    rw [Token.readable_ident] at readable
    exact .call readable.1 (ih readable.2)
  case noArguments => exact fun _ => List.forall_mem_nil _
  case operand | operand => exact fun _ ih => ih
  case operator | operator =>
    intro tokens others left op right _ _ _ ihLeft ihRight readable
    rw [Token.readable_append, Token.readable_mark] at readable
    exact .binary (ihLeft readable.1) (ihRight readable.2)
  case one | more | one | more =>
    intros
    exact trivial
  case one =>
    intro tokens arg _ ih readable
    exact List.forall_mem_singleton.mpr (ih readable)
  case more =>
    intro tokens others arg args _ _ ih ihRest readable
    rw [Token.readable_append, Token.readable_mark] at readable
    exact List.forall_mem_cons.mpr ⟨ih readable.1, ihRest readable.2⟩
  -- the other symbols derive no expressions
  all_goals
    intros
    exact trivial

theorem Derives.condition_shaped {cond : Expr} (derived : Derives .condition tokens cond)
    (readable : Token.Readable tokens) : cond.IsCondition := by
  cases derived with
  | condition op left right =>
    rw [Token.readable_append, Token.readable_mark] at readable
    exact .relational (left.expr_shaped readable.1) (right.expr_shaped readable.2)

/-- The shape of the statements that a symbol of the grammar derives. -/
def Nonterminal.ShapedStmt : (symbol : Nonterminal) → symbol.Tree → Prop
  | .compound, body | .statementList, body => body ≠ [] ∧ ∀ stmt ∈ body, stmt.WellShaped
  | .statement, stmt | .assignment, stmt | .call, stmt | .conditional, stmt | .loop, stmt =>
    stmt.WellShaped
  | _, _ => True

theorem Derives.stmt_shaped {tree : symbol.Tree} (derived : Derives symbol tokens tree) :
    Token.Readable tokens → symbol.ShapedStmt tree := by
  apply @Derives.rec (fun symbol tokens tree _ => Token.Readable tokens → symbol.ShapedStmt tree)
    (fun _ _ _ => True)
    (fun tokens body _ => Token.Readable tokens → body ≠ [] ∧ ∀ stmt ∈ body, stmt.WellShaped)
    (fun _ _ _ => True) (fun _ _ _ => True) (fun _ _ _ => True)
  case t => exact derived
  case compound =>
    intro tokens body _ ih readable
    rw [Token.readable_mark, Token.readable_append] at readable
    exact ih readable.1
  case statementList | assignmentStatement | callStatement | conditionalStatement | loopStatement =>
    exact fun _ ih => ih
  case compoundStatement =>
    intro tokens body _ ih readable
    obtain ⟨nonempty, shaped⟩ := ih readable
    exact .compound nonempty shaped
  case emptyStatement => exact fun _ => .empty
  case assignment =>
    intro name tokens value read _ readable
    rw [Token.readable_ident, Token.readable_mark] at readable
    exact .assign readable.1 (read.expr_shaped readable.2)
  case bareCall =>
    exact fun readable => .call (Token.readable_ident.mp readable).1 (List.forall_mem_nil _)
  case call =>
    intro name tokens args read _ readable
    rw [Token.readable_ident] at readable
    exact .call readable.1 (read.expr_shaped readable.2)
  case ifThen =>
    intro tokens others cond branch compares _ _ ih readable
    simp only [Token.readable_mark, Token.readable_append] at readable
    exact .ifThen (compares.condition_shaped readable.1) (ih readable.2)
  case ifElse =>
    intro tokens others rest cond branch otherwise compares _ _ _ ih ihOther readable
    simp only [Token.readable_mark, Token.readable_append] at readable
    exact .ifElse (compares.condition_shaped readable.1) (ih readable.2.1) (ihOther readable.2.2)
  case loop =>
    intro tokens others body cond _ compares ih _ readable
    simp only [Token.readable_mark, Token.readable_append] at readable
    obtain ⟨nonempty, shaped⟩ := ih readable.1
    exact .repeatUntil nonempty shaped (compares.condition_shaped readable.2)
  case one | more =>
    intros
    exact trivial
  case one =>
    intro tokens stmt _ ih readable
    exact ⟨List.cons_ne_nil _ _, List.forall_mem_singleton.mpr (ih readable)⟩
  case more =>
    intro tokens others stmt stmts _ _ ih ihRest readable
    rw [Token.readable_append, Token.readable_mark] at readable
    exact ⟨List.cons_ne_nil _ _, List.forall_mem_cons.mpr ⟨ih readable.1, (ihRest readable.2).2⟩⟩
  -- the other symbols derive no statements
  all_goals
    intros
    exact trivial

theorem Separated.named_idents {idents : List Ident}
    (list : Separated .comma
      (fun tokens ident => ∃ name, tokens = [.ident name] ∧ ident = .plain name) tokens idents)
    (readable : Token.Readable tokens) : ∀ ident ∈ idents, Named ident.name := by
  induction list with
  | one item =>
    obtain ⟨name, rfl, rfl⟩ := item
    simpa [Ident.plain] using readable
  | more item rest ih =>
    obtain ⟨name, rfl, rfl⟩ := item
    simp_all [Ident.plain]

theorem Derives.names_shaped {group : List Ident × VarType}
    (derived : Derives .typedNames tokens group) (readable : Token.Readable tokens) :
    ∀ name ∈ group.1, Named name.name := by
  cases derived with
  | typedNames list _ => exact list.named_idents (Token.readable_append.mp readable).1

theorem Separated.named_groups {groups : List (List Ident × VarType)}
    (list : Separated .semicolon (Derives .typedNames) tokens groups)
    (readable : Token.Readable tokens) : ∀ group ∈ groups, ∀ name ∈ group.1, Named name.name := by
  induction list with
  | one item => exact List.forall_mem_singleton.mpr (item.names_shaped readable)
  | more item _ ih =>
    rw [Token.readable_append, Token.readable_mark] at readable
    exact List.forall_mem_cons.mpr ⟨item.names_shaped readable.1, ih readable.2⟩

theorem Derives.params_shaped {params : List Param} (derived : Derives .params tokens params)
    (readable : Token.Readable tokens) : ∀ param ∈ params, Named param.name.name := by
  cases derived with
  | absentParams | emptyParams => exact List.forall_mem_nil _
  | someParams list =>
    rw [Token.readable_mark, Token.readable_append] at readable
    intro param member
    obtain ⟨group, listed, member⟩ := List.mem_flatMap.mp member
    obtain ⟨name, named, rfl⟩ := List.mem_map.mp member
    exact list.named_groups readable.1 group listed name named

theorem Decl.shaped_variables {names : List Ident} (named : ∀ name ∈ names, Named name.name)
    (type : VarType) :
    ∀ decl ∈ names.map (Decl.var · type), decl.isVariable = true ∧ decl.WellShaped := by
  intro decl member
  obtain ⟨name, listed, rfl⟩ := List.mem_map.mp member
  exact ⟨rfl, .var (named name listed)⟩

/-- The shape of the declarations that a symbol of the grammar derives. -/
def Nonterminal.ShapedDecl : (symbol : Nonterminal) → symbol.Tree → Prop
  | .block, tree => tree.WellShaped
  | .declarations, decls => Decl.Ordered decls ∧ ∀ decl ∈ decls, decl.WellShaped
  | .variableGroups, decls => ∀ decl ∈ decls, decl.isVariable = true ∧ decl.WellShaped
  | .routines, decls => ∀ decl ∈ decls, decl.isVariable = false ∧ decl.WellShaped
  | .routine, decl => decl.isVariable = false ∧ decl.WellShaped
  | _, _ => True

theorem Derives.decl_shaped {tree : symbol.Tree} (derived : Derives symbol tokens tree) :
    Token.Readable tokens → symbol.ShapedDecl tree := by
  apply @Derives.rec (fun symbol tokens tree _ => Token.Readable tokens → symbol.ShapedDecl tree)
    (fun _ _ _ => True) (fun _ _ _ => True) (fun _ _ _ => True) (fun _ _ _ => True)
    (fun _ _ _ => True)
  case t => exact derived
  case block =>
    intro tokens others declarations body _ compound ih _ readable
    rw [Token.readable_append] at readable
    obtain ⟨ordered, shaped⟩ := ih readable.1
    obtain ⟨nonempty, shapedBody⟩ := compound.stmt_shaped readable.2
    exact ⟨ordered, shaped, nonempty, shapedBody⟩
  case noVariables =>
    intro tokens decls _ ih readable
    have routines := ih readable
    refine ⟨⟨[], decls, rfl, List.forall_mem_nil _, ?_⟩, ?_⟩
    · exact fun decl member => (routines decl member).1
    · exact fun decl member => (routines decl member).2
  case someVariables =>
    intro tokens others vars decls _ _ ihVars ihDecls readable
    rw [Token.readable_mark, Token.readable_append] at readable
    have leading := ihVars readable.1
    have routines := ihDecls readable.2
    refine ⟨⟨vars, decls, rfl, ?_, ?_⟩, List.forall_mem_append.mpr ⟨?_, ?_⟩⟩
    · exact fun decl member => (leading decl member).1
    · exact fun decl member => (routines decl member).1
    · exact fun decl member => (leading decl member).2
    · exact fun decl member => (routines decl member).2
  case lastVariables =>
    intro tokens names type read _ readable
    rw [Token.readable_append] at readable
    exact Decl.shaped_variables (read.names_shaped readable.1) type
  case moreVariables =>
    intro tokens others names type vars read _ _ ih readable
    rw [Token.readable_append, Token.readable_mark] at readable
    exact List.forall_mem_append.mpr
      ⟨Decl.shaped_variables (read.names_shaped readable.1) type, ih readable.2⟩
  case noRoutines => exact fun _ => List.forall_mem_nil _
  case moreRoutines =>
    intro tokens others decl decls _ _ ih ihDecls readable
    rw [Token.readable_append, Token.readable_mark] at readable
    exact List.forall_mem_cons.mpr ⟨ih readable.1, ihDecls readable.2⟩
  case procedure =>
    intro name tokens others params block formals _ _ ih readable
    simp only [Token.readable_mark, Token.readable_ident, Token.readable_append] at readable
    obtain ⟨ordered, shaped, nonempty, shapedBody⟩ := ih readable.2.2
    exact ⟨rfl, .routine readable.1 (formals.params_shaped readable.2.1) ordered shaped nonempty
      shapedBody⟩
  case function =>
    intro name tokens result others params type block formals _ _ _ _ ih readable
    simp only [Token.readable_mark, Token.readable_ident, Token.readable_append] at readable
    obtain ⟨ordered, shaped, nonempty, shapedBody⟩ := ih readable.2.2.2
    exact ⟨rfl, .routine readable.1 (formals.params_shaped readable.2.1) ordered shaped nonempty
      shapedBody⟩
  -- the other symbols derive no declarations
  all_goals
    intros
    exact trivial

/-- What is derived from the tokens of a text can be written. -/
theorem Derives.program_shaped {program : Program} (derived : Derives .program tokens program)
    (readable : Token.Readable tokens) :
    Named program.name.name ∧ program.block.WellShaped := by
  cases derived with
  | program read =>
    simp only [Token.readable_mark, Token.readable_ident, Token.readable_append] at readable
    exact ⟨readable.1, read.decl_shaped readable.2.1⟩

end Derived

end MiniPascal
