import MiniPascal.Tree.Basic

namespace MiniPascal

/-- The span of every node of a tree whose places in a source do not matter. -/
def Span.blank : Span := .point 0

def Ident.plain (name : String) : Ident := ⟨name, .blank⟩

def Ident.bare (ident : Ident) : Ident := .plain ident.name

mutual

/-- An expression with its spans erased. -/
def Expr.bare : Expr → Expr
  | .number literal _ => .number literal .blank
  | .text value _ => .text value .blank
  | .var name _ => .var name .blank
  | .unary op operand _ => .unary op operand.bare .blank
  | .binary left op right _ => .binary left.bare op right.bare .blank
  | .relational left op right _ => .relational left.bare op right.bare .blank
  | .call callee args _ => .call callee.bare (bareAll args) .blank

def Expr.bareAll : List Expr → List Expr
  | [] => []
  | first :: rest => first.bare :: bareAll rest

end

mutual

def Stmt.bare : Stmt → Stmt
  | .compound body _ => .compound (bareAll body) .blank
  | .assign target value _ => .assign target.bare value.bare .blank
  | .call callee args _ => .call callee.bare (Expr.bareAll args) .blank
  | .ifThen cond branch _ => .ifThen cond.bare branch.bare .blank
  | .ifElse cond branch otherwise _ => .ifElse cond.bare branch.bare otherwise.bare .blank
  | .repeatUntil body cond _ => .repeatUntil (bareAll body) cond.bare .blank
  | .empty _ => .empty .blank

def Stmt.bareAll : List Stmt → List Stmt
  | [] => []
  | first :: rest => first.bare :: bareAll rest

end

def Param.bare (param : Param) : Param := ⟨param.name.bare, param.type⟩

def Heading.bare (heading : Heading) : Heading :=
  ⟨heading.name.bare, heading.params.map Param.bare, heading.result, .blank⟩

mutual

def Decl.bare : Decl → Decl
  | .var name type => .var name.bare type
  | .routine heading declarations body =>
    .routine heading.bare (bareAll declarations) (Stmt.bareAll body)

def Decl.bareAll : List Decl → List Decl
  | [] => []
  | first :: rest => first.bare :: bareAll rest

end

def Block.bare (block : Block) : Block := ⟨Decl.bareAll block.declarations, Stmt.bareAll block.body⟩

def Program.bare (program : Program) : Program := ⟨program.name.bare, program.block.bare⟩

theorem Expr.bareAll_eq_map (exprs : List Expr) : bareAll exprs = exprs.map bare := by
  induction exprs with
  | nil => rfl
  | cons first rest ih => rw [bareAll, ih, List.map_cons]

theorem Stmt.bareAll_eq_map (stmts : List Stmt) : bareAll stmts = stmts.map bare := by
  induction stmts with
  | nil => rfl
  | cons first rest ih => rw [bareAll, ih, List.map_cons]

theorem Decl.bareAll_eq_map (decls : List Decl) : bareAll decls = decls.map bare := by
  induction decls with
  | nil => rfl
  | cons first rest ih => rw [bareAll, ih, List.map_cons]

theorem Decl.bareAll_variables (names : List Ident) (type : VarType) :
    bareAll (names.map (Decl.var · type)) = (names.map Ident.bare).map (Decl.var · type) := by
  simp only [bareAll_eq_map, List.map_map, Function.comp_def, bare]

theorem Decl.bareAll_append (first rest : List Decl) :
    bareAll (first ++ rest) = bareAll first ++ bareAll rest := by
  simp only [bareAll_eq_map, List.map_append]

def Ident.bareGroup (group : List Ident × VarType) : List Ident × VarType :=
  (group.1.map Ident.bare, group.2)

/-- Parentheses change nothing but the span of what they enclose. -/
theorem Expr.withSpan_bare (expr : Expr) (span : Span) : (expr.withSpan span).bare = expr.bare := by
  cases expr <;> simp only [withSpan, bare]

end MiniPascal
