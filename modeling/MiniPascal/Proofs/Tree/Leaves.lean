import MiniPascal.Tree.Basic

namespace MiniPascal

/-- What a tree holds besides its shape, its names and its texts. -/
inductive Leaf where
  | span (span : Span)
  | literal (literal : Literal)

/-- Something holds of every one of some leaves. -/
def Leaf.All (holds : Leaf → Prop) (leaves : List Leaf) : Prop := ∀ leaf ∈ leaves, holds leaf

section

variable {holds : Leaf → Prop}

@[simp] theorem Leaf.all_nil : Leaf.All holds [] ↔ True := by simp [All]

@[simp] theorem Leaf.all_cons (leaf : Leaf) (leaves : List Leaf) :
    Leaf.All holds (leaf :: leaves) ↔ holds leaf ∧ Leaf.All holds leaves :=
  List.forall_mem_cons

@[simp] theorem Leaf.all_append (leaves others : List Leaf) :
    Leaf.All holds (leaves ++ others) ↔ Leaf.All holds leaves ∧ Leaf.All holds others :=
  List.forall_mem_append

@[simp] theorem Leaf.all_flatMap {α : Type} (leaves : α → List Leaf) (items : List α) :
    Leaf.All holds (items.flatMap leaves) ↔ ∀ item ∈ items, Leaf.All holds (leaves item) := by
  induction items with
  | nil => simp
  | cons first rest ih => rw [List.flatMap_cons, all_append, ih, List.forall_mem_cons]

end

mutual

/-- The spans and literals of an expression. -/
def Expr.leaves : Expr → List Leaf
  | .number literal span => [.span span, .literal literal]
  | .text _ span => [.span span]
  | .var _ span => [.span span]
  | .unary _ operand span => .span span :: operand.leaves
  | .binary left _ right span => .span span :: (left.leaves ++ right.leaves)
  | .relational left _ right span => .span span :: (left.leaves ++ right.leaves)
  | .call callee args span => .span span :: .span callee.span :: leavesIn args

def Expr.leavesIn : List Expr → List Leaf
  | [] => []
  | first :: rest => first.leaves ++ leavesIn rest

end

theorem Expr.leavesIn_eq (args : List Expr) : leavesIn args = args.flatMap leaves := by
  induction args with
  | nil => rfl
  | cons first rest ih => rw [leavesIn, List.flatMap_cons, ih]

mutual

/-- The spans and literals of a statement. -/
def Stmt.leaves : Stmt → List Leaf
  | .compound body span => .span span :: leavesIn body
  | .assign target value span => .span span :: .span target.span :: value.leaves
  | .call callee args span => .span span :: .span callee.span :: Expr.leavesIn args
  | .ifThen cond branch span => .span span :: (cond.leaves ++ branch.leaves)
  | .ifElse cond branch otherwise span =>
    .span span :: (cond.leaves ++ branch.leaves ++ otherwise.leaves)
  | .repeatUntil body cond span => .span span :: (leavesIn body ++ cond.leaves)
  | .empty span => [.span span]

def Stmt.leavesIn : List Stmt → List Leaf
  | [] => []
  | first :: rest => first.leaves ++ leavesIn rest

end

theorem Stmt.leavesIn_eq (body : List Stmt) : leavesIn body = body.flatMap leaves := by
  induction body with
  | nil => rfl
  | cons first rest ih => rw [leavesIn, List.flatMap_cons, ih]

/-- The spans of a heading. -/
def Heading.leaves (heading : Heading) : List Leaf :=
  .span heading.name.span :: heading.params.map (fun param => .span param.name.span) ++
    [.span heading.span]

mutual

/-- The spans and literals of a declaration. -/
def Decl.leaves : Decl → List Leaf
  | .var name _ => [.span name.span]
  | .routine heading declarations body =>
    heading.leaves ++ leavesIn declarations ++ Stmt.leavesIn body

def Decl.leavesIn : List Decl → List Leaf
  | [] => []
  | first :: rest => first.leaves ++ leavesIn rest

end

theorem Decl.leavesIn_eq (declarations : List Decl) :
    leavesIn declarations = declarations.flatMap leaves := by
  induction declarations with
  | nil => rfl
  | cons first rest ih => rw [leavesIn, List.flatMap_cons, ih]

/-- The spans and literals of a program. -/
def Program.leaves (program : Program) : List Leaf :=
  .span program.name.span ::
    (Decl.leavesIn program.block.declarations ++ Stmt.leavesIn program.block.body)

end MiniPascal
