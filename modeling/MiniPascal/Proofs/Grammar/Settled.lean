import MiniPascal.Proofs.Grammar.Derives

namespace MiniPascal

/-- Does a statement end in an `IF` without an `ELSE`, so that an `ELSE` behind it could go there? -/
def Stmt.endsOpen : Stmt → Bool
  | .ifThen _ _ _ => true
  | .ifElse _ _ otherwise _ => otherwise.endsOpen
  | _ => false

mutual

/-- In a settled statement every `ELSE` belongs to the innermost `IF` that could take it. -/
def Stmt.isSettled : Stmt → Bool
  | .compound body _ => allSettled body
  | .ifThen _ branch _ => branch.isSettled
  | .ifElse _ branch otherwise _ => !branch.endsOpen && branch.isSettled && otherwise.isSettled
  | .repeatUntil body _ _ => allSettled body
  | .assign _ _ _ | .call _ _ _ | .empty _ => true

def Stmt.allSettled : List Stmt → Bool
  | [] => true
  | first :: rest => first.isSettled && allSettled rest

end

mutual

def Decl.isSettled : Decl → Bool
  | .var _ _ => true
  | .routine _ declarations body => allSettled declarations && Stmt.allSettled body

def Decl.allSettled : List Decl → Bool
  | [] => true
  | first :: rest => first.isSettled && allSettled rest

end

def Block.isSettled (block : Block) : Bool :=
  Decl.allSettled block.declarations && Stmt.allSettled block.body

def Program.isSettled (program : Program) : Bool := program.block.isSettled

theorem Decl.allSettled_append (first rest : List Decl) :
    allSettled (first ++ rest) = (allSettled first && allSettled rest) := by
  induction first with
  | nil => rfl
  | cons decl first ih => simp only [List.cons_append, allSettled, ih, Bool.and_assoc]

theorem Decl.allSettled_variables (names : List Ident) (type : VarType) :
    allSettled (names.map (Decl.var · type)) = true := by
  induction names with
  | nil => rfl
  | cons name names ih => simp only [List.map_cons, allSettled, isSettled, ih, Bool.and_true]

theorem Separated.settled_iff {tokens : List Token} {stmts : List Stmt} :
    Separated .semicolon (fun tokens stmt => Derives .statement tokens stmt ∧ stmt.isSettled = true)
        tokens stmts ↔
      Separated .semicolon (Derives .statement) tokens stmts ∧ Stmt.allSettled stmts = true := by
  constructor
  · intro list
    induction list with
    | one item => exact ⟨.one item.1, by simp [Stmt.allSettled, item.2]⟩
    | more item _ ih => exact ⟨.more item.1 ih.1, by simp [Stmt.allSettled, item.2, ih.2]⟩
  · rintro ⟨list, settled⟩
    induction list with
    | one item =>
      simp only [Stmt.allSettled, Bool.and_true] at settled
      exact .one ⟨item, settled⟩
    | more item _ ih =>
      simp only [Stmt.allSettled, Bool.and_eq_true] at settled
      exact .more ⟨item, settled.1⟩ (ih settled.2)

end MiniPascal
