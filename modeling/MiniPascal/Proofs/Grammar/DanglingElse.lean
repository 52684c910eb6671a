import MiniPascal.Proofs.Grammar.Settled

namespace MiniPascal

/-- Gives an `ELSE` that follows a statement to the innermost `IF` at its end that lacks one. -/
def Stmt.takeElse : Stmt → Stmt → Stmt
  | .ifThen cond branch span, otherwise =>
    if branch.endsOpen then .ifThen cond (branch.takeElse otherwise) span
    else .ifElse cond branch otherwise span
  | .ifElse cond branch last span, otherwise => .ifElse cond branch (last.takeElse otherwise) span
  | stmt, _ => stmt

theorem Derives.conditional_of_endsOpen {tokens : List Token} {stmt : Stmt}
    (derived : Derives .statement tokens stmt) (ends : stmt.endsOpen = true) :
    Derives .conditional tokens stmt := by
  cases derived with
  | conditionalStatement read => exact read
  | compoundStatement read => exact absurd ends (by simp [Stmt.endsOpen])
  | emptyStatement => exact absurd ends (by simp [Stmt.endsOpen])
  | assignmentStatement read => cases read; exact absurd ends (by simp [Stmt.endsOpen])
  | callStatement read => cases read <;> exact absurd ends (by simp [Stmt.endsOpen])
  | loopStatement read => cases read; exact absurd ends (by simp [Stmt.endsOpen])

/-- Behind a settled statement that ends open an `ELSE` has a place in a settled statement. -/
theorem Derives.takeElse {tokens others : List Token} {stmt otherwise : Stmt}
    (derived : Derives .statement tokens stmt) (ends : stmt.endsOpen = true)
    (settled : stmt.isSettled = true) (second : Derives .statement others otherwise)
    (settledSecond : otherwise.isSettled = true) :
    Derives .statement (tokens ++ .mark .kwElse :: others) (stmt.takeElse otherwise) ∧
      (stmt.takeElse otherwise).isSettled = true := by
  fun_induction Stmt.takeElse stmt otherwise generalizing tokens with
  | case1 cond branch span otherwise isOpen ih =>
    cases derived.conditional_of_endsOpen ends with
    | ifThen readCond readBranch =>
      obtain ⟨longer, settles⟩ := ih readBranch isOpen settled second settledSecond
      refine ⟨?_, settles⟩
      simpa using Derives.conditionalStatement (.ifThen readCond longer)
  | case2 cond branch span otherwise closed =>
    cases derived.conditional_of_endsOpen ends with
    | ifThen readCond readBranch =>
      have branchSettled : branch.isSettled = true := settled
      refine ⟨?_, by simp [Stmt.isSettled, closed, branchSettled, settledSecond]⟩
      simpa using Derives.conditionalStatement (.ifElse readCond readBranch second)
  | case3 cond branch last span otherwise ih =>
    cases derived.conditional_of_endsOpen ends with
    | ifElse readCond readBranch readLast =>
      simp only [Stmt.isSettled, Bool.and_eq_true] at settled ⊢
      obtain ⟨longer, settles⟩ := ih readLast ends settled.2 second settledSecond
      refine ⟨?_, settled.1, settles⟩
      simpa using Derives.conditionalStatement (.ifElse readCond readBranch longer)
  | case4 stmt otherwise notThen notElse =>
    cases derived.conditional_of_endsOpen ends with
    | ifThen => exact absurd rfl (notThen _ _ _)
    | ifElse => exact absurd rfl (notElse _ _ _ _)

theorem Separated.settles {bound : Nat} {tokens : List Token} {stmts : List Stmt}
    (list : Separated .semicolon (Derives .statement) tokens stmts) (short : tokens.length ≤ bound)
    (settles : ∀ tokens stmt, Derives .statement tokens stmt → tokens.length ≤ bound →
      ∃ tree, Derives .statement tokens tree ∧ tree.isSettled = true) :
    ∃ trees, Derives .statementList tokens trees ∧ Stmt.allSettled trees = true := by
  have settled : ∃ trees, Separated .semicolon
      (fun tokens stmt => Derives .statement tokens stmt ∧ stmt.isSettled = true) tokens trees := by
    induction list with
    | one read =>
      obtain ⟨tree, settled⟩ := settles _ _ read short
      exact ⟨[tree], .one settled⟩
    | more read _ ih =>
      simp only [List.length_append, List.length_cons] at short
      obtain ⟨tree, settled⟩ := settles _ _ read (by omega)
      obtain ⟨trees, rest⟩ := ih (by omega)
      exact ⟨tree :: trees, .more settled rest⟩
  obtain ⟨trees, list⟩ := settled
  obtain ⟨derived, settled⟩ := Separated.settled_iff.mp list
  exact ⟨trees, .statementList derived, settled⟩

/-- Whatever is a statement is a settled one: where a derivation gives an `ELSE` to an outer `IF`, the
same tokens have one that gives it to the innermost. -/
theorem Derives.statement_settles (bound : Nat) (tokens : List Token) (stmt : Stmt)
    (derived : Derives .statement tokens stmt) (short : tokens.length ≤ bound) :
    ∃ tree, Derives .statement tokens tree ∧ tree.isSettled = true := by
  induction bound generalizing tokens stmt with
  | zero =>
    obtain rfl : tokens = [] := List.eq_nil_of_length_eq_zero (Nat.le_zero.mp short)
    exact ⟨.empty .blank, .emptyStatement, rfl⟩
  | succ bound ih =>
    cases derived with
    | compoundStatement read =>
      cases read with
      | compound read =>
        cases read with
        | statementList list =>
          simp only [List.length_cons, List.length_append, List.length_nil] at short
          obtain ⟨trees, derived, settled⟩ := list.settles (by omega) ih
          exact ⟨_, .compoundStatement (.compound derived), settled⟩
    | assignmentStatement read => exact ⟨stmt, .assignmentStatement read, by cases read; rfl⟩
    | callStatement read => exact ⟨stmt, .callStatement read, by cases read <;> rfl⟩
    | loopStatement read =>
      cases read with
      | loop read readCond =>
        cases read with
        | statementList list =>
          simp only [List.length_cons, List.length_append] at short
          obtain ⟨trees, derived, settled⟩ := list.settles (by omega) ih
          exact ⟨_, .loopStatement (.loop derived readCond), settled⟩
    | emptyStatement => exact ⟨_, .emptyStatement, rfl⟩
    | conditionalStatement read =>
      cases read with
      | ifThen readCond readBranch =>
        simp only [List.length_cons, List.length_append] at short
        obtain ⟨branch, derived, settled⟩ := ih _ _ readBranch (by omega)
        exact ⟨_, .conditionalStatement (.ifThen readCond derived), settled⟩
      | ifElse readCond readBranch readOther =>
        simp only [List.length_cons, List.length_append] at short
        obtain ⟨branch, derivedBranch, settledBranch⟩ := ih _ _ readBranch (by omega)
        obtain ⟨otherwise, derivedOther, settledOther⟩ := ih _ _ readOther (by omega)
        by_cases ends : branch.endsOpen = true
        · obtain ⟨longer, settled⟩ := derivedBranch.takeElse ends settledBranch derivedOther settledOther
          exact ⟨_, .conditionalStatement (.ifThen readCond longer), settled⟩
        · refine ⟨_, .conditionalStatement (.ifElse readCond derivedBranch derivedOther), ?_⟩
          simp [Stmt.isSettled, ends, settledBranch, settledOther]

theorem Derives.compound_settles {tokens : List Token} {body : List Stmt}
    (derived : Derives .compound tokens body) :
    ∃ tree, Derives .compound tokens tree ∧ Stmt.allSettled tree = true := by
  cases derived with
  | @compound tokens body read =>
    cases read with
    | statementList list =>
      obtain ⟨trees, derived, settled⟩ := list.settles (Nat.le_refl _) (Derives.statement_settles tokens.length)
      exact ⟨trees, .compound derived, settled⟩

theorem Derives.variables_settled (bound : Nat) {tokens : List Token} {vars : List Decl}
    (derived : Derives .variableGroups tokens vars) (short : tokens.length ≤ bound) :
    Decl.allSettled vars = true := by
  induction bound generalizing tokens vars with
  | zero =>
    obtain rfl : tokens = [] := List.eq_nil_of_length_eq_zero (Nat.le_zero.mp short)
    generalize none : ([] : List Token) = tokens at derived
    cases derived <;> simp at none
  | succ bound ih =>
    cases derived with
    | lastVariables _ => exact Decl.allSettled_variables _ _
    | moreVariables _ rest =>
      simp only [List.length_append, List.length_cons] at short
      rw [Decl.allSettled_append, Decl.allSettled_variables, ih rest (by omega), Bool.and_true]

theorem Derives.routine_settles {bound : Nat} {tokens : List Token} {decl : Decl}
    (derived : Derives .routine tokens decl) (short : tokens.length ≤ bound + 1)
    (settles : ∀ tokens block, Derives .block tokens block → tokens.length ≤ bound →
      ∃ tree, Derives .block tokens tree ∧ tree.isSettled = true) :
    ∃ tree, Derives .routine tokens tree ∧ tree.isSettled = true := by
  cases derived with
  | procedure params read =>
    simp only [List.length_cons, List.length_append] at short
    obtain ⟨tree, derived, settled⟩ := settles _ _ read (by omega)
    exact ⟨_, .procedure params derived, settled⟩
  | function params type read =>
    simp only [List.length_cons, List.length_append] at short
    obtain ⟨tree, derived, settled⟩ := settles _ _ read (by omega)
    exact ⟨_, .function params type derived, settled⟩

theorem Derives.routines_settles {bound : Nat}
    (settles : ∀ tokens block, Derives .block tokens block → tokens.length ≤ bound →
      ∃ tree, Derives .block tokens tree ∧ tree.isSettled = true) (length : Nat)
    {tokens : List Token} {decls : List Decl} (derived : Derives .routines tokens decls)
    (short : tokens.length ≤ length) (within : length ≤ bound + 1) :
    ∃ trees, Derives .routines tokens trees ∧ Decl.allSettled trees = true := by
  induction length generalizing tokens decls with
  | zero =>
    obtain rfl : tokens = [] := List.eq_nil_of_length_eq_zero (Nat.le_zero.mp short)
    exact ⟨[], .noRoutines, rfl⟩
  | succ length ih =>
    cases derived with
    | noRoutines => exact ⟨[], .noRoutines, rfl⟩
    | moreRoutines read rest =>
      simp only [List.length_append, List.length_cons] at short
      obtain ⟨tree, derived, settled⟩ := read.routine_settles (by omega) settles
      obtain ⟨trees, others, allSettled⟩ := ih rest (by omega) (by omega)
      refine ⟨tree :: trees, .moreRoutines derived others, ?_⟩
      rw [Decl.allSettled, settled, allSettled, Bool.and_true]

theorem Derives.block_settles (bound : Nat) (tokens : List Token) (block : Block)
    (derived : Derives .block tokens block) (short : tokens.length ≤ bound) :
    ∃ tree, Derives .block tokens tree ∧ tree.isSettled = true := by
  induction bound generalizing tokens block with
  | zero =>
    cases derived with
    | block _ body => cases body; simp at short
  | succ bound ih =>
    cases derived with
    | @block tokens others declarations body decls compound =>
      simp only [List.length_append] at short
      obtain ⟨trees, derivedBody, settledBody⟩ := compound.compound_settles
      cases decls with
      | noVariables routines =>
        obtain ⟨decls, derived, settled⟩ := routines_settles ih _ routines (Nat.le_refl _) (by omega)
        exact ⟨_, .block (.noVariables derived) derivedBody, by simp [Block.isSettled, settled, settledBody]⟩
      | someVariables vars routines =>
        simp only [List.length_cons, List.length_append] at short
        obtain ⟨decls, derived, settled⟩ := routines_settles ih _ routines (Nat.le_refl _) (by omega)
        refine ⟨_, .block (.someVariables vars derived) derivedBody, ?_⟩
        simp [Block.isSettled, Decl.allSettled_append, vars.variables_settled _ (Nat.le_refl _), settled, settledBody]

/-- Every sentence of the grammar has a settled tree. -/
theorem Derives.program_settles {tokens : List Token} {program : Program}
    (derived : Derives .program tokens program) :
    ∃ tree, Derives .program tokens tree ∧ tree.isSettled = true := by
  cases derived with
  | program read =>
    obtain ⟨tree, derived, settled⟩ := Derives.block_settles _ _ _ read (Nat.le_refl _)
    exact ⟨_, .program derived, settled⟩

end MiniPascal
