import MiniPascal.Proofs.Grammar.Sentences
import MiniPascal.Proofs.Parse.Builds

namespace MiniPascal

namespace Parser

theorem sepBy_builds {α : Type} {Item : List Lexeme → Lexeme → α → Prop} {item : Parser α}
    {separator : Mark} (inner : separator ≠ .endOfInput)
    (items : ∀ view, Builds [] view item Item) (fuel : Nat) (view : Lexeme) :
    Builds [] view (sepBy separator item fuel) (Listed separator Item) := by
  induction fuel generalizing view with
  | zero => exact .outOfFuel
  | succ fuel ih =>
    unfold sepBy
    refine (items view).bind fun slice seen first built => .ifEat inner ?_ ?_
    · intro separates seen'
      refine (ih seen').bind fun others last rest list => .pure ?_
      simpa using Listed.more built separates list
    · exact .pure (.one built)

theorem chain_builds {operator? : Token → Option BinaryOp} {operand : Parser Expr}
    (operators : ∀ token op, operator? token = some op → token = .mark op.mark)
    (operands : ∀ view, Builds [] view operand Expr.Located) (fuel : Nat) {slice : List Lexeme}
    {view : Lexeme} {left : Expr} (located : left.Located slice view) :
    Builds slice view (chain operator? operand fuel left) Expr.Located := by
  induction fuel generalizing slice view left with
  | zero => exact .outOfFuel
  | succ fuel ih =>
    unfold chain
    refine .peek ?_
    cases found : operator? view.token with
    | none => exact .pure located
    | some op =>
      have operates := operators view.token op found
      refine .advance (by simp [operates]) fun seen => ?_
      refine (operands seen).bind fun others last right second => .ordered fun ordered => ?_
      rw [List.append_assoc] at ordered ⊢
      -- The loop goes on with a longer left operand, built from all that was passed so far.
      exact ih (.binary located operates second (located.extent.merge second.extent ordered))

theorem product_builds {factor : Parser Expr} (factors : ∀ view, Builds [] view factor Expr.Located)
    (fuel : Nat) (view : Lexeme) : Builds [] view (product fuel factor) Expr.Located :=
  (factors view).bind fun _ _ _ located =>
    chain_builds (fun _ _ found => (productOp?_eq_some found).1) factors fuel located

theorem sum_builds {factor : Parser Expr} (factors : ∀ view, Builds [] view factor Expr.Located)
    (fuel : Nat) (view : Lexeme) : Builds [] view (sum fuel factor) Expr.Located :=
  (product_builds factors fuel view).bind fun _ _ _ located =>
    chain_builds (fun _ _ found => (sumOp?_eq_some found).1) (product_builds factors fuel) fuel
      located

theorem arguments_builds {expression : Parser Expr}
    (expressions : ∀ view, Builds [] view expression Expr.Located) (fuel : Nat) (view : Lexeme) :
    Builds [] view (arguments fuel expression) fun slice _ args =>
      Parenthesized .comma Expr.Located slice args := by
  refine .expect (by decide) fun opens seen => .ifEat (by decide) ?_ ?_
  · exact fun closes _ => .pure (.none opens closes)
  · refine (sepBy_builds (by decide) expressions fuel seen).bind fun slice next args list => ?_
    refine .expect (by decide) fun closes _ => .pure ?_
    simpa using Parenthesized.some (.mk opens list closes)

/-- A sign in front of an operand. -/
theorem signed_builds {view : Lexeme} (op : UnaryOp) {factor : Parser Expr}
    (factors : ∀ view, Builds [] view factor Expr.Located) (signs : view.token = .mark op.mark) :
    Builds [] view (do
      let _ ← advance
      let operand ← factor
      return .unary op operand (view.span.merge operand.span)) Expr.Located := by
  refine .advance (by simp [signs]) fun seen => ?_
  refine (factors seen).bind fun slice next operand located => .ordered fun ordered => .pure ?_
  have extent : Lexeme.Extent ([view] ++ ([] ++ slice)) (view.span.merge operand.span) :=
    (Lexeme.extent_singleton view).merge located.extent ordered
  exact .unary signs located extent

theorem factor_builds (fuel : Nat) (view : Lexeme) : Builds [] view (factor fuel) Expr.Located := by
  induction fuel generalizing view with
  | zero => exact .outOfFuel
  | succ fuel ih =>
    refine .here (.peek ?_)
    generalize shows : view.token = token
    cases token with
    | mark kind =>
      cases kind with
      | plus => exact signed_builds .plus ih shows
      | minus => exact signed_builds .minus ih shows
      | leftParen =>
        refine .advance (by simp [shows]) fun seen => ?_
        refine (sum_builds ih fuel seen).bind fun slice closing inner located => ?_
        refine .expect (by decide) fun closes next => ?_
        exact .spanning inner.withSpan rfl fun span => .parentheses shows located closes
      | _ => exact .unexpected
    | integer value => exact .advance (by simp [shows]) fun _ => .pure (.number shows)
    | real value => exact .advance (by simp [shows]) fun _ => .pure (.number shows)
    | text value => exact .advance (by simp [shows]) fun _ => .pure (.text shows)
    | ident name =>
      refine .ident fun name shows seen => .sees ?_
      split
      · refine (arguments_builds (sum_builds ih fuel) fuel seen).bind ?_
        intro slice next args list
        exact .spanning (Expr.call ⟨name, view.span⟩ args) rfl fun span => .call shows list
      · exact .pure (.var shows)

theorem expression_builds (fuel : Nat) (view : Lexeme) :
    Builds [] view (expression fuel) Expr.Located :=
  sum_builds (factor_builds fuel) fuel view

theorem condition_builds (fuel : Nat) (view : Lexeme) :
    Builds [] view (condition fuel) Expr.Located := by
  refine (expression_builds fuel view).bind fun slice mark left first => .peek ?_
  cases found : relationalOp? mark.token with
  | none => exact .unexpected
  | some op =>
    have operates := relationalOp?_eq_some found
    refine .advance (by simp [operates]) fun seen => ?_
    refine (expression_builds fuel seen).bind fun others next right second => ?_
    refine .ordered fun ordered => .pure ?_
    rw [List.append_assoc] at ordered ⊢
    exact .relational first operates second (first.extent.merge second.extent ordered)

theorem assignmentOrCall_builds (fuel : Nat) (view : Lexeme) :
    Builds [] view (assignmentOrCall fuel) Stmt.Located := by
  refine .ident fun name shows seen => .peek ?_
  split
  · rename_i assigns
    refine .advance (by simp [assigns]) fun seen' => ?_
    refine (expression_builds fuel seen').bind fun slice next value located => ?_
    refine .spanning (Stmt.assign ⟨name, view.span⟩ value) rfl fun span => ?_
    exact .assign shows assigns located
  · refine (arguments_builds (expression_builds fuel) fuel seen).bind fun slice next args list => ?_
    exact .spanning (Stmt.call ⟨name, view.span⟩ args) rfl fun span => .call shows list
  · exact .spanning (Stmt.call ⟨name, view.span⟩ []) rfl fun span => .bareCall shows

theorem compound_builds {statement : Parser Stmt}
    (statements : ∀ view, Builds [] view statement Stmt.Located) (fuel : Nat) (view : Lexeme) :
    Builds [] view (compound fuel statement) fun slice _ body =>
      slice.head? = some view ∧ Enclosed .kwBegin .semicolon .kwEnd Stmt.Located slice body := by
  refine .expect (by decide) fun opens seen => ?_
  refine (sepBy_builds (by decide) statements fuel seen).bind fun slice closing body list => ?_
  exact .expect (by decide) fun closes _ => .pure ⟨rfl, .mk opens list closes⟩

theorem statement_builds (fuel : Nat) (view : Lexeme) :
    Builds [] view (statement fuel) Stmt.Located := by
  induction fuel generalizing view with
  | zero => exact .outOfFuel
  | succ fuel ih =>
    unfold statement
    refine .here (.peek ?_)
    split
    · refine (compound_builds ih fuel view).bind fun slice next body ⟨starts, block⟩ => ?_
      exact .spanning (Stmt.compound body) starts fun span => .compound block
    · rename_i ifs
      refine .advance (by simp [ifs]) fun seen => ?_
      refine (condition_builds fuel seen).bind fun slice mark cond tests => ?_
      refine .expect (by decide) fun thens seen' => ?_
      refine (ih seen').bind fun others middle branch located => .ifEat (by decide) ?_ ?_
      · intro elses seen''
        refine (ih seen'').bind fun further next otherwise locatedElse => ?_
        refine .spanning (Stmt.ifElse cond branch otherwise) rfl fun span extent => ?_
        simp only [List.nil_append, List.append_assoc, List.cons_append] at extent ⊢
        exact .ifElse ifs tests thens located elses locatedElse extent
      · refine .spanning (Stmt.ifThen cond branch) rfl fun span extent => ?_
        simp only [List.nil_append, List.append_assoc, List.cons_append] at extent ⊢
        exact .ifThen ifs tests thens located extent
    · rename_i repeats
      refine .advance (by simp [repeats]) fun seen => ?_
      refine (sepBy_builds (by decide) ih fuel seen).bind fun slice mark body list => ?_
      refine .expect (by decide) fun untils seen' => ?_
      refine (condition_builds fuel seen').bind fun others next cond tests => ?_
      refine .spanning (Stmt.repeatUntil body cond) rfl fun span extent => ?_
      simp only [List.nil_append, List.append_assoc, List.cons_append] at extent ⊢
      exact .repeatUntil repeats list untils tests extent
    · exact assignmentOrCall_builds fuel view
    · exact .pure .empty

theorem varType_builds (view : Lexeme) : Builds [] view varType fun slice _ type =>
    slice = [view] ∧ view.token = .mark type.mark := by
  refine .peek ?_
  split
  · rename_i shows
    exact .advance (by simp [shows]) fun _ => .pure ⟨rfl, shows⟩
  · rename_i shows
    exact .advance (by simp [shows]) fun _ => .pure ⟨rfl, shows⟩
  · exact .unexpected

theorem typedNames_builds (fuel : Nat) (view : Lexeme) :
    Builds [] view (typedNames fuel) Ident.Grouped := by
  have names (view : Lexeme) : Builds [] view ident Ident.Located := by
    refine ident_builds.weaken ?_
    rintro _ _ ⟨name, _⟩ ⟨rfl, shows, rfl⟩
    exact .mk shows
  refine (sepBy_builds (by decide) names fuel view).bind fun slice colon names list => ?_
  refine .expect (by decide) fun colons seen => (varType_builds seen).bind ?_
  rintro _ next type ⟨rfl, types⟩
  refine .pure ?_
  simpa using Ident.Grouped.mk list colons types

theorem variableGroups_builds (fuel : Nat) (view : Lexeme) :
    Builds [] view (variableGroups fuel) fun slice _ vars => ∃ groups, groups ≠ [] ∧
      Terminated Ident.Grouped slice groups ∧
      vars = groups.flatMap fun (names, type) => names.map fun name => Decl.var name type := by
  induction fuel generalizing view with
  | zero => exact .outOfFuel
  | succ fuel ih =>
    unfold variableGroups
    refine (typedNames_builds fuel view).bind fun slice mark (names, type) grouped => ?_
    refine .expect (by decide) fun ends seen => .ifAtIdent ?_ ?_
    · refine (ih seen).bind ?_
      rintro others next _ ⟨groups, -, list, rfl⟩
      refine .pure ⟨(names, type) :: groups, List.cons_ne_nil _ _, ?_, rfl⟩
      simpa using Terminated.more grouped ends list
    · exact .pure ⟨[(names, type)], List.cons_ne_nil _ _, .more grouped ends .none, by simp⟩

theorem parameterList_builds (fuel : Nat) (view : Lexeme) :
    Builds [] view (parameterList fuel) fun slice _ params => Param.Located slice params := by
  refine .ifEat (by decide) (fun opens seen => .ifEat (by decide) ?_ ?_) (.pure .absent)
  · exact fun closes _ => .pure (.present (.none opens closes))
  · refine (sepBy_builds (by decide) (typedNames_builds fuel) fuel seen).bind ?_
    intro slice closing groups list
    refine .expect (by decide) fun closes _ => .pure ?_
    exact .present (.some (.mk opens list closes))

theorem routine_builds {block : Parser Block}
    (blocks : ∀ view, Builds [] view block fun slice _ tree =>
      Block.Located Decl.Located slice tree) (fuel : Nat) (kind : RoutineKind) {view : Lexeme}
    (keys : view.token = .mark kind.mark) :
    Builds [] view (routine fuel block kind) Decl.Located := by
  unfold routine
  refine .advance (by cases kind <;> simp [keys, RoutineKind.mark]) fun lexeme => ?_
  refine .ident fun name shows seen => ?_
  refine (parameterList_builds fuel seen).bind fun slice seen params parameters => ?_
  -- The two kinds differ in what stands before the semicolon, and go on alike behind it.
  have rest {others : List Lexeme} {result : Option VarType} (results : kind.Result others result)
      (semicolon : Lexeme) : Builds ([] ++ [view] ++ [lexeme] ++ slice ++ others) semicolon (do
        expect .semicolon
        let body ← block
        note (.parsedRoutine name params.length)
        let heading : Heading :=
          ⟨⟨name, lexeme.span⟩, params, result, view.span.merge (← previous)⟩
        return .routine heading body.declarations body.body) Decl.Located := by
    refine .expect (by decide) fun ends next => ?_
    refine (blocks next).bind fun further last tree built => .note ?_
    let decl (span : Span) : Decl :=
      .routine ⟨⟨name, lexeme.span⟩, params, result, span⟩ tree.declarations tree.body
    refine .spanning decl rfl fun span extent => ?_
    simp only [List.nil_append, List.append_assoc, List.cons_append] at extent ⊢
    exact .routine kind keys shows parameters results ends built extent
  cases kind with
  | procedure =>
    have done := rest .procedure seen
    rw [List.append_nil] at done
    exact done
  | function =>
    simp only [bind_map_left]
    refine .expect (by decide) fun colons seen' => (varType_builds seen').bind ?_
    rintro _ semicolon type ⟨rfl, types⟩
    rw [List.append_assoc]
    exact rest (.function colons types) semicolon

theorem routines_builds {block : Parser Block}
    (blocks : ∀ view, Builds [] view block fun slice _ tree =>
      Block.Located Decl.Located slice tree) (fuel : Nat) (view : Lexeme) :
    Builds [] view (routines block fuel) fun slice _ decls =>
      Terminated Decl.Located slice decls := by
  induction fuel generalizing view with
  | zero => exact .outOfFuel
  | succ fuel ih =>
    unfold routines
    have declared (kind : RoutineKind) (keys : view.token = .mark kind.mark) :
        Builds [] view (do
          let first ← routine fuel block kind
          expect .semicolon
          return first :: (← routines block fuel)) fun slice _ decls =>
            Terminated Decl.Located slice decls := by
      refine (routine_builds blocks fuel kind keys).bind fun slice mark first built => ?_
      refine .expect (by decide) fun ends seen => (ih seen).bind fun others next rest list => ?_
      refine .pure ?_
      simpa using Terminated.more built ends list
    refine .peek ?_
    split
    · rename_i keys
      exact declared .procedure keys
    · rename_i keys
      exact declared .function keys
    · exact .pure .none

theorem block_builds (fuel : Nat) (view : Lexeme) : Builds [] view (block fuel) fun slice _ tree =>
    Block.Located Decl.Located slice tree := by
  induction fuel generalizing view with
  | zero => exact .outOfFuel
  | succ fuel ih =>
    unfold block
    have rest {front : List Lexeme} {vars : List Decl} (declared : Decl.Variables front vars)
        (view : Lexeme) : Builds front view (do
          let nested ← routines (block fuel) fuel
          let body ← compound fuel (statement fuel)
          return Block.mk (vars ++ nested) body) fun slice _ tree =>
            Block.Located Decl.Located slice tree := by
      refine (routines_builds ih fuel view).bind fun others seen nested list => ?_
      refine (compound_builds (statement_builds fuel) fuel seen).bind ?_
      rintro further next body ⟨-, compound⟩
      rw [List.append_assoc]
      exact .pure (.mk declared list compound)
    refine .ifEat (by decide) (fun opens seen => (variableGroups_builds fuel seen).bind ?_) ?_
    · rintro slice seen' _ ⟨groups, nonempty, list, rfl⟩
      exact rest (.present opens list nonempty) seen'
    · rw [pure_bind]
      exact rest .absent view

end Parser

end MiniPascal
