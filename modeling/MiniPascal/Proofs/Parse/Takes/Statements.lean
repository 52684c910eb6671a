import MiniPascal.Proofs.Parse.Takes.Expressions
import MiniPascal.Proofs.Grammar.Settled

namespace MiniPascal

/-- A token that may stand behind a statement: the end of a list, the next statement, or an `ELSE` that
the statement itself could not take. -/
def Stmt.EndsBefore (stmt : Stmt) (next : Token) : Prop :=
  next ∈ [.mark .semicolon, .mark .kwEnd, .mark .kwUntil] ∨ next = .mark .kwElse ∧ stmt.endsOpen = false

theorem Stmt.EndsBefore.mem {stmt : Stmt} {next : Token} (ends : stmt.EndsBefore next) :
    next ∈ [.mark .semicolon, .mark .kwEnd, .mark .kwUntil, .mark .kwElse] := by
  rcases ends with closer | ⟨rfl, _⟩
  · exact List.mem_append_left [.mark .kwElse] closer
  · simp

theorem Stmt.EndsBefore.endsExpr {stmt : Stmt} {next : Token} (ends : stmt.EndsBefore next) :
    next.EndsExpr := by
  have member := ends.mem
  simp only [List.mem_cons, List.not_mem_nil, or_false] at member
  rcases member with rfl | rfl | rfl | rfl <;> decide

theorem Stmt.endsBefore_semicolon (stmt : Stmt) : stmt.EndsBefore (.mark .semicolon) :=
  Or.inl (by simp)

theorem Stmt.endsBefore_else {stmt : Stmt} (closed : stmt.endsOpen = false) :
    stmt.EndsBefore (.mark .kwElse) :=
  Or.inr ⟨rfl, closed⟩

namespace Parser

/-- A rule for statements that passes the settled ones with fewer tokens than a bound. -/
def TakesStatements (bound : Nat) (statement : Parser Stmt) : Prop :=
  ∀ tokens stmt next, Derives .statement tokens stmt → stmt.isSettled = true → tokens.length < bound →
    stmt.EndsBefore next → Takes statement tokens next (·.bare = stmt)

theorem assignment_takes {fuel : Nat} {tokens : List Token} {stmt : Stmt} {next : Token}
    (derived : Derives .assignment tokens stmt) (short : tokens.length ≤ fuel)
    (ends : stmt.EndsBefore next) :
    Takes (assignmentOrCall fuel) tokens next (·.bare = stmt) := by
  cases derived with
  | @assignment name tokens value read =>
    simp only [List.length_cons] at short
    refine .ident fun ident same => .peek (.advance fun _ _ => ?_)
    rw [← List.append_nil tokens]
    refine (expression_takes read (by omega) ends.endsExpr).bind fun value same' => ?_
    refine .previous fun span => .pure ?_
    rw [Stmt.bare, Ident.bare, same, same']

theorem call_takes {fuel : Nat} {tokens : List Token} {stmt : Stmt} {next : Token}
    (derived : Derives .call tokens stmt) (short : tokens.length ≤ fuel)
    (ends : stmt.EndsBefore next) : Takes (assignmentOrCall fuel) tokens next (·.bare = stmt) := by
  cases derived with
  | bareCall =>
    refine .ident fun ident same => .peek ?_
    have member := ends.mem
    simp only [List.mem_cons, List.not_mem_nil, or_false] at member
    rcases member with rfl | rfl | rfl | rfl <;>
      exact .previous fun span => .pure (by rw [Stmt.bare, Ident.bare, same, Expr.bareAll])
  | @call name tokens args read =>
    refine .ident fun ident same => .peek ?_
    have opens : tokens.headD next = .mark .leftParen := by cases read <;> rfl
    rw [opens, ← List.append_nil tokens]
    simp only [List.length_cons] at short
    refine (arguments_takes (factor_takes fuel) read (by omega)).bind fun args same' => ?_
    exact .previous fun span => .pure (by rw [Stmt.bare, Ident.bare, same, same'])

theorem statementList_takes {fuel : Nat} {statement : Parser Stmt}
    (takes : TakesStatements fuel statement) {tokens : List Token} {body : List Stmt} {next : Token}
    (derived : Derives .statementList tokens body) (settled : Stmt.allSettled body = true)
    (short : tokens.length < fuel) (ends : next = .mark .kwEnd ∨ next = .mark .kwUntil) :
    Takes (sepBy .semicolon statement fuel) tokens next (Stmt.bareAll · = body) := by
  cases derived with
  | statementList list =>
    simp only [Stmt.bareAll_eq_map]
    refine sepBy_takes ?_ ?_ (Separated.settled_iff.mpr ⟨list, settled⟩) short short
    · rcases ends with rfl | rfl <;> simp
    · rintro tokens stmt read bounded _ (rfl | rfl)
      · exact takes tokens stmt _ read.1 read.2 bounded stmt.endsBefore_semicolon
      · refine takes tokens stmt _ read.1 read.2 bounded (Or.inl ?_)
        rcases ends with rfl | rfl <;> simp

theorem compound_takes {fuel : Nat} {statement : Parser Stmt} (takes : TakesStatements fuel statement)
    {tokens : List Token} {body : List Stmt} {next : Token} (derived : Derives .compound tokens body)
    (settled : Stmt.allSettled body = true) (short : tokens.length < fuel + 2) :
    Takes (compound fuel statement) tokens next (Stmt.bareAll · = body) := by
  cases derived with
  | @compound tokens body read =>
    simp only [List.length_cons, List.length_append, List.length_nil] at short
    refine .expect ?_
    refine (statementList_takes takes read settled (by omega) (Or.inl rfl)).bind fun body same => ?_
    exact .expect (.pure same)

theorem statement_takes (fuel : Nat) : TakesStatements fuel (statement fuel) := by
  induction fuel with
  | zero => exact fun _ _ _ _ _ short => absurd short (Nat.not_lt_zero _)
  | succ fuel ih =>
    intro tokens stmt next derived settled short ends
    unfold statement
    refine .here fun start => .peek ?_
    cases derived with
    | @compoundStatement tokens body read =>
      have opens : tokens.headD next = .mark .kwBegin := by cases read; rfl
      rw [opens, ← List.append_nil tokens]
      refine (compound_takes ih read settled (by omega)).bind fun body same => .previous fun span => ?_
      exact .pure (by rw [Stmt.bare, same])
    | assignmentStatement read =>
      have begins : ∃ name, tokens.headD next = .ident name := by cases read; exact ⟨_, rfl⟩
      obtain ⟨name, begins⟩ := begins
      rw [begins]
      exact assignment_takes read (by omega) ends
    | callStatement read =>
      have begins : ∃ name, tokens.headD next = .ident name := by cases read <;> exact ⟨_, rfl⟩
      obtain ⟨name, begins⟩ := begins
      rw [begins]
      exact call_takes read (by omega) ends
    | conditionalStatement read =>
      cases read with
      | @ifThen tokens others cond branch readCond readBranch =>
        simp only [List.length_cons, List.length_append] at short
        have closer : next ∈ [.mark .semicolon, .mark .kwEnd, .mark .kwUntil] := by
          simpa [Stmt.EndsBefore, Stmt.endsOpen] using ends
        have other : next ≠ .mark .kwElse := by
          rintro rfl
          exact absurd closer (by decide)
        refine .advance fun _ _ => ?_
        refine (condition_takes readCond (by omega) (by decide : (Token.mark .kwThen).EndsExpr)).bind ?_
        intro cond same
        refine .expect ?_
        rw [← List.append_nil others]
        refine (ih others branch next readBranch settled (by omega) (Or.inl closer)).bind ?_
        intro branch same'
        exact .leave other (.previous fun span => .pure (by rw [Stmt.bare, same, same']))
      | @ifElse tokens others rest cond branch otherwise readCond readBranch readOther =>
        simp only [List.length_cons, List.length_append] at short
        simp only [Stmt.isSettled, Bool.and_eq_true, Bool.not_eq_true'] at settled
        refine .advance fun _ _ => ?_
        refine (condition_takes readCond (by omega) (by decide : (Token.mark .kwThen).EndsExpr)).bind ?_
        intro cond same
        refine .expect ?_
        refine (ih others branch _ readBranch settled.1.2 (by omega)
          (Stmt.endsBefore_else settled.1.1)).bind fun branch same' => .eat ?_
        rw [← List.append_nil rest]
        refine (ih rest otherwise next readOther settled.2 (by omega) ends).bind ?_
        intro otherwise same''
        exact .previous fun span => .pure (by rw [Stmt.bare, same, same', same''])
    | loopStatement read =>
      cases read with
      | @loop tokens others body cond readBody readCond =>
        simp only [List.length_cons, List.length_append] at short
        refine .advance fun _ _ => ?_
        refine (statementList_takes ih readBody settled (by omega) (Or.inr rfl)).bind fun body same => ?_
        refine .expect ?_
        rw [← List.append_nil others]
        refine (condition_takes readCond (by omega) ends.endsExpr).bind fun cond same' => ?_
        exact .previous fun span => .pure (by rw [Stmt.bare, same, same'])
    | emptyStatement =>
      have member := ends.mem
      simp only [List.mem_cons, List.not_mem_nil, or_false] at member
      rcases member with rfl | rfl | rfl | rfl <;> exact .pure rfl

end Parser

end MiniPascal
