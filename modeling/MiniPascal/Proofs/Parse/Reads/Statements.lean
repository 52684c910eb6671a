import MiniPascal.Proofs.Parse.Reads.Expressions

namespace MiniPascal

/-- Reading a settled statement. One that ends open is not followed by an `ELSE`, which it would have
taken. -/
def Reading.statement : Reading Stmt := fun passed stmt next =>
  Derives .statement (Lexeme.tokens passed) stmt.bare ∧ stmt.bare.isSettled = true ∧
    (stmt.bare.endsOpen = true → next ≠ .mark .kwElse)

def Reading.statements : Reading (List Stmt) := fun passed stmts _ =>
  Derives .statementList (Lexeme.tokens passed) (Stmt.bareAll stmts) ∧
    Stmt.allSettled (Stmt.bareAll stmts) = true

def Reading.compound : Reading (List Stmt) := fun passed stmts _ =>
  Derives .compound (Lexeme.tokens passed) (Stmt.bareAll stmts) ∧
    Stmt.allSettled (Stmt.bareAll stmts) = true

namespace Parser

theorem assignmentOrCall_reads (fuel : Nat) : Reads (fuel + 1) (assignmentOrCall fuel) .statement := by
  intro token
  refine .ident fun lexeme name shows seen => .peek ?_
  split
  · refine .advance (by simp) fun sign signs seen' => ?_
    refine ((expression_reads fuel).mono (by omega) seen').bind fun passed value last read => ?_
    refine .previous fun span => .pure ?_
    refine ⟨?_, rfl, by simp [Stmt.bare, Stmt.endsOpen]⟩
    simpa [shows, signs, Stmt.bare, Ident.bare] using Derives.assignmentStatement (.assignment read)
  · refine (((arguments_reads (expression_reads fuel)).mono (by omega)) _).bind ?_
    intro passed args last read
    refine .previous fun span => .pure ⟨?_, rfl, by simp [Stmt.bare, Stmt.endsOpen]⟩
    simpa [shows, Stmt.bare, Ident.bare] using Derives.callStatement (.call read)
  · refine .previous fun span => .pure ⟨?_, rfl, by simp [Stmt.bare, Stmt.endsOpen]⟩
    simpa [shows, Stmt.bare, Ident.bare, Expr.bareAll] using Derives.callStatement .bareCall

theorem statementList_reads {fuel : Nat} {statement : Parser Stmt}
    (reads : Reads fuel statement .statement) :
    Reads fuel (sepBy .semicolon statement fuel) .statements := by
  have items := sepBy_reads .semicolon (by decide) Stmt.bare
    (fun tokens stmt => Derives .statement tokens stmt ∧ stmt.isSettled = true) fuel
    fun token => (reads token).weaken fun _ _ _ read => ⟨read.1, read.2.1⟩
  intro token
  refine (items token).weaken fun passed stmts _ list => ?_
  simp only [Reading.statements, Stmt.bareAll_eq_map]
  obtain ⟨derived, settled⟩ := Separated.settled_iff.mp list
  exact ⟨.statementList derived, settled⟩

theorem compound_reads {fuel : Nat} {statement : Parser Stmt}
    (reads : Reads fuel statement .statement) :
    Reads (fuel + 1) (compound fuel statement) .compound := by
  intro token
  refine .expect (by decide) fun open_ opens seen => ?_
  refine (statementList_reads reads seen).bind fun passed body seen' read => ?_
  refine .expect (by decide) fun close closes last => .pure ⟨?_, read.2⟩
  simpa [opens, closes] using Derives.compound read.1

theorem statement_reads (fuel : Nat) : Reads fuel (statement fuel) .statement := by
  induction fuel with
  | zero => exact .zero ⟨[], .empty .blank, .mark .dot, .emptyStatement, rfl, by simp [Stmt.bare, Stmt.endsOpen]⟩
  | succ fuel ih =>
    intro token
    unfold statement
    refine .here fun start => .peek ?_
    split
    · refine (compound_reads ih _).bind fun passed body last read => .previous fun span => .pure ?_
      refine ⟨?_, read.2, by simp [Stmt.bare, Stmt.endsOpen]⟩
      simpa [Stmt.bare] using Derives.compoundStatement read.1
    · refine .advance (by simp) fun keyword keys seen => ?_
      refine (condition_reads fuel seen).bind fun passed cond seen' condRead => ?_
      refine .expect (by decide) fun thenMark thens seen'' => ?_
      refine ((ih.mono (by omega)) seen'').bind fun further branch after branchRead => ?_
      refine .ifEat (by decide) ?_ ?_
      · intro view elseMark elses next
        refine ((ih.mono (by omega)) next).bind fun rest otherwise last otherRead => ?_
        refine .previous fun span => .pure ?_
        have closed : branch.bare.endsOpen = false := by
          simpa [view] using branchRead.2.2
        refine ⟨?_, ?_, ?_⟩
        · simpa [keys, thens, elses, Stmt.bare] using Derives.conditionalStatement
            (.ifElse condRead branchRead.1 otherRead.1)
        · simp [Stmt.bare, Stmt.isSettled, closed, branchRead.2.1, otherRead.2.1]
        · simpa [Stmt.bare, Stmt.endsOpen] using otherRead.2.2
      · intro other
        refine .previous fun span => .pure ⟨?_, branchRead.2.1, fun _ => other⟩
        simpa [keys, thens, Stmt.bare] using Derives.conditionalStatement (.ifThen condRead branchRead.1)
    · refine .advance (by simp) fun keyword keys seen => ?_
      refine (statementList_reads ih seen).bind fun passed body seen' read => ?_
      refine .expect (by decide) fun untilMark untils seen'' => ?_
      refine (((condition_reads fuel).mono (by omega)) seen'').bind fun further cond last condRead => ?_
      refine .previous fun span => .pure ⟨?_, read.2, by simp [Stmt.bare, Stmt.endsOpen]⟩
      simpa [keys, untils, Stmt.bare] using Derives.loopStatement (.loop read.1 condRead)
    · exact assignmentOrCall_reads fuel _
    · exact .pure ⟨.emptyStatement, rfl, by simp [Stmt.bare, Stmt.endsOpen]⟩

end Parser

end MiniPascal
