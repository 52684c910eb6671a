import MiniPascal.Proofs.Parse.Reads.Declarations
import MiniPascal.Proofs.Parse.Takes.Declarations
import MiniPascal.Proofs.Grammar.DanglingElse

namespace MiniPascal

/-- Tokens with the end of the input as the last of them and nowhere else. -/
def Token.EndOnce (tokens : List Token) : Prop :=
  ∃ before, tokens = before ++ [.mark .endOfInput] ∧ .mark .endOfInput ∉ before

/-- What ends at the end of the input goes up to the last token. -/
theorem Token.EndOnce.rest_eq_nil {tokens passed rest : List Token} (once : EndOnce tokens)
    (split : tokens = passed ++ .mark .endOfInput :: rest) : rest = [] := by
  obtain ⟨before, ends, nowhere⟩ := once
  rcases List.eq_nil_or_concat rest with none | ⟨others, last, more⟩
  · exact none
  · have same : before ++ [.mark .endOfInput] = (passed ++ .mark .endOfInput :: others) ++ [last] := by
      rw [← ends, split, more]
      simp
    have member : Token.mark .endOfInput ∈ before := by
      rw [(List.append_inj' same rfl).1]
      simp
    exact absurd member nowhere

theorem Cursor.last_of_tokens {cursor : Cursor} {before : List Token}
    (ends : cursor.tokens = before ++ [.mark .endOfInput]) :
    cursor.remaining.getLast?.map Lexeme.token = some (.mark .endOfInput) := by
  rw [← List.getLast?_map]
  change cursor.tokens.getLast? = _
  rw [ends, List.getLast?_concat]

namespace Parser

def programText (fuel : Nat) : Parser Program := do
  expect .kwProgram
  let name ← ident
  expect .semicolon
  let body ← block fuel
  expect .dot
  return ⟨name, body⟩

theorem program_eq (fuel : Nat) : program fuel = (do
    let text ← programText fuel
    expect .endOfInput
    note (.parsedProgram text.name.name)
    return text) := by
  simp only [program, programText, bind_assoc, pure_bind]

theorem programText_reads (fuel : Nat) : Reads (fuel + 1) (programText fuel) fun passed result _ =>
    Derives .program (Lexeme.tokens passed ++ [.mark .endOfInput]) result.bare ∧
      result.bare.isSettled = true := by
  intro token
  refine .expect (by decide) fun keyword keys seen => .ident fun lexeme name shows seen' => ?_
  refine .expect (by decide) fun semicolon semicolons seen'' => ?_
  refine ((block_reads fuel).mono (by omega) seen'').bind fun passed body after read => ?_
  refine .expect (by decide) fun dot dots last => .pure ⟨?_, read.2⟩
  simpa [keys, shows, semicolons, dots, Program.bare, Ident.bare] using Derives.program read.1

theorem programText_takes {fuel : Nat} {tokens : List Token} {tree : Program}
    (derived : Derives .program tokens tree) (settled : tree.isSettled = true)
    (short : tokens.length < fuel) : ∃ text, tokens = text ++ [.mark .endOfInput] ∧
      Takes (programText fuel) text (.mark .endOfInput) (·.bare = tree) := by
  cases derived with
  | @program name tokens block read =>
    simp only [List.length_cons, List.length_append, List.length_nil] at short
    refine ⟨.mark .kwProgram :: .ident name :: .mark .semicolon :: (tokens ++ [.mark .dot]), by simp, ?_⟩
    refine .expect (.ident fun ident same => .expect ?_)
    refine (block_takes fuel tokens block _ read settled (by omega)).bind fun body same' => .expect ?_
    exact .pure (by rw [Program.bare, Ident.bare, same, same'])

/-- At the end of the input nothing is left to pass, and the end stays in view. -/
theorem expect_endOfInput {cursor : Cursor} (view : cursor.current.token = .mark .endOfInput)
    (last : cursor.rest = []) (unfailed : cursor.failure = none) :
    ∃ after, expect .endOfInput cursor = .ok () after := by
  obtain ⟨⟨_, span⟩, _, _, previous, events⟩ := cursor
  subst view last unfailed
  exact ⟨_, rfl⟩

theorem expect_of_other {kind : Mark} {cursor : Cursor}
    (other : cursor.current.token ≠ .mark kind) :
    expect kind cursor = .error (.error (.grammatical (.mark kind) cursor.current)) cursor := by
  unfold expect
  rw [bind_of_ok (show sees kind cursor = .ok (cursor.current.token == .mark kind) cursor from rfl),
    if_neg (by simpa using other)]
  rfl

theorem expect_ok_view {kind : Mark} {cursor after : Cursor} (run : expect kind cursor = .ok () after) :
    cursor.current.token = .mark kind := by
  by_cases view : cursor.current.token = .mark kind
  · exact view
  · rw [expect_of_other view] at run
    cases run

theorem program_sound {fuel : Nat} (cursor : Cursor) {after : Cursor} {result : Program}
    (once : Token.EndOnce cursor.tokens) (short : cursor.rest.length ≤ fuel)
    (run : program fuel cursor = .ok result after) :
    Derives .program cursor.tokens result.bare ∧ result.bare.isSettled = true := by
  have ended : cursor.Ended := by
    obtain ⟨before, ends, _⟩ := once
    exact fun _ => Cursor.last_of_tokens ends
  have read := (programText_reads fuel _).reads cursor ended rfl (by omega)
  rw [program_eq] at run
  unfold ReadsFrom at read
  cases text : programText fuel cursor with
  | error stop middle =>
    rw [bind_of_error text] at run
    cases run
  | ok tree middle =>
    rw [text] at read
    rw [bind_of_ok text] at run
    obtain ⟨passed, passes, derived, settled⟩ := read
    cases final : expect .endOfInput middle with
    | error stop last =>
      rw [bind_of_error final] at run
      cases run
    | ok _ last =>
      rw [bind_of_ok final] at run
      cases run
      have split : cursor.tokens =
          Lexeme.tokens passed ++ .mark .endOfInput :: Lexeme.tokens middle.rest := by
        rw [Cursor.tokens, passes.remaining, Lexeme.tokens_append, Cursor.remaining, Lexeme.tokens_cons,
          expect_ok_view final]
      rw [split, once.rest_eq_nil split]
      exact ⟨derived, settled⟩

theorem program_complete {fuel : Nat} (cursor : Cursor) {tree : Program}
    (derived : Derives .program cursor.tokens tree) (settled : tree.isSettled = true)
    (unfailed : cursor.failure = none) (short : cursor.tokens.length < fuel) :
    ∃ result after, program fuel cursor = .ok result after ∧ result.bare = tree := by
  obtain ⟨text, ends, takes⟩ := programText_takes derived settled short
  obtain ⟨result, middle, run, same, left, failure⟩ := takes cursor [] ends
  have last : middle.rest = [] := List.map_eq_nil_iff.mp (List.cons.inj left).2
  obtain ⟨after, final⟩ := expect_endOfInput (List.cons.inj left).1 last (failure.trans unfailed)
  rw [program_eq, bind_of_ok run, bind_of_ok final]
  exact ⟨result, _, rfl, same⟩

end Parser

def Cursor.start (first : Lexeme) (rest : List Lexeme) : Cursor := ⟨first, rest, none, .point 0, []⟩

theorem Scan.parse_ok_iff (first : Lexeme) (rest : List Lexeme) (program : Program) :
    (Scan.mk (first :: rest) none).parse.outcome = .ok program ↔
      ∃ after, Parser.program (rest.length + 4) (.start first rest) = .ok program after := by
  unfold Scan.parse Scan.cursor
  simp only
  split
  · rename_i result after run
    change Parser.program (rest.length + 4) (.start first rest) = .ok result after at run
    simp [run]
  · rename_i stop after run
    change Parser.program (rest.length + 4) (.start first rest) = .error stop after at run
    simp [run]

/-- Parsing succeeds on exactly the sentences of the grammar, and what it gives, spans erased, is
their one tree in which every `ELSE` belongs to the innermost `IF` that could take it. -/
theorem parse_exact (lexemes : List Lexeme) (once : Token.EndOnce (Lexeme.tokens lexemes)) :
    ((∃ program, (Scan.mk lexemes none).parse.outcome = .ok program) ↔
      ∃ tree, Derives .program (Lexeme.tokens lexemes) tree) ∧
    ∀ program, (Scan.mk lexemes none).parse.outcome = .ok program →
      Derives .program (Lexeme.tokens lexemes) program.bare ∧ program.bare.isSettled = true ∧
      ∀ tree, Derives .program (Lexeme.tokens lexemes) tree → tree.isSettled = true →
        tree = program.bare := by
  obtain ⟨first, rest, rfl⟩ : ∃ first rest, lexemes = first :: rest := by
    cases lexemes with
    | nil => obtain ⟨before, ends, _⟩ := once; simp at ends
    | cons first rest => exact ⟨first, rest, rfl⟩
  have complete : ∀ tree, Derives .program (Lexeme.tokens (first :: rest)) tree →
      tree.isSettled = true → ∃ program, (Scan.mk (first :: rest) none).parse.outcome = .ok program ∧
        program.bare = tree := by
    intro tree derived settled
    have enough : (Cursor.start first rest).tokens.length < rest.length + 4 := by
      simp [Cursor.start, Cursor.tokens, Cursor.remaining, Lexeme.tokens]
    obtain ⟨program, after, run, same⟩ :=
      Parser.program_complete (.start first rest) derived settled rfl enough
    exact ⟨program, (Scan.parse_ok_iff first rest program).mpr ⟨after, run⟩, same⟩
  have sound : ∀ program, (Scan.mk (first :: rest) none).parse.outcome = .ok program →
      Derives .program (Lexeme.tokens (first :: rest)) program.bare ∧ program.bare.isSettled = true := by
    intro program parsed
    obtain ⟨after, run⟩ := (Scan.parse_ok_iff first rest program).mp parsed
    exact Parser.program_sound (.start first rest) once (Nat.le_add_right _ 4) run
  refine ⟨⟨?_, ?_⟩, fun program parsed => ⟨(sound program parsed).1, (sound program parsed).2, ?_⟩⟩
  · rintro ⟨program, parsed⟩
    exact ⟨program.bare, (sound program parsed).1⟩
  · rintro ⟨tree, derived⟩
    obtain ⟨tree, derived, settled⟩ := derived.program_settles
    obtain ⟨program, parsed, _⟩ := complete tree derived settled
    exact ⟨program, parsed⟩
  · intro tree derived settled
    obtain ⟨other, parsedOther, same⟩ := complete tree derived settled
    rw [parsed] at parsedOther
    cases parsedOther
    exact same.symm

/-- `PROGRAM p; BEGIN IF 1 < 2 THEN IF 1 < 2 THEN ELSE END.`, where the `ELSE` may go to either `IF`. -/
def danglingElse : List Lexeme :=
  [.mark .kwProgram, .ident "p", .mark .semicolon, .mark .kwBegin, .mark .kwIf, .integer 1, .mark .less,
    .integer 2, .mark .kwThen, .mark .kwIf, .integer 1, .mark .less, .integer 2, .mark .kwThen,
    .mark .kwElse, .mark .kwEnd, .mark .dot, .mark .endOfInput].map (⟨·, .blank⟩)

/-- A sentence with two trees: it is derived with the `ELSE` at the outer `IF`, and parsed with the
`ELSE` at the inner one. -/
theorem parse_exact_danglingElse :
    let cond := Expr.relational (.number (.integer 1) .blank) .less (.number (.integer 2) .blank) .blank
    Token.EndOnce (Lexeme.tokens danglingElse) ∧
    Derives .program (Lexeme.tokens danglingElse) ⟨.plain "p", [],
      [.ifElse cond (.ifThen cond (.empty .blank) .blank) (.empty .blank) .blank]⟩ ∧
    ∃ program, (Scan.mk danglingElse none).parse.outcome = .ok program ∧
      program.bare = ⟨.plain "p", [],
        [.ifThen cond (.ifElse cond (.empty .blank) (.empty .blank) .blank) .blank]⟩ := by
  intro cond
  have once : Token.EndOnce (Lexeme.tokens danglingElse) :=
    ⟨(Lexeme.tokens danglingElse).dropLast, rfl, by decide⟩
  have number (value : Int64) : Derives .expr [.integer value] (.number (.integer value) .blank) :=
    .expr (.operand (.term (.operand .integer)))
  have condition : Derives .condition [.integer 1, .mark .less, .integer 2] cond :=
    Derives.condition .less (number 1) (number 2)
  have whole : ∀ {tokens stmt}, Derives .statement tokens stmt →
      Derives .program (.mark .kwProgram :: .ident "p" :: .mark .semicolon :: (([] ++ (.mark .kwBegin ::
        (tokens ++ [.mark .kwEnd]))) ++ [.mark .dot, .mark .endOfInput])) ⟨.plain "p", [], [stmt]⟩ :=
    fun stmt => .program (.block (.noVariables .noRoutines) (.compound (.statementList (.one stmt))))
  have outer := whole (.conditionalStatement (.ifElse condition
    (.conditionalStatement (.ifThen condition .emptyStatement)) .emptyStatement))
  have inner := whole (.conditionalStatement (.ifThen condition
    (.conditionalStatement (.ifElse condition .emptyStatement .emptyStatement))))
  obtain ⟨program, parsed⟩ := (parse_exact danglingElse once).1.mpr ⟨_, outer⟩
  refine ⟨once, outer, program, parsed, ?_⟩
  exact (((parse_exact danglingElse once).2 program parsed).2.2 _ inner rfl).symm

end MiniPascal
