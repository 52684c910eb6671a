import MiniPascal.Proofs.Parse.FirstError
import MiniPascal.Proofs.Parse.Notes

namespace MiniPascal

open Token (finished)

section Readings

/-- Reading a heading: a keyword, a name, parameters, and what follows up to the semicolon. -/
def Reading.heading (kind : RoutineKind) : Reading Heading := fun passed heading _ =>
  ∃ params next others, Lexeme.tokens passed =
      .mark kind.mark :: .ident heading.name.name :: (params ++ next :: others) ∧
    Derives .params params (heading.params.map Param.bare) ∧ next ≠ .mark .leftParen ∧
    Token.Plain (next :: others)

variable {kind : RoutineKind} {passed : List Lexeme} {waiting : List Signature}

theorem Reading.heading_finished {result : Heading} {seen : Token}
    (read : Reading.heading kind passed result seen) (rest : List Token) :
    finished waiting 0 (Lexeme.tokens passed ++ rest) =
      finished (result.signature :: waiting) 0 rest := by
  obtain ⟨params, next, others, tokens, derived, other, plain⟩ := read
  rw [tokens]
  simpa [Heading.signature] using derived.finished_heading kind result.name.name other plain rest

theorem Reading.heading_length {result : Heading} {seen : Token}
    (read : Reading.heading kind passed result seen) : 2 ≤ passed.length := by
  obtain ⟨params, next, others, tokens, -⟩ := read
  have lengths := congrArg List.length tokens
  rw [Lexeme.tokens, List.length_map] at lengths
  rw [lengths]
  exact Nat.le_add_left 2 _

/-- In a heading no routine ends. -/
theorem Reading.heading_cut (viable : ((Reading.heading kind).after passed).Viable) :
    finished waiting 0 (Lexeme.tokens passed) = [] := by
  obtain ⟨more, heading, seen, params, next, others, tokens, derived, -, plain⟩ := viable
  have announced : Token.Plain (params ++ next :: others) :=
    Token.plain_append.mpr ⟨derived.framed, plain⟩
  refine Token.finished_of_noEnds fun among => ?_
  have whole : .mark .kwEnd ∈ Lexeme.tokens (passed ++ more) := by simp [among]
  rw [tokens, List.mem_cons, List.mem_cons] at whole
  rcases whole with keyword | name | behind
  · cases kind <;> cases keyword
  · cases name
  · cases announced _ behind

end Readings

namespace Parser

section Headings

/-- The heading of a routine and the semicolon behind it. Its span is that of the keyword. -/
def heading (fuel : Nat) (kind : RoutineKind) : Parser Heading := do
  let keyword ← advance
  let name ← ident
  let params ← parameterList fuel
  let result ← match kind with
    | .function => do
      expect .colon
      some <$> varType
    | .procedure => pure none
  expect .semicolon
  return ⟨name, params, result, keyword.span⟩

theorem routine_eq (fuel : Nat) (block : Parser Block) (kind : RoutineKind) :
    routine fuel block kind = (do
      let heading ← heading fuel kind
      let body ← block
      note heading.signature.event
      let span := heading.span.merge (← previous)
      return .routine { heading with span := span } body.declarations body.body) := by
  cases kind <;>
    simp only [routine, heading, bind_assoc, pure_bind, bind_map_left, Signature.event, Heading.signature]

theorem heading_silent (fuel : Nat) (kind : RoutineKind) : Silent (heading fuel kind) := by
  refine advance_silent.bind fun keyword => ident_silent.bind fun name => ?_
  refine (parameterList_silent fuel).bind fun params => ?_
  have semicolon (result : Option VarType) : Silent (do
      expect .semicolon
      return Heading.mk name params result keyword.span) :=
    (expect_silent .semicolon).bind fun _ => .pure _
  cases kind with
  | procedure => exact semicolon none
  | function =>
    exact (expect_silent .colon).bind fun _ => (varType_silent.map some).bind semicolon

theorem heading_reads (fuel : Nat) (kind : RoutineKind) :
    ReadsAt (.mark kind.mark) (fuel + 1) (heading fuel kind) (.heading kind) := by
  refine .advance (by cases kind <;> simp [RoutineKind.mark]) fun keyword keys seen => ?_
  refine .ident fun lexeme name shows seen' => ?_
  refine (((parameterList_reads fuel).mono (by omega)) seen').bind fun passed params after read => ?_
  cases kind with
  | procedure =>
    refine .expect (by decide) fun semicolon semicolons next => .pure ?_
    exact ⟨_, .mark .semicolon, [], by simp [keys, shows, semicolons], read, by decide, by simp +decide⟩
  | function =>
    simp only [bind_map_left]
    refine .expect (by decide) fun colon colons next => ?_
    refine (varType_reads _ next).bind fun result type next' typeRead => ?_
    refine .expect (by decide) fun semicolon semicolons next'' => .pure ?_
    have plain : Token.Plain (Lexeme.tokens result) := typeRead.framed
    refine ⟨_, .mark .colon, Lexeme.tokens result ++ [.mark .semicolon],
      by simp [keys, shows, colons, semicolons], read, by decide, by simp +decide [plain]⟩

end Headings

section Blocks

/-- The variables of a block, if it has any. -/
def varPart (fuel : Nat) : Parser (List Decl) := do
  if ← eat .kwVar then variableGroups fuel else return []

theorem block_eq (fuel : Nat) : block (fuel + 1) = (do
    let vars ← varPart fuel
    let nested ← routines (block fuel) fuel
    let body ← compound fuel (statement fuel)
    return ⟨vars ++ nested, body⟩) := by
  simp only [block, varPart, bind_assoc]
  congr
  funext found
  cases found <;> rfl

theorem varPart_silent (fuel : Nat) : Silent (varPart fuel) :=
  (eat_silent .kwVar).bind fun _ => .ite (variableGroups_silent fuel) (.pure _)

theorem varPart_reads (fuel : Nat) : Reads fuel (varPart fuel) fun passed vars _ =>
    Token.Plain (Lexeme.tokens passed) ∧ Decl.postOrderAll vars = [] := by
  intro token
  refine .ifEat (by decide) ?_ ?_
  · intro _ keyword keys seen
    refine (variableGroups_reads fuel seen).weaken fun passed vars _ read => ?_
    have plain : Token.Plain (Lexeme.tokens passed) := read.1.framed
    refine ⟨by simp +decide [keys, plain], ?_⟩
    rw [← Decl.postOrderAll_bare]
    exact read.1.postOrderAll_variableGroups
  · exact fun _ => .pure ⟨Token.plain_nil, rfl⟩

variable {waiting : List Signature}

/-- What is to end when a block has ended: the routine whose block it is, and those around it. -/
def closed (waiting : List Signature) : Outlook :=
  fun rest => waiting.take 1 ++ finished (waiting.drop 1) 0 rest

theorem compound_notes (fuel : Nat) :
    Notes (fuel + 1) (compound fuel (statement fuel)) (finished waiting 0) (closed waiting)
      fun log _ => log = [] := by
  intro token
  refine .expect (by decide) rfl fun seen => ?_
  have inside {passed : List Lexeme} {stmts : List Stmt} {next : Token}
      (read : Reading.statements passed stmts next) : Token.Balanced (Lexeme.tokens passed) :=
    read.1.framed
  refine .silent (sepBy_silent .semicolon (statement_silent fuel) fuel)
    (statementList_reads (statement_reads fuel) seen) ?_ ?_
  · rintro passed ⟨more, stmts, next, read⟩
    have balanced := inside read
    rw [Lexeme.tokens_append] at balanced
    exact balanced.finished_front
  · intro passed stmts next read
    have skips (rest : List Token) : finished waiting 0
        (.mark .kwBegin :: (Lexeme.tokens passed ++ rest)) = finished waiting 1 rest :=
      (inside read).skips waiting 0 rest
    refine .expect (by decide) (skips []) fun last => .pure (fun rest => ?_) rfl
    exact skips (.mark .kwEnd :: rest)

variable {block : Parser Block} {fuel : Nat}

theorem routine_notes (kind : RoutineKind)
    (blocks : ∀ waiting, Notes (fuel - 1) block (finished waiting 0) (closed waiting)
      fun log body => log = Decl.postOrderAll body.declarations) :
    NotesAt (.mark kind.mark) (fuel + 1) (routine fuel block kind) (finished waiting 0)
      (finished waiting 0) fun log decl => log = decl.postOrder := by
  rw [routine_eq]
  refine .silent (heading_silent fuel kind) (heading_reads fuel kind)
    (fun passed => Reading.heading_cut) fun passed heading seen read => ?_
  have behind : (fun rest => finished waiting 0 (Lexeme.tokens passed ++ rest)) =
      finished (heading.signature :: waiting) 0 := funext (Reading.heading_finished read)
  rw [behind]
  have length := Reading.heading_length read
  refine ((blocks (heading.signature :: waiting)).mono (by omega) seen).bind ?_
  rintro _ body rfl seen'
  refine .note (fun _ => rfl) fun last => .previous fun span => .pure (fun _ => rfl) ?_
  simp [Decl.postOrder, Heading.signature]

theorem routines_notes
    (blocks : ∀ waiting, Notes (fuel - 1) block (finished waiting 0) (closed waiting)
      fun log body => log = Decl.postOrderAll body.declarations) :
    Notes fuel (routines block fuel) (finished waiting 0) (finished waiting 0)
      fun log decls => log = Decl.postOrderAll decls := by
  induction fuel with
  | zero => exact .zero
  | succ fuel ih =>
    intro token
    unfold routines
    have declared (kind : RoutineKind) : NotesAt (.mark kind.mark) (fuel + 1) (do
        let first ← routine fuel block kind
        expect .semicolon
        return first :: (← routines block fuel)) (finished waiting 0) (finished waiting 0)
        fun log decls => log = Decl.postOrderAll decls := by
      refine (routine_notes kind fun waiting => (blocks waiting).mono (by omega)).bind ?_
      rintro _ first rfl seen
      refine .expect (by decide) rfl fun seen' => ?_
      refine ((ih fun waiting => (blocks waiting).mono (by omega)) seen').bind ?_
      rintro _ others rfl last
      exact .pure (fun _ => rfl) (by simp [Decl.postOrderAll])
    refine .peek ?_
    split
    · exact declared .procedure
    · exact declared .function
    · exact .pure (fun _ => rfl) rfl

theorem block_notes (fuel : Nat) (waiting : List Signature) :
    Notes (fuel - 1) (Parser.block fuel) (finished waiting 0) (closed waiting)
      fun log body => log = Decl.postOrderAll body.declarations := by
  induction fuel generalizing waiting with
  | zero => exact .zero
  | succ fuel ih =>
    rw [block_eq]
    intro token
    refine .silent (varPart_silent fuel) (varPart_reads fuel token) ?_ ?_
    · rintro passed ⟨more, vars, seen, plain, -⟩
      rw [Lexeme.tokens_append, Token.plain_append] at plain
      exact Token.finished_of_plain plain.1
    · rintro passed vars seen ⟨plain, none⟩
      have skips : (fun rest => finished waiting 0 (Lexeme.tokens passed ++ rest)) =
          finished waiting 0 := funext fun rest => Token.finished_append_of_plain plain
      rw [skips]
      refine ((routines_notes ih).mono (by omega) seen).bind ?_
      rintro _ nested rfl seen'
      refine ((compound_notes fuel).mono (by omega) seen').bind ?_
      rintro _ body rfl last
      exact .pure (fun _ => rfl) (by simp [Decl.postOrderAll_append, none])

end Blocks

section Programs

variable {fuel : Nat} {cursor : Cursor}

/-- Up to the dot of a program, its routines are noted in post-order. -/
theorem programText_notes (fuel : Nat) :
    Notes (fuel + 1) (programText fuel) (finished [] 0) (finished [] 0)
      fun log program => log = program.postOrder := by
  intro token
  refine .expect (by decide) rfl fun seen => ?_
  refine .silent ident_silent (ident_reads _ seen) ?_ ?_
  · rintro passed ⟨more, name, next, lexeme, single, shows, -⟩
    have plain : Token.Plain (Lexeme.tokens (passed ++ more)) := by simp [single, shows]
    rw [Lexeme.tokens_append, Token.plain_append] at plain
    exact Token.finished_of_plain (Token.plain_cons.mpr ⟨rfl, plain.1⟩)
  · rintro _ name next ⟨lexeme, rfl, shows, -⟩
    rw [Lexeme.tokens_cons, shows, Lexeme.tokens_nil]
    refine .expect (by decide) rfl fun next' => ?_
    refine ((block_notes fuel []).mono ?_ next').bind ?_
    · simp
    · rintro _ body rfl last
      exact .expect (by decide) rfl fun _ => .pure (fun _ => rfl) (by simp [Program.postOrder])

/-- How the parser ends, and what it has noted: all routines and the program, or the routines that end
among the lexemes it has passed. -/
inductive ProgramNotes (cursor : Cursor) : EStateM.Result ParseStop Cursor Program → Prop where
  | accepts {program : Program} {middle after : Cursor}
    (notes : cursor.Notes program.postOrder middle)
    (noted : after.events = .parsedProgram program.name.name :: middle.events)
    (whole : finished [] 0 cursor.tokens = program.postOrder) : ProgramNotes cursor (.ok program after)
  | grammatical {expected : Expected} {passed : List Lexeme} {after : Cursor}
    (passes : cursor.Passes passed after)
    (notes : cursor.Notes (finished [] 0 (Lexeme.tokens passed)) after) :
    ProgramNotes cursor (.error (.error (.grammatical expected after.current)) after)
  | lexical {cause : ScanError} {passed : List Lexeme} {after : Cursor}
    (passes : cursor.Passes passed after) (last : after.rest = []) (failed : after.failure = some cause)
    (notes : cursor.Notes (finished [] 0 (Lexeme.tokens passed)) after) :
    ProgramNotes cursor (.error (.error (.lexical cause)) after)

theorem program_notes (ended : cursor.Ended) (last : Token.EndLast cursor.tokens)
    (short : cursor.rest.length ≤ fuel) : ProgramNotes cursor (program fuel cursor) := by
  have read := (programText_reads fuel _).reads cursor ended rfl (Nat.lt_succ_of_le short)
  have notes := programText_notes fuel _ cursor ended rfl (Nat.lt_succ_of_le short)
  rw [program_eq]
  unfold ReadsFrom at read
  unfold NotesFrom at notes
  cases text : programText fuel cursor with
  | error stop after =>
    rw [text] at read notes
    rw [bind_of_error text]
    obtain ⟨passed, passes, notes⟩ := notes
    obtain ⟨_, _, justified⟩ := read
    match stop, justified with
    | .error (.grammatical expected found), ⟨same, _⟩ =>
      subst same
      exact .grammatical passes notes
    | .error (.lexical cause), ⟨last, failed, _⟩ => exact .lexical passes last failed notes
  | ok program middle =>
    rw [text] at notes
    rw [bind_of_ok text]
    obtain ⟨passed, log, passes, notes, rfl, splits⟩ := notes
    have tokens : cursor.tokens =
        Lexeme.tokens passed ++ middle.current.token :: Lexeme.tokens middle.rest := by
      rw [Cursor.tokens, passes.remaining, Lexeme.tokens_append, Cursor.remaining, Lexeme.tokens_cons]
    have sofar : cursor.Notes (finished [] 0 (Lexeme.tokens passed)) middle := by
      have splits := splits []
      rw [List.append_nil, finished, List.append_nil] at splits
      rwa [splits]
    by_cases view : middle.current.token = .mark .endOfInput
    · rw [view] at tokens
      have nothing : middle.rest = [] := List.map_eq_nil_iff.mp (last _ _ tokens)
      have whole : finished [] 0 cursor.tokens = program.postOrder := by
        rw [tokens, splits, nothing]
        exact List.append_nil _
      obtain ⟨⟨_, span⟩, _, failure, previous, events⟩ := middle
      subst view nothing
      cases failure with
      | none => exact .accepts notes rfl whole
      | some cause => exact .lexical passes rfl rfl sofar
    · rw [bind_of_error (expect_of_other view)]
      exact .grammatical passes sofar

end Programs

end Parser

theorem Scan.parse_run {scan : Scan} (nonempty : scan.lexemes ≠ []) :
    scan.parse =
      match Parser.program (scan.lexemes.length + 3) (.opening scan.failure scan.lexemes) with
      | .ok program after => ⟨.ok program, after.events.reverse⟩
      | .error stop after => ⟨.error stop, after.events.reverse⟩ := by
  obtain ⟨lexemes, failure⟩ := scan
  cases lexemes with
  | nil => exact absurd rfl nonempty
  | cons first rest => rfl

theorem scan_program_notes (source : String) (nonempty : (scan source).lexemes ≠ []) (fuel : Nat)
    (enough : (scan source).lexemes.length ≤ fuel) :
    Parser.ProgramNotes (.opening (scan source).failure (scan source).lexemes)
      (Parser.program fuel (.opening (scan source).failure (scan source).lexemes)) := by
  refine Parser.program_notes (scan_ended source nonempty) ?_ ?_
  · rw [Cursor.tokens_opening nonempty]
    exact scan_endLast source
  · have length := @Cursor.length_opening _ (scan source).failure nonempty
    omega

@[simp] theorem Cursor.events_opening {lexemes : List Lexeme} {failure : Option ScanError} :
    (Cursor.opening failure lexemes).events = [] := by
  cases lexemes <;> rfl

theorem Cursor.Notes.of_opening {lexemes : List Lexeme} {failure : Option ScanError}
    {log : List Signature} {after : Cursor} (notes : (Cursor.opening failure lexemes).Notes log after) :
    after.events.reverse = log.map Signature.event := by
  rw [notes, Cursor.events_opening, List.append_nil, List.reverse_reverse]

/-- The lexemes consumed before parsing stops: those in front of the token that does not fit, or all
but the last one before what is no token, since a token is consumed only when the next one is known. -/
def ParseStop.ComesAfter (stop : ParseStop) (scan : Scan) (consumed : List Lexeme) : Prop :=
  match stop with
  | .error (.grammatical _ found) => ∃ later, scan.lexemes = consumed ++ found :: later
  | .error (.lexical cause) => scan.failure = some cause ∧ consumed = scan.lexemes.dropLast
  | .outOfFuel => False

theorem parse_cases (source : String) :
    (∃ program, parse source = ⟨.ok program,
        program.postOrder.map Signature.event ++ [.parsedProgram program.name.name]⟩ ∧
      Token.finished [] 0 (Lexeme.tokens (scan source).lexemes) = program.postOrder) ∨
    ∃ stop consumed, stop.ComesAfter (scan source) consumed ∧ parse source = ⟨.error stop,
      (Token.finished [] 0 (Lexeme.tokens consumed)).map Signature.event⟩ := by
  by_cases nonempty : (scan source).lexemes = []
  · right
    cases failed : (scan source).failure with
    | none =>
      obtain ⟨before, tokens⟩ := scan_complete failed
      simp [nonempty] at tokens
    | some cause =>
      refine ⟨.error (.lexical cause), [], ⟨failed, by rw [nonempty]; rfl⟩, ?_⟩
      simp [parse, Scan.parse, Scan.cursor, nonempty, failed, Token.finished]
  · have run := Scan.parse_run nonempty
    have notes := scan_program_notes source nonempty _ (Nat.le_add_right _ 3)
    generalize Parser.program _ _ = outcome at run notes
    rw [parse, run]
    cases notes with
    | accepts notes noted whole =>
      rw [Cursor.tokens_opening nonempty] at whole
      refine .inl ⟨_, ?_, whole⟩
      simp only [noted, List.reverse_cons, notes.of_opening]
    | @grammatical expected passed after passes notes =>
      have split := passes.remaining
      rw [Cursor.remaining_opening nonempty] at split
      refine .inr ⟨.error (.grammatical expected after.current), passed, ⟨after.rest, split⟩, ?_⟩
      simp only [notes.of_opening]
    | @lexical cause passed after passes last failed notes =>
      have split := passes.remaining
      rw [Cursor.remaining_opening nonempty, Cursor.remaining, last] at split
      rw [passes.failure, Cursor.failure_opening] at failed
      have consumed : passed = (scan source).lexemes.dropLast := by rw [split, List.dropLast_concat]
      refine .inr ⟨.error (.lexical cause), passed, ⟨failed, consumed⟩, ?_⟩
      simp only [notes.of_opening]

/-- Parse events are the post-order of the tree. A source that parses gives one event for each routine
of its tree, in post-order, and then one for the program. A source that does not gives the events of
the routines whose blocks have ended among the tokens consumed before the error, in the same order, and
none for the program. -/
theorem parse_events (source : String) :
    match (parse source).outcome with
    | .ok program =>
      (parse source).events =
        program.postOrder.map Signature.event ++ [.parsedProgram program.name.name] ∧
      Token.finished [] 0 (Lexeme.tokens (scan source).lexemes) = program.postOrder
    | .error stop =>
      (∃ consumed, stop.ComesAfter (scan source) consumed ∧
        (parse source).events = (Token.finished [] 0 (Lexeme.tokens consumed)).map Signature.event) ∧
      ∀ name, .parsedProgram name ∉ (parse source).events := by
  rcases parse_cases source with ⟨program, parsed, whole⟩ | ⟨stop, consumed, comes, parsed⟩
  · rw [parsed]
    exact ⟨rfl, whole⟩
  · rw [parsed]
    refine ⟨⟨consumed, comes, rfl⟩, fun name among => ?_⟩
    obtain ⟨signature, -, same⟩ := List.mem_map.mp among
    cases same

-- The `END` of `a` is not consumed, because no token follows it.
example : (parse "PROGRAM p; PROCEDURE a(x, y: REAL); FUNCTION b: REAL; BEGIN END; BEGIN END ?").events =
    [.parsedRoutine "b" 0] := by decide +kernel

end MiniPascal
