import Mathlib.Data.List.Induction
import MiniPascal.Proofs.Grammar.Sentences
import MiniPascal.Proofs.Parse.Exactness
import MiniPascal.Proofs.Parse.Extends

namespace MiniPascal

/-- The cursor before the first of some lexemes. -/
def Cursor.opening (failure : Option ScanError) : List Lexeme → Cursor
  | [] => ⟨⟨.mark .endOfInput, .point 0⟩, [], failure, .point 0, []⟩
  | first :: rest => ⟨first, rest, failure, .point 0, []⟩

section

variable {lexemes : List Lexeme} {failure : Option ScanError}

@[simp] theorem Cursor.failure_opening : (Cursor.opening failure lexemes).failure = failure := by
  cases lexemes <;> rfl

theorem Cursor.remaining_opening (nonempty : lexemes ≠ []) :
    (Cursor.opening failure lexemes).remaining = lexemes := by
  cases lexemes with
  | nil => exact absurd rfl nonempty
  | cons first rest => rfl

theorem Cursor.tokens_opening (nonempty : lexemes ≠ []) :
    (Cursor.opening failure lexemes).tokens = Lexeme.tokens lexemes := by
  rw [Cursor.tokens, Cursor.remaining_opening nonempty]

theorem Cursor.length_opening (nonempty : lexemes ≠ []) :
    (Cursor.opening failure lexemes).rest.length < lexemes.length := by
  cases lexemes with
  | nil => exact absurd rfl nonempty
  | cons first rest => exact Nat.lt_succ_self _

theorem Cursor.extend_opening (nonempty : lexemes ≠ []) (tail : List Lexeme)
    (ending : Option ScanError) :
    (Cursor.opening failure lexemes).extend tail ending = .opening ending (lexemes ++ tail) := by
  cases lexemes with
  | nil => exact absurd rfl nonempty
  | cons first rest => rfl

theorem Scan.parse_outcome {scan : Scan} (nonempty : scan.lexemes ≠ []) :
    scan.parse.outcome =
      match Parser.program (scan.lexemes.length + 3) (.opening scan.failure scan.lexemes) with
      | .ok program _ => .ok program
      | .error stop _ => .error stop := by
  obtain ⟨lexemes, failure⟩ := scan
  cases lexemes with
  | nil => exact absurd rfl nonempty
  | cons first rest =>
    unfold Scan.parse Scan.cursor Cursor.opening
    simp only
    cases Parser.program ((first :: rest).length + 3) ⟨first, rest, failure, .point 0, []⟩ with
    | ok program after => rfl
    | error stop after => rfl

end

/-- A scan in which the parser can pass an end of the input: it has not failed, or it goes on behind
one. -/
def Cursor.PassesEnd (cursor : Cursor) : Prop :=
  cursor.failure = none ∨
    ∃ before next rest, cursor.tokens = before ++ .mark .endOfInput :: next :: rest

theorem Cursor.not_passesEnd {lexemes : List Lexeme} {cause : ScanError} (nonempty : lexemes ≠ [])
    (last : Token.EndLast (Lexeme.tokens lexemes)) :
    ¬ (Cursor.opening (some cause) lexemes).PassesEnd := by
  rw [Cursor.PassesEnd, Cursor.failure_opening, Cursor.tokens_opening nonempty]
  rintro (unfailed | ⟨before, next, rest, split⟩)
  · cases unfailed
  · cases last _ _ split

namespace Parser

/-- How the parser ends: on tokens with which a program begins, unless it accepts. -/
inductive ProgramEnds (cursor : Cursor) : EStateM.Result ParseStop Cursor Program → Prop where
  | accepts {result : Program} {after : Cursor}
    (passesEnd : cursor.PassesEnd) : ProgramEnds cursor (.ok result after)
  | lexical {cause : ScanError} {after : Cursor} (failed : cursor.failure = some cause)
    (viable : Token.Viable cursor.tokens) :
    ProgramEnds cursor (.error (.error (.lexical cause)) after)
  | grammatical {expected : Expected} {passed : List Lexeme} {after : Cursor}
    (passes : cursor.Passes passed after) (viable : Token.Viable (Lexeme.tokens passed)) :
    ProgramEnds cursor (.error (.error (.grammatical expected after.current)) after)

section

variable {cursor after : Cursor} {passed : List Lexeme} {fuel : Nat}

theorem viable_of_reading
    (viable : (Reading.after (fun passed (result : Program) (_ : Token) =>
      Derives .program (Lexeme.tokens passed ++ [.mark .endOfInput]) result.bare ∧
        result.bare.isSettled = true) passed).Viable) : Token.Viable (Lexeme.tokens passed) := by
  obtain ⟨more, result, seen, derived, -⟩ := viable
  rw [Lexeme.tokens_append, List.append_assoc] at derived
  exact ⟨_, result.bare, derived⟩

theorem expect_endOfInput_ends (passes : cursor.Passes passed after)
    (sentence : Token.Sentence (Lexeme.tokens passed ++ [.mark .endOfInput])) (result : Program)
    (event : ParseEvent) :
    ProgramEnds cursor
      ((do expect .endOfInput; note event; return result : Parser Program) after) := by
  have tokens : cursor.tokens =
      Lexeme.tokens passed ++ after.current.token :: Lexeme.tokens after.rest := by
    rw [Cursor.tokens, passes.remaining, Lexeme.tokens_append, Cursor.remaining, Lexeme.tokens_cons]
  have failure := passes.failure
  obtain ⟨⟨token, span⟩, rest, ending, previous, events⟩ := after
  by_cases view : token = .mark .endOfInput
  · subst view
    cases rest with
    | cons next rest => exact .accepts (.inr ⟨_, _, _, tokens⟩)
    | nil =>
      cases ending with
      | none => exact .accepts (.inl failure.symm)
      | some cause =>
        refine .lexical failure.symm ⟨[], ?_⟩
        rw [tokens, List.append_nil]
        exact sentence
  · rw [bind_of_error (expect_of_other view)]
    exact .grammatical passes ⟨_, sentence⟩

theorem program_ends (ended : cursor.Ended) (short : cursor.rest.length ≤ fuel) :
    ProgramEnds cursor (program fuel cursor) := by
  have read := (programText_reads fuel _).reads cursor ended rfl (Nat.lt_succ_of_le short)
  rw [program_eq]
  unfold ReadsFrom at read
  cases text : programText fuel cursor with
  | ok result middle =>
    rw [text] at read
    obtain ⟨passed, passes, derived, -⟩ := read
    rw [bind_of_ok text]
    exact expect_endOfInput_ends passes ⟨_, derived⟩ result _
  | error stop after =>
    rw [text] at read
    obtain ⟨passed, passes, justified⟩ := read
    rw [bind_of_error text]
    match stop, justified with
    | .error (.grammatical expected found), ⟨same, viable⟩ =>
      subst same
      exact .grammatical passes (viable_of_reading viable)
    | .error (.lexical cause), ⟨last, failed, viable⟩ =>
      rw [Reading.after_after] at viable
      refine .lexical (passes.failure.symm.trans failed) ?_
      rw [Cursor.tokens, passes.remaining, Cursor.remaining, last]
      exact viable_of_reading viable

end

section

variable {lexemes passed : List Lexeme} {found : Lexeme} {failure : Option ScanError}
  {cause : ScanError} {fuel : Nat}

theorem opening_ends (nonempty : lexemes ≠ []) (failed : failure.isSome)
    (short : lexemes.length ≤ fuel) :
    ProgramEnds (.opening failure lexemes) (program fuel (.opening failure lexemes)) := by
  refine program_ends (fun unfailed => ?_) (Nat.le_of_lt ?_)
  · rw [Cursor.failure_opening] at unfailed
    rw [unfailed] at failed
    cases failed
  · exact Nat.lt_of_lt_of_le (Cursor.length_opening nonempty) short

theorem program_accepts (nonempty : lexemes ≠ [])
    (sentence : Token.Sentence (Lexeme.tokens lexemes)) (enough : lexemes.length < fuel) :
    ∃ result after, program fuel (.opening none lexemes) = .ok result after := by
  obtain ⟨tree, derived⟩ := sentence
  obtain ⟨tree, derived, settled⟩ := derived.program_settles
  rw [← Cursor.tokens_opening nonempty] at derived
  have short : (Cursor.opening none lexemes).tokens.length < fuel := by
    rwa [Cursor.tokens_opening nonempty, Lexeme.tokens, List.length_map]
  obtain ⟨result, after, run, -⟩ :=
    program_complete _ derived settled Cursor.failure_opening short
  exact ⟨result, after, run⟩

/-- Where the parser finds a token that does not fit, no program begins so: on the tokens of a
program it would not have stopped. -/
theorem not_viable_of_grammatical {expected : Expected} {after : Cursor}
    (nonempty : lexemes ≠ []) (run : program fuel (.opening (some cause) lexemes) =
      .error (.error (.grammatical expected found)) after) :
    ¬ Token.Viable (Lexeme.tokens lexemes) := by
  rintro ⟨rest, sentence⟩
  obtain ⟨others, rfl⟩ : ∃ others, Lexeme.tokens others = rest :=
    ⟨rest.map (Lexeme.mk · .blank), by simp [Lexeme.tokens, Function.comp_def]⟩
  rw [← Lexeme.tokens_append] at sentence
  obtain ⟨result, last, accepts⟩ :=
    program_accepts (by simp [nonempty]) sentence (Nat.lt_succ_self _)
  have carries := (program_extends fuel ((lexemes ++ others).length + 1)).carries
    (.opening (some cause) lexemes) others none (by simp)
  rw [Cursor.extend_opening nonempty, run, accepts] at carries
  cases carries

/-- The failure of a scan shows if a program begins with all its tokens. -/
theorem program_lexical (nonempty : lexemes ≠ [])
    (last : Token.EndLast (Lexeme.tokens lexemes))
    (viable : Token.Viable (Lexeme.tokens lexemes)) (short : lexemes.length ≤ fuel) :
    ∃ after, program fuel (.opening (some cause) lexemes) =
      .error (.error (.lexical cause)) after := by
  have ends := @opening_ends lexemes (some cause) fuel nonempty rfl short
  generalize run : program fuel (.opening (some cause) lexemes) = outcome at ends
  cases ends with
  | accepts passesEnd => exact absurd passesEnd (Cursor.not_passesEnd nonempty last)
  | lexical failed viable =>
    rw [Cursor.failure_opening] at failed
    cases failed
    exact ⟨_, rfl⟩
  | grammatical passes earlier => exact absurd viable (not_viable_of_grammatical nonempty run)

/-- A token that the parser does not accept fits nowhere behind those before it, whatever follows:
had the scan failed there, the failure would not have shown. -/
theorem refused_not_viable {expected : Expected} {after : Cursor} (nonempty : lexemes ≠ [])
    (last : Token.EndLast (Lexeme.tokens lexemes)) (short : lexemes.length ≤ fuel)
    (passes : (Cursor.opening (some cause) lexemes).Passes passed after)
    (run : program fuel (.opening (some cause) lexemes) =
      .error (.error (.grammatical expected after.current)) after) :
    ¬ Token.Viable (Lexeme.tokens (passed ++ [after.current])) := by
  have whole : lexemes = (passed ++ [after.current]) ++ after.rest := by
    have split := passes.remaining
    rw [Cursor.remaining_opening nonempty, Cursor.remaining] at split
    rw [split, List.append_assoc, List.singleton_append]
  have nonemptyFront : passed ++ [after.current] ≠ [] := by simp
  by_cases more : after.rest = []
  · rw [more, List.append_nil] at whole
    rw [← whole]
    exact not_viable_of_grammatical nonempty run
  · intro viable
    rw [whole, Lexeme.tokens_append] at last
    rw [whole, List.length_append] at short
    obtain ⟨cursor, stops⟩ := @program_lexical _ cause fuel nonemptyFront last.of_append viable
      (by omega)
    have carries := (program_extends fuel fuel).carries
      (.opening (some cause) (passed ++ [after.current])) after.rest (some cause) (by simp)
    rw [Cursor.extend_opening nonemptyFront, ← whole, run, stops] at carries
    cases carries with
    | further passed =>
      rcases passed with nothing | shorter
      · exact more nothing
      · exact Nat.lt_irrefl _ shorter

/-- The token at which tokens cease to be the beginning of a program is the one that the parser does
not accept: it accepts those before, because a program begins with them. -/
theorem program_grammatical (last : Token.EndLast (Lexeme.tokens (passed ++ [found])))
    (viable : Token.Viable (Lexeme.tokens passed))
    (misfit : ¬ Token.Viable (Lexeme.tokens (passed ++ [found])))
    (short : (passed ++ [found]).length ≤ fuel) :
    ∃ expected after, program fuel (.opening (some cause) (passed ++ [found])) =
      .error (.error (.grammatical expected found)) after := by
  have nonempty : passed ++ [found] ≠ [] := by simp
  have ends := @opening_ends _ (some cause) fuel nonempty rfl short
  generalize run : program fuel (.opening (some cause) (passed ++ [found])) = outcome at ends
  cases ends with
  | accepts passesEnd => exact absurd passesEnd (Cursor.not_passesEnd nonempty last)
  | lexical failed viable =>
    rw [Cursor.tokens_opening nonempty] at viable
    exact absurd viable misfit
  | @grammatical expected front after passes earlier =>
    have refused := refused_not_viable nonempty last short passes run
    have split := passes.remaining
    rw [Cursor.remaining_opening nonempty, Cursor.remaining] at split
    rcases List.eq_nil_or_concat after.rest with none | ⟨others, other, more⟩
    · rw [none] at split
      obtain ⟨-, same⟩ := List.append_inj' split rfl
      cases same
      exact ⟨expected, after, rfl⟩
    · rw [more, List.concat_eq_append, ← List.cons_append, ← List.append_assoc] at split
      obtain ⟨rfl, -⟩ := List.append_inj' split rfl
      rw [← List.singleton_append, ← List.append_assoc, Lexeme.tokens_append] at viable
      exact absurd viable.of_append refused

end

end Parser

/-- The first token with which tokens cease to be the beginning of a program. -/
def Lexeme.FirstMisfit (lexemes : List Lexeme) (found : Lexeme) : Prop :=
  ∃ passed rest, lexemes = passed ++ found :: rest ∧ Token.Viable (Lexeme.tokens passed) ∧
    ¬ Token.Viable (Lexeme.tokens (passed ++ [found]))

theorem Lexeme.exists_firstMisfit {lexemes front : List Lexeme} (isFront : front <+: lexemes)
    (misfit : ¬ Token.Viable (Lexeme.tokens front)) : ∃ found, FirstMisfit lexemes found := by
  induction front using List.reverseRecOn with
  | nil => exact absurd Token.viable_nil misfit
  | append_singleton front last ih =>
    by_cases viable : Token.Viable (Lexeme.tokens front)
    · obtain ⟨rest, rfl⟩ := isFront
      exact ⟨last, front, rest, by simp, viable, misfit⟩
    · exact ih ((List.prefix_append _ _).trans isFront) viable

section

variable {source : String} {failure : ScanError}

theorem Scan.result_ok {scan : Scan} {lexemes : List Lexeme} (complete : scan.result = .ok lexemes) :
    scan.failure = none ∧ scan.lexemes = lexemes := by
  rw [Scan.result] at complete
  split at complete
  · rename_i unfailed
    cases complete
    exact ⟨unfailed, rfl⟩
  · cases complete

theorem Scan.result_error {scan : Scan} (failed : scan.result = .error failure) :
    scan.failure = some failure := by
  rw [Scan.result] at failed
  split at failed
  · cases failed
  · rename_i found
    cases failed
    exact found

theorem scan_complete (complete : (scan source).failure = none) :
    ∃ before, Lexeme.tokens (scan source).lexemes = before ++ [.mark .endOfInput] := by
  obtain ⟨before, -, tokens⟩ := Scan.startingAt_tokens 0 0 source.toList
  rw [scan] at complete ⊢
  rw [if_pos complete] at tokens
  exact ⟨before, tokens⟩

theorem scan_ended (source : String) (nonempty : (scan source).lexemes ≠ []) :
    (Cursor.opening (scan source).failure (scan source).lexemes).Ended := by
  intro complete
  rw [Cursor.failure_opening] at complete
  obtain ⟨before, tokens⟩ := scan_complete complete
  exact Cursor.last_of_tokens ((Cursor.tokens_opening nonempty).trans tokens)

/-- A text whose tokens have a derivation is parsed to the tree of it, but for the places. -/
theorem parse_derived {tree : Program} (complete : (scan source).failure = none)
    (derived : Derives .program (Lexeme.tokens (scan source).lexemes) tree)
    (settled : tree.isSettled = true) :
    ∃ program, (parse source).outcome = .ok program ∧ program.bare = tree := by
  have nonempty : (scan source).lexemes ≠ [] := by
    intro none
    obtain ⟨before, tokens⟩ := scan_complete complete
    rw [none] at tokens
    simp at tokens
  have short : (Cursor.opening none (scan source).lexemes).tokens.length <
      (scan source).lexemes.length + 3 := by
    rw [Cursor.tokens_opening nonempty, Lexeme.tokens, List.length_map]
    omega
  rw [← Cursor.tokens_opening nonempty] at derived
  obtain ⟨program, after, run, same⟩ :=
    Parser.program_complete _ derived settled Cursor.failure_opening short
  rw [parse, Scan.parse_outcome nonempty, complete, run]
  exact ⟨program, rfl, same⟩

theorem parse_accepts (complete : (scan source).failure = none)
    (sentence : Token.Sentence (Lexeme.tokens (scan source).lexemes)) :
    ∃ program, (parse source).outcome = .ok program := by
  obtain ⟨tree, derived⟩ := sentence
  obtain ⟨tree, derived, settled⟩ := derived.program_settles
  obtain ⟨program, parsed, -⟩ := parse_derived complete derived settled
  exact ⟨program, parsed⟩

theorem parse_grammatical {found : Lexeme} (misfit : Lexeme.FirstMisfit (scan source).lexemes found) :
    ∃ expected, (parse source).outcome = .error (.error (.grammatical expected found)) := by
  obtain ⟨passed, rest, split, viable, refused⟩ := misfit
  have nonempty : (scan source).lexemes ≠ [] := by simp [split]
  have whole : (passed ++ [found]) ++ rest = (scan source).lexemes := by simp [split]
  have last : Token.EndLast (Lexeme.tokens (passed ++ [found])) := by
    have all := scan_endLast source
    rw [← whole, List.map_append] at all
    exact all.of_append
  -- Any failure will do behind the token that does not fit.
  obtain ⟨expected, after, run⟩ := @Parser.program_grammatical passed found ⟨' ', .point 0⟩ _
    last viable refused (Nat.le_refl _)
  have carries := (Parser.program_extends (passed ++ [found]).length
    ((scan source).lexemes.length + 3)).carries (.opening (some ⟨' ', .point 0⟩) (passed ++ [found]))
      rest (scan source).failure (by simp)
  have shorter := @Cursor.length_opening _ (scan source).failure nonempty
  have ends := @Parser.program_ends _ ((scan source).lexemes.length + 3)
    (scan_ended source nonempty) (by omega)
  rw [Cursor.extend_opening (by simp), whole, run] at carries
  rw [parse, Scan.parse_outcome nonempty]
  generalize Parser.program ((scan source).lexemes.length + 3) _ = outcome at carries ends ⊢
  cases carries with
  | unexpected => exact ⟨expected, rfl⟩
  | wholeOutOfFuel => cases ends

theorem parse_lexical (failed : (scan source).failure = some failure)
    (viable : Token.Viable (Lexeme.tokens (scan source).lexemes)) :
    (parse source).outcome = .error (.error (.lexical failure)) := by
  by_cases nonempty : (scan source).lexemes = []
  · simp only [parse, Scan.parse, Scan.cursor, nonempty, failed]
  · obtain ⟨after, run⟩ := @Parser.program_lexical _ failure _ nonempty (scan_endLast source) viable
      (Nat.le_add_right _ 3)
    rw [parse, Scan.parse_outcome nonempty, failed, run]

end

/-- Parsing fails at the first error, whichever side has it. A text whose tokens form a program is
parsed. Otherwise, if the tokens that the scan yields before its end or its failure cease somewhere
to be the beginning of a program, parsing fails at the first token with which they do, though the
scan may fail later; and if they do not, the scan has failed, and parsing fails with its failure. So
no text is parsed that cannot be scanned. -/
theorem parse_first_error (source : String) :
    (∀ lexemes, (scan source).result = .ok lexemes → Token.Sentence (Lexeme.tokens lexemes) →
      ∃ program, (parse source).outcome = .ok program) ∧
    ((∃ front, front <+: (scan source).lexemes ∧ ¬ Token.Viable (Lexeme.tokens front)) →
      ∃ expected found, Lexeme.FirstMisfit (scan source).lexemes found ∧
        (parse source).outcome = .error (.error (.grammatical expected found))) ∧
    ((∀ front, front <+: (scan source).lexemes → Token.Viable (Lexeme.tokens front)) →
      (¬ ∃ lexemes, (scan source).result = .ok lexemes ∧
        Token.Sentence (Lexeme.tokens lexemes)) →
      ∃ failure, (scan source).result = .error failure ∧
        (parse source).outcome = .error (.error (.lexical failure))) ∧
    ∀ failure, (scan source).result = .error failure →
      ∀ program, (parse source).outcome ≠ .ok program := by
  have grammatical (front : List Lexeme) (isFront : front <+: (scan source).lexemes)
      (misfit : ¬ Token.Viable (Lexeme.tokens front)) :
      ∃ expected found, Lexeme.FirstMisfit (scan source).lexemes found ∧
        (parse source).outcome = .error (.error (.grammatical expected found)) := by
    obtain ⟨found, first⟩ := Lexeme.exists_firstMisfit isFront misfit
    obtain ⟨expected, outcome⟩ := parse_grammatical first
    exact ⟨expected, found, first, outcome⟩
  refine ⟨?_, ?_, ?_, ?_⟩
  · intro lexemes complete sentence
    obtain ⟨unfailed, rfl⟩ := Scan.result_ok complete
    exact parse_accepts unfailed sentence
  · rintro ⟨front, isFront, misfit⟩
    exact grammatical front isFront misfit
  · intro viable noSentence
    have fits := viable _ (List.prefix_refl _)
    cases failed : (scan source).failure with
    | some failure =>
      exact ⟨failure, by rw [Scan.result, failed], parse_lexical failed fits⟩
    | none =>
      obtain ⟨before, tokens⟩ := scan_complete failed
      rw [tokens] at fits
      exact absurd ⟨_, by rw [Scan.result, failed], tokens ▸ fits.sentence⟩ noSentence
  · intro failure failed program accepted
    have failed := Scan.result_error failed
    by_cases viable : Token.Viable (Lexeme.tokens (scan source).lexemes)
    · rw [parse_lexical failed viable] at accepted
      cases accepted
    · obtain ⟨expected, found, -, outcome⟩ := grammatical _ (List.prefix_refl _) viable
      rw [outcome] at accepted
      cases accepted

/-- A keyword stands in place of the name of the program, and a character that begins no token comes
after it: the keyword is reported. -/
theorem parse_first_error_keyword : ∃ failure expected found,
    (scan "PROGRAM VAR ?").result = .error failure ∧
      Lexeme.FirstMisfit (scan "PROGRAM VAR ?").lexemes found ∧
      (parse "PROGRAM VAR ?").outcome = .error (.error (.grammatical expected found)) := by
  have scanned : scan "PROGRAM VAR ?" =
      ⟨[⟨.mark .kwProgram, ⟨0, 7⟩⟩, ⟨.mark .kwVar, ⟨8, 11⟩⟩], some ⟨'?', ⟨12, 13⟩⟩⟩ := by
    decide +kernel
  have failed : (scan "PROGRAM VAR ?").result = .error ⟨'?', ⟨12, 13⟩⟩ := by rw [scanned]; rfl
  have misfit : ¬ Token.Viable (Lexeme.tokens (scan "PROGRAM VAR ?").lexemes) := by
    rw [scanned]
    rintro ⟨rest, tree, derived⟩
    cases derived
  obtain ⟨-, grammatical, -, -⟩ := parse_first_error "PROGRAM VAR ?"
  obtain ⟨expected, found, first, outcome⟩ := grammatical ⟨_, List.prefix_refl _, misfit⟩
  exact ⟨_, expected, found, failed, first, outcome⟩

end MiniPascal
