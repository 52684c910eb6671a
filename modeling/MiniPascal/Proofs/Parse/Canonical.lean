import MiniPascal.Proofs.Grammar.Canonical
import MiniPascal.Proofs.Parse.FirstError

namespace MiniPascal

/-- A text whose tokens have a settled derivation is parsed as the tree derived. -/
theorem parse_of_derives {source : String} {lexemes : List Lexeme} {tree : Program}
    (scanned : scan source = ⟨lexemes, none⟩)
    (derived : Derives .program (Lexeme.tokens lexemes) tree) (settled : tree.isSettled = true) :
    ∃ parsed, (parse source).outcome = .ok parsed ∧ parsed.bare = tree := by
  have nonempty : lexemes ≠ [] := by
    rintro rfl
    cases derived
  rw [← Cursor.tokens_opening nonempty] at derived
  have short : (Cursor.opening none lexemes).tokens.length < lexemes.length + 3 := by
    simp [Cursor.tokens_opening nonempty, Lexeme.tokens]
  obtain ⟨parsed, after, run, same⟩ :=
    Parser.program_complete _ derived settled Cursor.failure_opening short
  refine ⟨parsed, ?_, same⟩
  rw [parse, scanned, Scan.parse_outcome nonempty, run]

/-- Only a text that is scanned to its end is parsed. -/
theorem scan_of_parse {source : String} {parsed : Program}
    (accepted : (parse source).outcome = .ok parsed) : (scan source).failure = none := by
  cases failed : (scan source).failure with
  | none => rfl
  | some failure =>
    by_cases viable : Token.Viable (Lexeme.tokens (scan source).lexemes)
    · rw [parse_lexical failed viable] at accepted
      cases accepted
    · obtain ⟨found, misfit⟩ := Lexeme.exists_firstMisfit (List.prefix_refl _) viable
      obtain ⟨expected, outcome⟩ := parse_grammatical misfit
      rw [outcome] at accepted
      cases accepted

theorem derives_of_parse {source : String} {parsed : Program}
    (accepted : (parse source).outcome = .ok parsed) :
    Derives .program (Lexeme.tokens (scan source).lexemes) parsed.bare ∧
      parsed.bare.isSettled = true := by
  have complete := scan_of_parse accepted
  obtain ⟨before, free, tokens⟩ := Scan.startingAt_tokens 0 0 source.toList
  rw [← scan, if_pos complete] at tokens
  have nonempty : (scan source).lexemes ≠ [] := by
    intro none
    simp [none] at tokens
  rw [parse, Scan.parse_outcome nonempty, complete] at accepted
  split at accepted
  · rename_i result after run
    cases accepted
    have once : Token.EndOnce (Cursor.opening none (scan source).lexemes).tokens := by
      rw [Cursor.tokens_opening nonempty]
      exact ⟨before, tokens, free⟩
    have short : (Cursor.opening none (scan source).lexemes).rest.length <
        (scan source).lexemes.length := Cursor.length_opening nonempty
    have derived := Parser.program_sound _ once (by omega) run
    rwa [Cursor.tokens_opening nonempty] at derived
  · cases accepted

/-- Every tree that can be written is the one that its canonical text is parsed as, and every tree
that a text is parsed as can be written. The canonical text has no parentheses that an expression
can do without. -/
theorem canonical_text_parses :
    (Nonempty RealSpelling ∧ ∀ (reals : RealSpelling) (program : Program), program.WellShaped →
      ∃ parsed, (parse (program.text reals)).outcome = .ok parsed ∧ parsed.bare = program.bare) ∧
    (∀ source parsed, (parse source).outcome = .ok parsed → parsed.WellShaped) ∧
    ∀ tokens expr, Derives .expr tokens expr → expr.tokens.Sublist tokens := by
  refine ⟨⟨RealSpelling.exists, ?_⟩, ?_, fun _ _ derived => Expr.tokens_sublist derived⟩
  · intro reals program shaped
    obtain ⟨lexemes, tokens, scanned⟩ := scan_spelled reals shaped.spellable
    refine parse_of_derives scanned ?_ (program.isSettled_bare.trans shaped.settled)
    rw [Lexeme.tokens, tokens]
    exact shaped.derives
  · intro source parsed accepted
    obtain ⟨derived, settled⟩ := derives_of_parse accepted
    obtain ⟨named, shaped⟩ := derived.program_shaped (scan_readable source)
    exact .of_bare ⟨named, shaped, settled⟩

/-- A name that begins with a keyword, a branch that an `ELSE` would enter, a quote in a string, and
an operand that needs its parentheses beside one that needs none. -/
def enclosing : Program :=
  let x := Expr.var "x" .blank
  let number (value : Int64) := Expr.number (.integer value) .blank
  ⟨.plain "endx", [.var (.plain "x") .real],
    [.ifElse (.relational x .less (number 2) .blank)
      (.compound [.ifThen (.relational x .equal (number 0) .blank) (.empty .blank) .blank] .blank)
      (.call (.plain "p") [.text "it's" .blank,
        .binary (number 1) .sub (.binary x .sub (.unary .minus x .blank) .blank) .blank] .blank)
      .blank]⟩

theorem canonical_text_parses_enclosing :
    (enclosing.WellShaped ∧ ∀ reals : RealSpelling,
      enclosing.text reals = "PROGRAM endx ; VAR x : REAL ; BEGIN IF x < 2 THEN " ++
        "BEGIN IF x = 0 THEN END ELSE p ( 'it''s' , 1 - ( x - - x ) ) END ." ∧
      ∃ parsed, (parse (enclosing.text reals)).outcome = .ok parsed ∧ parsed.bare = enclosing ∧
        parsed.WellShaped) ∧
    Derives .expr [.mark .leftParen, .ident "x", .mark .rightParen] (.var "x" .blank) ∧
    (Expr.var "x" .blank).tokens.Sublist [.mark .leftParen, .ident "x", .mark .rightParen] := by
  have x : (Expr.var "x" .blank).WellShaped := .var (by decide +kernel)
  have number (value : Int64) (nonnegative : 0 ≤ value.toInt) :
      (Expr.number (.integer value) .blank).WellShaped := .number nonnegative
  have block : enclosing.block.WellShaped := by
    refine ⟨⟨enclosing.block.declarations, [], rfl, List.forall_mem_singleton.mpr rfl,
      List.forall_mem_nil _⟩, ?_, List.cons_ne_nil _ _, List.forall_mem_singleton.mpr ?_⟩
    · exact List.forall_mem_singleton.mpr (.var (by decide +kernel))
    refine .ifElse (.relational x (number 2 (by decide))) (.compound (List.cons_ne_nil _ _) ?_) ?_
    · exact List.forall_mem_singleton.mpr (.ifThen (.relational x (number 0 (by decide))) .empty)
    · refine .call (by decide +kernel) (List.forall_mem_cons.mpr ⟨.text, ?_⟩)
      exact List.forall_mem_singleton.mpr (.binary (number 1 (by decide)) (.binary x (.unary x)))
  have shaped : enclosing.WellShaped := ⟨by decide +kernel, block, rfl⟩
  have name : Derives .expr [.ident "x"] (.var "x" .blank) :=
    .expr (.operand (.term (.operand .var)))
  have enclosed : Derives .expr [.mark .leftParen, .ident "x", .mark .rightParen] (.var "x" .blank) :=
    .expr (.operand (.term (.operand (.parentheses name))))
  refine ⟨⟨shaped, fun reals => ⟨?_, ?_⟩⟩, enclosed, canonical_text_parses.2.2 _ _ enclosed⟩
  · set_option maxRecDepth 1000 in rfl
  · obtain ⟨parsed, accepted, same⟩ := canonical_text_parses.1.2 reals enclosing shaped
    exact ⟨parsed, accepted, same, canonical_text_parses.2.1 _ parsed accepted⟩

end MiniPascal
