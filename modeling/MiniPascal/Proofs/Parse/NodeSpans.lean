import MiniPascal.Proofs.Parse.Builds.Rules
import MiniPascal.Proofs.Parse.Canonical
import MiniPascal.Proofs.Token.Placed

namespace MiniPascal

namespace Parser

theorem programText_builds (fuel : Nat) (view : Lexeme) :
    Builds [] view (programText fuel) fun slice last program =>
      last.token = .mark .endOfInput → program.Located (slice ++ [last]) := by
  refine .expect (by decide) fun keys seen => .ident fun name shows seen' => ?_
  refine .expect (by decide) fun ends seen'' => ?_
  refine (block_builds fuel seen'').bind fun slice dot block built => ?_
  refine .expect (by decide) fun dots last => .pure fun finishes => ?_
  simpa using Program.Located.mk keys shows ends built dots finishes

/-- A program goes up to an end of the input. -/
theorem program_located {fuel : Nat} {cursor after : Cursor} {result : Program}
    (behind : cursor.Behind []) (run : program fuel cursor = .ok result after) :
    ∃ slice last rest, cursor.remaining = slice ++ last :: rest ∧
      last.token = .mark .endOfInput ∧ result.Located (slice ++ [last]) := by
  rw [program_eq] at run
  obtain ⟨text, middle, textRun, run⟩ := ok_of_bind run
  obtain ⟨_, between, endRun, run⟩ := ok_of_bind run
  obtain ⟨slice, moves, located⟩ := programText_builds fuel _ cursor text middle behind rfl textRun
  cases run
  exact ⟨slice, middle.current, middle.rest, moves.remaining, expect_ok_view endRun,
    located (expect_ok_view endRun)⟩

end Parser

section Lexemes

variable {source : String} {lexeme : Lexeme}

/-- Every token of a source stands for a word of it, the end of the input for the empty one. -/
theorem scan_covers (listed : lexeme ∈ (scan source).lexemes) :
    ∃ word, lexeme.span.Covers source.toList word := by
  obtain ⟨lexemes, last, items, closes, words⟩ := (scan_placed source).ends
  have member := Scan.mem_items_of_lexeme listed
  rw [items, List.mem_append, List.mem_map, List.mem_singleton] at member
  rcases member with ⟨_, among, ⟨⟩⟩ | rfl
  · obtain ⟨-, word, -, covers⟩ := words lexeme among
    exact ⟨word, covers⟩
  · obtain rfl : lexeme = _ := closes
    exact ⟨[], source.toList, [], by simp, rfl, rfl⟩

theorem scan_ordered (source : String) : Lexeme.Ordered (scan source).lexemes := by
  have ordered := (scan_placed source).ordered
  rw [Scan.items, List.map_append, List.pairwise_append, List.map_map, List.pairwise_map] at ordered
  refine ordered.1.imp_of_mem fun _ listed before => ?_
  obtain ⟨word, covers⟩ := scan_covers listed
  have inside := covers.le.1
  exact ⟨Nat.le_of_lt before.1, Nat.le_trans before.2 inside⟩

/-- A token for a name stands for the name. -/
theorem scan_ident_covers {name : String} (listed : lexeme ∈ (scan source).lexemes)
    (shows : lexeme.token = .ident name) : lexeme.span.Covers source.toList name.toList := by
  obtain ⟨rule, word, denotes, covers⟩ := scan_denoted listed (by rw [shows]; exact nofun)
  rw [shows] at denotes
  cases denotes
  rwa [String.toList_ofList]

end Lexemes

section Words

variable {source : List Char} {span other : Span} {first second : List Char}

theorem Span.Covers.start (covers : span.Covers source first) :
    Span.Covers source (.point span.start) [] := by
  obtain ⟨front, back, rfl, starts, -⟩ := covers
  rw [Span.point, starts, List.append_assoc]
  exact Span.covers_point front _

/-- From the start of one word to the stop of a later one there is a word. -/
theorem Span.Covers.through (covers : span.Covers source first)
    (later : other.Covers source second) (ordered : span.start ≤ other.start) :
    ∃ word, Span.Covers source ⟨span.start, other.stop⟩ word := by
  obtain ⟨front, back, split, starts, -⟩ := covers
  obtain ⟨front', back', split', starts', stops'⟩ := later
  rw [List.append_assoc] at split
  have same : front ++ (first ++ back) = front' ++ (second ++ back') := by
    rw [← split, split', List.append_assoc]
  rcases List.append_eq_append_iff.mp same with ⟨gap, rfl, -⟩ | ⟨gap, rfl, -⟩
  · refine ⟨gap ++ second, front, back', ?_, starts, ?_⟩
    · rw [split']
      simp
    · simp only [byteLength_append] at stops' ⊢
      omega
  · have empty : byteLength gap = 0 := by
      rw [byteLength_append] at starts
      omega
    obtain rfl : gap = [] := by
      by_contra nonempty
      exact absurd empty (Nat.ne_of_gt (byteLength_pos nonempty))
    refine ⟨second, front', back', split', ?_, ?_⟩
    · simpa using starts
    · exact stops'

end Words

section Programs

variable {source : String} {program : Program}

theorem located_of_parse (parsed : (parse source).outcome = .ok program) :
    program.Located (scan source).lexemes := by
  have complete := scan_of_parse parsed
  obtain ⟨before, tokens⟩ := scan_complete complete
  have nonempty : (scan source).lexemes ≠ [] := by
    intro none
    simp [none] at tokens
  rw [parse, Scan.parse_outcome nonempty] at parsed
  split at parsed
  · rename_i result after run
    cases parsed
    have opening := @Cursor.remaining_opening _ (scan source).failure nonempty
    have behind : (Cursor.opening (scan source).failure (scan source).lexemes).Behind [] := by
      refine ⟨scan_ended source nonempty, ?_, by simp⟩
      rw [List.nil_append, opening]
      exact scan_ordered source
    obtain ⟨slice, last, rest, split, finishes, located⟩ := Parser.program_located behind run
    rw [opening] at split
    -- Nothing follows an end of the input in a scan, so the program takes all lexemes.
    have final : Lexeme.tokens rest = [] := by
      refine scan_endLast source (Lexeme.tokens slice) (Lexeme.tokens rest) ?_
      change Lexeme.tokens _ = _
      rw [split, Lexeme.tokens_append, Lexeme.tokens_cons, finishes]
    rw [List.map_eq_nil_iff.mp final] at split
    rwa [split]
  · cases parsed

theorem Lexeme.Extent.covers {slice : List Lexeme} {span : Span}
    (extent : Lexeme.Extent slice span) (within : slice <:+: (scan source).lexemes) :
    ∃ word, span.Covers source.toList word := by
  obtain ⟨first, last, starts, stops, rfl⟩ := extent
  have ordered : Lexeme.Ordered slice := (scan_ordered source).sublist within.sublist
  obtain ⟨_, covers⟩ := scan_covers (within.subset (List.mem_of_mem_head? starts))
  obtain ⟨_, later⟩ := scan_covers (within.subset (List.mem_of_getLast? stops))
  exact covers.through later (ordered.first_last starts stops).1

/-- What a node is built from is a word of the source, and of a name it is the name. -/
theorem Node.Located.covers {node : Node} {slice : List Lexeme} {next : Lexeme}
    (located : node.Located slice next) (within : slice ++ [next] <:+: (scan source).lexemes) :
    ∃ word, node.span.Covers source.toList word ∧
      ∀ name, node = .ident name → word = name.name.toList := by
  have inside : slice <:+: (scan source).lexemes := .trans ⟨[], [next], rfl⟩ within
  rcases located.extent with extent | ⟨-, rfl⟩
  · by_cases named : ∃ name, node = .ident name
    · obtain ⟨name, rfl⟩ := named
      obtain ⟨shows⟩ : name.Located slice next := located
      refine ⟨_, scan_ident_covers (inside.subset (List.mem_singleton_self _)) shows, ?_⟩
      rintro _ ⟨⟩
      rfl
    · obtain ⟨word, covers⟩ := extent.covers inside
      exact ⟨word, covers, fun name same => absurd ⟨name, same⟩ named⟩
  · obtain ⟨_, covers⟩ := scan_covers (within.subset (List.mem_concat_self))
    exact ⟨[], covers.start, by simp⟩

/-- A routine is built from its keyword up to the end of its block. -/
theorem Decl.Located.ends {heading : Heading} {declarations : List Decl} {body : List Stmt}
    {slice : List Lexeme} {next : Lexeme}
    (located : Decl.Located slice next (.routine heading declarations body)) :
    ∃ first last : Lexeme, slice.head? = some first ∧ first.token = .mark heading.kind.mark ∧
      slice.getLast? = some last ∧ last.token = .mark .kwEnd := by
  cases located with
  | routine kind keys shows parameters results ends built extent =>
    obtain ⟨declared, routines, ⟨opens, list, closes⟩⟩ := built
    refine ⟨_, _, rfl, ?_, ?_, closes⟩
    · rw [keys]
      cases results <;> rfl
    · simp [List.getLast?_append, List.getLast?_cons]

end Programs

/-- Where the nodes of a parsed program stand. The program is built from all tokens of the source,
and each node from a slice of them. Its span goes from the start of the first token of the slice to
the stop of the last, but for an empty statement: that is built from no token, and has the empty
span at the start of the next. A routine's slice goes from its keyword to the end of its block.
Every span starts and stops between characters of the source, and that of a name covers the
name. -/
theorem node_spans_exact {source : String} {program : Program}
    (parsed : (parse source).outcome = .ok program) :
    program.Located (scan source).lexemes ∧
    ∀ node, program.HasNode node → ∃ before slice next rest,
      (scan source).lexemes = before ++ (slice ++ next :: rest) ∧ node.Located slice next ∧
      ((∀ span, node ≠ .stmt (.empty span)) → Lexeme.Extent slice node.span) ∧
      (∀ span, node = .stmt (.empty span) → slice = [] ∧ span = .point next.span.start) ∧
      (∀ heading declarations body, node = .routine heading declarations body →
        ∃ first last : Lexeme, slice.head? = some first ∧ first.token = .mark heading.kind.mark ∧
          slice.getLast? = some last ∧ last.token = .mark .kwEnd) ∧
      ∃ word, node.span.Covers source.toList word ∧
        ∀ name, node = .ident name → word = name.name.toList := by
  have located := located_of_parse parsed
  refine ⟨located, fun node has => ?_⟩
  obtain ⟨slice, next, built, within⟩ := located.node has
  have covers := built.covers within
  obtain ⟨before, rest, split⟩ := within
  refine ⟨before, slice, next, rest, ?_, built, ?_, ?_, ?_, covers⟩
  · rw [← split]
    simp
  · intro nonempty
    rcases built.extent with extent | ⟨-, same⟩
    · exact extent
    · exact absurd same (nonempty _)
  · rintro span rfl
    have built : Stmt.Located slice next (.empty span) := built
    cases built
    exact ⟨rfl, rfl⟩
  · rintro heading declarations body rfl
    exact Decl.Located.ends built

/-- A program that assigns a number in parentheses. -/
def wrapping : Program :=
  ⟨⟨"P", 8, 9⟩, [], [.assign ⟨"X", 17, 18⟩ (.number (.integer 1) ⟨22, 25⟩) ⟨17, 25⟩]⟩

theorem node_spans_exact_wrapping :
    let source := "PROGRAM P; BEGIN X := (1) END."
    let number := Node.expr (.number (.integer 1) ⟨22, 25⟩)
    (parse source).outcome = .ok wrapping ∧ wrapping.HasNode number ∧
      number.span.Covers source.toList "(1)".toList ∧
      ∃ slice next, number.Located slice next ∧ Lexeme.Extent slice number.span := by
  intro source number
  have scanned : scan source =
      ⟨[⟨.mark .kwProgram, 0, 7⟩, ⟨.ident "P", 8, 9⟩, ⟨.mark .semicolon, 9, 10⟩,
        ⟨.mark .kwBegin, 11, 16⟩, ⟨.ident "X", 17, 18⟩, ⟨.mark .assign, 19, 21⟩,
        ⟨.mark .leftParen, 22, 23⟩, ⟨.integer 1, 23, 24⟩, ⟨.mark .rightParen, 24, 25⟩,
        ⟨.mark .kwEnd, 26, 29⟩, ⟨.mark .dot, 29, 30⟩, ⟨.mark .endOfInput, 30, 30⟩], none⟩ := by
    decide +kernel
  have parsed : (parse source).outcome = .ok wrapping := by
    rw [parse, scanned]
    rfl
  have assigns : wrapping.HasNode
      (.stmt (.assign ⟨"X", 17, 18⟩ (.number (.integer 1) ⟨22, 25⟩) ⟨17, 25⟩)) :=
    .block (by simp [wrapping, Block.nodes])
  have has : wrapping.HasNode number := .part assigns (by simp [number, Node.parts])
  obtain ⟨-, nodes⟩ := node_spans_exact parsed
  obtain ⟨-, slice, next, -, -, located, extent, -⟩ := nodes number has
  refine ⟨parsed, has, ?_, slice, next, located, extent (by simp [number])⟩
  exact ⟨"PROGRAM P; BEGIN X := ".toList, " END.".toList, by decide, by decide, by decide⟩

end MiniPascal
