import MiniPascal.Proofs.Grammar.Nesting
import MiniPascal.Proofs.Parse.NodeSpans

namespace MiniPascal

section

variable {source : String} {program : Program}

theorem scan_spread (source : String) : Lexeme.Spread (scan source).lexemes := by
  constructor
  · have ordered := (scan_placed source).ordered
    rw [Scan.items, List.map_append, List.pairwise_append, List.map_map,
      List.pairwise_map] at ordered
    exact ordered.1
  · intro lexeme listed
    obtain ⟨word, covers⟩ := scan_covers listed
    exact covers.le.1

theorem Program.Located.inOrder {lexemes : List Lexeme} (located : program.Located lexemes)
    (spread : Lexeme.Spread lexemes) : Node.InOrder (program.block.body.map .stmt) := by
  cases located with
  | @mk slice keyword lexeme semicolon dot last name block keys shows ends built dots finishes =>
    exact built.inOrder (spread.sub ⟨[keyword, lexeme, semicolon], [dot, last], by simp⟩)

end

/-- How the spans of a parsed program nest. The span of a node lies inside that of every node above
it, with one exception: an empty statement in which branching statements end, as a last branch. Such
a statement has its place where the token behind each of those statements starts, and that is at or
behind the stop of their spans, which is that of their own last token. The statements of a list, the
arguments of a call and the branches of a statement are in source order, with at least one byte
between any two. -/
theorem node_spans_nest {source : String} {program : Program}
    (parsed : (parse source).outcome = .ok program) :
    (∀ whole below, program.HasNode whole → whole.Below below →
      below.span.Inside whole.span ∨ ∃ span, below = .stmt (.empty span) ∧
        whole.EndsIn (.empty span) ∧ whole.span.stop ≤ span.start) ∧
    (∀ whole span, program.HasNode whole → whole.EndsIn (.empty span) →
      whole.span.stop ≤ span.start ∧ ∃ before slice next rest,
        (scan source).lexemes = before ++ (slice ++ next :: rest) ∧ whole.Located slice next ∧
        Lexeme.Extent slice whole.span ∧ span = .point next.span.start) ∧
    Node.InOrder (program.block.body.map .stmt) ∧
    ∀ whole, program.HasNode whole → Node.InOrder whole.row := by
  have located := located_of_parse parsed
  have spread := scan_spread source
  refine ⟨?_, ?_, located.inOrder spread, ?_⟩
  · intro whole below has under
    obtain ⟨slice, next, built, within⟩ := located.node has
    exact under.inside built (spread.sub within)
  · intro whole span has ends
    obtain ⟨slice, next, built, within⟩ := located.node has
    have extent := built.extent_of_parts (Node.Below.of_endsIn ends).parts_ne_nil
    have stops := built.stops (spread.sub within)
    obtain ⟨before, rest, split⟩ := within
    obtain rfl := ends.point built
    refine ⟨stops, before, slice, next, rest, ?_, built, extent, rfl⟩
    rw [← split]
    simp
  · intro whole has
    obtain ⟨slice, next, built, within⟩ := located.node has
    exact built.inOrder (spread.sub within)

def idleTest : Expr :=
  .relational (.number (.integer 1) ⟨20, 21⟩) .equal (.number (.integer 1) ⟨24, 25⟩) ⟨20, 25⟩

/-- A branching statement with nothing behind `THEN`. -/
def idleBranch : Stmt := .ifThen idleTest (.empty ⟨31, 31⟩) ⟨17, 30⟩

def idle : Program := ⟨⟨"P", 8, 9⟩, [], [idleBranch]⟩

theorem parse_idle : (parse "PROGRAM P; BEGIN IF 1 = 1 THEN END.").outcome = .ok idle := by
  have scanned : scan "PROGRAM P; BEGIN IF 1 = 1 THEN END." =
      ⟨[⟨.mark .kwProgram, 0, 7⟩, ⟨.ident "P", 8, 9⟩, ⟨.mark .semicolon, 9, 10⟩,
        ⟨.mark .kwBegin, 11, 16⟩, ⟨.mark .kwIf, 17, 19⟩, ⟨.integer 1, 20, 21⟩,
        ⟨.mark .equal, 22, 23⟩, ⟨.integer 1, 24, 25⟩, ⟨.mark .kwThen, 26, 30⟩,
        ⟨.mark .kwEnd, 31, 34⟩, ⟨.mark .dot, 34, 35⟩, ⟨.mark .endOfInput, 35, 35⟩], none⟩ := by
    decide +kernel
  rw [parse, scanned]
  rfl

theorem idle_hasNode : idle.HasNode (.stmt idleBranch) :=
  .block (by simp [idle, Block.nodes])

/-- What is compared lies inside the branching statement, and the empty branch behind it, where `END`
starts. -/
theorem node_spans_nest_idle :
    (parse "PROGRAM P; BEGIN IF 1 = 1 THEN END.").outcome = .ok idle ∧
      (Node.stmt idleBranch).Below (.expr (.number (.integer 1) ⟨24, 25⟩)) ∧
      (Node.expr (.number (.integer 1) ⟨24, 25⟩)).span.Inside (Node.stmt idleBranch).span ∧
      (Node.stmt idleBranch).EndsIn (.empty ⟨31, 31⟩) ∧ (Node.stmt idleBranch).span.stop ≤ 31 ∧
      ∃ slice next, (Node.stmt idleBranch).Located slice next ∧ next.span.start = 31 := by
  have part : (Node.stmt idleBranch).Below (.expr idleTest) :=
    .part (by simp [Node.parts, idleBranch])
  have below : (Node.stmt idleBranch).Below (.expr (.number (.integer 1) ⟨24, 25⟩)) :=
    part.deeper (by simp [Node.parts, idleTest])
  have ends : (Node.stmt idleBranch).EndsIn (.empty ⟨31, 31⟩) := .branch rfl
  obtain ⟨nest, behind, -⟩ := node_spans_nest parse_idle
  obtain ⟨stops, -, slice, next, -, -, located, -, place⟩ := behind _ _ idle_hasNode ends
  refine ⟨parse_idle, below, ?_, ends, stops, slice, next, located, ?_⟩
  · rcases nest _ _ idle_hasNode below with inside | ⟨_, ⟨⟩, -⟩
    exact inside
  · exact (congrArg Span.start place).symm

/-- A space behind `THEN` is enough to put an empty branch outside the span of its statement. -/
theorem empty_branch_outside :
    (parse "PROGRAM P; BEGIN IF 1 = 1 THEN END.").outcome = .ok idle ∧
      idle.HasNode (.stmt idleBranch) ∧ .stmt (.empty ⟨31, 31⟩) ∈ (Node.stmt idleBranch).parts ∧
      ¬ (Node.stmt (.empty ⟨31, 31⟩)).span.Inside (Node.stmt idleBranch).span := by
  refine ⟨parse_idle, idle_hasNode, by simp [Node.parts, idleBranch], ?_⟩
  rintro ⟨-, stops⟩
  exact absurd stops (by decide)

end MiniPascal
