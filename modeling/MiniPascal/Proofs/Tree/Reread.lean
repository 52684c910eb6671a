import MiniPascal.Interpret
import MiniPascal.Proofs.Parse.Bounds
import MiniPascal.Proofs.Token.Placed
import MiniPascal.Proofs.Tree.RoundTrip

namespace MiniPascal

/-- The offsets of a program have 64 bits. -/
def Program.OffsetsFit (program : Program) : Prop :=
  ∀ span, Leaf.span span ∈ program.leaves → span.Fits

/-- The real literals of a program are finite. -/
def Program.RealsFinite (program : Program) : Prop :=
  ∀ literal, Leaf.literal literal ∈ program.leaves → literal.Finite

theorem Program.restorable_iff (program : Program) :
    Leaf.All Leaf.Restorable program.leaves ↔ program.OffsetsFit ∧ program.RealsFinite := by
  constructor
  · exact fun all => ⟨fun span => all (.span span), fun literal => all (.literal literal)⟩
  · rintro ⟨fit, finite⟩ (span | literal) member
    · exact fit span member
    · exact finite literal member

/-- The tokens of a source end with the source. -/
theorem scan_within (source : String) :
    ∀ lexeme ∈ (scan source).lexemes, lexeme.span.Within source.utf8ByteSize := by
  intro lexeme member
  have listed : .ok lexeme ∈ (scan source).items := by
    rw [Scan.items]
    exact List.mem_append_left _ (List.mem_map_of_mem member)
  obtain ⟨lexemes, last, items, closes, words⟩ := (scan_placed source).ends
  rw [items, List.mem_append, List.mem_singleton] at listed
  rw [← byteLength_toList]
  rcases listed with inside | rfl
  · obtain ⟨_, known, ⟨⟩⟩ := List.mem_map.mp inside
    obtain ⟨-, word, -, covers⟩ := words lexeme known
    exact ⟨Nat.le_trans covers.le.1 covers.le.2, covers.le.2⟩
  · rw [show lexeme.span = .point (byteLength source.toList) from congrArg Lexeme.span closes]
    exact ⟨Nat.le_refl _, Nat.le_refl _⟩

/-- A tree from a source of less than 2^64 bytes has offsets of 64 bits. -/
theorem parse_offsetsFit {source : String} {program : Program}
    (short : source.utf8ByteSize < UInt64.size) (parses : (parse source).outcome = .ok program) :
    program.OffsetsFit := by
  intro span member
  have within : span.Within source.utf8ByteSize :=
    Scan.parse_within (scan_within source) parses _ member
  exact ⟨Nat.lt_of_le_of_lt within.1 short, Nat.lt_of_le_of_lt within.2 short⟩

/-- Data of a tree gives back the tree exactly when its reals are finite; a real that is not becomes
`null`, and the data gives no tree. So a source runs like the tree that is read back from the data of
its own tree. This is about trees and their data: the JSON library's reader of texts, with its limit
of 128 on nesting, lies outside. -/
theorem tree_round_trip :
    (∀ program : Program, program.OffsetsFit →
      (Program.ofJson? program.toJson = some program ↔ program.RealsFinite) ∧
      (Program.ofJson? program.toJson = none ↔ ¬ program.RealsFinite)) ∧
    (∀ value : Float, value.isFinite = false →
      (Literal.real value).toJson = .tag "Real" .null) ∧
    ∀ (source : String) (program : Program), source.utf8ByteSize < UInt64.size →
      (parse source).outcome = .ok program → program.RealsFinite →
      ∃ reread, Program.ofJson? program.toJson = some reread ∧
        ∀ (config : Config) (fuel : Nat) (sink : Sink),
          (interpret config fuel sink source).outcome =
              (reread.interpret config fuel sink).outcome ∧
            (interpret config fuel sink source).sink = (reread.interpret config fuel sink).sink ∧
            (interpret config fuel sink source).log =
              (parse source).events.map ParseEvent.entry ++
                (reread.interpret config fuel sink).log := by
  refine ⟨?_, ?_, ?_⟩
  · intro program fit
    have restores := (program.restores.imp program.restorable_iff).imp (and_iff_right fit)
    exact ⟨restores.eq_some_iff, restores.eq_none_iff⟩
  · intro value infinite
    rw [Literal.toJson, Json.ofReal, infinite]
    rfl
  · intro source program short parses finite
    have restores := program.restores.imp program.restorable_iff
    refine ⟨program, restores.eq_some_iff.mpr ⟨parse_offsetsFit short parses, finite⟩, ?_⟩
    intro config fuel sink
    rw [interpret, parses]
    exact ⟨rfl, rfl, rfl⟩

/-- A program that assigns a number. -/
def assigning : Program :=
  ⟨⟨"P", 8, 9⟩, [], [.assign ⟨"X", 17, 18⟩ (.number (.integer 1) ⟨22, 23⟩) ⟨17, 23⟩]⟩

theorem parse_assigning : (parse "PROGRAM P; BEGIN X := 1 END.").outcome = .ok assigning := by
  have scanned : scan "PROGRAM P; BEGIN X := 1 END." =
      ⟨[⟨.mark .kwProgram, 0, 7⟩, ⟨.ident "P", 8, 9⟩, ⟨.mark .semicolon, 9, 10⟩,
        ⟨.mark .kwBegin, 11, 16⟩, ⟨.ident "X", 17, 18⟩, ⟨.mark .assign, 19, 21⟩,
        ⟨.integer 1, 22, 23⟩, ⟨.mark .kwEnd, 24, 27⟩, ⟨.mark .dot, 27, 28⟩,
        ⟨.mark .endOfInput, 28, 28⟩], none⟩ := by
    decide +kernel
  rw [parse, scanned]
  rfl

theorem tree_round_trip_assigning :
    Program.ofJson? assigning.toJson = some assigning ∧
      ∃ reread, Program.ofJson? assigning.toJson = some reread ∧
        (interpret .default 9 (.empty none) "PROGRAM P; BEGIN X := 1 END.").outcome =
          (reread.interpret .default 9 (.empty none)).outcome := by
  have short : "PROGRAM P; BEGIN X := 1 END.".utf8ByteSize < UInt64.size := by decide
  have finite : assigning.RealsFinite := by
    intro literal member
    obtain rfl : literal = .integer 1 := by
      simpa [assigning, Program.leaves, Decl.leavesIn, Stmt.leavesIn, Stmt.leaves, Expr.leaves]
        using member
    trivial
  have fit := parse_offsetsFit short parse_assigning
  obtain ⟨reread, read, same⟩ := tree_round_trip.2.2 _ assigning short parse_assigning finite
  exact ⟨(tree_round_trip.1 assigning fit).1.mpr finite, reread, read,
    (same .default 9 (.empty none)).1⟩

end MiniPascal
