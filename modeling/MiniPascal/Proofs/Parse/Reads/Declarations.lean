import MiniPascal.Proofs.Parse.Reads.Statements

namespace MiniPascal

def Reading.variableGroups : Reading (List Decl) := fun passed decls _ =>
  Derives .variableGroups (Lexeme.tokens passed) (Decl.bareAll decls) ∧
    Decl.allSettled (Decl.bareAll decls) = true

def Reading.routines : Reading (List Decl) := fun passed decls _ =>
  Derives .routines (Lexeme.tokens passed) (Decl.bareAll decls) ∧
    Decl.allSettled (Decl.bareAll decls) = true

def Reading.routine : Reading Decl := fun passed decl _ =>
  Derives .routine (Lexeme.tokens passed) decl.bare ∧ decl.bare.isSettled = true

def Reading.block : Reading Block := fun passed block _ =>
  Derives .block (Lexeme.tokens passed) block.bare ∧ block.bare.isSettled = true

namespace Parser

theorem varType_reads (bound : Nat) : Reads bound varType (.of .type id) := by
  intro token
  refine .peek ?_
  split
  · exact .advance (by simp) fun lexeme shows seen => .pure (by simpa [shows] using Derives.integerType)
  · exact .advance (by simp) fun lexeme shows seen => .pure (by simpa [shows] using Derives.realType)
  · exact .unexpected ⟨[⟨.mark .kwReal, .blank⟩], .real, .mark .dot, by simpa using Derives.realType⟩

theorem typedNames_reads (fuel : Nat) : Reads fuel (typedNames fuel)
    (.of .typedNames Ident.bareGroup) := by
  intro token
  have names := sepBy_reads .comma (by decide) Ident.bare
    (fun tokens ident => ∃ name, tokens = [.ident name] ∧ ident = .plain name) fuel fun token =>
      (ident_reads fuel token).weaken fun passed ident _ ⟨lexeme, single, shows, _⟩ =>
        ⟨ident.name, by simp [single, shows], rfl⟩
  refine (names token).bind fun passed names seen read => ?_
  refine .expect (by decide) fun colon colons seen' => ?_
  refine (varType_reads _ seen').bind fun further type last typeRead => ?_
  exact .pure (by simpa [colons, Ident.bareGroup] using Derives.typedNames read typeRead)

theorem variableGroups_reads (fuel : Nat) : Reads (fuel - 1) (variableGroups fuel) .variableGroups := by
  induction fuel with
  | zero =>
    obtain ⟨passed, ⟨names, type⟩, seen, read⟩ := (typedNames_reads 0 (.mark .dot)).viable
    refine .zero ⟨passed ++ [⟨.mark .semicolon, .blank⟩], names.map (Decl.var · type), seen, ?_⟩
    rw [Reading.variableGroups, Decl.bareAll_variables]
    exact ⟨by simpa using Derives.lastVariables read, Decl.allSettled_variables _ _⟩
  | succ fuel ih =>
    intro token
    unfold variableGroups
    refine (typedNames_reads fuel token).bind fun passed (names, type) seen read => ?_
    refine .expect (by decide) fun semicolon semicolons seen' => .ifAtIdent ?_ ?_
    · refine ((ih.mono (by omega)) seen').bind fun further others last othersRead => .pure ?_
      simp only [Reading.after, Reading.variableGroups, Decl.bareAll_append, Decl.bareAll_variables,
        Decl.allSettled_append, Decl.allSettled_variables, Bool.true_and]
      exact ⟨by simpa [semicolons] using Derives.moreVariables read othersRead.1, othersRead.2⟩
    · refine .pure ?_
      simp only [Reading.after, Reading.variableGroups, Decl.bareAll_variables, Decl.allSettled_variables]
      exact ⟨by simpa [semicolons] using Derives.lastVariables read, trivial⟩

theorem parameterList_reads (fuel : Nat) :
    Reads (fuel + 1) (parameterList fuel) (.of .params (List.map Param.bare)) := by
  intro token
  refine .ifEat (by decide) ?_ ?_
  · intro _ open_ opens seen
    refine .ifEat (by decide) ?_ ?_
    · intro _ close closes last
      exact .pure (by simpa [opens, closes] using Derives.emptyParams)
    · intro _
      have groups := sepBy_reads .semicolon (by decide) Ident.bareGroup
        (Derives .typedNames) fuel (typedNames_reads fuel)
      refine (groups seen).bind fun passed groups seen' read => ?_
      refine .expect (by decide) fun close closes last => .pure ?_
      simpa [opens, closes, List.map_flatMap, List.flatMap_map, Function.comp_def, Param.bare,
        Ident.bareGroup] using Derives.someParams read
  · exact fun _ => .pure (by simpa using Derives.absentParams)

theorem routine_reads {fuel : Nat} {block : Parser Block} (kind : RoutineKind)
    (reads : Reads (fuel - 1) block .block) :
    ReadsAt (.mark kind.mark) (fuel + 1) (routine fuel block kind) .routine := by
  refine .advance (by cases kind <;> simp [RoutineKind.mark]) fun keyword keys seen => ?_
  refine .ident fun lexeme name shows seen' => ?_
  refine (((parameterList_reads fuel).mono (by omega)) seen').bind fun passed params after read => ?_
  cases kind with
  | procedure =>
    refine .expect (by decide) fun semicolon semicolons next => ?_
    refine ((reads.mono (by omega)) next).bind fun further body last bodyRead => ?_
    refine .note (.previous fun span => .pure ⟨?_, ?_⟩)
    · simpa [keys, shows, semicolons, RoutineKind.mark, Decl.bare, Heading.bare, Ident.bare,
        Block.bare] using Derives.procedure read bodyRead.1
    · exact bodyRead.2
  | function =>
    simp only [bind_map_left]
    refine .expect (by decide) fun colon colons next => ?_
    refine (varType_reads _ next).bind fun result type next' typeRead => ?_
    refine .expect (by decide) fun semicolon semicolons next'' => ?_
    refine ((reads.mono (by omega)) next'').bind fun further body last bodyRead => ?_
    refine .note (.previous fun span => .pure ⟨?_, ?_⟩)
    · simpa [keys, shows, colons, semicolons, RoutineKind.mark, Decl.bare, Heading.bare,
        Ident.bare, Block.bare] using Derives.function read typeRead bodyRead.1
    · exact bodyRead.2

theorem routines_reads {fuel : Nat} {block : Parser Block}
    (reads : Reads (fuel - 1) block .block) : Reads fuel (routines block fuel) .routines := by
  induction fuel with
  | zero => exact .zero ⟨[], [], .mark .dot, .noRoutines, rfl⟩
  | succ fuel ih =>
    intro token
    unfold routines
    have declared (kind : RoutineKind) : ReadsAt (.mark kind.mark) (fuel + 1) (do
        let first ← routine fuel block kind
        expect .semicolon
        return first :: (← routines block fuel)) .routines := by
      refine (routine_reads kind (reads.mono (by omega))).bind fun passed first seen read => ?_
      refine .expect (by decide) fun semicolon semicolons seen' => ?_
      refine ((ih (reads.mono (by omega))).mono (by omega) seen').bind ?_
      intro further others last othersRead
      refine .pure ⟨?_, ?_⟩
      · simpa [semicolons, Decl.bareAll] using Derives.moreRoutines read.1 othersRead.1
      · simp [Decl.bareAll, Decl.allSettled, read.2, othersRead.2]
    refine .peek ?_
    split
    · exact declared .procedure
    · exact declared .function
    · exact .pure ⟨.noRoutines, rfl⟩

theorem blockRest_reads {fuel : Nat} (ih : Reads (fuel - 1) (block fuel) .block) (vars : List Decl) :
    Reads fuel (do
      let nested ← routines (block fuel) fuel
      let body ← compound fuel (statement fuel)
      return Block.mk (vars ++ nested) body) fun passed result seen =>
        ∃ first rest nested body, passed = first ++ rest ∧ Reading.routines first nested seen ∧
          Reading.compound rest body seen ∧ result = ⟨vars ++ nested, body⟩ := by
  intro token
  refine (routines_reads ih token).bind fun first nested seen nestedRead => ?_
  refine ((compound_reads (statement_reads fuel)).mono (by omega) seen).bind ?_
  intro rest body last bodyRead
  exact .pure ⟨first, rest, nested, body, by simp, nestedRead, bodyRead, rfl⟩

theorem block_reads (fuel : Nat) : Reads (fuel - 1) (block fuel) .block := by
  induction fuel with
  | zero =>
    refine .zero ⟨[⟨.mark .kwBegin, .blank⟩, ⟨.mark .kwEnd, .blank⟩], ⟨[], [.empty .blank]⟩, .mark .dot, ?_, rfl⟩
    exact .block (.noVariables .noRoutines) (.compound (.statementList (.one .emptyStatement)))
  | succ fuel ih =>
    intro token
    unfold block
    refine .ifEat (by decide) ?_ ?_
    · intro _ varMark vars seen
      refine (variableGroups_reads fuel seen).bind fun passed group seen' groupRead => ?_
      refine ((blockRest_reads ih group).mono (by omega) seen').weaken ?_
      rintro _ _ _ ⟨first, rest, nested, body, rfl, nestedRead, bodyRead, rfl⟩
      refine ⟨?_, ?_⟩
      · simpa [vars, Block.bare, Decl.bareAll_append] using
          Derives.block (.someVariables groupRead.1 nestedRead.1) bodyRead.1
      · simp [Block.isSettled, Block.bare, Decl.bareAll_append, Decl.allSettled_append, groupRead.2,
          nestedRead.2, bodyRead.2]
    · intro _
      rw [pure_bind]
      refine (blockRest_reads ih [] token).weaken ?_
      rintro _ _ _ ⟨first, rest, nested, body, rfl, nestedRead, bodyRead, rfl⟩
      refine ⟨?_, ?_⟩
      · simpa [Block.bare] using Derives.block (.noVariables nestedRead.1) bodyRead.1
      · simp [Block.isSettled, Block.bare, nestedRead.2, bodyRead.2]

end Parser

end MiniPascal
