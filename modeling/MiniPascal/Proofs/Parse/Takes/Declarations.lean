import MiniPascal.Proofs.Parse.Takes.Statements

namespace MiniPascal

theorem Derives.typedNames_start {tokens : List Token} {group : List Ident × VarType}
    (derived : Derives .typedNames tokens group) :
    ∃ first rest, tokens = first :: rest ∧ first.isIdent = true := by
  cases derived with
  | typedNames list =>
    obtain ⟨first, rest, rfl, begins⟩ := list.start Token.isIdent
      fun _ _ ⟨name, single, _⟩ => ⟨.ident name, [], single, rfl⟩
    exact ⟨first, _, rfl, begins⟩

theorem Derives.variables_start {tokens : List Token} {vars : List Decl}
    (derived : Derives .variableGroups tokens vars) :
    ∃ first rest, tokens = first :: rest ∧ first.isIdent = true := by
  cases derived with
  | lastVariables read =>
    obtain ⟨first, rest, rfl, begins⟩ := read.typedNames_start
    exact ⟨first, _, rfl, begins⟩
  | moreVariables read _ =>
    obtain ⟨first, rest, rfl, begins⟩ := read.typedNames_start
    exact ⟨first, _, rfl, begins⟩

/-- Routines and the compound after them begin with a keyword, and not with `VAR`. -/
theorem Derives.routines_start {tokens others : List Token} {decls : List Decl} {body : List Stmt}
    (routines : Derives .routines tokens decls) (compound : Derives .compound others body) :
    ∃ kind rest, tokens ++ others = .mark kind :: rest ∧ kind ≠ .kwVar := by
  cases routines with
  | noRoutines =>
    cases compound
    exact ⟨.kwBegin, _, rfl, by decide⟩
  | moreRoutines routine _ =>
    cases routine with
    | procedure => exact ⟨.kwProcedure, _, rfl, by decide⟩
    | function => exact ⟨.kwFunction, _, rfl, by decide⟩

namespace Parser

theorem varType_takes {tokens : List Token} {type : VarType} {next : Token}
    (derived : Derives .type tokens type) : Takes varType tokens next (· = type) := by
  refine .peek ?_
  cases derived with
  | integerType => exact .advance fun _ _ => .pure rfl
  | realType => exact .advance fun _ _ => .pure rfl

theorem typedNames_takes {fuel : Nat} {tokens : List Token} {group : List Ident × VarType}
    {next : Token} (derived : Derives .typedNames tokens group) (short : tokens.length ≤ fuel) :
    Takes (typedNames fuel) tokens next (Ident.bareGroup · = group) := by
  cases derived with
  | @typedNames tokens others names type list read =>
    simp only [List.length_append, List.length_cons] at short
    have items : ∀ tokens result, (∃ name, tokens = [Token.ident name] ∧ result = Ident.plain name) →
        tokens.length < fuel → ∀ token, token = .mark .comma ∨ token = .mark .colon →
        Takes ident tokens token (Ident.bare · = result) := by
      rintro _ _ ⟨name, rfl, rfl⟩ _ token _ cursor rest ahead
      obtain ⟨ident, after, run, same, left⟩ := ident_takes name token cursor rest ahead
      exact ⟨ident, after, run, congrArg Ident.plain same, left⟩
    refine (sepBy_takes (by simp) items list (by omega) (by omega)).bind fun names same => .expect ?_
    rw [← List.append_nil others]
    refine (varType_takes read).bind fun type same' => .pure ?_
    rw [Ident.bareGroup, same, same']

theorem variableGroups_takes {fuel : Nat} {tokens : List Token} {vars : List Decl} {next : Token}
    (derived : Derives .variableGroups tokens vars) (short : tokens.length ≤ fuel)
    (ends : next.isIdent = false) :
    Takes (variableGroups fuel) tokens next (Decl.bareAll · = vars) := by
  induction fuel generalizing tokens vars with
  | zero =>
    obtain ⟨first, rest, rfl, _⟩ := derived.variables_start
    simp at short
  | succ fuel ih =>
    unfold variableGroups
    cases derived with
    | @lastVariables tokens names type read =>
      simp only [List.length_append, List.length_cons, List.length_nil] at short
      refine (typedNames_takes read (by omega)).bind fun (names, type) same => .expect ?_
      refine .look (fun cursor => cursor.current.token.isIdent) atIdent_eq fun cursor view => ?_
      rw [if_neg (by simpa [view] using ends)]
      obtain ⟨rfl, rfl⟩ := Prod.mk.inj same
      exact .pure (Decl.bareAll_variables names type)
    | @moreVariables tokens others names type vars read rest =>
      simp only [List.length_append, List.length_cons] at short
      refine (typedNames_takes read (by omega)).bind fun (names, type) same => .expect ?_
      refine .look (fun cursor => cursor.current.token.isIdent) atIdent_eq fun cursor view => ?_
      have begins : cursor.current.token.isIdent = true := by
        obtain ⟨first, rest, rfl, begins⟩ := rest.variables_start
        rw [view]
        exact begins
      rw [if_pos begins, ← List.append_nil others]
      refine (ih rest (by omega)).bind fun vars same' => .pure ?_
      obtain ⟨rfl, rfl⟩ := Prod.mk.inj same
      rw [Decl.bareAll_append, Decl.bareAll_variables, same']

theorem parameterList_takes {fuel : Nat} {tokens : List Token} {params : List Param} {next : Token}
    (derived : Derives .params tokens params) (short : tokens.length ≤ fuel)
    (ends : next ≠ .mark .leftParen) :
    Takes (parameterList fuel) tokens next (List.map Param.bare · = params) := by
  cases derived with
  | absentParams => exact .leave ends (.pure rfl)
  | emptyParams => exact .eat (.eat (.pure rfl))
  | @someParams tokens groups list =>
    simp only [List.length_cons, List.length_append, List.length_nil] at short
    obtain ⟨first, rest, rfl, begins⟩ := list.start Token.isIdent fun _ _ read => read.typedNames_start
    have other : first ≠ .mark .rightParen := by
      rintro rfl
      exact absurd begins (by decide)
    refine .eat (.leave other ?_)
    have items : ∀ tokens group, Derives .typedNames tokens group → tokens.length < fuel → ∀ token,
        token = .mark .semicolon ∨ token = .mark .rightParen →
        Takes (typedNames fuel) tokens token (Ident.bareGroup · = group) :=
      fun _ _ read bounded _ _ => typedNames_takes read (by omega)
    have bounded : (first :: rest).length < fuel := by omega
    refine (sepBy_takes (by simp) items list bounded bounded).bind fun groups same => .expect ?_
    subst same
    exact .pure (by simp [List.map_flatMap, List.flatMap_map, Function.comp_def, Param.bare, Ident.bareGroup])

/-- A rule for blocks that passes the settled ones with fewer tokens than a bound. -/
def TakesBlocks (bound : Nat) (block : Parser Block) : Prop :=
  ∀ tokens tree next, Derives .block tokens tree → tree.isSettled = true → tokens.length < bound →
    Takes block tokens next (·.bare = tree)

/-- The first token of a routine tells its kind, and the rule for that kind passes it. -/
theorem routine_takes {fuel bound : Nat} {block : Parser Block} (next : Token)
    (takes : TakesBlocks bound block) {tokens : List Token} {decl : Decl} (derived : Derives .routine tokens decl)
    (settled : decl.isSettled = true) (short : tokens.length ≤ fuel) (bounded : tokens.length ≤ bound) :
    ∃ kind : RoutineKind, (∃ rest, tokens = .mark kind.mark :: rest) ∧
      Takes (routine fuel block kind) tokens next (·.bare = decl) := by
  cases derived with
  | @procedure name tokens others params tree readParams readBlock =>
    simp only [List.length_cons, List.length_append] at short bounded
    refine ⟨.procedure, ⟨_, rfl⟩, .advance fun keyword _ => .ident fun ident same => ?_⟩
    refine (parameterList_takes readParams (by omega) (by simp)).bind fun params same' => .expect ?_
    rw [← List.append_nil others]
    refine (takes others tree next readBlock settled (by omega)).bind fun body same'' => ?_
    refine .note (.previous fun span => .pure ?_)
    subst same' same''
    rw [Decl.bare, Heading.bare, Ident.bare, same]
    rfl
  | @function name tokens result others params type tree readParams readType readBlock =>
    simp only [List.length_cons, List.length_append] at short bounded
    refine ⟨.function, ⟨_, rfl⟩, .advance fun keyword _ => .ident fun ident same => ?_⟩
    refine (parameterList_takes readParams (by omega) (by simp)).bind fun params same' => ?_
    simp only [bind_map_left]
    refine .expect ((varType_takes readType).bind fun type sameType => .expect ?_)
    rw [← List.append_nil others]
    refine (takes others tree next readBlock settled (by omega)).bind fun body same'' => ?_
    refine .note (.previous fun span => .pure ?_)
    subst same' same'' sameType
    rw [Decl.bare, Heading.bare, Ident.bare, same]
    rfl

theorem routines_takes {fuel bound : Nat} {block : Parser Block} (takes : TakesBlocks bound block)
    {tokens : List Token} {decls : List Decl} {next : Token} (derived : Derives .routines tokens decls)
    (settled : Decl.allSettled decls = true) (short : tokens.length < fuel)
    (bounded : tokens.length ≤ bound) (ends : next = .mark .kwBegin) :
    Takes (routines block fuel) tokens next (Decl.bareAll · = decls) := by
  induction fuel generalizing tokens decls with
  | zero => exact absurd short (Nat.not_lt_zero _)
  | succ fuel ih =>
    unfold routines
    cases derived with
    | noRoutines =>
      subst ends
      exact .peek (.pure rfl)
    | @moreRoutines tokens others decl decls read rest =>
      simp only [List.length_append, List.length_cons] at short bounded
      simp only [Decl.allSettled, Bool.and_eq_true] at settled
      have shorter : tokens.length ≤ fuel := by omega
      obtain ⟨kind, ⟨behind, begins⟩, taken⟩ :=
        routine_takes (.mark .semicolon) takes read settled.1 shorter (by omega)
      have declared : Takes (do
          let first ← routine fuel block kind
          expect .semicolon
          return first :: (← routines block fuel)) (tokens ++ .mark .semicolon :: others) next
          (Decl.bareAll · = decl :: decls) := by
        refine taken.bind fun first same => .expect ?_
        rw [← List.append_nil others]
        refine (ih rest settled.2 (by omega) (by omega)).bind fun rest same' => .pure ?_
        rw [Decl.bareAll, same, same']
      refine .peek ?_
      have view : (tokens ++ .mark .semicolon :: others).headD next = .mark kind.mark := by
        rw [begins]
        rfl
      rw [view]
      cases kind with
      | procedure => exact declared
      | function => exact declared

theorem blockRest_takes {fuel : Nat} (takes : TakesBlocks fuel (block fuel)) {tokens others : List Token}
    {decls : List Decl} {body : List Stmt} (readDecls : Derives .routines tokens decls)
    (readBody : Derives .compound others body) (settledDecls : Decl.allSettled decls = true)
    (settledBody : Stmt.allSettled body = true) (short : tokens.length + others.length ≤ fuel)
    (vars : List Decl) (next : Token) :
    Takes (do
      let nested ← routines (block fuel) fuel
      let body ← compound fuel (statement fuel)
      return Block.mk (vars ++ nested) body) (tokens ++ others) next
      (·.bare = ⟨Decl.bareAll vars ++ decls, body⟩) := by
  obtain ⟨behind, begins⟩ : ∃ rest, others = .mark .kwBegin :: rest := by
    cases readBody
    exact ⟨_, rfl⟩
  have positive : 0 < others.length := by simp [begins]
  have view : others.headD next = .mark .kwBegin := by rw [begins]; rfl
  refine (routines_takes takes readDecls settledDecls (by omega) (by omega) view).bind ?_
  intro nested same
  rw [← List.append_nil others]
  refine (compound_takes (statement_takes fuel) readBody settledBody (by omega)).bind ?_
  intro body same'
  exact .pure (by rw [Block.bare, Decl.bareAll_append, same, same'])

theorem block_takes (fuel : Nat) : TakesBlocks fuel (block fuel) := by
  induction fuel with
  | zero => exact fun _ _ _ _ _ short => absurd short (Nat.not_lt_zero _)
  | succ fuel ih =>
    intro tokens tree next derived settled short
    unfold block
    cases derived with
    | @block tokens others declarations body readDecls readBody =>
      simp only [List.length_append] at short
      simp only [Block.isSettled, Bool.and_eq_true] at settled
      cases readDecls with
      | noVariables readRoutines =>
        obtain ⟨kind, rest, begins, other⟩ := readRoutines.routines_start readBody
        have rest := blockRest_takes ih readRoutines readBody settled.1 settled.2 (by omega) [] next
        refine .leave (by rw [begins]; simpa using other) ?_
        rw [pure_bind]
        exact rest
      | @someVariables vars routines varDecls decls readVars readRoutines =>
        simp only [List.length_cons, List.length_append] at short
        simp only [Decl.allSettled_append, Bool.and_eq_true] at settled
        obtain ⟨kind, rest, begins, other⟩ := readRoutines.routines_start readBody
        rw [List.cons_append, List.append_assoc]
        refine .eat ((variableGroups_takes readVars (by omega) (by rw [begins]; rfl)).bind ?_)
        rintro group rfl
        exact blockRest_takes ih readRoutines readBody settled.1.2 settled.2 (by omega) group next

end Parser

end MiniPascal
