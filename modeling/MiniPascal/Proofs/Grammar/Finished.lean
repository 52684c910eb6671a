import MiniPascal.Proofs.Grammar.Derives
import MiniPascal.Proofs.Parse.Reads

namespace MiniPascal

/-- What is reported of a routine: its name and the number of its parameters. -/
structure Signature where
  name : String
  params : Nat
deriving DecidableEq

def Signature.event (signature : Signature) : ParseEvent :=
  .parsedRoutine signature.name signature.params

def Heading.signature (heading : Heading) : Signature := ⟨heading.name.name, heading.params.length⟩

mutual

/-- The routines of a declaration in post-order: a routine stands behind those that it contains, and
routines side by side stand in the order of the source. -/
def Decl.postOrder : Decl → List Signature
  | .var _ _ => []
  | .routine heading declarations _ => postOrderAll declarations ++ [heading.signature]

def Decl.postOrderAll : List Decl → List Signature
  | [] => []
  | first :: rest => first.postOrder ++ postOrderAll rest

end

def Program.postOrder (program : Program) : List Signature :=
  Decl.postOrderAll program.block.declarations

namespace Token

/-- How many names are declared in a list in parentheses, if one begins here. -/
def declared : List Token → Nat
  | .mark .leftParen :: rest => (rest.takeWhile (· ≠ .mark .rightParen)).countP isIdent
  | _ => 0

/-- The routine that is announced behind `PROCEDURE` or `FUNCTION`. -/
def announced : List Token → List Signature
  | .ident name :: rest => [⟨name, declared rest⟩]
  | _ => []

/-- The routines whose blocks end among some tokens, in the order of their ends. Routines with a
heading already read wait for the end of their blocks, the innermost first; `depth` counts the open
`BEGIN`s. -/
def finished (waiting : List Signature) (depth : Nat) : List Token → List Signature
  | [] => []
  | .mark .kwProcedure :: rest | .mark .kwFunction :: rest =>
    finished (announced rest ++ waiting) depth rest
  | .mark .kwBegin :: rest => finished waiting (depth + 1) rest
  | .mark .kwEnd :: rest =>
    -- The outermost `END` is that of a block: of a routine, or of the program if none waits.
    if depth = 1 then waiting.take 1 ++ finished (waiting.drop 1) 0 rest
    else finished waiting (depth - 1) rest
  | _ :: rest => finished waiting depth rest

/-- Does a token begin or end a block, or announce a routine? -/
def isFraming : Token → Bool
  | .mark .kwProcedure | .mark .kwFunction | .mark .kwBegin | .mark .kwEnd => true
  | _ => false

@[simp] theorem isFraming_ident (name : String) : (ident name).isFraming = false := rfl

@[simp] theorem isFraming_integer (value : Int64) : (integer value).isFraming = false := rfl

@[simp] theorem isFraming_real (value : Float) : (real value).isFraming = false := rfl

@[simp] theorem isFraming_text (value : String) : (text value).isFraming = false := rfl

/-- None of these tokens begins or ends a block or announces a routine. -/
def Plain (tokens : List Token) : Prop := ∀ token ∈ tokens, token.isFraming = false

@[simp] theorem plain_nil : Plain [] := nofun

@[simp] theorem plain_cons {token : Token} {tokens : List Token} :
    Plain (token :: tokens) ↔ token.isFraming = false ∧ Plain tokens := List.forall_mem_cons

@[simp] theorem plain_append {tokens others : List Token} :
    Plain (tokens ++ others) ↔ Plain tokens ∧ Plain others := List.forall_mem_append

variable {waiting : List Signature} {depth : Nat} {tokens rest : List Token}

theorem finished_cons_of_plain {token : Token} (plain : token.isFraming = false) :
    finished waiting depth (token :: rest) = finished waiting depth rest := by
  cases token with
  | mark kind => cases kind <;> first | rfl | cases plain
  | ident | integer | real | text => rfl

theorem finished_append_of_plain (plain : Plain tokens) :
    finished waiting depth (tokens ++ rest) = finished waiting depth rest := by
  induction tokens with
  | nil => rfl
  | cons token tokens ih =>
    rw [plain_cons] at plain
    rw [List.cons_append, finished_cons_of_plain plain.1, ih plain.2]

theorem finished_of_plain (plain : Plain tokens) : finished waiting depth tokens = [] := by
  simpa [finished] using @finished_append_of_plain waiting depth tokens [] plain

/-- Without an `END` no block ends. -/
theorem finished_of_noEnds (noEnds : .mark .kwEnd ∉ tokens) : finished waiting depth tokens = [] := by
  fun_induction finished waiting depth tokens with
  | case1 => rfl
  | case2 _ _ rest ih | case3 _ _ rest ih | case4 _ _ rest ih =>
    exact ih fun among => noEnds (List.mem_cons_of_mem _ among)
  | case5 | case6 => exact absurd List.mem_cons_self noEnds
  | case7 _ _ _ rest _ _ _ _ ih => exact ih fun among => noEnds (List.mem_cons_of_mem _ among)

/-- No routine is announced among these tokens. -/
def NoRoutines (tokens : List Token) : Prop := ∀ kind : RoutineKind, .mark kind.mark ∉ tokens

theorem noRoutines_cons {token : Token} :
    NoRoutines (token :: tokens) ↔
      (∀ kind : RoutineKind, token ≠ .mark kind.mark) ∧ NoRoutines tokens := by
  simp only [NoRoutines, List.mem_cons, not_or, forall_and, ne_eq, eq_comm]

theorem noRoutines_append {others : List Token} :
    NoRoutines (tokens ++ others) ↔ NoRoutines tokens ∧ NoRoutines others := by
  simp only [NoRoutines, List.mem_append, not_or, forall_and]

theorem Plain.noRoutines (plain : Plain tokens) : NoRoutines tokens := by
  intro kind among
  have framing := plain _ among
  cases kind <;> cases framing

/-- Where no routine is announced, more tokens do not change which routines have ended. -/
theorem NoRoutines.finished_isPrefix (noRoutines : NoRoutines tokens) :
    finished waiting depth tokens <+: finished waiting depth (tokens ++ rest) := by
  fun_induction finished waiting depth tokens with
  | case1 => exact List.nil_prefix
  | case2 => exact absurd List.mem_cons_self (noRoutines .procedure)
  | case3 => exact absurd List.mem_cons_self (noRoutines .function)
  | case4 waiting depth others ih => exact ih (noRoutines_cons.mp noRoutines).2
  | case5 waiting others ih =>
    exact (List.prefix_append_right_inj _).mpr (ih (noRoutines_cons.mp noRoutines).2)
  | case6 waiting depth others inner ih =>
    rw [List.cons_append, finished, if_neg inner]
    exact ih (noRoutines_cons.mp noRoutines).2
  | case7 waiting depth token others _ _ _ _ ih =>
    rw [List.cons_append, finished]
    · exact ih (noRoutines_cons.mp noRoutines).2
    all_goals assumption

/-- Tokens that may stand inside a block: every `BEGIN` has its `END`. -/
structure Balanced (tokens : List Token) : Prop where
  noRoutines : NoRoutines tokens
  skips : ∀ waiting depth rest,
    finished waiting (depth + 1) (tokens ++ rest) = finished waiting (depth + 1) rest

theorem Plain.balanced (plain : Plain tokens) : Balanced tokens :=
  ⟨plain.noRoutines, fun _ _ _ => finished_append_of_plain plain⟩

theorem Balanced.append_iff {others : List Token} (balanced : Balanced tokens) :
    Balanced (tokens ++ others) ↔ Balanced others := by
  constructor
  · intro both
    refine ⟨(noRoutines_append.mp both.noRoutines).2, fun waiting depth rest => ?_⟩
    rw [← balanced.skips, ← List.append_assoc, both.skips]
  · intro next
    refine ⟨noRoutines_append.mpr ⟨balanced.noRoutines, next.noRoutines⟩, fun _ _ _ => ?_⟩
    rw [List.append_assoc, balanced.skips, next.skips]

theorem balanced_cons {token : Token} (plain : token.isFraming = false) :
    Balanced (token :: tokens) ↔ Balanced tokens :=
  Balanced.append_iff (Plain.balanced (plain_cons.mpr ⟨plain, plain_nil⟩))

theorem Balanced.compound (balanced : Balanced tokens) :
    Balanced (.mark .kwBegin :: (tokens ++ [.mark .kwEnd])) := by
  constructor
  · rw [noRoutines_cons, noRoutines_append, noRoutines_cons]
    exact ⟨nofun, balanced.noRoutines, nofun, nofun⟩
  · intro waiting depth rest
    rw [List.cons_append, List.append_assoc, finished, balanced.skips]
    rfl

/-- No routine ends in what stands inside a block, however much of it is read. -/
theorem Balanced.finished_front (balanced : Balanced (tokens ++ rest)) :
    finished waiting (depth + 1) tokens = [] := by
  have isPrefix := @NoRoutines.finished_isPrefix waiting (depth + 1) tokens rest
    (noRoutines_append.mp balanced.noRoutines).1
  have nothing := balanced.skips waiting depth []
  rw [List.append_nil] at nothing
  rw [nothing] at isPrefix
  exact List.prefix_nil.mp isPrefix

end Token

/-- What the tokens of a nonterminal may be, if there is no routine in them. -/
def Nonterminal.Framed : Nonterminal → List Token → Prop
  | program | block | declarations | routines | routine => fun _ => True
  | compound | statementList | statement | assignment | call | conditional | loop => Token.Balanced
  | variableGroups | params | typedNames | type | condition | expr | term | factor | arguments =>
    Token.Plain

@[simp] theorem BinaryOp.mark_isFraming (op : BinaryOp) : (Token.mark op.mark).isFraming = false := by
  cases op <;> rfl

@[simp] theorem RelationalOp.mark_isFraming (op : RelationalOp) :
    (Token.mark op.mark).isFraming = false := by
  cases op <;> rfl

@[simp] theorem UnaryOp.mark_isFraming (op : UnaryOp) : (Token.mark op.mark).isFraming = false := by
  cases op <;> rfl

theorem Separated.plain_idents {tokens : List Token} {idents : List Ident}
    (list : Separated .comma
      (fun tokens ident => ∃ name, tokens = [.ident name] ∧ ident = .plain name) tokens idents) :
    Token.Plain tokens := by
  induction list with
  | one item =>
    obtain ⟨name, rfl, -⟩ := item
    simp
  | more item rest ih =>
    obtain ⟨name, rfl, -⟩ := item
    simp +decide [ih]

/-- Blocks lie in statements, and routines only in declarations. -/
theorem Derives.framed {symbol : Nonterminal} {tokens : List Token} {tree : symbol.Tree}
    (derived : Derives symbol tokens tree) : symbol.Framed tokens := by
  -- One motive for the derivations, and one for each kind of list or chain inside them.
  apply @Derives.rec (fun symbol tokens _ _ => symbol.Framed tokens)
    (fun tokens _ _ => Token.Plain tokens) (fun tokens _ _ => Token.Balanced tokens)
    (fun tokens _ _ => Token.Plain tokens) (fun tokens _ _ => Token.Plain tokens)
    (fun tokens _ _ => Token.Plain tokens)
  case t => exact derived
  case typedNames =>
    intro tokens others names type list _ plain
    simp_all +decide [Nonterminal.Framed, list.plain_idents]
  all_goals
    intros
    simp_all +decide [Nonterminal.Framed, Token.Plain.balanced, Token.balanced_cons,
      Token.Balanced.append_iff, Token.Balanced.compound]

section Headings

variable {tokens : List Token}

theorem Separated.idents_declared {idents : List Ident}
    (list : Separated .comma
      (fun tokens ident => ∃ name, tokens = [.ident name] ∧ ident = .plain name) tokens idents) :
    .mark .rightParen ∉ tokens ∧ tokens.countP Token.isIdent = idents.length := by
  induction list with
  | one item =>
    obtain ⟨name, rfl, -⟩ := item
    simp [Token.isIdent]
  | more item rest ih =>
    obtain ⟨name, rfl, -⟩ := item
    simp [List.countP_cons, Token.isIdent, ih]

theorem Derives.typedNames_declared {group : List Ident × VarType}
    (derived : Derives .typedNames tokens group) :
    .mark .rightParen ∉ tokens ∧ tokens.countP Token.isIdent = group.1.length := by
  cases derived with
  | typedNames list type =>
    have declared := list.idents_declared
    cases type <;> simp [Token.isIdent, declared]

theorem Separated.groups_declared {groups : List (List Ident × VarType)}
    (list : Separated .semicolon (Derives .typedNames) tokens groups) :
    .mark .rightParen ∉ tokens ∧ tokens.countP Token.isIdent =
      (groups.flatMap fun (names, type) => names.map (Param.mk · type)).length := by
  induction list with
  | one item => simpa using item.typedNames_declared
  | more item rest ih =>
    have declared := item.typedNames_declared
    simp [Token.isIdent, declared, ih]

/-- The names in the parentheses of a heading are those of its parameters. -/
theorem Derives.params_declared {params : List Param} (derived : Derives .params tokens params)
    {next : Token} (other : next ≠ .mark .leftParen) (rest : List Token) :
    Token.declared (tokens ++ next :: rest) = params.length := by
  cases derived with
  | absentParams =>
    rw [List.nil_append, Token.declared]
    · rfl
    · rintro _ ⟨⟩
      exact other rfl
  | emptyParams => rfl
  | @someParams tokens groups list =>
    obtain ⟨inside, count⟩ := list.groups_declared
    have names : (tokens ++ .mark .rightParen :: next :: rest).takeWhile
        (· ≠ .mark .rightParen) = tokens := by
      rw [List.takeWhile_append_of_pos]
      · simp
      · intro token among
        have differs : token ≠ .mark .rightParen := fun same => inside (same ▸ among)
        simpa using differs
    simp only [List.cons_append, List.append_assoc, List.nil_append, Token.declared, names, count]

variable {waiting : List Signature} {depth : Nat}

/-- Behind its heading a routine waits for the end of its block. -/
theorem Derives.finished_heading {params : List Param} (derived : Derives .params tokens params)
    (kind : RoutineKind) (name : String) {next : Token} {others : List Token}
    (other : next ≠ .mark .leftParen) (plain : Token.Plain (next :: others)) (rest : List Token) :
    Token.finished waiting depth
        (.mark kind.mark :: .ident name :: (tokens ++ next :: (others ++ rest))) =
      Token.finished (⟨name, params.length⟩ :: waiting) depth rest := by
  have announces : Token.announced (.ident name :: (tokens ++ next :: (others ++ rest))) =
      [⟨name, params.length⟩] := by
    rw [Token.announced, derived.params_declared other]
  have header : Token.Plain (.ident name :: (tokens ++ next :: others)) := by
    have inside : Token.Plain tokens := derived.framed
    simp_all
  calc
    _ = Token.finished (⟨name, params.length⟩ :: waiting) depth
        (.ident name :: (tokens ++ next :: (others ++ rest))) := by
      cases kind <;> rw [RoutineKind.mark, Token.finished, announces] <;> rfl
    _ = Token.finished (⟨name, params.length⟩ :: waiting) depth
        ((.ident name :: (tokens ++ next :: others)) ++ rest) := by simp
    _ = _ := Token.finished_append_of_plain header

end Headings

section Trees

theorem Decl.postOrderAll_append (decls others : List Decl) :
    postOrderAll (decls ++ others) = postOrderAll decls ++ postOrderAll others := by
  induction decls with
  | nil => rfl
  | cons first rest ih => rw [List.cons_append, postOrderAll, postOrderAll, ih, List.append_assoc]

theorem Decl.postOrderAll_variables (names : List Ident) (type : VarType) :
    postOrderAll (names.map (Decl.var · type)) = [] := by
  induction names with
  | nil => rfl
  | cons first rest ih => exact ih

mutual

theorem Decl.postOrder_bare : ∀ decl : Decl, decl.bare.postOrder = decl.postOrder
  | .var _ _ => rfl
  | .routine heading declarations body => by
    rw [Decl.bare, Decl.postOrder, Decl.postOrder, Decl.postOrderAll_bare declarations]
    simp [Heading.signature, Heading.bare, Ident.bare, Ident.plain]

theorem Decl.postOrderAll_bare : ∀ decls : List Decl,
    Decl.postOrderAll (Decl.bareAll decls) = Decl.postOrderAll decls
  | [] => rfl
  | first :: rest => by
    rw [Decl.bareAll, Decl.postOrderAll, Decl.postOrderAll, first.postOrder_bare,
      Decl.postOrderAll_bare rest]

end

/-- Groups of variables declare no routines. -/
theorem Derives.postOrderAll_variableGroups {tokens : List Token} {decls : List Decl}
    (derived : Derives .variableGroups tokens decls) : Decl.postOrderAll decls = [] := by
  cases derived with
  | lastVariables names => exact Decl.postOrderAll_variables _ _
  | moreVariables names others =>
    rw [Decl.postOrderAll_append, Decl.postOrderAll_variables, others.postOrderAll_variableGroups]
    rfl
termination_by tokens.length
decreasing_by
  subst_vars
  simp only [List.length_append, List.length_cons]
  omega

end Trees

end MiniPascal
