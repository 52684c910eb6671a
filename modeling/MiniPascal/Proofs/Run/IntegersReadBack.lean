import Mathlib.Algebra.Group.Nat.Defs
import MiniPascal.Proofs.Layout.Running
import MiniPascal.Proofs.Parse.FirstError
import MiniPascal.Proofs.Token.Literals

namespace MiniPascal

/-- What a line with a value shows, up to its end. -/
def Printed (value : Value) (text : String) : Prop :=
  (Builtin.writeln.run [value] (.empty none)).1.taken = (text ++ "\n").toUTF8

/-- The tokens of a program that assigns to an integer variable, up to the value. -/
def assignmentOpening (name target : String) : List Token :=
  [.mark .kwProgram, .ident name, .mark .semicolon, .mark .kwVar, .ident target, .mark .colon,
    .mark .kwInteger, .mark .semicolon, .mark .kwBegin, .ident target, .mark .assign]

/-- The tokens of such a program behind the value. -/
def assignmentEnding : List Token := [.mark .kwEnd, .mark .dot, .mark .endOfInput]

/-- The tree of such a program, without places. -/
def assignmentTree (name target : String) (value : Expr) : Program :=
  ⟨.plain name, [.var (.plain target) .integer], [.assign (.plain target) value .blank]⟩

/-- A source that assigns a text to an integer variable, in any layout. -/
structure AssignsText (source name target : String) (front : List Char) (text back : String) :
    Prop where
  opens : ∃ lexemes, ComesTo source.toList front lexemes (text.toList ++ back.toList) ∧
    Lexeme.tokens lexemes = assignmentOpening name target
  closes : Lexeme.tokens (scan back).lexemes = assignmentEnding
  apart : EndsInteger back.toList

section Printing

theorem printed_iff {value : Value} {text : String} : Printed value text ↔ text = value.display := by
  have taken : (Builtin.writeln.run [value] (.empty none)).1.taken =
      (value.display ++ "\n").toUTF8 := by
    simp [Builtin.run, Builtin.output, Sink.writeAll, Sink.write, Sink.empty]
  rw [Printed, taken]
  constructor
  · intro same
    have texts := String.toByteArray_inj.mp same
    exact (String.append_left_inj "\n").mp texts.symm
  · rintro rfl
    rfl

/-- Integers are written in decimal, the negative ones behind a sign. -/
theorem display_integer (n : Int64) : (Value.integer n).display.toList =
    if n.toInt < 0 then '-' :: Nat.toDigits 10 n.toInt.natAbs
    else Nat.toDigits 10 n.toInt.natAbs := by
  rw [Value.display, Int.toString_eq_repr]
  cases n.toInt with
  | ofNat number =>
    have positive : ¬ Int.ofNat number < 0 := Int.not_lt.mpr (Int.natCast_nonneg number)
    rw [if_neg positive]
    exact Nat.toList_repr
  | negSucc number =>
    rw [if_pos (Int.negSucc_lt_zero number), Int.repr, String.toList_append, Nat.toList_repr]
    rfl

end Printing

theorem Scan.bare_cons (lexeme : Lexeme) (scan : Scan) :
    (scan.cons lexeme).bare = scan.bare.cons lexeme.bare := rfl

theorem Scan.tokens_bare (scan : Scan) :
    Lexeme.tokens scan.bare.lexemes = Lexeme.tokens scan.lexemes := by
  rw [Scan.bare, Lexeme.tokens, List.map_map]
  rfl

/-- Where a text begins does not come into what it is read as. -/
theorem Scan.startingAt_bare (offset other skip : Nat) (text : List Char) :
    (startingAt offset skip text).bare = (startingAt other skip text).bare := by
  fun_induction startingAt offset skip text generalizing other with
  | case1 => rfl
  | case2 offset skip c rest ih => exact ih _
  | case3 offset c rest best taken =>
    rw [startingAt, best]
    rfl
  | case4 offset c rest length pattern best taken after nothing ih =>
    have later := ih (other + c.utf8Size)
    simp only [startingAt, best, nothing, taken]
    exact later
  | case5 offset c rest length pattern best taken span after token yields ih =>
    have later := ih (other + c.utf8Size)
    simp only [startingAt, best, yields, taken]
    rw [bare_cons, bare_cons, later]
    rfl
  | case6 offset c rest length pattern best taken span refused =>
    simp only [startingAt, best, refused, taken]
    rfl

/-- Digits that need more than 63 bits end the scan. -/
theorem ComesTo.tooLarge {source front others rest : List Char} {lexemes : List Lexeme} {c : Char}
    (comes : ComesTo source front lexemes (c :: others ++ rest))
    (takes : Rule.integer.Takes (c :: others) rest)
    (large : Nat.pow 2 63 ≤ natOfDigits (c :: others)) :
    Scan.startingAt 0 0 source = ⟨lexemes, some ⟨c, byteLength front,
      byteLength front + byteLength (c :: others)⟩⟩ := by
  rw [comes.scan, Scan.startingAt_takes _ takes, Rule.yields_refused takes.matched large]
  simp [Scan.behind]

section Assigning

variable {source name target text back : String} {front : List Char} {lexemes : List Lexeme}
  {value : List Token} {expr : Expr} {n : Int64}

theorem assignmentTree_derives (derived : Derives .expr value expr) :
    Derives .program (assignmentOpening name target ++ value ++ assignmentEnding)
      (assignmentTree name target expr) := by
  have types : Derives .typedNames ([.ident target] ++ .mark .colon :: [.mark .kwInteger])
      ([.plain target], .integer) :=
    .typedNames (.one ⟨target, rfl, rfl⟩) .integerType
  have body : Derives .compound (.mark .kwBegin :: (.ident target :: .mark .assign :: value ++
      [.mark .kwEnd])) [.assign (.plain target) expr .blank] :=
    .compound (.statementList (.one (.assignmentStatement (.assignment derived))))
  have whole := @Derives.program name _ _
    (.block (.someVariables (.lastVariables types) .noRoutines) body)
  simpa [assignmentOpening, assignmentEnding, assignmentTree] using whole

theorem assignmentTree_run (evaluates : ∀ enter machine,
      Action.eval enter expr machine = .ok (.integer n) machine) (config : Config) (fuel : Nat)
    (sink : Sink) :
    ((assignmentTree name target expr).run config fuel sink).outcome =
      .ok ⟨[(target, n)], [], [], []⟩ := by
  let scope (value : Option Value) : Scope := ⟨"global", [⟨target, .integer, value⟩], [], []⟩
  let machine (value : Option Value) : Machine := ⟨⟨#[scope value]⟩, sink, [.runStart name]⟩
  have distinct : (assignmentTree name target expr).block.duplicate? = none := by
    simp [assignmentTree, Block.duplicate?, firstRepeated?, Decl.names, Decl.duplicateIn?,
      Decl.duplicate?]
  have declared : Action.declareAll (assignmentTree name target expr).block.declarations
      ⟨.initial, sink, [.runStart name]⟩ = .ok () (machine none) := rfl
  have assigned : (machine none).store.assign (machine none).current target (.integer n) =
      .ok (machine (some (.integer n))).store := by
    simp [machine, scope, Machine.current, Store.size, Store.assign, Store.binding?, Store.chain,
      Store.scope?, Scope.binding?, Binding.accept, Value.coerce?, Scope.setValue]
  have executed : Action.execAll (Action.activate config fuel) fuel
      (assignmentTree name target expr).block.body (machine none) =
        .ok () (machine (some (.integer n))) := by
    have stored : Action.exec (Action.activate config fuel) fuel
        (.assign (.plain target) expr .blank) (machine none) =
          .ok () (machine (some (.integer n))) := by
      rw [Action.exec, bind_of_ok (evaluates _ _), Action.assign_apply]
      simp only [Ident.plain, assigned]
      rfl
    rw [assignmentTree, Action.execAll, bind_of_ok stored]
    rfl
  rcases Program.run_of_declared config fuel distinct declared with
    ⟨last, ran, report⟩ | ⟨stop, last, ran, -⟩
  · rw [executed] at ran
    cases ran
    rw [report]
    rfl
  · rw [executed] at ran
    cases ran

/-- Behind the value, the scan goes on as the ending is scanned on its own. -/
theorem AssignsText.scanned (assigns : AssignsText source name target front text back)
    (comes : ComesTo source.toList (front ++ text.toList) lexemes back.toList) :
    (scan source).failure = none ∧
      Lexeme.tokens (scan source).lexemes = Lexeme.tokens lexemes ++ assignmentEnding := by
  have same := Scan.startingAt_bare (byteLength (front ++ text.toList)) 0 0 back.toList
  have complete : (scan back).failure = none := by
    obtain ⟨before, free, tokens⟩ := Scan.startingAt_tokens 0 0 back.toList
    have ended : Token.mark .endOfInput ∈ Lexeme.tokens (scan back).lexemes := by
      rw [assigns.closes]
      decide
    by_contra failed
    rw [← scan, if_neg failed, List.append_nil] at tokens
    exact free (tokens ▸ ended)
  have tokens := congrArg (fun scan => Lexeme.tokens scan.lexemes) same
  have failures := congrArg Scan.failure same
  rw [← scan, Scan.bare, Scan.bare, complete, Option.map_none, Option.map_eq_none_iff] at failures
  rw [Scan.tokens_bare, Scan.tokens_bare, ← scan, assigns.closes] at tokens
  rw [scan, comes.scan, Scan.behind, Lexeme.tokens_append, tokens]
  exact ⟨failures, rfl⟩

/-- A source that assigns what is read as an expression. -/
theorem AssignsText.runs (assigns : AssignsText source name target front text back)
    (comes : ComesTo source.toList (front ++ text.toList) lexemes back.toList)
    (tokens : Lexeme.tokens lexemes = assignmentOpening name target ++ value)
    (derived : Derives .expr value expr) (evaluates : ∀ enter machine,
      Action.eval enter expr machine = .ok (.integer n) machine) :
    (∃ program, (parse source).outcome = .ok program) ∧ ∀ config fuel sink,
      (interpret config fuel sink source).outcome = .ok ⟨[(target, n)], [], [], []⟩ := by
  obtain ⟨complete, scanned⟩ := assigns.scanned comes
  have sentence := @assignmentTree_derives name target _ _ derived
  rw [← tokens, ← scanned] at sentence
  obtain ⟨program, parsed, same⟩ := parse_derived complete sentence rfl
  refine ⟨⟨program, parsed⟩, fun config fuel sink => ?_⟩
  have run := @assignmentTree_run name target _ _ evaluates config fuel sink
  rw [← same, program.run_bare] at run
  simp only [interpret, parsed, Program.interpret, run]
  rfl

theorem evaluates_negation {m : Int64} (negated : n.toInt = -m.toInt) (enter : Activate)
    (machine : Machine) :
    Action.eval enter (.unary .minus (.number (.integer m) .blank) .blank) machine =
      .ok (.integer n) machine := by
  have low := n.le_toInt
  have high := n.toInt_lt
  have fits : Int64.minValue.toInt ≤ n.toInt ∧ n.toInt ≤ Int64.maxValue.toInt := by
    rw [Int64.toInt_minValue, Int64.toInt_maxValue]
    omega
  have checked : IntegerOp.negation.checked (-m.toInt) = .ok (.integer n) := by
    rw [← negated, IntegerOp.checked, if_pos fits, Int64.ofInt_toInt]
  have operand : Action.eval enter (.number (.integer m) .blank) machine =
      .ok (.integer m) machine := by
    rw [Action.eval]
    rfl
  rw [Action.eval, bind_of_ok operand, UnaryOp.apply, checked]
  rfl

theorem Derives.negation (m : Int64) : Derives .expr [.mark .minus, .integer m]
    (.unary .minus (.number (.integer m) .blank) .blank) :=
  .expr (.operand (.term (.operand (.sign .minus .integer))))

theorem toDigits_isDigit {number : Nat} {c : Char} (listed : c ∈ Nat.toDigits 10 number) :
    c.isDigit :=
  Nat.isDigit_of_mem_toDigits (by decide) (by decide) listed

/-- The digits of a number are taken as a whole, and stand for it. -/
theorem Rule.toDigits_takes {rest : List Char} (number : Nat) (ends : EndsInteger rest) :
    Rule.integer.Takes (Nat.toDigits 10 number) rest ∧
      natOfDigits (Nat.toDigits 10 number) = number := by
  refine ⟨Rule.integer_takes ⟨Nat.toDigits_ne_nil, fun c member => ?_⟩ ends, ?_⟩
  · exact toDigits_isDigit member
  · exact Nat.ofDigitChars_toDigits (by decide) (by decide)

theorem AssignsText.nonnegative
    (assigns : AssignsText source name target front (Value.integer n).display back)
    (sign : ¬ n.toInt < 0) :
    (∃ program, (parse source).outcome = .ok program) ∧ ∀ config fuel sink,
      (interpret config fuel sink source).outcome = .ok ⟨[(target, n)], [], [], []⟩ := by
  obtain ⟨lexemes, comes, tokens⟩ := assigns.opens
  obtain ⟨takes, number⟩ := Rule.toDigits_takes n.toInt.natAbs assigns.apart
  have shown := display_integer n
  rw [if_neg sign] at shown
  have decimal : n.toInt = natOfDigits (Value.integer n).display.toList := by
    rw [shown, number]
    omega
  rw [← shown] at takes
  have derived : Derives .expr [.integer n] (.number (.integer n) .blank) :=
    .expr (.operand (.term (.operand .integer)))
  refine assigns.runs (comes.token takes (.integer decimal)) ?_ derived ?_
  · rw [Lexeme.tokens_append, tokens]
    rfl
  · intro enter machine
    rw [Action.eval]
    rfl

/-- The sign of a negative integer is a token of its own. -/
theorem AssignsText.sign
    (assigns : AssignsText source name target front (Value.integer n).display back)
    (sign : n.toInt < 0) : ∃ lexemes,
      ComesTo source.toList (front ++ ['-']) lexemes
        (Nat.toDigits 10 n.toInt.natAbs ++ back.toList) ∧
      Lexeme.tokens lexemes = assignmentOpening name target ++ [.mark .minus] := by
  obtain ⟨lexemes, comes, tokens⟩ := assigns.opens
  rw [display_integer, if_pos sign] at comes
  have signed := @ComesTo.token _ _ ['-'] _ _ _ _ comes (Rule.minus_takes _) .symbol
  refine ⟨_, signed, ?_⟩
  rw [Lexeme.tokens_append, tokens]
  rfl

theorem AssignsText.negative
    (assigns : AssignsText source name target front (Value.integer n).display back)
    (sign : n.toInt < 0) (least : n ≠ Int64.minValue) :
    (∃ program, (parse source).outcome = .ok program) ∧ ∀ config fuel sink,
      (interpret config fuel sink source).outcome = .ok ⟨[(target, n)], [], [], []⟩ := by
  obtain ⟨lexemes, comes, tokens⟩ := assigns.sign sign
  obtain ⟨takes, number⟩ := Rule.toDigits_takes n.toInt.natAbs assigns.apart
  have low := n.le_toInt
  have above : n.toInt ≠ -2 ^ 63 := by
    intro same
    exact least (Int64.toInt_inj.mp (same.trans Int64.toInt_minValue.symm))
  have bound : n.toInt.natAbs < 2 ^ 63 := by omega
  have exact : (Int64.ofNat n.toInt.natAbs).toInt = n.toInt.natAbs :=
    Int64.toInt_ofNat_of_lt bound
  have after := comes.token takes (.integer (by rw [number, exact]))
  have shown : front ++ ['-'] ++ Nat.toDigits 10 n.toInt.natAbs =
      front ++ (Value.integer n).display.toList := by
    rw [display_integer, if_pos sign, List.append_assoc, List.singleton_append]
  rw [shown] at after
  refine assigns.runs after ?_ (.negation (.ofNat n.toInt.natAbs)) ?_
  · rw [Lexeme.tokens_append, tokens, List.append_assoc]
    rfl
  · exact evaluates_negation (by omega)

/-- Without its sign, the least integer is too large by one. -/
theorem AssignsText.least
    (assigns : AssignsText source name target front (Value.integer Int64.minValue).display back) :
    (parse source).outcome =
      .error (.error (.lexical ⟨'9', byteLength front + 1, byteLength front + 20⟩)) := by
  obtain ⟨lexemes, comes, tokens⟩ := assigns.sign (by decide)
  obtain ⟨takes, number⟩ := Rule.toDigits_takes (2 ^ 63) assigns.apart
  have digits : Nat.toDigits 10 (2 ^ 63) = '9' :: "223372036854775808".toList := by decide
  have size : byteLength (Nat.toDigits 10 (2 ^ 63)) = 19 := by decide
  have large : Nat.pow 2 63 ≤ natOfDigits (Nat.toDigits 10 (2 ^ 63)) := Nat.le_of_eq number.symm
  have same : Int64.minValue.toInt.natAbs = 2 ^ 63 := by decide
  rw [same] at comes
  rw [digits] at takes large comes size
  have scanned := comes.tooLarge takes large
  rw [size, byteLength_append] at scanned
  have viable : Token.Viable (Lexeme.tokens (scan source).lexemes) := by
    have sentence := @assignmentTree_derives name target _ _ (.negation 1)
    rw [scan, scanned, tokens]
    exact ⟨.integer 1 :: assignmentEnding, _, by simpa using sentence⟩
  have failed : (scan source).failure = _ := congrArg Scan.failure scanned
  exact parse_lexical failed viable

end Assigning

/-- The program written out, with a space between its tokens. -/
def assignmentSource (reals : RealSpelling) (name target text : String) : String :=
  .ofList (spaced reals (assignmentOpening name target)) ++ text ++ " END ."

theorem assignmentSource_assigns (reals : RealSpelling) {name target : String} (named : Named name)
    (named' : Named target) (n : Int64) :
    AssignsText (assignmentSource reals name target (Value.integer n).display) name target
      (spaced reals (assignmentOpening name target)) (Value.integer n).display " END ." := by
  have spellable : ∀ token ∈ assignmentOpening name target, token.Spellable := by
    simp [assignmentOpening, Token.Spellable, named, named']
  have nonblank : ∀ c ∈ ((Value.integer n).display.toList ++ " END .".toList).head?,
      isBlank c = false := by
    obtain ⟨c, others, digits⟩ :=
      List.exists_cons_of_ne_nil (@Nat.toDigits_ne_nil n.toInt.natAbs 10)
    have digit : c.isDigit := toDigits_isDigit (digits ▸ List.mem_cons_self)
    rw [display_integer, digits]
    split
    · rintro _ ⟨⟩
      decide
    · rintro _ ⟨⟩
      rw [← Bool.not_eq_true]
      intro blank
      have opens := Opening.of_digit digit
      rw [Opening.of, if_pos blank] at opens
      cases opens
  have split : (assignmentSource reals name target (Value.integer n).display).toList =
      spaced reals (assignmentOpening name target) ++
        ((Value.integer n).display.toList ++ " END .".toList) := by
    rw [assignmentSource, String.toList_append, String.toList_append, String.toList_ofList,
      List.append_assoc]
  have comes := @ComesTo.start (assignmentSource reals name target (Value.integer n).display).toList
  rw [split] at comes
  obtain ⟨lexemes, comes, tokens⟩ := comes.words reals spellable nonblank
  rw [← split] at comes
  refine ⟨⟨lexemes, comes, tokens⟩, by decide, ?_, ?_⟩
  · rintro _ ⟨⟩
    decide
  · rintro c more ⟨⟩

/-- Integers are read as they are written. Digits that the scanner comes to are read as the number
they stand for in decimal, if 63 bits hold it, and otherwise end the scan as a whole. What a line
shows for an integer, assigned to a variable of that type, gives the variable this value; only the
digits of the least integer are too large without their sign. There is such a program for every
integer and any names. -/
theorem integers_read_back :
    (∀ (source : String) (front : List Char) (lexemes : List Lexeme) (first : Char)
        (others rest : List Char),
      ComesTo source.toList front lexemes (first :: others ++ rest) →
      (∀ c ∈ first :: others, c.isDigit) → EndsInteger rest →
      let span : Span := ⟨byteLength front, byteLength front + byteLength (first :: others)⟩
      let number := Nat.ofDigitChars 10 (first :: others) 0
      (number ≤ 2 ^ 63 - 1 → ∃ value : Int64, value.toInt = number ∧
        scan source = (Scan.startingAt span.stop 0 rest).behind
          (lexemes ++ [⟨.integer value, span⟩])) ∧
      (2 ^ 63 - 1 < number → scan source = ⟨lexemes, some ⟨first, span⟩⟩)) ∧
    ∀ (n : Int64) (text : String), Printed (.integer n) text →
      (∀ (source name target : String) (front : List Char) (back : String),
        AssignsText source name target front text back →
        (n ≠ Int64.minValue → (∃ program, (parse source).outcome = .ok program) ∧
          ∀ config fuel sink,
            (interpret config fuel sink source).outcome = .ok ⟨[(target, n)], [], [], []⟩) ∧
        (n = Int64.minValue → (parse source).outcome =
          .error (.error (.lexical ⟨'9', byteLength front + 1, byteLength front + 20⟩)))) ∧
      ∀ name target, Named name → Named target →
        ∃ source front back, AssignsText source name target front text back := by
  constructor
  · intro source front lexemes first others rest comes digits ends span number
    have takes := Rule.integer_takes ⟨List.cons_ne_nil first others, digits⟩ ends
    constructor
    · intro small
      have bound : number < 2 ^ 63 := by omega
      have exact : (Int64.ofNat number).toInt = number := Int64.toInt_ofNat_of_lt bound
      have after := comes.token takes (.integer exact)
      refine ⟨_, exact, ?_⟩
      rw [scan, after.scan, byteLength_append]
    · intro large
      have refused : Nat.pow 2 63 ≤ number := by
        change 2 ^ 63 ≤ number
        omega
      exact comes.tooLarge takes refused
  · intro n text printed
    obtain rfl := printed_iff.mp printed
    refine ⟨fun source name target front back assigns => ⟨fun least => ?_, ?_⟩, ?_⟩
    · by_cases sign : n.toInt < 0
      · exact assigns.negative sign least
      · exact assigns.nonnegative sign
    · rintro rfl
      exact assigns.least
    · intro name target named named'
      obtain ⟨reals⟩ := RealSpelling.exists
      exact ⟨_, _, _, assignmentSource_assigns reals named named' n⟩

/-- Digits with zeros in front, one more than the largest integer, and programs that assign what is
written for the two least integers. -/
theorem integers_read_back_least :
    (∃ value : Int64, value.toInt = 7 ∧ (scan "007;").lexemes.head? = some ⟨.integer value, 0, 3⟩) ∧
    scan "09223372036854775808;" = ⟨[], some ⟨'0', 0, 20⟩⟩ ∧
    (interpret .default 0 (.empty none)
      "PROGRAM p ; VAR x : INTEGER ; BEGIN x := -9223372036854775807 END .").outcome =
        .ok ⟨[("x", Int64.minValue + 1)], [], [], []⟩ ∧
    (parse "PROGRAM p ; VAR x : INTEGER ; BEGIN x := -9223372036854775808 END .").outcome =
      .error (.error (.lexical ⟨'9', 42, 61⟩)) := by
  obtain ⟨reads, written⟩ := integers_read_back
  obtain ⟨reals⟩ := RealSpelling.exists
  have ends : EndsInteger [';'] := ⟨by simp, nofun⟩
  have opening : spaced reals (assignmentOpening "p" "x") =
      "PROGRAM p ; VAR x : INTEGER ; BEGIN x := ".toList := by
    rfl
  have assigns (n : Int64) : AssignsText ("PROGRAM p ; VAR x : INTEGER ; BEGIN x := " ++
      (Value.integer n).display ++ " END .") "p" "x"
      "PROGRAM p ; VAR x : INTEGER ; BEGIN x := ".toList (Value.integer n).display " END ." := by
    have source := @assignmentSource_assigns reals "p" "x" (by decide) (by decide) n
    rwa [assignmentSource, opening, String.ofList_toList] at source
  refine ⟨?_, ?_, ?_, ?_⟩
  · obtain ⟨value, number, scanned⟩ := (reads "007;" [] [] '0' ['0', '7'] [';'] .start
      (List.all_eq_true.mp rfl) ends).1 (by decide)
    exact ⟨value, number, by rw [scanned]; rfl⟩
  · exact (reads "09223372036854775808;" [] [] '0' "9223372036854775808".toList [';'] .start
      (List.all_eq_true.mp rfl) ends).2 (by decide)
  · obtain ⟨sources, -⟩ := written (Int64.minValue + 1) _ (printed_iff.mpr rfl)
    have shown : "PROGRAM p ; VAR x : INTEGER ; BEGIN x := " ++
        (Value.integer (Int64.minValue + 1)).display ++ " END ." =
          "PROGRAM p ; VAR x : INTEGER ; BEGIN x := -9223372036854775807 END ." := by decide
    rw [← shown]
    exact ((sources _ _ _ _ _ (assigns _)).1 (by decide)).2 _ _ _
  · obtain ⟨sources, -⟩ := written Int64.minValue _ (printed_iff.mpr rfl)
    have shown : "PROGRAM p ; VAR x : INTEGER ; BEGIN x := " ++
        (Value.integer Int64.minValue).display ++ " END ." =
          "PROGRAM p ; VAR x : INTEGER ; BEGIN x := -9223372036854775808 END ." := by decide
    rw [← shown]
    exact (sources _ _ _ _ _ (assigns _)).2 rfl

end MiniPascal
