import Mathlib.Logic.ExistsUnique
import MiniPascal.Proofs.Token.Placed
import MiniPascal.Proofs.Token.Spelling

namespace MiniPascal

/-- The literal of a text: the text between quotes, and every quote in it doubled. -/
def textLiteral (payload : String) : List Char := '\x27' :: (doubled payload.toList ++ ['\x27'])

/-- A text that does not go on with an integer in front of it: it begins neither with a digit nor with
a point and a digit. -/
structure EndsInteger (rest : List Char) : Prop where
  digits : ∀ c ∈ rest.head?, c.isDigit = false
  fraction : ∀ c more, rest = '.' :: c :: more → c.isDigit = false

/-- Puts tokens before those of a scan. -/
def Scan.behind (lexemes : List Lexeme) (scan : Scan) : Scan :=
  ⟨lexemes ++ scan.lexemes, scan.failure⟩

/-- The scanner comes to a place of a source. It has gone over the text in front, one match after
another, which has left it tokens, and looks for the next token in the rest. -/
inductive ComesTo (source : List Char) : List Char → List Lexeme → List Char → Prop where
  | start : ComesTo source [] [] source
  | skip {front word rest : List Char} {lexemes : List Lexeme} {rule : Rule}
    (before : ComesTo source front lexemes (word ++ rest)) (takes : rule.Takes word rest)
    (skips : rule.isSkip = true) : ComesTo source (front ++ word) lexemes rest
  | token {front word rest : List Char} {lexemes : List Lexeme} {rule : Rule} {token : Token}
    (before : ComesTo source front lexemes (word ++ rest)) (takes : rule.Takes word rest)
    (denotes : rule.Denotes word token) :
    ComesTo source (front ++ word)
      (lexemes ++ [⟨token, byteLength front, byteLength front + byteLength word⟩]) rest

section

variable {source front rest : List Char} {lexemes : List Lexeme}

/-- The rest is scanned as if nothing stood in front, but for the offsets. -/
theorem ComesTo.scan (comes : ComesTo source front lexemes rest) :
    Scan.startingAt 0 0 source = (Scan.startingAt (byteLength front) 0 rest).behind lexemes := by
  induction comes with
  | start => rfl
  | @skip front word rest lexemes rule before takes skips ih =>
    obtain ⟨c, others, rfl⟩ := List.exists_cons_of_ne_nil (Rule.ne_nil takes.listed takes.matched)
    rw [ih, Scan.startingAt_takes _ takes, Rule.yields_nothing takes.matched skips,
      byteLength_append]
  | @token front word rest lexemes rule token before takes denotes ih =>
    obtain ⟨c, others, rfl⟩ := List.exists_cons_of_ne_nil (Rule.ne_nil takes.listed takes.matched)
    rw [ih, Scan.startingAt_takes _ takes, Rule.yields_token takes.matched denotes,
      byteLength_append]
    simp [Scan.behind, Scan.cons]

/-- Words with a space behind each. -/
def spaced (reals : RealSpelling) (tokens : List Token) : List Char :=
  tokens.flatMap fun token => token.word reals ++ [' ']

/-- The scanner goes over words, with a space behind each, to what follows them. -/
theorem ComesTo.words (reals : RealSpelling) {tokens : List Token}
    (spellable : ∀ token ∈ tokens, token.Spellable) (apart : ∀ c ∈ rest.head?, isBlank c = false)
    (comes : ComesTo source front lexemes (spaced reals tokens ++ rest)) :
    ∃ more, ComesTo source (front ++ spaced reals tokens) (lexemes ++ more) rest ∧
      more.map Lexeme.token = tokens := by
  induction tokens generalizing front lexemes with
  | nil => exact ⟨[], by simpa [spaced] using comes, rfl⟩
  | cons first others ih =>
    obtain ⟨spellableFirst, spellableOthers⟩ := List.forall_mem_cons.mp spellable
    obtain ⟨rule, spells⟩ := spellableFirst.spells reals
    have begins (token : Token) (tokens : List Token) :
        spaced reals (token :: tokens) = token.word reals ++ ([' '] ++ spaced reals tokens) := by
      rw [spaced, List.flatMap_cons, List.append_assoc, spaced]
    have nonblank : ∀ c ∈ (spaced reals others ++ rest).head?, isBlank c = false := by
      cases others with
      | nil => exact apart
      | cons second later =>
        obtain ⟨rule, spells⟩ := (spellableOthers second List.mem_cons_self).spells reals
        rw [begins, List.append_assoc]
        exact spells.nonblank _
    rw [begins, List.append_assoc, List.append_assoc] at comes
    have after := comes.token (spells.takes (by simp [Spaced])) spells.denotes
    obtain ⟨more, comes, same⟩ := ih spellableOthers (after.skip (Rule.blanks_takes nonblank) rfl)
    rw [List.append_assoc, List.append_assoc, ← begins, List.append_assoc,
      List.singleton_append] at comes
    exact ⟨_ :: more, comes, by rw [List.map_cons, same]⟩

end

section Texts

variable {word rest : List Char} {payload : String}

theorem Rule.matches_text_iff :
    Rule.text.form.Matches word ↔ ∃ payload, word = textLiteral payload := by
  constructor
  · intro matched
    obtain ⟨token, denotes⟩ : ∃ token, Rule.text.Denotes word token := ⟨_, Rule.text.yields matched⟩
    cases denotes with
    | @text _ payload quoted =>
      exact ⟨String.ofList payload, by rw [quoted, textLiteral, String.toList_ofList]⟩
  · rintro ⟨payload, rfl⟩
    exact (Rule.spells_text payload).matched

theorem textLiteral_injective : Function.Injective textLiteral := by
  intro first second same
  have bodies := congrArg undoubled (List.append_cancel_right (List.cons.inj same).2)
  rw [undoubled_doubled, undoubled_doubled] at bodies
  exact String.toList_injective bodies

/-- A literal is taken as a whole where no further quote follows. -/
theorem Rule.text_takes (payload : String) (ends : rest.head? ≠ some '\x27') :
    Rule.text.Takes (textLiteral payload) rest := by
  have spells := Rule.spells_text payload
  refine ⟨spells.listed, spells.matched, ?_, spells.keyword⟩
  rintro other listed longer matched ⟨back, split⟩
  -- what begins with a quote is a string literal, and the search for one stops at the closing quote
  obtain ⟨c, others, rfl, opens⟩ := Rule.opens listed matched
  obtain rfl : c = '\x27' := (List.cons.inj split).1
  obtain rfl : other = .text := by
    cases other <;> first | rfl | cases opens
  obtain ⟨reach, found, reaches⟩ := (Rule.finds listed).reaches back matched
  have length := Rule.textLength_doubled payload.toList ends
  rw [split, textLiteral, List.cons_append, List.append_assoc, List.singleton_append, Rule.pattern,
    Pattern.text] at found
  simp only [length, Option.map_some, Option.some.injEq] at found
  have size : (textLiteral payload).length = (doubled payload.toList).length + 2 := by
    simp [textLiteral]
  omega

end Texts

/-- String literals and the texts they stand for correspond one to one. A literal is read as one
token for its text wherever the scanner comes to it and no further quote follows, and a token for a
text stands for the literal of that text, byte for byte. -/
theorem text_literals_read_back :
    (∀ (source : String) (front : List Char) (lexemes : List Lexeme) (payload : String)
        (rest : List Char),
      ComesTo source.toList front lexemes (textLiteral payload ++ rest) →
      rest.head? ≠ some '\x27' →
      let stop := byteLength front + byteLength (textLiteral payload)
      scan source = (Scan.startingAt stop 0 rest).behind
        (lexemes ++ [⟨.text payload, byteLength front, stop⟩])) ∧
    (∀ (source : String) (lexeme : Lexeme) (payload : String),
      lexeme ∈ (scan source).lexemes → lexeme.token = .text payload →
      lexeme.span.Covers source.toList (textLiteral payload)) ∧
    ∀ word, Rule.text.form.Matches word ↔ ∃! payload, word = textLiteral payload := by
  refine ⟨?_, ?_, fun word => ⟨fun matched => ?_, fun known => ?_⟩⟩
  · intro source front lexemes payload rest comes ends stop
    have after := comes.token (Rule.text_takes payload ends) (Rule.spells_text payload).denotes
    rw [scan, after.scan, byteLength_append]
  · intro source lexeme payload listed shows
    obtain ⟨rule, word, denotes, covers⟩ := scan_denoted listed (by simp [shows])
    rw [shows] at denotes
    obtain rfl : word = textLiteral payload := by
      cases denotes with
      | text quoted => rw [quoted, textLiteral, String.toList_ofList]
    exact covers
  · obtain ⟨payload, rfl⟩ := Rule.matches_text_iff.mp matched
    exact ⟨payload, rfl, fun other same => textLiteral_injective same.symm⟩
  · exact Rule.matches_text_iff.mpr known.exists

/-- A text with a letter of two bytes, a line feed and quotes, the last of them at its end. -/
theorem text_literals_read_back_quotes :
    scan "\x27é\x27\x27\n\x27\x27\x27;" = ⟨[⟨.text "é\x27\n\x27", 0, 9⟩, ⟨.mark .semicolon, 9, 10⟩,
      ⟨.mark .endOfInput, .point 10⟩], none⟩ ∧
    Span.Covers "\x27é\x27\x27\n\x27\x27\x27;".toList ⟨0, 9⟩ (textLiteral "é\x27\n\x27") := by
  obtain ⟨reads, covers, -⟩ := text_literals_read_back
  have split : "\x27é\x27\x27\n\x27\x27\x27;".toList = textLiteral "é\x27\n\x27" ++ [';'] := by decide
  have comes : ComesTo "\x27é\x27\x27\n\x27\x27\x27;".toList [] []
      (textLiteral "é\x27\n\x27" ++ [';']) := by
    rw [← split]
    exact .start
  have scanned := reads _ _ _ _ _ comes (by decide)
  refine ⟨scanned.trans (by decide), covers _ ⟨.text "é\x27\n\x27", 0, 9⟩ _ ?_ rfl⟩
  rw [scanned]
  exact List.mem_cons_self

section Integers

variable {digits rest : List Char}

theorem EndsInteger.fractionLength (ends : EndsInteger rest) : fractionLength rest = none := by
  fun_cases MiniPascal.fractionLength rest with
  | case2 => rfl
  | case1 more =>
    cases more with
    | nil => rfl
    | cons c others =>
      have other := ends.fraction c others rfl
      simp [runLength, other]

/-- Digits are taken as a whole where no number goes on behind them. -/
theorem Rule.integer_takes (digital : digits ≠ [] ∧ ∀ c ∈ digits, c.isDigit)
    (ends : EndsInteger rest) : Rule.integer.Takes digits rest := by
  have matched : Rule.integer.form.Matches digits := matches_digits_iff.mpr digital
  have whole := runLength_digits_append digital ends.digits
  refine ⟨by decide, matched, ?_, keyword_of_opening (by decide) matched nofun⟩
  rintro other listed longer matched' ⟨back, split⟩
  -- what begins with a digit is an integer or a real, and there is no real
  obtain ⟨c, others, rfl, opens⟩ := Rule.opens (by decide) matched
  obtain ⟨d, _, rfl, opens'⟩ := Rule.opens listed matched'
  obtain rfl : d = c := (List.cons.inj split).1
  obtain ⟨reach, found, reaches⟩ := (Rule.finds listed).reaches back matched'
  rw [split] at found
  rw [opens] at opens'
  cases other with
  | integer =>
    rw [pattern, Pattern.integer] at found
    dsimp only at found
    rw [whole, Option.some.injEq] at found
    omega
  | real =>
    rw [pattern, Pattern.real] at found
    dsimp only at found
    rw [whole, Option.bind_eq_bind, Option.bind_some, List.drop_left, ends.fractionLength] at found
    cases found
  | _ => cases opens'

/-- A symbol of one character is taken where no longer symbol and no comment begins with it. -/
theorem Rule.symbol_takes {mark : Mark} {c : Char} (symbol : mark ∈ Mark.symbols)
    (spelled : mark.spelling.toList = [c])
    (short : ∀ other ∈ Mark.symbols, other.spelling.toList.head? = some c →
      other.spelling.toList.length ≤ 1)
    (uncommented : ∀ word, starComment.form.Matches word → ¬ word <+: c :: rest) :
    (Rule.symbol mark).Takes [c] rest := by
  have spells := Rule.spells_symbol symbol
  rw [spelled] at spells
  refine ⟨spells.listed, spells.matched, ?_, spells.keyword⟩
  rintro other listed longer matched ⟨back, split⟩
  obtain ⟨_, _, begins, opens⟩ := Rule.opens spells.listed spells.matched
  obtain ⟨_, others, rfl, opens'⟩ := Rule.opens listed matched
  obtain rfl := (List.cons.inj begins).1
  obtain rfl := (List.cons.inj split).1
  rw [opens] at opens'
  cases other with
  | symbol other =>
    have literal := Regex.matches_literal_iff.mp matched
    have bound := short other (mem_symbols listed) (by rw [← literal, List.head?_cons])
    rwa [← literal] at bound
  | starComment => exact absurd ⟨back, split⟩ (uncommented _ matched)
  | _ => cases opens'

theorem Rule.minus_takes (rest : List Char) : (Rule.symbol .minus).Takes ['-'] rest := by
  refine Rule.symbol_takes (by decide) (by decide) (by decide) ?_
  rintro word matched ⟨back, split⟩
  obtain ⟨_, tail, rfl, head, -⟩ := Regex.matches_seq_iff.mp matched
  rw [Regex.matches_literal_iff.mp head] at split
  cases split

end Integers

end MiniPascal
