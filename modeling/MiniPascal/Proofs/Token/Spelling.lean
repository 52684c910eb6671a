import MiniPascal.Proofs.Token.Tiled

namespace MiniPascal

/-- A name that is read as an identifier: of its form, and no keyword in any case of its letters. -/
structure Named (name : String) : Prop where
  form : Rule.identifier.form.Matches name.toList
  free : ∀ mark ∈ Mark.keywords, ¬ (Rule.keyword mark).form.Matches name.toList

theorem Rule.keyword_listed {mark : Mark} (keyword : mark ∈ Mark.keywords) :
    Rule.keyword mark ∈ all := by
  simp [all, keyword]

/-- A text is in the form of a rule if the search for the rule finds all of it. -/
theorem Rule.matches_iff {rule : Rule} (listed : rule ∈ all) (word : List Char) :
    rule.form.Matches word ↔ rule.pattern.longest word = some word.length := by
  constructor
  · intro matched
    obtain ⟨length, found, reaches⟩ := (finds listed).reaches [] matched
    rw [List.append_nil] at found
    obtain ⟨front, back, split, rfl, -⟩ := (finds listed).sound found
    have within : front.length ≤ word.length := by simp [split]
    rw [found, Nat.le_antisymm within reaches]
  · intro found
    obtain ⟨front, back, split, same, matched⟩ := (finds listed).sound found
    have none : back = [] := by
      rw [split, List.length_append] at same
      exact List.eq_nil_of_length_eq_zero (by omega)
    rwa [split, none, List.append_nil]

theorem named_iff (name : String) : Named name ↔
    Pattern.identifier.longest name.toList = some name.toList.length ∧
      ∀ mark ∈ Mark.keywords,
        (Pattern.keyword mark).longest name.toList ≠ some name.toList.length := by
  have identifier := Rule.matches_iff (by decide : Rule.identifier ∈ Rule.all) name.toList
  constructor
  · intro named
    refine ⟨identifier.mp named.form, fun mark listed found => ?_⟩
    exact named.free mark listed ((Rule.matches_iff (Rule.keyword_listed listed) _).mpr found)
  · rintro ⟨found, others⟩
    refine ⟨identifier.mpr found, fun mark listed matched => ?_⟩
    exact others mark listed ((Rule.matches_iff (Rule.keyword_listed listed) _).mp matched)

instance (name : String) : Decidable (Named name) := decidable_of_iff _ (named_iff name).symm

/-- A literal of a real. -/
structure RealLiteral (value : Float) (word : List Char) : Prop where
  form : Rule.real.form.Matches word
  value : realOfLiteral word = value

/-- A way to write reals: a literal for every value that has any. -/
structure RealSpelling where
  word : Float → List Char
  literal : ∀ {value known}, RealLiteral value known → RealLiteral value (word value)

theorem RealSpelling.exists : Nonempty RealSpelling := by
  classical
  refine ⟨fun value => if known : ∃ word, RealLiteral value word then known.choose else [], ?_⟩
  intro value word literal
  have known : ∃ word, RealLiteral value word := ⟨word, literal⟩
  rw [dif_pos known]
  exact known.choose_spec

namespace Token

/-- The tokens that a text can stand for. -/
def Spellable : Token → Prop
  | .mark kind => kind ≠ .endOfInput
  | .integer value => 0 ≤ value.toInt
  | .real value => ∃ word, RealLiteral value word
  | .text _ => True
  | .ident name => Named name

/-- How a token is spelled: keywords in capitals, integers in decimal, quotes in strings doubled. -/
def word (reals : RealSpelling) : Token → List Char
  | .mark kind => kind.spelling.toList
  | .integer value => Nat.toDigits 10 value.toInt.toNat
  | .real value => reals.word value
  | .text value => '\x27' :: (doubled value.toList ++ ['\x27'])
  | .ident name => name.toList

/-- The words of tokens, with a space between one and the next. -/
def spelled (reals : RealSpelling) (tokens : List Token) : List Char :=
  [' '].intercalate (tokens.map (word reals))

end Token

/-- A text that is empty or begins with a space. -/
def Spaced (rest : List Char) : Prop := ∀ c ∈ rest.head?, c = ' '

namespace Rule

/-- A rule that gives a token to a word wherever nothing lengthens the word. -/
structure Spells (rule : Rule) (word : List Char) (token : Token) : Prop where
  listed : rule ∈ all
  matched : rule.form.Matches word
  denotes : rule.Denotes word token
  keyword : ∀ mark ∈ Mark.keywords, (keyword mark).form.Matches word → rule = .keyword mark

variable {rule other : Rule} {mark : Mark} {word more rest : List Char} {token : Token}

theorem keyword_spaceless (listed : keyword mark ∈ all)
    (matched : (keyword mark).form.Matches word) : ' ' ∉ word := by
  intro space
  have letters := keyword_letters mark (mem_keywords listed)
  have capital := List.mem_map_of_mem (f := capitalOf) space
  rw [map_capitalOf letters matched] at capital
  exact absurd (letters _ capital).1 (by decide)

theorem identifier_spaceless (matched : identifier.form.Matches word) : ' ' ∉ word := by
  obtain ⟨_, others, rfl, head, tail⟩ := Regex.matches_seq_iff.mp matched
  obtain ⟨c, rfl, starts⟩ := Regex.matches_oneOf_iff.mp head
  rw [List.singleton_append, List.mem_cons]
  rintro (rfl | space)
  · exact absurd starts (by decide)
  · exact absurd (Regex.matches_many_oneOf_iff.mp tail _ space) (by decide)

theorem digits_spaceless (run : Regex.Matches (.many1 .digit) word) : ' ' ∉ word :=
  fun space => absurd ((matches_digits_iff.mp run).2 _ space) (by decide)

theorem exponent_spaceless (power : Regex.Matches (.optional .exponent) word) : ' ' ∉ word := by
  rcases Regex.matches_either_iff.mp power with power | none
  · obtain ⟨_, _, rfl, head, tail⟩ := Regex.matches_seq_iff.mp power
    obtain ⟨sign, digits, rfl, signed, run⟩ := Regex.matches_seq_iff.mp tail
    obtain ⟨c, rfl, letter⟩ := Regex.matches_oneOf_iff.mp head
    simp only [List.mem_append, List.mem_singleton, not_or]
    refine ⟨?_, ?_, digits_spaceless run⟩
    · rintro rfl
      exact absurd letter (by decide)
    · rcases Regex.matches_either_iff.mp signed with one | none
      · obtain ⟨c, rfl, sign⟩ := Regex.matches_oneOf_iff.mp one
        rw [List.mem_singleton]
        rintro rfl
        exact absurd sign (by decide)
      · simp [Regex.matches_empty_iff.mp none]
  · simp [Regex.matches_empty_iff.mp none]

theorem real_spaceless (matched : real.form.Matches word) : ' ' ∉ word := by
  obtain ⟨whole, _, rfl, run, rest⟩ := Regex.matches_seq_iff.mp matched
  obtain ⟨_, _, rfl, point, rest⟩ := Regex.matches_seq_iff.mp rest
  obtain ⟨fraction, power, rfl, run', power⟩ := Regex.matches_seq_iff.mp rest
  rw [Regex.matches_char_iff.mp point]
  simp [digits_spaceless run, digits_spaceless run', exponent_spaceless power]

theorem symbol_spaceless : ∀ mark ∈ Mark.symbols, ' ' ∉ mark.spelling.toList := by
  decide

theorem symbol_unstarred : ∀ mark ∈ Mark.symbols,
    ¬ ['(', '*'] <+: mark.spelling.toList ++ [' '] := by
  decide

/-- A string literal ends at the first quote that is not doubled. -/
theorem textLength_doubled (payload : List Char) (ends : rest.head? ≠ some '\x27') :
    textLength (doubled payload ++ '\x27' :: rest) = some ((doubled payload).length + 1) := by
  induction payload with
  | nil =>
    cases rest with
    | nil => rfl
    | cons c rest =>
      have other : c ≠ '\x27' := by simpa using ends
      simp [doubled, textLength, other]
  | cons c payload ih =>
    rw [doubled_cons]
    by_cases quote : c = '\x27'
    · subst quote
      simp [textLength, ih]
    · simp [quote, textLength_cons_other quote, ih]

theorem text_unlengthened (denotes : text.Denotes word token) :
    ¬ text.form.Matches (word ++ ' ' :: more) := by
  intro longer
  cases denotes with
  | @text _ payload quoted =>
    subst quoted
    obtain ⟨reach, found, reaches⟩ := (finds (by decide : text ∈ all)).reaches [] longer
    have length : textLength (doubled payload ++ '\x27' :: ' ' :: more) = _ :=
      textLength_doubled payload (by simp)
    simp [pattern, Pattern.text, length] at found reaches
    omega

theorem comment_apart (listed : symbol mark ∈ all) (matched : (symbol mark).form.Matches word) :
    ¬ starComment.form.Matches (word ++ ' ' :: more) := by
  intro longer
  have nonempty := List.length_pos_iff.mpr (ne_nil listed matched)
  obtain ⟨_, tail, split, head, -⟩ := Regex.matches_seq_iff.mp longer
  rw [Regex.matches_literal_iff.mp head] at split
  have starred : ['(', '*'] <+: word ++ [' '] := by
    refine List.prefix_of_prefix_length_le ⟨tail, split.symm⟩ ⟨more, by simp⟩ ?_
    simp
    omega
  rw [Regex.matches_literal_iff.mp matched] at starred
  exact symbol_unstarred mark (mem_symbols listed) starred

/-- No match goes on over a space behind a word. -/
theorem Spells.unlengthened (spells : rule.Spells word token) (listed : other ∈ all) :
    ¬ other.form.Matches (word ++ ' ' :: more) := by
  intro longer
  have space : ' ' ∈ word ++ ' ' :: more := by simp
  have shown := spells.denotes.not_skip
  -- the longer match begins like the word, so its rule opens in the same way
  obtain ⟨c, others, begins, opens⟩ := opens spells.listed spells.matched
  obtain ⟨_, _, split, opens'⟩ := Rule.opens listed longer
  rw [begins, List.cons_append] at split
  cases split
  rw [opens] at opens'
  cases other with
  | keyword mark => exact keyword_spaceless listed longer space
  | identifier => exact identifier_spaceless longer space
  | integer => exact digits_spaceless longer space
  | real => exact real_spaceless longer space
  | symbol mark =>
    rw [Regex.matches_literal_iff.mp longer] at space
    exact symbol_spaceless mark (mem_symbols listed) space
  | text =>
    cases rule with
    | text => exact text_unlengthened spells.denotes longer
    | _ => cases opens'
  | starComment =>
    cases rule with
    | symbol mark => exact comment_apart spells.listed spells.matched longer
    | starComment => cases shown
    | _ => cases opens'
  | blanks =>
    cases rule with
    | blanks => cases shown
    | _ => cases opens'
  | braceComment =>
    cases rule with
    | braceComment => cases shown
    | _ => cases opens'

/-- A word is taken where no match goes on over the character behind it. -/
theorem takes_of_unlengthened (listed : rule ∈ all) (matched : rule.form.Matches word)
    (keyword : ∀ mark ∈ Mark.keywords, (keyword mark).form.Matches word → rule = .keyword mark)
    (ends : ∀ c ∈ rest.head?, ∀ other ∈ all, ∀ back, ¬ other.form.Matches (word ++ c :: back)) :
    rule.Takes word rest := by
  refine ⟨listed, matched, ?_, keyword⟩
  intro other listed' longer matched' front
  rcases Nat.le_total longer.length word.length with short | long
  · exact short
  · obtain ⟨back, rfl⟩ :=
      List.prefix_of_prefix_length_le (List.prefix_append word rest) front long
    cases back with
    | nil => simp
    | cons c back =>
      obtain ⟨behind, rfl⟩ := (List.prefix_append_right_inj word).mp front
      exact absurd matched' (ends c (by simp) other listed' back)

/-- A word at the end of a text or in front of a space is taken as a whole. -/
theorem Spells.takes (spells : rule.Spells word token) (spaced : Spaced rest) :
    rule.Takes word rest := by
  refine takes_of_unlengthened spells.listed spells.matched spells.keyword ?_
  intro c next other listed back
  rw [spaced c next]
  exact spells.unlengthened listed

/-- The space between two words is taken alone. -/
theorem blanks_takes (apart : ∀ c ∈ rest.head?, isBlank c = false) : blanks.Takes [' '] rest := by
  refine takes_of_unlengthened (by decide) (Regex.matches_many1_oneOf_iff.mpr (by simp)) ?_ ?_
  · intro mark keyword matched
    exact absurd (List.mem_singleton_self ' ')
      (keyword_spaceless (keyword_listed keyword) matched)
  · intro c next other listed back matched
    obtain ⟨_, _, split, opens⟩ := opens listed matched
    cases split
    cases other with
    | blanks =>
      rw [form, Regex.anyOf, ← isBlank_eq] at matched
      have blank := (Regex.matches_many1_oneOf_iff.mp matched).2 c (by simp)
      rw [apart c next] at blank
      cases blank
    | _ => cases opens

theorem Spells.nonblank (spells : rule.Spells word token) (back : List Char) :
    ∀ c ∈ (word ++ back).head?, isBlank c = false := by
  obtain ⟨c, others, rfl, opens⟩ := opens spells.listed spells.matched
  rintro _ ⟨⟩
  rw [← Bool.not_eq_true]
  intro blank
  have shown := spells.denotes.not_skip
  rw [Opening.of, if_pos blank] at opens
  cases rule with
  | blanks => cases shown
  | _ => cases opens

/-- Only letters begin a keyword. -/
theorem keyword_of_opening (listed : rule ∈ all) (matched : rule.form.Matches word)
    (other : rule.opening ≠ .letter) :
    ∀ mark ∈ Mark.keywords, (keyword mark).form.Matches word → rule = .keyword mark := by
  intro mark keyword matched'
  obtain ⟨c, others, rfl, opens⟩ := opens listed matched
  obtain ⟨_, _, split, opens'⟩ := Rule.opens (keyword_listed keyword) matched'
  cases split
  exact absurd (opens.symm.trans opens') other

theorem Spells.of_takes (takes : rule.Takes word rest) (denotes : rule.Denotes word token) :
    rule.Spells word token := ⟨takes.listed, takes.matched, denotes, takes.keyword⟩

theorem Spells.spellable (spells : rule.Spells word token) : token.Spellable := by
  have listed := spells.listed
  have matched := spells.matched
  cases spells.denotes with
  | keyword =>
    rintro rfl
    exact absurd (mem_keywords listed) (by decide)
  | symbol =>
    rintro rfl
    exact absurd (mem_symbols listed) (by decide)
  | integer decimal =>
    rw [Token.Spellable, decimal]
    exact Int.natCast_nonneg _
  | real => exact ⟨word, matched, rfl⟩
  | text => exact trivial
  | identifier =>
    refine ⟨by rwa [String.toList_ofList], fun mark keyword matched => ?_⟩
    rw [String.toList_ofList] at matched
    cases spells.keyword mark keyword matched

end Rule

section

variable {mark : Mark}

theorem Regex.anyCase_self (capitals : List Char) : (Regex.anyCase capitals).Matches capitals := by
  induction capitals with
  | nil => exact .empty
  | cons capital rest ih =>
    exact .seq (.oneOf (by simp [foldsTo])) ih

theorem Mark.keyword_or_symbol : ∀ mark : Mark,
    mark = .endOfInput ∨ mark ∈ keywords ∨ mark ∈ symbols := by
  intro mark
  cases mark <;> decide

theorem Rule.spells_keyword (keyword : mark ∈ Mark.keywords) :
    (Rule.keyword mark).Spells mark.spelling.toList (.mark mark) := by
  have listed := keyword_listed keyword
  have matched := Regex.anyCase_self mark.spelling.toList
  refine ⟨listed, matched, .keyword, ?_⟩
  intro mark' keyword' matched'
  rw [keyword_injective listed (keyword_listed keyword') matched matched']

theorem Rule.spells_symbol (symbol : mark ∈ Mark.symbols) :
    (Rule.symbol mark).Spells mark.spelling.toList (.mark mark) := by
  have listed : Rule.symbol mark ∈ all := by simp [all, symbol]
  have matched : (Rule.symbol mark).form.Matches mark.spelling.toList :=
    Regex.matches_literal_iff.mpr rfl
  refine ⟨listed, matched, .symbol, keyword_of_opening listed matched ?_⟩
  exact (by decide : Opening.symbol ≠ .letter)

theorem Rule.spells_integer {value : Int64} (nonnegative : 0 ≤ value.toInt) :
    integer.Spells (Nat.toDigits 10 value.toInt.toNat) (.integer value) := by
  have matched : integer.form.Matches (Nat.toDigits 10 value.toInt.toNat) :=
    matches_digits_iff.mpr ⟨Nat.toDigits_ne_nil,
      fun c member => Nat.isDigit_of_mem_toDigits (by decide) (by decide) member⟩
  refine ⟨by decide, matched, .integer ?_, keyword_of_opening (by decide) matched nofun⟩
  have digits : natOfDigits (Nat.toDigits 10 value.toInt.toNat) = value.toInt.toNat :=
    Nat.ofDigitChars_toDigits (by decide) (by decide)
  rw [digits, Int.toNat_of_nonneg nonnegative]

theorem Rule.spells_real {value : Float} {word : List Char} (literal : RealLiteral value word) :
    real.Spells word (.real value) := by
  obtain ⟨matched, rfl⟩ := literal
  exact ⟨by decide, matched, .real, keyword_of_opening (by decide) matched nofun⟩

theorem Regex.textTail_doubled_quote (payload : List Char) :
    Regex.textTail.Matches (doubled payload ++ ['\x27']) := by
  induction payload with
  | nil => exact textTail_quote
  | cons c rest ih =>
    rw [doubled_cons]
    split
    · rename_i quote
      subst quote
      exact textTail_doubled ih
    · rename_i other
      exact textTail_cons other ih

theorem Rule.spells_text (value : String) :
    text.Spells ('\x27' :: (doubled value.toList ++ ['\x27'])) (.text value) := by
  have matched : text.form.Matches (['\x27'] ++ (doubled value.toList ++ ['\x27'])) :=
    .seq (Regex.matches_literal_iff.mpr rfl) (Regex.textTail_doubled_quote value.toList)
  have denotes : text.Denotes _ (.text (String.ofList value.toList)) := .text rfl
  rw [String.ofList_toList] at denotes
  exact ⟨by decide, matched, denotes, keyword_of_opening (by decide) matched nofun⟩

theorem Rule.spells_identifier {name : String} (named : Named name) :
    identifier.Spells name.toList (.ident name) := by
  have denotes : identifier.Denotes name.toList (.ident (String.ofList name.toList)) := .identifier
  rw [String.ofList_toList] at denotes
  exact ⟨by decide, named.form, denotes,
    fun mark keyword matched => absurd matched (named.free mark keyword)⟩

end

namespace Token

variable {token : Token} {tokens : List Token} (reals : RealSpelling)

/-- The word of a token is read as that token. -/
theorem Spellable.spells (spellable : token.Spellable) :
    ∃ rule : Rule, rule.Spells (token.word reals) token := by
  cases token with
  | mark kind =>
    rcases kind.keyword_or_symbol with ends | keyword | symbol
    · exact absurd ends spellable
    · exact ⟨_, Rule.spells_keyword keyword⟩
    · exact ⟨_, Rule.spells_symbol symbol⟩
  | integer value => exact ⟨_, Rule.spells_integer spellable⟩
  | real value =>
    obtain ⟨word, literal⟩ := spellable
    exact ⟨_, Rule.spells_real (reals.literal literal)⟩
  | text value => exact ⟨_, Rule.spells_text value⟩
  | ident name => exact ⟨_, Rule.spells_identifier spellable⟩

theorem spelled_cons_cons (first second : Token) (rest : List Token) :
    spelled reals (first :: second :: rest) =
      first.word reals ++ ' ' :: spelled reals (second :: rest) := by
  simp [spelled, List.intercalate_cons_cons]

theorem spelled_nonblank (spellable : ∀ token ∈ tokens, token.Spellable) :
    ∀ c ∈ (spelled reals tokens).head?, isBlank c = false := by
  match tokens with
  | [] => exact nofun
  | [last] =>
    obtain ⟨rule, spells⟩ := (spellable last (by simp)).spells reals
    simpa [spelled] using spells.nonblank []
  | first :: second :: rest =>
    obtain ⟨rule, spells⟩ := (spellable first (by simp)).spells reals
    rw [spelled_cons_cons]
    exact spells.nonblank _

/-- Words with spaces between them are tiled by the words and the spaces. -/
theorem tiled_spelled (spellable : ∀ token ∈ tokens, token.Spellable) (offset : Nat) :
    ∃ lexemes : List Lexeme, lexemes.map Lexeme.token = tokens ++ [.mark .endOfInput] ∧
      Tiled offset (spelled reals tokens) (lexemes.map .ok) := by
  induction tokens generalizing offset with
  | nil => exact ⟨[⟨.mark .endOfInput, .point offset⟩], rfl, .finish⟩
  | cons first rest ih =>
    obtain ⟨spellableFirst, spellableRest⟩ := List.forall_mem_cons.mp spellable
    obtain ⟨rule, spells⟩ := spellableFirst.spells reals
    obtain ⟨back, lexemes, split, spaced, same, after⟩ : ∃ back, ∃ lexemes : List Lexeme,
        spelled reals (first :: rest) = first.word reals ++ back ∧ Spaced back ∧
        lexemes.map Lexeme.token = rest ++ [.mark .endOfInput] ∧
        Tiled (offset + byteLength (first.word reals)) back (lexemes.map .ok) := by
      cases rest with
      | nil =>
        obtain ⟨lexemes, same, after⟩ := ih spellableRest (offset + byteLength (first.word reals))
        exact ⟨[], lexemes, by simp [spelled], nofun, same, after⟩
      | cons second rest =>
        obtain ⟨lexemes, same, after⟩ := ih spellableRest _
        refine ⟨_, lexemes, spelled_cons_cons .., by simp [Spaced], same, ?_⟩
        exact .skip rfl (Rule.blanks_takes (spelled_nonblank reals spellableRest)) rfl after
    refine ⟨⟨first, offset, offset + byteLength (first.word reals)⟩ :: lexemes, ?_, ?_⟩
    · rw [List.map_cons, same, List.cons_append]
    · exact .token split (spells.takes spaced) spells.denotes after

end Token

theorem Scan.items_injective {scan other : Scan} (same : scan.items = other.items) :
    scan = other := by
  obtain ⟨lexemes, failure⟩ := scan
  obtain ⟨lexemes', failure'⟩ := other
  have tokens (lexemes : List Lexeme) (failure : Option ScanError) :
      (Scan.mk lexemes failure).items.filterMap Except.toOption = lexemes := by
    cases failure <;>
      simp [items, List.filterMap_map, Function.comp_def, Except.toOption]
  obtain rfl : lexemes = lexemes' := by rw [← tokens lexemes failure, same, tokens]
  have failures := List.append_cancel_left same
  cases failure <;> cases failure' <;> simp_all

theorem Scan.eq_of_items {scan : Scan} {lexemes : List Lexeme}
    (same : lexemes.map .ok = scan.items) : scan = ⟨lexemes, none⟩ := by
  refine items_injective ?_
  rw [← same, items, Option.toList_none, List.map_nil, List.append_nil]

/-- Spelled tokens are read as these tokens. -/
theorem scan_spelled (reals : RealSpelling) {tokens : List Token}
    (spellable : ∀ token ∈ tokens, token.Spellable) :
    ∃ lexemes : List Lexeme, lexemes.map Lexeme.token = tokens ++ [.mark .endOfInput] ∧
      scan (.ofList (Token.spelled reals tokens)) = ⟨lexemes, none⟩ := by
  obtain ⟨lexemes, same, tiled⟩ := Token.tiled_spelled reals spellable 0
  refine ⟨lexemes, same, ?_⟩
  rw [scan, String.toList_ofList]
  exact Scan.eq_of_items tiled.items_eq

/-- Tokens as a text is read: each can be spelled or is the end of the input. -/
def Token.Readable (tokens : List Token) : Prop :=
  ∀ token ∈ tokens, token = .mark .endOfInput ∨ token.Spellable

section

variable {tokens others : List Token}

@[simp] theorem Token.readable_nil : Readable [] := List.forall_mem_nil _

@[simp] theorem Token.readable_mark {kind : Mark} :
    Readable (.mark kind :: tokens) ↔ Readable tokens := by
  simp [Readable, Spellable, Classical.em]

@[simp] theorem Token.readable_integer {value : Int64} :
    Readable (.integer value :: tokens) ↔ 0 ≤ value.toInt ∧ Readable tokens := by
  simp [Readable, Spellable]

@[simp] theorem Token.readable_real {value : Float} :
    Readable (.real value :: tokens) ↔ (∃ word, RealLiteral value word) ∧ Readable tokens := by
  simp [Readable, Spellable]

@[simp] theorem Token.readable_text {value : String} :
    Readable (.text value :: tokens) ↔ Readable tokens := by
  simp [Readable, Spellable]

@[simp] theorem Token.readable_ident {name : String} :
    Readable (.ident name :: tokens) ↔ Named name ∧ Readable tokens := by
  simp [Readable, Spellable]

@[simp] theorem Token.readable_append :
    Readable (tokens ++ others) ↔ Readable tokens ∧ Readable others := List.forall_mem_append

end

theorem Tiled.readable {offset : Nat} {text : List Char} {items : List (Except ScanError Lexeme)}
    (tiled : Tiled offset text items) {lexeme : Lexeme} (member : .ok lexeme ∈ items) :
    lexeme.token = .mark .endOfInput ∨ lexeme.token.Spellable := by
  induction tiled with
  | finish =>
    cases List.mem_singleton.mp member
    exact .inl rfl
  | skip _ _ _ _ ih => exact ih member
  | token _ takes denotes _ ih =>
    rcases List.mem_cons.mp member with first | others
    · cases first
      exact .inr (Rule.Spells.of_takes takes denotes).spellable
    · exact ih others
  | tooLarge | unclosed | stray => cases List.mem_singleton.mp member

theorem scan_readable (source : String) :
    Token.Readable ((scan source).lexemes.map Lexeme.token) := by
  intro token member
  obtain ⟨lexeme, read, rfl⟩ := List.mem_map.mp member
  refine (Scan.startingAt_tiled 0 source.toList).readable ?_
  exact List.mem_append_left _ (List.mem_map_of_mem read)

end MiniPascal
