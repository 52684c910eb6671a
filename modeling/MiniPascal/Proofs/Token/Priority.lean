import MiniPascal.Proofs.Token.Longest

namespace MiniPascal

/-- What the first character of a match tells of its rule. -/
inductive Opening where
  | blank
  | brace
  | digit
  | quote
  | letter
  | symbol
deriving DecidableEq

/-- How a match that begins with a character opens. -/
def Opening.of (c : Char) : Opening :=
  if isBlank c then .blank
  else if c = '\x7b' then .brace
  else if c.isDigit then .digit
  else if c = '\x27' then .quote
  else if isWordStart c then .letter
  else .symbol

section Openings

variable {c : Char}

theorem isBlank_iff : isBlank c = true ↔ c = ' ' ∨ c = '\t' ∨ c = '\n' ∨ c = '\r' ∨ c = '\x0c' := by
  simp [isBlank, or_assoc]

theorem Opening.of_digit (digit : c.isDigit = true) : Opening.of c = .digit := by
  have nonblank : isBlank c = false := by
    rw [← Bool.not_eq_true, isBlank_iff]
    rintro (rfl | rfl | rfl | rfl | rfl) <;> exact absurd digit (by decide)
  have brace : c ≠ '\x7b' := by
    rintro rfl
    exact absurd digit (by decide)
  simp [Opening.of, nonblank, brace, digit]

theorem Opening.of_wordStart (starts : isWordStart c = true) : Opening.of c = .letter := by
  have nonblank : isBlank c = false := by
    rw [← Bool.not_eq_true, isBlank_iff]
    rintro (rfl | rfl | rfl | rfl | rfl) <;> exact absurd starts (by decide)
  have brace : c ≠ '\x7b' := by
    rintro rfl
    exact absurd starts (by decide)
  have quote : c ≠ '\x27' := by
    rintro rfl
    exact absurd starts (by decide)
  have nondigit : c.isDigit = false := by
    rw [← Bool.not_eq_true]
    intro digit
    rw [isWordStart_eq] at starts
    rw [isDigit_eq] at digit
    simp only [inRange, Bool.or_eq_true, Bool.and_eq_true, decide_eq_true_eq, Char.le_def, beq_iff_eq]
      at starts digit
    change 48 ≤ c.val.toNat ∧ c.val.toNat ≤ 57 at digit
    change ((65 ≤ c.val.toNat ∧ c.val.toNat ≤ 90) ∨ 97 ≤ c.val.toNat ∧ c.val.toNat ≤ 122) ∨
      c = '_' at starts
    rcases starts with (upper | lower) | rfl
    · omega
    · omega
    · exact absurd digit (by decide)
  simp [Opening.of, nonblank, brace, nondigit, quote, starts]

end Openings

namespace Rule

/-- How the matches of a rule open. -/
def opening : Rule → Opening
  | blanks => .blank
  | braceComment => .brace
  | starComment | symbol _ => .symbol
  | keyword _ | identifier => .letter
  | integer | real => .digit
  | text => .quote

variable {rule other : Rule} {mark : Mark} {word : List Char}

theorem mem_keywords (listed : keyword mark ∈ all) : mark ∈ Mark.keywords := by
  simpa [all] using listed

theorem mem_symbols (listed : symbol mark ∈ all) : mark ∈ Mark.symbols := by
  simpa [all] using listed

theorem keyword_opening (keyword : mark ∈ Mark.keywords) :
    ∃ capital, mark.spelling.toList.head? = some capital ∧ capital ≠ 'S' ∧ capital ≠ 'K' ∧
      Opening.of capital = .letter ∧ Opening.of capital.toLower = .letter := by
  have openings : ∀ mark ∈ Mark.keywords, mark.spelling.toList.head?.any (fun capital =>
      capital != 'S' && capital != 'K' && Opening.of capital == .letter &&
        Opening.of capital.toLower == .letter) = true := by
    decide
  obtain ⟨capital, first, holds⟩ := (Option.any_eq_true ..).mp (openings mark keyword)
  exact ⟨capital, first, by simpa [and_assoc] using holds⟩

theorem symbol_opening (symbol : mark ∈ Mark.symbols) :
    ∃ c, mark.spelling.toList.head? = some c ∧ Opening.of c = .symbol := by
  have openings : ∀ mark ∈ Mark.symbols,
      mark.spelling.toList.head?.map Opening.of = some .symbol := by
    decide
  exact Option.map_eq_some_iff.mp (openings mark symbol)

theorem opens (listed : rule ∈ all) (matched : rule.form.Matches word) :
    ∃ c rest, word = c :: rest ∧ Opening.of c = rule.opening := by
  cases rule with
  | blanks =>
    obtain ⟨_, rest, rfl, head, -⟩ := Regex.matches_seq_iff.mp matched
    obtain ⟨c, rfl, blank⟩ := Regex.matches_oneOf_iff.mp head
    rw [← isBlank_eq] at blank
    exact ⟨c, rest, rfl, by simp [Opening.of, opening, blank]⟩
  | braceComment =>
    obtain ⟨_, rest, rfl, head, -⟩ := Regex.matches_seq_iff.mp matched
    obtain rfl := Regex.matches_literal_iff.mp head
    exact ⟨_, _, rfl, by decide⟩
  | starComment =>
    obtain ⟨_, rest, rfl, head, -⟩ := Regex.matches_seq_iff.mp matched
    obtain rfl := Regex.matches_literal_iff.mp head
    exact ⟨_, _, rfl, by decide⟩
  | keyword mark =>
    obtain ⟨capital, first, noS, noK, upper, lower⟩ := keyword_opening (mem_keywords listed)
    obtain ⟨rest, spelled⟩ := List.head?_eq_some_iff.mp first
    rw [form, spelled] at matched
    obtain ⟨_, rest, rfl, head, -⟩ := Regex.matches_seq_iff.mp matched
    obtain ⟨c, rfl, same⟩ := Regex.matches_oneOf_iff.mp head
    refine ⟨c, rest, rfl, ?_⟩
    have cases : c = capital ∨ c = capital.toLower := by simpa [foldsTo, noS, noK] using same
    rcases cases with rfl | rfl
    · exact upper
    · exact lower
  | integer =>
    obtain ⟨nonempty, digits⟩ := matches_digits_iff.mp matched
    obtain ⟨c, rest, rfl⟩ := List.exists_cons_of_ne_nil nonempty
    exact ⟨c, rest, rfl, Opening.of_digit (digits c List.mem_cons_self)⟩
  | real =>
    obtain ⟨whole, rest, rfl, run, -⟩ := Regex.matches_seq_iff.mp matched
    obtain ⟨nonempty, digits⟩ := matches_digits_iff.mp run
    obtain ⟨c, others, rfl⟩ := List.exists_cons_of_ne_nil nonempty
    exact ⟨c, _, rfl, Opening.of_digit (digits c List.mem_cons_self)⟩
  | text =>
    obtain ⟨_, rest, rfl, head, -⟩ := Regex.matches_seq_iff.mp matched
    obtain rfl := Regex.matches_literal_iff.mp head
    exact ⟨_, _, rfl, by decide⟩
  | identifier =>
    rw [form, ← isWordStart_eq] at matched
    obtain ⟨_, rest, rfl, head, -⟩ := Regex.matches_seq_iff.mp matched
    obtain ⟨c, rfl, starts⟩ := Regex.matches_oneOf_iff.mp head
    exact ⟨c, rest, rfl, Opening.of_wordStart starts⟩
  | symbol mark =>
    obtain ⟨c, first, symbol⟩ := symbol_opening (mem_symbols listed)
    obtain ⟨rest, spelled⟩ := List.head?_eq_some_iff.mp first
    rw [form, spelled] at matched
    exact ⟨c, rest, Regex.matches_literal_iff.mp matched, symbol⟩

theorem ne_nil (listed : rule ∈ all) (matched : rule.form.Matches word) : word ≠ [] := by
  obtain ⟨c, rest, rfl, -⟩ := opens listed matched
  exact List.cons_ne_nil c rest

theorem symbol_spelling : ∀ mark ∈ Mark.symbols, ∀ other ∈ Mark.symbols,
    mark.spelling.toList = other.spelling.toList → mark = other := by
  decide

theorem keyword_spelling : ∀ mark ∈ Mark.keywords, ∀ other ∈ Mark.keywords,
    mark.spelling.toList = other.spelling.toList → mark = other := by
  decide

theorem symbol_length : ∀ mark ∈ Mark.symbols, mark.spelling.toList.length ≤ 2 := by
  decide

/-- The capital that a character stands for in a keyword. -/
def capitalOf (c : Char) : Char := if c = 'ſ' then 'S' else c.toUpper

theorem capitalOf_eq {capital c : Char} (upper : inRange 'A' 'Z' capital = true)
    (same : matchesCapital capital c = true) : capitalOf c = capital := by
  simp only [matchesCapital, Bool.or_eq_true, beq_iff_eq, Bool.and_eq_true] at same
  rcases same with rfl | ⟨rfl, rfl⟩
  · refine if_neg ?_
    rintro rfl
    exact absurd upper (by decide)
  · exact if_pos rfl

theorem map_capitalOf {capitals : List Char}
    (letters : ∀ capital ∈ capitals, inRange 'A' 'Z' capital = true ∧ capital ≠ 'K')
    (matched : (Regex.anyCase capitals).Matches word) : word.map capitalOf = capitals := by
  induction capitals generalizing word with
  | nil => simp_all [Regex.anyCase]
  | cons capital rest ih =>
    obtain ⟨⟨upper, other⟩, letters⟩ := List.forall_mem_cons.mp letters
    obtain ⟨_, others, rfl, head, tail⟩ := Regex.matches_seq_iff.mp matched
    obtain ⟨c, rfl, same⟩ := Regex.matches_oneOf_iff.mp head
    rw [foldsTo_eq upper other] at same
    have capitalized := capitalOf_eq upper same
    simp [capitalized, ih letters tail]

theorem starComment_length (matched : starComment.form.Matches word) : 4 ≤ word.length := by
  obtain ⟨_, tail, rfl, head, tail⟩ := Regex.matches_seq_iff.mp matched
  obtain rfl := Regex.matches_literal_iff.mp head
  obtain ⟨body, close, rfl, -, closes⟩ := Regex.matches_seq_iff.mp tail
  obtain ⟨stars, last, rfl, run, ends⟩ := Regex.matches_seq_iff.mp closes
  obtain ⟨more, rfl⟩ := matches_stars_iff.mp run
  obtain rfl := Regex.matches_char_iff.mp ends
  simp
  omega

theorem real_has_point (matched : real.form.Matches word) : '.' ∈ word := by
  obtain ⟨whole, rest, rfl, -, tail⟩ := Regex.matches_seq_iff.mp matched
  obtain ⟨_, others, rfl, head, -⟩ := Regex.matches_seq_iff.mp tail
  obtain rfl := Regex.matches_char_iff.mp head
  simp

theorem symbol_not_comment (listed : symbol mark ∈ all) (matched : (symbol mark).form.Matches word) :
    ¬ starComment.form.Matches word := by
  intro comment
  have long := starComment_length comment
  have short := symbol_length mark (mem_symbols listed)
  rw [← Regex.matches_literal_iff.mp matched] at short
  omega

theorem integer_not_real (matched : integer.form.Matches word) : ¬ real.form.Matches word := by
  intro real
  exact absurd ((matches_digits_iff.mp matched).2 '.' (real_has_point real)) (by decide)

theorem symbol_injective {mark' : Mark} (listed : symbol mark ∈ all) (listed' : symbol mark' ∈ all)
    (matched : (symbol mark).form.Matches word) (matched' : (symbol mark').form.Matches word) :
    mark = mark' := by
  refine symbol_spelling mark (mem_symbols listed) mark' (mem_symbols listed') ?_
  rw [← Regex.matches_literal_iff.mp matched, ← Regex.matches_literal_iff.mp matched']

theorem keyword_injective {mark' : Mark} (listed : keyword mark ∈ all)
    (listed' : keyword mark' ∈ all) (matched : (keyword mark).form.Matches word)
    (matched' : (keyword mark').form.Matches word) : mark = mark' := by
  have first := mem_keywords listed
  have second := mem_keywords listed'
  refine keyword_spelling mark first mark' second ?_
  rw [← map_capitalOf (keyword_letters mark first) matched,
    ← map_capitalOf (keyword_letters mark' second) matched']

/-- A text is a match of one rule only, except that a keyword may be read as an identifier. -/
theorem unambiguous (listed : rule ∈ all) (listed' : other ∈ all) (matched : rule.form.Matches word)
    (matched' : other.form.Matches word) :
    rule = other ∨ (rule = identifier ∧ ∃ mark, other = keyword mark) ∨
      (other = identifier ∧ ∃ mark, rule = keyword mark) := by
  obtain ⟨c, rest, rfl, same⟩ := opens listed matched
  obtain ⟨_, _, split, same'⟩ := opens listed' matched'
  cases split
  rw [same] at same'
  match rule, other, same' with
  | blanks, blanks, _ | braceComment, braceComment, _ | starComment, starComment, _
  | identifier, identifier, _ | integer, integer, _ | real, real, _ | text, text, _ => exact .inl rfl
  | keyword mark, identifier, _ => exact .inr (.inr ⟨rfl, mark, rfl⟩)
  | identifier, keyword mark, _ => exact .inr (.inl ⟨rfl, mark, rfl⟩)
  | keyword mark, keyword mark', _ =>
    exact .inl (congrArg keyword (keyword_injective listed listed' matched matched'))
  | symbol mark, symbol mark', _ =>
    exact .inl (congrArg symbol (symbol_injective listed listed' matched matched'))
  | symbol mark, starComment, _ => exact absurd matched' (symbol_not_comment listed matched)
  | starComment, symbol mark, _ => exact absurd matched (symbol_not_comment listed' matched')
  | integer, real, _ => exact absurd matched' (integer_not_real matched)
  | real, integer, _ => exact absurd matched (integer_not_real matched')

/-- A rule that takes a word off a text: none matches a longer beginning of the text, and a keyword
goes before an identifier. -/
structure Takes (rule : Rule) (word rest : List Char) : Prop where
  listed : rule ∈ all
  matched : rule.form.Matches word
  longest : ∀ other ∈ all, ∀ longer, other.form.Matches longer → longer <+: word ++ rest →
    longer.length ≤ word.length
  keyword : ∀ mark ∈ Mark.keywords, (keyword mark).form.Matches word → rule = .keyword mark

/-- What is taken off a text, and by which rule, is determined by the text. -/
theorem Takes.unique {word' rest rest' : List Char} (takes : rule.Takes word rest)
    (takes' : other.Takes word' rest') (same : word ++ rest = word' ++ rest') :
    rule = other ∧ word = word' ∧ rest = rest' := by
  have first := takes.longest other takes'.listed word' takes'.matched
    (same ▸ List.prefix_append word' rest')
  have second := takes'.longest rule takes.listed word takes.matched
    (same ▸ List.prefix_append word rest)
  obtain ⟨rfl, rfl⟩ := List.append_inj same (Nat.le_antisymm second first)
  refine ⟨?_, rfl, rfl⟩
  rcases unambiguous takes.listed takes'.listed takes.matched takes'.matched with
    same | ⟨-, mark, rfl⟩ | ⟨-, mark, rfl⟩
  · exact same
  · exact takes.keyword mark (mem_keywords takes'.listed) takes'.matched
  · exact (takes'.keyword mark (mem_keywords takes.listed) takes.matched).symm

end Rule

section Best

variable {text : List Char} {length : Nat} {pattern : Pattern} {patterns : List Pattern}
  {best : Option (Nat × Pattern)}

/-- A pattern in turn leaves the best match so far, or has a longer one. -/
theorem Pattern.longer_cases (text : List Char) (best : Option (Nat × Pattern)) (pattern : Pattern) :
    (longer text best pattern = best ∧
        ∀ reach, pattern.longest text = some reach → ∃ known ∈ best, reach ≤ known.1) ∨
      ∃ reach, longer text best pattern = some (reach, pattern) ∧
        pattern.longest text = some reach ∧ ∀ known ∈ best, known.1 < reach := by
  unfold longer
  cases pattern.longest text with
  | none => exact .inl ⟨rfl, nofun⟩
  | some reach =>
    cases best with
    | none => exact .inr ⟨reach, rfl, rfl, nofun⟩
    | some known =>
      obtain ⟨bound, holder⟩ := known
      by_cases less : bound < reach
      · refine .inr ⟨reach, if_pos less, rfl, ?_⟩
        rintro _ ⟨⟩
        exact less
      · refine .inl ⟨if_neg less, ?_⟩
        rintro _ ⟨⟩
        exact ⟨(bound, holder), rfl, Nat.le_of_not_lt less⟩

theorem Pattern.foldl_longer_none (found : patterns.foldl (longer text) best = none) :
    best = none ∧ ∀ pattern ∈ patterns, pattern.longest text = none := by
  induction patterns generalizing best with
  | nil => exact ⟨found, List.forall_mem_nil _⟩
  | cons first rest ih =>
    obtain ⟨none, unmatched⟩ := ih found
    obtain ⟨kept, shorter⟩ | ⟨reach, taken, -⟩ := longer_cases text best first
    · rw [kept] at none
      subst none
      refine ⟨rfl, List.forall_mem_cons.mpr ⟨?_, unmatched⟩⟩
      refine Option.eq_none_iff_forall_ne_some.mpr fun reach matched => ?_
      obtain ⟨_, ⟨⟩, -⟩ := shorter reach matched
    · rw [taken] at none
      cases none

/-- The best match is the first of the longest ones. -/
theorem Pattern.foldl_longer_some
    (found : patterns.foldl (longer text) best = some (length, pattern)) :
    (best = some (length, pattern) ∧
        ∀ other ∈ patterns, ∀ reach, other.longest text = some reach → reach ≤ length) ∨
      ∃ before after, patterns = before ++ pattern :: after ∧
        pattern.longest text = some length ∧ (∀ known ∈ best, known.1 < length) ∧
        (∀ other ∈ before, ∀ reach, other.longest text = some reach → reach < length) ∧
        ∀ other ∈ after, ∀ reach, other.longest text = some reach → reach ≤ length := by
  induction patterns generalizing best with
  | nil => exact .inl ⟨found, List.forall_mem_nil _⟩
  | cons first rest ih =>
    rw [List.foldl_cons] at found
    obtain ⟨kept, shorter⟩ | ⟨reach, taken, matched, longer⟩ := longer_cases text best first
    · rw [kept] at found
      obtain ⟨rfl, bounded⟩ | ⟨before, after, rfl, most, known, less, bounded⟩ := ih found
      · refine .inl ⟨rfl, List.forall_mem_cons.mpr ⟨fun reach matched => ?_, bounded⟩⟩
        obtain ⟨_, ⟨⟩, bound⟩ := shorter reach matched
        exact bound
      · refine .inr ⟨first :: before, after, rfl, most, known, ?_, bounded⟩
        refine List.forall_mem_cons.mpr ⟨fun reach matched => ?_, less⟩
        obtain ⟨reached, member, bound⟩ := shorter reach matched
        exact Nat.lt_of_le_of_lt bound (known reached member)
    · rw [taken] at found
      obtain ⟨same, bounded⟩ | ⟨before, after, rfl, most, known, less, bounded⟩ := ih found
      · cases same
        exact .inr ⟨[], rest, rfl, matched, longer, List.forall_mem_nil _, bounded⟩
      · have beaten : reach < length := known (reach, first) rfl
        refine .inr ⟨first :: before, after, rfl, most, ?_, ?_, bounded⟩
        · exact fun reached member => Nat.lt_trans (longer reached member) beaten
        · refine List.forall_mem_cons.mpr ⟨fun other found => ?_, less⟩
          rw [matched] at found
          cases found
          exact beaten

/-- Where no pattern matches, no rule does. -/
theorem Pattern.best?_none (found : best? text = none) {rule : Rule} (listed : rule ∈ Rule.all)
    {word : List Char} (matched : rule.form.Matches word) : ¬ word <+: text := by
  rintro ⟨back, rfl⟩
  rw [best?, ← Rule.map_pattern_all] at found
  have unmatched := (foldl_longer_none found).2 rule.pattern (List.mem_map_of_mem listed)
  obtain ⟨reach, reached, -⟩ := (Rule.finds listed).reaches back matched
  rw [unmatched] at reached
  cases reached

/-- Identifiers come behind all keywords. -/
theorem Rule.identifier_last :
    Rule.all.Pairwise fun first second =>
      first = .identifier → second ∉ Mark.keywords.map .keyword := by
  decide

/-- The best match is what a rule takes off the text. -/
theorem Pattern.best?_takes (found : best? text = some (length, pattern)) :
    ∃ (rule : Rule) (word rest : List Char), text = word ++ rest ∧ length = word.length ∧
      pattern = rule.pattern ∧ rule.Takes word rest := by
  rw [best?, ← Rule.map_pattern_all] at found
  obtain ⟨⟨⟩, -⟩ | ⟨before, after, patterns, most, -, less, bounded⟩ := foldl_longer_some found
  obtain ⟨earlier, others, rules, rfl, mapped⟩ := List.map_eq_append_iff.mp patterns
  obtain ⟨rule, later, rfl, rfl, rfl⟩ := List.map_eq_cons_iff.mp mapped
  have listed : rule ∈ Rule.all := by simp [rules]
  obtain ⟨word, rest, rfl, rfl, matched⟩ := (Rule.finds listed).sound most
  have reaches {other : Rule} (known : other ∈ Rule.all) {longer back : List Char}
      (alike : other.form.Matches longer) (split : longer ++ back = word ++ rest) :
      ∃ reach, other.pattern.longest (word ++ rest) = some reach ∧ longer.length ≤ reach :=
    split ▸ (Rule.finds known).reaches back alike
  refine ⟨rule, word, rest, rfl, rfl, rfl, listed, matched, ?_, ?_⟩
  · rintro other known longer alike ⟨back, split⟩
    obtain ⟨reach, reached, bound⟩ := reaches known alike split
    refine Nat.le_trans bound ?_
    rw [rules, List.mem_append, List.mem_cons] at known
    rcases known with early | rfl | late
    · exact Nat.le_of_lt (less _ (List.mem_map_of_mem early) reach reached)
    · rw [most] at reached
      cases reached
      exact Nat.le_refl _
    · exact bounded _ (List.mem_map_of_mem late) reach reached
  · intro mark keyword alike
    have known : Rule.keyword mark ∈ Rule.all := by simp [Rule.all, keyword]
    obtain ⟨reach, reached, bound⟩ := reaches known alike rfl
    have position := known
    rw [rules, List.mem_append, List.mem_cons] at position
    rcases position with early | same | late
    · exact absurd (less _ (List.mem_map_of_mem early) reach reached) (Nat.not_lt.mpr bound)
    · exact same.symm
    · rcases Rule.unambiguous listed known matched alike with same | ⟨rfl, -⟩ | ⟨⟨⟩, -⟩
      · exact same
      · have order := Rule.identifier_last
        rw [rules, List.pairwise_append, List.pairwise_cons] at order
        exact absurd (List.mem_map_of_mem keyword) (order.2.1.1 _ late rfl)

end Best

end MiniPascal
