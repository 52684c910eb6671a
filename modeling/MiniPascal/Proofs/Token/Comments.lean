import MiniPascal.Proofs.Token.Literals

namespace MiniPascal

section Searches

variable {close text word : List Char} {form : Regex}

theorem lengthThrough_eq_none_iff (nonempty : close ≠ []) :
    lengthThrough close text = none ↔ ¬ close <:+: text := by
  induction text with
  | nil => simp [lengthThrough, nonempty]
  | cons c rest ih =>
    rw [lengthThrough, List.infix_cons_iff, ← List.isPrefixOf_iff_prefix]
    split
    · rename_i closes
      simp [closes]
    · rename_i stays
      simp [stays, ih]

theorem endsAtFirst_iff (nonempty : close ≠ []) :
    EndsAtFirst close word ↔ lengthThrough close word = some word.length := by
  constructor
  · intro ends
    have found := lengthThrough_append nonempty ends []
    rwa [List.append_nil] at found
  · intro found
    obtain ⟨front, back, rfl, length, ends⟩ := lengthThrough_sound found
    obtain rfl : back = [] := by
      rw [List.length_append] at length
      exact List.eq_nil_of_length_eq_zero (by omega)
    rwa [List.append_nil]

/-- A text in which `close` occurs has a front part that ends with its first occurrence. -/
theorem exists_endsAtFirst_iff (nonempty : close ≠ []) :
    (∃ word back, text = word ++ back ∧ EndsAtFirst close word) ↔ close <:+: text := by
  constructor
  · rintro ⟨word, back, rfl, ends⟩
    exact ends.1.isInfix.trans (List.prefix_append word back).isInfix
  · intro occurs
    cases found : lengthThrough close text with
    | none => exact absurd occurs ((lengthThrough_eq_none_iff nonempty).mp found)
    | some length =>
      obtain ⟨word, back, split, -, ends⟩ := lengthThrough_sound found
      exact ⟨word, back, split, ends⟩

/-- A language whose longest words a search for `close` finds is that of the texts that end with
the first `close` in them. -/
theorem Finds.matches_iff (finds : Finds (lengthThrough close) form) (nonempty : close ≠ []) :
    form.Matches word ↔ EndsAtFirst close word := by
  constructor
  · intro matched
    obtain ⟨length, found, reaches⟩ := finds.reaches [] matched
    rw [List.append_nil] at found
    obtain ⟨front, back, split, rfl, -⟩ := lengthThrough_sound found
    have lengths := congrArg List.length split
    rw [List.length_append] at lengths
    rw [endsAtFirst_iff nonempty, found]
    exact congrArg some (by omega)
  · intro ends
    obtain ⟨front, back, split, length, matched⟩ :=
      finds.sound ((endsAtFirst_iff nonempty).mp ends)
    have lengths := congrArg List.length split
    rw [List.length_append] at lengths
    obtain rfl : back = [] := List.eq_nil_of_length_eq_zero (by omega)
    rwa [split, List.append_nil]

end Searches

namespace Rule

variable {word body rest : List Char}

theorem matches_starComment_iff : starComment.form.Matches word ↔
    ∃ tail, word = '(' :: '*' :: tail ∧ EndsAtFirst ['*', ')'] tail := by
  simp only [form, Regex.matches_seq_iff, Regex.matches_literal_iff,
    starTail_finds.matches_iff (List.cons_ne_nil _ _)]
  constructor
  · rintro ⟨_, tail, rfl, rfl, ends⟩
    exact ⟨tail, rfl, ends⟩
  · rintro ⟨tail, rfl, ends⟩
    exact ⟨['(', '*'], tail, rfl, rfl, ends⟩

theorem matches_braceComment_iff : braceComment.form.Matches word ↔
    ∃ tail, word = '\x7b' :: tail ∧ EndsAtFirst ['\x7d'] tail := by
  simp only [form, Regex.matches_seq_iff, Regex.matches_literal_iff,
    brace_finds.matches_iff (List.cons_ne_nil _ _)]
  constructor
  · rintro ⟨_, tail, rfl, rfl, ends⟩
    exact ⟨tail, rfl, ends⟩
  · rintro ⟨tail, rfl, ends⟩
    exact ⟨['\x7b'], tail, rfl, rfl, ends⟩

/-- Of two front parts of a text that end with the first `close`, neither is the longer. -/
theorem endsAtFirst_length {close tail back : List Char} (nonempty : close ≠ [])
    (ends : EndsAtFirst close body) (ends' : EndsAtFirst close tail)
    (split : tail ++ back = body ++ rest) : tail.length = body.length := by
  have found := lengthThrough_append nonempty ends rest
  rw [← split, lengthThrough_append nonempty ends' back] at found
  exact Option.some.inj found

theorem starComment_takes (ends : EndsAtFirst ['*', ')'] body) :
    starComment.Takes ('(' :: '*' :: body) rest := by
  have matched : starComment.form.Matches ('(' :: '*' :: body) :=
    matches_starComment_iff.mpr ⟨body, rfl, ends⟩
  refine ⟨by decide, matched, ?_, keyword_of_opening (by decide) matched nofun⟩
  rintro other listed longer matched' ⟨back, split⟩
  obtain ⟨c, others, rfl, opens⟩ := Rule.opens listed matched'
  obtain rfl : c = '(' := (List.cons.inj split).1
  cases other with
  | starComment =>
    obtain ⟨tail, same, ends'⟩ := matches_starComment_iff.mp matched'
    rw [same] at split ⊢
    have behind := (List.cons.inj (List.cons.inj split).2).2
    simp [endsAtFirst_length (List.cons_ne_nil _ _) ends ends' behind]
  | symbol mark =>
    have short := symbol_length mark (mem_symbols listed)
    rw [← Regex.matches_literal_iff.mp matched'] at short
    exact Nat.le_trans short (by simp)
  | _ => cases opens

theorem braceComment_takes (ends : EndsAtFirst ['\x7d'] body) :
    braceComment.Takes ('\x7b' :: body) rest := by
  have matched : braceComment.form.Matches ('\x7b' :: body) :=
    matches_braceComment_iff.mpr ⟨body, rfl, ends⟩
  refine ⟨by decide, matched, ?_, keyword_of_opening (by decide) matched nofun⟩
  rintro other listed longer matched' ⟨back, split⟩
  obtain ⟨c, others, rfl, opens⟩ := Rule.opens listed matched'
  obtain rfl : c = '\x7b' := (List.cons.inj split).1
  cases other with
  | braceComment =>
    obtain ⟨tail, same, ends'⟩ := matches_braceComment_iff.mp matched'
    rw [same] at split ⊢
    have behind := (List.cons.inj split).2
    simp [endsAtFirst_length (List.cons_ne_nil _ _) ends ends' behind]
  | _ => cases opens

/-- A parenthesis and a star that no star and parenthesis follow begin no comment. -/
theorem uncommented (unclosed : ¬ ['*', ')'] <:+: rest) (matched : starComment.form.Matches word) :
    ¬ word <+: '(' :: '*' :: rest := by
  obtain ⟨tail, rfl, ends⟩ := matches_starComment_iff.mp matched
  rintro ⟨back, split⟩
  have behind := (List.cons.inj (List.cons.inj split).2).2
  exact unclosed ((exists_endsAtFirst_iff (List.cons_ne_nil _ _)).mp ⟨tail, back, behind.symm, ends⟩)

theorem leftParen_takes (unclosed : ¬ ['*', ')'] <:+: rest) :
    (symbol .leftParen).Takes ['('] ('*' :: rest) :=
  symbol_takes (by decide) (by decide) (by decide) fun _ => uncommented unclosed

theorem star_takes (rest : List Char) : (symbol .star).Takes ['*'] rest := by
  refine symbol_takes (by decide) (by decide) (by decide) ?_
  rintro word matched ⟨back, split⟩
  obtain ⟨tail, rfl, -⟩ := matches_starComment_iff.mp matched
  cases split

end Rule

/-- Comments end at the first closing mark behind their opening one. A starred comment is a
parenthesis, a star and a text that ends with its first star and parenthesis, so that the two stars
of it are different ones. Wherever the scanner comes to a parenthesis and a star, it passes over such
a comment if a star and a parenthesis stand somewhere behind the two, and reads them as two tokens
otherwise. A comment in braces ends at the first closing brace. -/
theorem comment_extents :
    (∀ word, Rule.starComment.form.Matches word ↔
      ∃ tail, word = '(' :: '*' :: tail ∧ EndsAtFirst ['*', ')'] tail) ∧
    (∀ (source : String) (front rest : List Char) (lexemes : List Lexeme),
      ComesTo source.toList front lexemes ('(' :: '*' :: rest) →
      let start := byteLength front
      ((∃ body after, rest = body ++ after ∧ EndsAtFirst ['*', ')'] body) ↔
        ['*', ')'] <:+: rest) ∧
      (∀ body after, rest = body ++ after → EndsAtFirst ['*', ')'] body →
        scan source = (Scan.startingAt (start + 2 + byteLength body) 0 after).behind lexemes) ∧
      (¬ ['*', ')'] <:+: rest →
        scan source = (Scan.startingAt (start + 2) 0 rest).behind
          (lexemes ++ [⟨.mark .leftParen, start, start + 1⟩,
            ⟨.mark .star, start + 1, start + 2⟩]))) ∧
    (∀ word, Rule.braceComment.form.Matches word ↔
      ∃ tail, word = '\x7b' :: tail ∧ EndsAtFirst ['\x7d'] tail) ∧
    ∀ (source : String) (front body after : List Char) (lexemes : List Lexeme),
      ComesTo source.toList front lexemes ('\x7b' :: (body ++ after)) →
      EndsAtFirst ['\x7d'] body →
      scan source =
        (Scan.startingAt (byteLength front + 1 + byteLength body) 0 after).behind lexemes := by
  refine ⟨fun _ => Rule.matches_starComment_iff, ?_, fun _ => Rule.matches_braceComment_iff, ?_⟩
  · intro source front rest lexemes comes start
    refine ⟨exists_endsAtFirst_iff (List.cons_ne_nil _ _), ?_, ?_⟩
    · rintro body after rfl ends
      have behind := comes.skip (Rule.starComment_takes ends) rfl
      have width : byteLength ('(' :: '*' :: body) = 2 + byteLength body := by
        rw [byteLength_cons, byteLength_cons, ← Nat.add_assoc]
        rfl
      rw [scan, behind.scan, byteLength_append, width, ← Nat.add_assoc]
    · intro unclosed
      have paren := comes.token (Rule.leftParen_takes unclosed) .symbol
      have star := paren.token (Rule.star_takes rest) .symbol
      rw [scan, star.scan, List.append_assoc]
      simp only [byteLength_append]
      rfl
  · intro source front body after lexemes comes ends
    have behind := comes.skip (Rule.braceComment_takes ends) rfl
    have width : byteLength ('\x7b' :: body) = 1 + byteLength body := byteLength_cons ..
    rw [scan, behind.scan, byteLength_append, width, ← Nat.add_assoc]

/-- Stars at both ends of a comment, of which the first closes nothing; the comment goes up to the
first star and parenthesis behind it, and an opening one inside it opens nothing. -/
theorem comment_extents_stars :
    scan "(*(***)*)" = ⟨[⟨.mark .star, 7, 8⟩, ⟨.mark .rightParen, 8, 9⟩,
      ⟨.mark .endOfInput, .point 9⟩], none⟩ ∧
    scan "(*)" = ⟨[⟨.mark .leftParen, 0, 1⟩, ⟨.mark .star, 1, 2⟩, ⟨.mark .rightParen, 2, 3⟩,
      ⟨.mark .endOfInput, .point 3⟩], none⟩ ∧
    scan "\x7b\x7b\x7d\x7d" = ⟨[], some ⟨'\x7d', 3, 4⟩⟩ := by
  obtain ⟨-, starred, -, braced⟩ := comment_extents
  have nested := starred "(*(***)*)" [] "(***)*)".toList [] .start
  have alone := starred "(*)" [] [')'] [] .start
  have ends : EndsAtFirst ['*', ')'] "(***)".toList :=
    (endsAtFirst_iff (by decide)).mpr (by decide)
  have ends' : EndsAtFirst ['\x7d'] ['\x7b', '\x7d'] :=
    (endsAtFirst_iff (by decide)).mpr (by decide)
  refine ⟨?_, ?_, ?_⟩
  · exact (nested.2.1 "(***)".toList ['*', ')'] rfl ends).trans (by decide)
  · exact (alone.2.2 (by decide)).trans (by decide)
  · exact (braced _ [] ['\x7b', '\x7d'] ['\x7d'] [] .start ends').trans (by decide)

end MiniPascal
