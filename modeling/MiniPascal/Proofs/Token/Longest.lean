import MiniPascal.Proofs.Token.Forms

namespace MiniPascal

/-- A search for matches at the head of a text finds the longest word of a language, if there is any. -/
structure Finds (longest : List Char → Option Nat) (form : Regex) : Prop where
  sound : ∀ {text length}, longest text = some length →
    ∃ word back, text = word ++ back ∧ length = word.length ∧ form.Matches word
  reaches : ∀ {word} back, form.Matches word →
    ∃ length, longest (word ++ back) = some length ∧ word.length ≤ length

/-- A text that ends with the first occurrence of `close` in it. -/
def EndsAtFirst (close text : List Char) : Prop :=
  close <:+ text ∧ ∀ before after, text = before ++ close ++ after → after = []

section Classes

theorem isBlank_eq : isBlank = [' ', '\t', '\n', '\r', '\x0c'].contains := by
  funext c
  rw [Bool.eq_iff_iff]
  simp [isBlank, or_assoc]

theorem isDigit_eq : Char.isDigit = inRange '0' '9' := rfl

theorem isAlpha_eq : Char.isAlpha = fun c => inRange 'A' 'Z' c || inRange 'a' 'z' c := by
  funext c
  rw [Bool.eq_iff_iff]
  delta Char.isAlpha Char.isUpper Char.isLower
  simp [inRange, Char.le_def]

theorem isWordStart_eq :
    isWordStart = fun c => inRange 'A' 'Z' c || inRange 'a' 'z' c || c == '_' := by
  funext c
  rw [isWordStart, isAlpha_eq]

theorem isWordPart_eq :
    isWordPart = fun c => inRange 'A' 'Z' c || inRange 'a' 'z' c || inRange '0' '9' c || c == '_' := by
  funext c
  rw [isWordPart, Char.isAlphanum, isAlpha_eq, isDigit_eq]

theorem toUpper_eq_iff {capital c : Char} (upper : inRange 'A' 'Z' capital = true) :
    c.toUpper = capital ↔ c = capital ∨ c = capital.toLower := by
  simp only [inRange, Bool.and_eq_true, decide_eq_true_eq, Char.le_def] at upper
  have capitals : 65 ≤ capital.val.toNat ∧ capital.val.toNat ≤ 90 := upper
  delta Char.toUpper Char.toLower
  rw [dif_pos upper]
  split
  · rename_i lower
    have smalls : 97 ≤ c.val.toNat ∧ c.val.toNat ≤ 122 := lower
    simp only [Char.ext_iff, ← UInt32.toNat_inj, UInt32.toNat_add, Char.reduceVal,
      UInt32.reduceSub, UInt32.reduceToNat]
    omega
  · rename_i other
    have others : ¬ (97 ≤ c.val.toNat ∧ c.val.toNat ≤ 122) := other
    simp only [Char.ext_iff, ← UInt32.toNat_inj, UInt32.toNat_add, Char.reduceVal,
      UInt32.reduceSub, UInt32.reduceToNat]
    omega

/-- No keyword has a `K`, so the Kelvin sign makes no difference. -/
theorem foldsTo_eq {capital : Char} (upper : inRange 'A' 'Z' capital = true)
    (other : capital ≠ 'K') : foldsTo capital = matchesCapital capital := by
  funext c
  rw [Bool.eq_iff_iff]
  simp only [matchesCapital, foldsTo, Bool.or_eq_true, beq_iff_eq, Bool.and_eq_true, other,
    false_and, or_false, toUpper_eq_iff upper]

end Classes

section Searches

variable {accepts : Char → Bool} {word back text : List Char} {form : Regex}
  {longest tail : List Char → Option Nat}

theorem runLength_append (nonempty : word ≠ []) (accepted : ∀ c ∈ word, accepts c)
    (back : List Char) :
    runLength accepts (word ++ back) = some (word.length + (back.takeWhile accepts).length) := by
  have positive : 0 < word.length := List.length_pos_iff.mpr nonempty
  rw [runLength, List.takeWhile_append_of_pos accepted, List.length_append]
  split
  · omega
  · rename_i same
    rw [same]

theorem runLength_sound {length : Nat} (found : runLength accepts text = some length) :
    ∃ word back, text = word ++ back ∧ length = word.length ∧ word ≠ [] ∧ ∀ c ∈ word, accepts c := by
  refine ⟨text.takeWhile accepts, text.dropWhile accepts, List.takeWhile_append_dropWhile.symm, ?_⟩
  rw [runLength] at found
  split at found
  · cases found
  · rename_i same
    cases found
    refine ⟨same.symm, ?_, List.all_eq_true.mp List.all_takeWhile⟩
    exact List.length_pos_iff.mp (by omega)

theorem runLength_finds (accepts : Char → Bool) :
    Finds (runLength accepts) (.many1 (.oneOf accepts)) := by
  constructor
  · intro text length found
    obtain ⟨word, back, split, same, holds⟩ := runLength_sound found
    exact ⟨word, back, split, same, Regex.matches_many1_oneOf_iff.mpr holds⟩
  · intro word back matched
    obtain ⟨nonempty, accepted⟩ := Regex.matches_many1_oneOf_iff.mp matched
    exact ⟨_, runLength_append nonempty accepted back, Nat.le_add_right _ _⟩

/-- A search behind a fixed beginning. -/
theorem Finds.after {front : List Char} (finds : Finds tail form)
    (behind : ∀ rest, longest (front ++ rest) = (tail rest).map (· + front.length))
    (only : ∀ text length, longest text = some length → ∃ rest, text = front ++ rest) :
    Finds longest (.seq (.literal front) form) := by
  constructor
  · intro text length found
    obtain ⟨rest, rfl⟩ := only text length found
    rw [behind] at found
    obtain ⟨reach, foundBehind, rfl⟩ := Option.map_eq_some_iff.mp found
    obtain ⟨word, back, rfl, rfl, matched⟩ := finds.sound foundBehind
    refine ⟨front ++ word, back, (List.append_assoc ..).symm, ?_, ?_⟩
    · rw [List.length_append, Nat.add_comm]
    · exact .seq (Regex.matches_literal_iff.mpr rfl) matched
  · intro word back matched
    obtain ⟨begins, rest, rfl, head, behindIt⟩ := Regex.matches_seq_iff.mp matched
    obtain rfl := Regex.matches_literal_iff.mp head
    obtain ⟨reach, found, reaches⟩ := finds.reaches back behindIt
    refine ⟨_, by rw [List.append_assoc, behind, found, Option.map_some], ?_⟩
    rw [List.length_append]
    omega

section Keywords

variable {capitals : List Char}

theorem length_of_anyCase (matched : (Regex.anyCase capitals).Matches word) :
    word.length = capitals.length := by
  induction capitals generalizing word with
  | nil => simp_all [Regex.anyCase]
  | cons capital rest ih =>
    obtain ⟨_, others, rfl, head, tail⟩ := Regex.matches_seq_iff.mp matched
    obtain ⟨c, rfl, -⟩ := Regex.matches_oneOf_iff.mp head
    simp [ih tail]

theorem startsWithWord_iff
    (known : ∀ capital ∈ capitals, foldsTo capital = matchesCapital capital) :
    startsWithWord capitals text = true ↔
      ∃ word back, text = word ++ back ∧ (Regex.anyCase capitals).Matches word := by
  induction capitals generalizing text with
  | nil => simp [startsWithWord, Regex.anyCase]
  | cons capital rest ih =>
    have ⟨first, others⟩ := List.forall_mem_cons.mp known
    cases text with
    | nil =>
      simp only [startsWithWord, Bool.false_eq_true, false_iff]
      rintro ⟨word, back, split, matched⟩
      have := length_of_anyCase matched
      simp_all
    | cons c text =>
      simp only [startsWithWord, Bool.and_eq_true, ih others, Regex.anyCase,
        Regex.matches_seq_iff, Regex.matches_oneOf_iff, first]
      constructor
      · rintro ⟨same, word, back, rfl, matched⟩
        exact ⟨c :: word, back, rfl, [c], word, rfl, ⟨c, rfl, same⟩, matched⟩
      · rintro ⟨_, back, split, _, word, rfl, ⟨d, rfl, same⟩, matched⟩
        obtain ⟨rfl, rfl⟩ := List.cons.inj split
        exact ⟨same, word, back, rfl, matched⟩

theorem anyCase_finds (known : ∀ capital ∈ capitals, foldsTo capital = matchesCapital capital) :
    Finds (fun text => if startsWithWord capitals text then some capitals.length else none)
      (.anyCase capitals) := by
  constructor
  · intro text length found
    obtain ⟨starts, same⟩ := Option.ite_none_right_eq_some.mp found
    obtain ⟨word, back, split, matched⟩ := (startsWithWord_iff known).mp starts
    cases same
    exact ⟨word, back, split, (length_of_anyCase matched).symm, matched⟩
  · intro word back matched
    have starts := (startsWithWord_iff known).mpr ⟨word, back, rfl, matched⟩
    exact ⟨_, if_pos starts, Nat.le_of_eq (length_of_anyCase matched)⟩

/-- The letters of the keywords. -/
theorem keyword_letters : ∀ mark ∈ Mark.keywords, ∀ capital ∈ mark.spelling.toList,
    inRange 'A' 'Z' capital = true ∧ capital ≠ 'K' := by
  have letters : ∀ mark ∈ Mark.keywords,
      mark.spelling.toList.all (fun capital => inRange 'A' 'Z' capital && capital != 'K') = true := by
    decide
  intro mark keyword capital member
  simpa using List.all_eq_true.mp (letters mark keyword) capital member

end Keywords

theorem literal_finds (spelling : List Char) :
    Finds (fun text => if spelling.isPrefixOf text then some spelling.length else none)
      (.literal spelling) := by
  constructor
  · intro text length found
    obtain ⟨starts, same⟩ := Option.ite_none_right_eq_some.mp found
    obtain ⟨back, split⟩ := List.isPrefixOf_iff_prefix.mp starts
    cases same
    exact ⟨spelling, back, split.symm, rfl, Regex.matches_literal_iff.mpr rfl⟩
  · intro word back matched
    obtain rfl := Regex.matches_literal_iff.mp matched
    have starts := List.isPrefixOf_iff_prefix.mpr (List.prefix_append word back)
    exact ⟨_, if_pos starts, Nat.le_refl _⟩

section Comments

variable {close : List Char}

theorem EndsAtFirst.cons {c : Char} (ends : EndsAtFirst close word)
    (stays : ¬ close <+: c :: word) : EndsAtFirst close (c :: word) := by
  refine ⟨ends.1.trans (List.suffix_cons c word), fun before after split => ?_⟩
  cases before with
  | nil => exact absurd ⟨after, split.symm⟩ stays
  | cons d before => exact ends.2 before after (List.cons.inj split).2

/-- The search for a closing text goes up to its first occurrence. -/
theorem lengthThrough_sound {length : Nat} (found : lengthThrough close text = some length) :
    ∃ word back, text = word ++ back ∧ length = word.length ∧ EndsAtFirst close word := by
  induction text generalizing length with
  | nil => cases found
  | cons c rest ih =>
    rw [lengthThrough] at found
    split at found
    · rename_i closes
      cases found
      obtain ⟨back, split⟩ := List.isPrefixOf_iff_prefix.mp closes
      refine ⟨close, back, split.symm, rfl, List.suffix_refl close, fun before after split => ?_⟩
      have lengths := congrArg List.length split
      simp only [List.length_append] at lengths
      exact List.eq_nil_of_length_eq_zero (by omega)
    · rename_i stays
      obtain ⟨reach, foundBehind, rfl⟩ := Option.map_eq_some_iff.mp found
      obtain ⟨word, back, rfl, rfl, ends⟩ := ih foundBehind
      refine ⟨c :: word, back, rfl, rfl, ends.cons fun front => ?_⟩
      exact stays (List.isPrefixOf_iff_prefix.mpr (front.trans (List.prefix_append _ back)))

theorem lengthThrough_append (nonempty : close ≠ []) (ends : EndsAtFirst close word)
    (back : List Char) : lengthThrough close (word ++ back) = some word.length := by
  induction word with
  | nil => exact absurd (List.suffix_nil.mp ends.1) nonempty
  | cons c rest ih =>
    rw [List.cons_append, lengthThrough]
    split
    · rename_i closes
      -- an occurrence that begins the word is the one that ends it
      have front := List.isPrefixOf_iff_prefix.mp closes
      obtain ⟨after, split⟩ := List.prefix_of_prefix_length_le front
        (List.prefix_append (c :: rest) back) ends.1.length_le
      obtain rfl := ends.2 [] after split.symm
      rw [← split, List.append_nil]
    · rename_i stays
      have other : close ≠ c :: rest := by
        rintro rfl
        exact stays (List.isPrefixOf_iff_prefix.mpr (List.prefix_append _ back))
      have behind := (List.suffix_cons_iff.mp ends.1).resolve_left other
      rw [ih ⟨behind, fun before after split => ends.2 (c :: before) after (by rw [split]; rfl)⟩]
      rfl

theorem endsAtFirst_char_iff {c : Char} :
    EndsAtFirst [c] word ↔ ∃ front, word = front ++ [c] ∧ c ∉ front := by
  constructor
  · rintro ⟨⟨front, rfl⟩, first⟩
    refine ⟨front, rfl, fun member => ?_⟩
    obtain ⟨before, behind, rfl⟩ := List.append_of_mem member
    have nothing := first before (behind ++ [c]) (by simp)
    simp at nothing
  · rintro ⟨front, rfl, free⟩
    refine ⟨List.suffix_append front [c], fun before after split => ?_⟩
    rcases List.eq_nil_or_concat after with nothing | ⟨others, last, rfl⟩
    · exact nothing
    · rw [List.concat_eq_append, ← List.append_assoc] at split
      obtain ⟨rfl, -⟩ := List.append_inj' split rfl
      simp at free

theorem brace_finds :
    Finds (lengthThrough ['\x7d']) (.seq (.many (.noneOf ['\x7d'])) (.char '\x7d')) := by
  have inside (word : List Char) :
      Regex.Matches (.many (.noneOf ['\x7d'])) word ↔ '\x7d' ∉ word := by
    simp only [Regex.noneOf, Regex.matches_many_oneOf_iff]
    constructor
    · intro accepted member
      simpa using accepted _ member
    · intro free c member
      have other : c ≠ '\x7d' := fun same => free (same ▸ member)
      simpa using other
  constructor
  · intro text length found
    obtain ⟨word, back, rfl, rfl, ends⟩ := lengthThrough_sound found
    obtain ⟨front, rfl, free⟩ := endsAtFirst_char_iff.mp ends
    refine ⟨_, back, rfl, rfl, ?_⟩
    exact .seq ((inside front).mpr free) (Regex.matches_char_iff.mpr rfl)
  · intro word back matched
    obtain ⟨front, _, rfl, body, close⟩ := Regex.matches_seq_iff.mp matched
    obtain rfl := Regex.matches_char_iff.mp close
    have ends := endsAtFirst_char_iff.mpr ⟨front, rfl, (inside front).mp body⟩
    exact ⟨_, lengthThrough_append (List.cons_ne_nil _ _) ends back, Nat.le_refl _⟩

theorem lengthThrough_star_cons {c : Char} {rest : List Char}
    (stays : c ≠ '*' ∨ rest.head? ≠ some ')') :
    lengthThrough ['*', ')'] (c :: rest) = (lengthThrough ['*', ')'] rest).map (· + 1) := by
  rw [lengthThrough, if_neg]
  cases rest with
  | nil => simp
  | cons d rest =>
    simp only [List.isPrefixOf, Bool.and_true, Bool.and_eq_true, beq_iff_eq]
    rintro ⟨rfl, rfl⟩
    simp at stays

theorem matches_stars_iff {stars : List Char} :
    Regex.Matches (.many1 (.char '*')) stars ↔ ∃ more, stars = List.replicate (more + 1) '*' := by
  rw [Regex.char, Regex.matches_many1_oneOf_iff]
  constructor
  · rintro ⟨nonempty, accepted⟩
    have positive : 0 < stars.length := List.length_pos_iff.mpr nonempty
    refine ⟨stars.length - 1, List.eq_replicate_iff.mpr ⟨by omega, ?_⟩⟩
    exact fun c member => by simpa using accepted c member
  · rintro ⟨more, rfl⟩
    simp

/-- Stars that something else follows do not close the comment. -/
theorem lengthThrough_stars {d : Char} (star : d ≠ '*') (paren : d ≠ ')') (stars : Nat)
    (rest : List Char) :
    lengthThrough ['*', ')'] (List.replicate stars '*' ++ d :: rest) =
      (lengthThrough ['*', ')'] rest).map (· + (stars + 1)) := by
  induction stars with
  | zero => exact lengthThrough_star_cons (.inl star)
  | succ stars ih =>
    have stays : (List.replicate stars '*' ++ d :: rest).head? ≠ some ')' := by
      cases stars <;> simp [List.replicate_succ, paren]
    rw [List.replicate_succ, List.cons_append, lengthThrough_star_cons (.inr stays), ih,
      Option.map_map]
    rfl

theorem lengthThrough_close (more : Nat) (rest : List Char) :
    lengthThrough ['*', ')'] (List.replicate (more + 1) '*' ++ ')' :: rest) = some (more + 2) := by
  induction more with
  | zero => simp [lengthThrough]
  | succ more ih =>
    have stays : (List.replicate (more + 1) '*' ++ ')' :: rest).head? ≠ some ')' := by
      simp [List.replicate_succ]
    rw [List.replicate_succ, List.cons_append, lengthThrough_star_cons (.inr stays), ih]
    rfl

/-- The tail of a starred comment goes on to the first star and parenthesis, and no further. -/
theorem lengthThrough_starTail (matched : Regex.starTail.Matches word) (back : List Char) :
    lengthThrough ['*', ')'] (word ++ back) = some word.length := by
  obtain ⟨body, close, rfl, items, closes⟩ := Regex.matches_seq_iff.mp matched
  refine items.many_induction ?_ ?_
  · obtain ⟨stars, paren, rfl, run, last⟩ := Regex.matches_seq_iff.mp closes
    obtain ⟨more, rfl⟩ := matches_stars_iff.mp run
    obtain rfl := Regex.matches_char_iff.mp last
    simpa using lengthThrough_close more back
  · intro front rest item _ ih
    rw [List.append_assoc] at ih
    rcases Regex.matches_either_iff.mp item with single | starred
    · obtain ⟨c, rfl, accepted⟩ := Regex.matches_oneOf_iff.mp single
      have other : c ≠ '*' := by simpa using accepted
      simp [lengthThrough_star_cons (.inl other), ih]
    · obtain ⟨stars, last, rfl, run, ends⟩ := Regex.matches_seq_iff.mp starred
      obtain ⟨more, rfl⟩ := matches_stars_iff.mp run
      obtain ⟨d, rfl, accepted⟩ := Regex.matches_oneOf_iff.mp ends
      have others : d ≠ '*' ∧ d ≠ ')' := by simpa using accepted
      have passed := lengthThrough_stars others.1 others.2 (more + 1) (rest ++ (close ++ back))
      rw [ih, Option.map_some] at passed
      simp only [List.append_assoc, List.cons_append, List.nil_append]
      rw [passed]
      simp only [List.length_append, List.length_replicate, List.length_cons, Option.some.injEq]
      omega

theorem starTail_cons_other {c : Char} (other : c ≠ '*') (matched : Regex.starTail.Matches word) :
    Regex.starTail.Matches (c :: word) := by
  obtain ⟨body, close, rfl, items, closes⟩ := Regex.matches_seq_iff.mp matched
  refine .seq (.more (.left (.oneOf ?_)) items) closes
  simpa using other

/-- A star in front belongs to the run of stars that follows, or begins one. -/
theorem starTail_cons_star (matched : Regex.starTail.Matches word) (stays : word.head? ≠ some ')') :
    Regex.starTail.Matches ('*' :: word) := by
  have star : Regex.Matches (.char '*') ['*'] := Regex.matches_char_iff.mpr rfl
  obtain ⟨body, close, rfl, items, closes⟩ := Regex.matches_seq_iff.mp matched
  rcases Regex.matches_many_iff.mp items with rfl | ⟨front, rest, rfl, item, others⟩
  · obtain ⟨stars, paren, rfl, run, last⟩ := Regex.matches_seq_iff.mp closes
    exact .seq .done (.seq (star.many1_cons run) last)
  · rcases Regex.matches_either_iff.mp item with single | starred
    · obtain ⟨d, rfl, accepted⟩ := Regex.matches_oneOf_iff.mp single
      have begins : Regex.Matches (.seq (.many1 (.char '*')) (.noneOf ['*', ')'])) ['*', d] := by
        refine .seq (.seq star .done) (.oneOf ?_)
        simp_all
      exact .seq (.more (.right begins) others) closes
    · obtain ⟨stars, last, rfl, run, ends⟩ := Regex.matches_seq_iff.mp starred
      exact .seq (.more (.right (.seq (star.many1_cons run) ends)) others) closes

theorem starTail_finds : Finds (lengthThrough ['*', ')']) .starTail := by
  constructor
  · intro text
    induction text with
    | nil => intro length found; cases found
    | cons c rest ih =>
      intro length found
      rw [lengthThrough] at found
      split at found
      · rename_i closes
        cases found
        obtain ⟨back, split⟩ := List.isPrefixOf_iff_prefix.mp closes
        refine ⟨['*', ')'], back, split.symm, rfl, ?_⟩
        exact .seq .done (.seq (matches_stars_iff.mpr ⟨0, rfl⟩) (Regex.matches_char_iff.mpr rfl))
      · rename_i stays
        obtain ⟨reach, foundBehind, rfl⟩ := Option.map_eq_some_iff.mp found
        obtain ⟨word, back, rfl, rfl, matched⟩ := ih foundBehind
        refine ⟨c :: word, back, rfl, rfl, ?_⟩
        by_cases star : c = '*'
        · subst star
          refine starTail_cons_star matched ?_
          intro paren
          obtain ⟨others, rfl⟩ := List.head?_eq_some_iff.mp paren
          simp at stays
        · exact starTail_cons_other star matched
  · intro word back matched
    exact ⟨_, lengthThrough_starTail matched back, Nat.le_refl _⟩

end Comments

section Texts

theorem textLength_cons_other {c : Char} (other : c ≠ '\x27') (rest : List Char) :
    textLength (c :: rest) = (textLength rest).map (· + 1) := by
  cases rest <;> simp [textLength, other]

/-- A quote closes the literal, or is half of a doubled one and the literal goes on. -/
theorem textLength_quote (back : List Char) :
    ∃ length, textLength ('\x27' :: back) = some length ∧ 1 ≤ length := by
  cases back with
  | nil => exact ⟨1, rfl, Nat.le_refl 1⟩
  | cons c rest =>
    by_cases quote : c = '\x27'
    · subst quote
      rw [textLength]
      cases textLength rest with
      | none => exact ⟨1, rfl, Nat.le_refl 1⟩
      | some reach => exact ⟨reach + 2, rfl, by omega⟩
    · exact ⟨1, by simp [textLength, quote], Nat.le_refl 1⟩

theorem textTail_doubled (matched : Regex.textTail.Matches word) :
    Regex.textTail.Matches ('\x27' :: '\x27' :: word) := by
  obtain ⟨body, close, rfl, items, closes⟩ := Regex.matches_seq_iff.mp matched
  exact .seq (.more (.right (Regex.matches_literal_iff.mpr rfl)) items) closes

theorem textTail_cons {c : Char} (other : c ≠ '\x27') (matched : Regex.textTail.Matches word) :
    Regex.textTail.Matches (c :: word) := by
  obtain ⟨body, close, rfl, items, closes⟩ := Regex.matches_seq_iff.mp matched
  refine .seq (.more (.left (.oneOf ?_)) items) closes
  simpa using other

theorem textTail_quote : Regex.textTail.Matches ['\x27'] :=
  .seq .done (Regex.matches_char_iff.mpr rfl)

theorem textTail_finds : Finds textLength .textTail := by
  constructor
  · intro text
    fun_induction textLength text with
    | case1 => intro length found; cases found
    | case2 rest reach foundBehind ih =>
      intro length found
      cases found
      obtain ⟨word, back, rfl, rfl, matched⟩ := ih foundBehind
      exact ⟨'\x27' :: '\x27' :: word, back, rfl, rfl, textTail_doubled matched⟩
    | case3 rest unclosed ih =>
      intro length found
      cases found
      exact ⟨['\x27'], '\x27' :: rest, rfl, rfl, textTail_quote⟩
    | case4 rest single =>
      intro length found
      cases found
      exact ⟨['\x27'], rest, rfl, rfl, textTail_quote⟩
    | case5 c rest single other ih =>
      intro length found
      obtain ⟨reach, foundBehind, rfl⟩ := Option.map_eq_some_iff.mp found
      obtain ⟨word, back, rfl, rfl, matched⟩ := ih foundBehind
      exact ⟨c :: word, back, rfl, rfl, textTail_cons other matched⟩
  · intro word back matched
    obtain ⟨body, close, rfl, items, closes⟩ := Regex.matches_seq_iff.mp matched
    obtain rfl := Regex.matches_char_iff.mp closes
    refine items.many_induction ?_ ?_
    · exact textLength_quote back
    · intro front rest item _ ih
      obtain ⟨reach, found, reaches⟩ := ih
      rw [List.append_assoc] at found
      rcases Regex.matches_either_iff.mp item with single | doubled
      · obtain ⟨c, rfl, accepted⟩ := Regex.matches_oneOf_iff.mp single
        have other : c ≠ '\x27' := by simpa using accepted
        refine ⟨reach + 1, ?_, Nat.succ_le_succ reaches⟩
        simp only [List.append_assoc, List.cons_append, List.nil_append] at found ⊢
        rw [textLength_cons_other other, found, Option.map_some]
      · obtain rfl := Regex.matches_literal_iff.mp doubled
        refine ⟨reach + 2, ?_, Nat.add_le_add_right reaches 2⟩
        simp only [List.append_assoc, List.cons_append, List.nil_append] at found ⊢
        simp only [textLength, found]

end Texts

section Numbers

theorem runLength_digits_append (digits : word ≠ [] ∧ ∀ c ∈ word, c.isDigit)
    (stops : ∀ c ∈ back.head?, c.isDigit = false) :
    runLength Char.isDigit (word ++ back) = some word.length := by
  rw [runLength_append digits.1 digits.2]
  cases back with
  | nil => simp
  | cons c rest => simp [stops c rfl]

theorem matches_digits_iff :
    Regex.Matches (.many1 .digit) word ↔ word ≠ [] ∧ ∀ c ∈ word, c.isDigit := by
  rw [Regex.digit, ← isDigit_eq, Regex.matches_many1_oneOf_iff]

theorem digits_finds : Finds (runLength Char.isDigit) (.many1 .digit) := by
  rw [Regex.digit, ← isDigit_eq]
  exact runLength_finds Char.isDigit

theorem exponentLength_cons {c : Char} (letter : c = 'e' ∨ c = 'E') (rest : List Char) :
    exponentLength (c :: rest) =
      match rest with
      | [] => none
      | sign :: digits =>
        if sign = '+' ∨ sign = '-' then (runLength Char.isDigit digits).map (· + 2)
        else (runLength Char.isDigit rest).map (· + 1) := by
  rcases letter with rfl | rfl <;> cases rest <;> simp [exponentLength]

theorem exponent_finds : Finds exponentLength .exponent := by
  have letters (c : Char) : Regex.Matches (.anyOf ['e', 'E']) [c] ↔ c = 'e' ∨ c = 'E' := by
    simp [Regex.anyOf]
  have signs (c : Char) : Regex.Matches (.anyOf ['+', '-']) [c] ↔ c = '+' ∨ c = '-' := by
    simp [Regex.anyOf]
  constructor
  · intro text length found
    cases text with
    | nil => cases found
    | cons c rest =>
      by_cases letter : c = 'e' ∨ c = 'E'
      · rw [exponentLength_cons letter] at found
        cases rest with
        | nil => cases found
        | cons sign digits =>
          dsimp only at found
          split at found
          · rename_i signed
            obtain ⟨reach, foundBehind, rfl⟩ := Option.map_eq_some_iff.mp found
            obtain ⟨word, back, rfl, rfl, matched⟩ := digits_finds.sound foundBehind
            refine ⟨c :: sign :: word, back, rfl, rfl, ?_⟩
            exact .seq ((letters c).mpr letter) (.seq (.left ((signs sign).mpr signed)) matched)
          · obtain ⟨reach, foundBehind, rfl⟩ := Option.map_eq_some_iff.mp found
            obtain ⟨word, back, split, rfl, matched⟩ := digits_finds.sound foundBehind
            refine ⟨c :: word, back, by rw [split, List.cons_append], rfl, ?_⟩
            exact .seq ((letters c).mpr letter) (.seq (.right .empty) matched)
      · simp [exponentLength, letter] at found
  · intro word back matched
    obtain ⟨_, others, rfl, head, tail⟩ := Regex.matches_seq_iff.mp matched
    obtain ⟨sign, digits, rfl, signed, run⟩ := Regex.matches_seq_iff.mp tail
    obtain ⟨c, rfl, -⟩ := Regex.matches_oneOf_iff.mp head
    have letter := (letters c).mp head
    obtain ⟨reach, found, reaches⟩ := digits_finds.reaches back run
    rw [List.append_assoc, List.singleton_append, List.append_assoc, exponentLength_cons letter]
    rcases Regex.matches_either_iff.mp signed with one | none
    · obtain ⟨sign, rfl, -⟩ := Regex.matches_oneOf_iff.mp one
      refine ⟨reach + 2, ?_, by simp; omega⟩
      simp only [List.cons_append, List.nil_append, if_pos ((signs sign).mp one), found,
        Option.map_some]
    · obtain rfl := Regex.matches_empty_iff.mp none
      obtain ⟨nonempty, accepted⟩ := matches_digits_iff.mp run
      obtain ⟨first, rest, rfl⟩ := List.exists_cons_of_ne_nil nonempty
      have unsigned : ¬ (first = '+' ∨ first = '-') := by
        have digit := accepted first List.mem_cons_self
        rintro (rfl | rfl) <;> exact absurd digit (by decide)
      refine ⟨reach + 1, ?_, by simp at reaches ⊢; omega⟩
      simp only [List.nil_append, List.cons_append, if_neg unsigned] at found ⊢
      rw [found, Option.map_some]

theorem exponent_head (matched : Regex.exponent.Matches word) (back : List Char) :
    ∀ c ∈ (word ++ back).head?, c.isDigit = false := by
  obtain ⟨_, rest, rfl, head, -⟩ := Regex.matches_seq_iff.mp matched
  obtain ⟨c, rfl, letter⟩ := Regex.matches_oneOf_iff.mp head
  have letter : c = 'e' ∨ c = 'E' := by simpa using letter
  rcases letter with rfl | rfl <;> simp

theorem fraction_finds :
    Finds fractionLength (.seq (.char '.') (.seq (.many1 .digit) (.optional .exponent))) := by
  have point : Regex.Matches (.char '.') ['.'] := Regex.matches_char_iff.mpr rfl
  constructor
  · intro text length found
    fun_cases fractionLength text with
    | case2 => simp_all [fractionLength]
    | case1 rest =>
      rw [fractionLength] at found
      obtain ⟨reach, foundDigits, rfl⟩ := Option.map_eq_some_iff.mp found
      obtain ⟨digits, back, rfl, rfl, run⟩ := digits_finds.sound foundDigits
      rw [List.drop_left]
      cases foundBehind : exponentLength back with
      | none =>
        refine ⟨'.' :: digits, back, rfl, by simp; omega, ?_⟩
        have plain : Regex.Matches (.seq (.many1 .digit) (.optional .exponent)) (digits ++ []) :=
          .seq run (.right .empty)
        rw [List.append_nil] at plain
        exact .seq point plain
      | some reach =>
        obtain ⟨word, behind, rfl, rfl, matched⟩ := exponent_finds.sound foundBehind
        refine ⟨'.' :: (digits ++ word), behind, by simp, by simp; omega, ?_⟩
        exact .seq point (.seq run (.left matched))
  · intro word back matched
    obtain ⟨_, others, rfl, head, tail⟩ := Regex.matches_seq_iff.mp matched
    obtain rfl := Regex.matches_char_iff.mp head
    obtain ⟨digits, behind, rfl, run, power⟩ := Regex.matches_seq_iff.mp tail
    have digital := matches_digits_iff.mp run
    simp only [List.append_assoc, List.cons_append, List.nil_append, fractionLength]
    rcases Regex.matches_either_iff.mp power with power | none
    · obtain ⟨reach, found, reaches⟩ := exponent_finds.reaches back power
      rw [runLength_digits_append digital (exponent_head power back), Option.map_some,
        List.drop_left, found]
      exact ⟨_, rfl, by simp; omega⟩
    · obtain rfl := Regex.matches_empty_iff.mp none
      obtain ⟨reach, found, reaches⟩ := digits_finds.reaches back run
      rw [List.nil_append, found, Option.map_some]
      exact ⟨_, rfl, by simp; omega⟩

theorem real_finds : Finds Pattern.real.longest Rule.real.form := by
  constructor
  · intro text length found
    obtain ⟨reach, foundDigits, found⟩ := Option.bind_eq_some_iff.mp found
    obtain ⟨digits, rest, rfl, rfl, run⟩ := digits_finds.sound foundDigits
    rw [List.drop_left] at found
    obtain ⟨reach, foundBehind, found⟩ := Option.bind_eq_some_iff.mp found
    obtain ⟨word, back, rfl, rfl, matched⟩ := fraction_finds.sound foundBehind
    cases found
    exact ⟨digits ++ word, back, by simp, by simp, .seq run matched⟩
  · intro word back matched
    obtain ⟨digits, rest, rfl, run, tail⟩ := Regex.matches_seq_iff.mp matched
    obtain ⟨reach, found, reaches⟩ := fraction_finds.reaches back tail
    have stops : ∀ c ∈ (rest ++ back).head?, c.isDigit = false := by
      obtain ⟨_, others, rfl, head, -⟩ := Regex.matches_seq_iff.mp tail
      obtain rfl := Regex.matches_char_iff.mp head
      simp
    refine ⟨digits.length + reach, ?_, by simp; omega⟩
    rw [List.append_assoc, Pattern.real]
    simp only [runLength_digits_append (matches_digits_iff.mp run) stops, List.drop_left, found,
      Option.bind_eq_bind, Option.bind_some, Option.pure_def]

end Numbers

theorem identifier_finds : Finds Pattern.identifier.longest Rule.identifier.form := by
  rw [Rule.form, ← isWordStart_eq, ← isWordPart_eq]
  constructor
  · intro text length found
    cases text with
    | nil => cases found
    | cons c rest =>
      obtain ⟨starts, same⟩ := Option.ite_none_right_eq_some.mp found
      cases same
      refine ⟨c :: rest.takeWhile isWordPart, rest.dropWhile isWordPart, ?_, ?_, ?_⟩
      · rw [List.cons_append, List.takeWhile_append_dropWhile]
      · rw [List.length_cons, Nat.add_comm]
      · exact .seq (.oneOf starts)
          (Regex.matches_many_oneOf_iff.mpr (List.all_eq_true.mp List.all_takeWhile))
  · intro word back matched
    obtain ⟨_, rest, rfl, head, tail⟩ := Regex.matches_seq_iff.mp matched
    obtain ⟨c, rfl, starts⟩ := Regex.matches_oneOf_iff.mp head
    refine ⟨1 + ((rest ++ back).takeWhile isWordPart).length, if_pos starts, ?_⟩
    rw [List.takeWhile_append_of_pos (Regex.matches_many_oneOf_iff.mp tail)]
    simp
    omega

end Searches

/-- Every pattern finds the longest match of its rule. -/
theorem Rule.finds {rule : Rule} (listed : rule ∈ all) : Finds rule.pattern.longest rule.form := by
  cases rule with
  | blanks =>
    rw [form, Regex.anyOf, ← isBlank_eq]
    exact runLength_finds isBlank
  | braceComment =>
    refine brace_finds.after (fun _ => rfl) ?_
    intro text length found
    simp only [pattern, Pattern.braceComment] at found
    split at found
    · exact ⟨_, rfl⟩
    · cases found
  | starComment =>
    refine starTail_finds.after (fun _ => rfl) ?_
    intro text length found
    simp only [pattern, Pattern.starComment] at found
    split at found
    · exact ⟨_, rfl⟩
    · cases found
  | keyword mark =>
    have keyword : mark ∈ Mark.keywords := by simpa [all] using listed
    refine anyCase_finds fun capital member => ?_
    have ⟨upper, other⟩ := keyword_letters mark keyword capital member
    exact foldsTo_eq upper other
  | integer => exact digits_finds
  | real => exact real_finds
  | text =>
    refine textTail_finds.after (fun _ => rfl) ?_
    intro text length found
    simp only [pattern, Pattern.text] at found
    split at found
    · exact ⟨_, rfl⟩
    · cases found
  | identifier => exact identifier_finds
  | symbol mark => exact literal_finds _

end MiniPascal
