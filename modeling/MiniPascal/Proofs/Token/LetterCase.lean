import MiniPascal.Proofs.Token.Literals

namespace MiniPascal

/-- A text in capitals. -/
def capitals (text : List Char) : List Char := text.map Char.toUpper

/-- A class of characters in which the case of letters does not count. -/
def CaseBlind (accepts : Char → Bool) : Prop := ∀ c : Char, accepts c.toUpper = accepts c

/-- The other case of a letter. Only the letters of ASCII have one. -/
def otherCase (c : Char) : Char := if c.isUpper then c.toLower else c.toUpper

/-- A text with the case of some letters changed: of those that stand at chosen offsets, where a
character takes up the given width. -/
def recased (width : Char → Nat) (flips : Nat → Bool) : Nat → List Char → List Char
  | _, [] => []
  | offset, c :: rest =>
    (if flips offset then otherCase c else c) :: recased width flips (offset + width c) rest

/-- The width of a character in a string literal. -/
def quotedSize (c : Char) : Nat := if c = '\x27' then 2 else c.utf8Size

/-- A token at a place where the case of letters is changed: names and texts change with it. -/
def Token.recased (flips : Nat → Bool) (start : Nat) : Token → Token
  | .ident name => .ident (.ofList (MiniPascal.recased Char.utf8Size flips start name.toList))
  | .text payload => .text (.ofList (MiniPascal.recased quotedSize flips (start + 1) payload.toList))
  | token => token

def Lexeme.recased (flips : Nat → Bool) (lexeme : Lexeme) : Lexeme :=
  ⟨lexeme.token.recased flips lexeme.span.start, lexeme.span⟩

/-- What a text is read as when the case of letters in it is changed: places and failure stay. -/
def Scan.recased (flips : Nat → Bool) (scan : Scan) : Scan :=
  ⟨scan.lexemes.map (Lexeme.recased flips), scan.failure⟩

section Letters

variable {c d : Char}

theorem toNat_toUpper (c : Char) : c.toUpper.toNat =
    if 97 ≤ c.toNat ∧ c.toNat ≤ 122 then c.toNat - 32 else c.toNat := by
  delta Char.toUpper
  split
  · rename_i lower
    have smalls : 97 ≤ c.toNat ∧ c.toNat ≤ 122 := lower
    rw [if_pos smalls]
    simp only [Char.toNat, UInt32.toNat_add, Char.reduceVal, UInt32.reduceSub,
      UInt32.reduceToNat] at smalls ⊢
    omega
  · rename_i other
    have others : ¬ (97 ≤ c.toNat ∧ c.toNat ≤ 122) := other
    rw [if_neg others]

theorem toNat_toLower (c : Char) : c.toLower.toNat =
    if 65 ≤ c.toNat ∧ c.toNat ≤ 90 then c.toNat + 32 else c.toNat := by
  delta Char.toLower
  split
  · rename_i upper
    have larges : 65 ≤ c.toNat ∧ c.toNat ≤ 90 := upper
    rw [if_pos larges]
    simp only [Char.toNat, UInt32.toNat_add, Char.reduceVal, UInt32.reduceSub,
      UInt32.reduceToNat] at larges ⊢
    omega
  · rename_i other
    have others : ¬ (65 ≤ c.toNat ∧ c.toNat ≤ 90) := other
    rw [if_neg others]

theorem isUpper_iff : c.isUpper = true ↔ 65 ≤ c.toNat ∧ c.toNat ≤ 90 := by
  delta Char.isUpper
  rw [decide_eq_true_iff]
  exact Iff.rfl

theorem isAlpha_iff : c.isAlpha = true ↔
    65 ≤ c.toNat ∧ c.toNat ≤ 90 ∨ 97 ≤ c.toNat ∧ c.toNat ≤ 122 := by
  delta Char.isAlpha Char.isLower
  rw [Bool.or_eq_true, isUpper_iff, Bool.and_eq_true, decide_eq_true_iff, decide_eq_true_iff]
  exact Iff.rfl

theorem isDigit_iff : c.isDigit = true ↔ 48 ≤ c.toNat ∧ c.toNat ≤ 57 := by
  delta Char.isDigit
  rw [Bool.and_eq_true, decide_eq_true_iff, decide_eq_true_iff]
  exact Iff.rfl

theorem toUpper_of_other (other : c.isAlpha = false) : c.toUpper = c := by
  rw [← Bool.not_eq_true, isAlpha_iff] at other
  rw [← Char.toNat_inj, toNat_toUpper]
  split <;> omega

theorem isAlpha_toUpper (letter : c.isAlpha = true) : c.toUpper.isAlpha = true := by
  rw [isAlpha_iff] at letter ⊢
  rw [toNat_toUpper]
  split <;> omega

/-- Only a letter has another capital, and this is a letter. -/
theorem caseBlind_of_letters {accepts : Char → Bool} (value : Bool)
    (letters : ∀ c : Char, c.isAlpha = true → accepts c = value) : CaseBlind accepts := by
  intro c
  cases letter : c.isAlpha with
  | false => rw [toUpper_of_other letter]
  | true => rw [letters c letter, letters _ (isAlpha_toUpper letter)]

theorem caseBlind_isDigit : CaseBlind Char.isDigit := by
  refine caseBlind_of_letters false fun c letter => ?_
  rw [isAlpha_iff] at letter
  rw [← Bool.not_eq_true, isDigit_iff]
  omega

theorem caseBlind_eq (other : d.isAlpha = false) : CaseBlind (· == d) := by
  refine caseBlind_of_letters false fun c letter => ?_
  rw [beq_eq_false_iff_ne]
  rintro rfl
  rw [letter] at other
  cases other

theorem toUpper_beq (other : d.isAlpha = false) (c : Char) : (c.toUpper == d) = (c == d) :=
  caseBlind_eq other c

theorem toUpper_eq_other (other : d.isAlpha = false) : c.toUpper = d ↔ c = d := by
  have same := toUpper_beq other c
  rwa [Bool.eq_iff_iff, beq_iff_eq, beq_iff_eq] at same

theorem CaseBlind.or {accepts accepts' : Char → Bool} (first : CaseBlind accepts)
    (second : CaseBlind accepts') : CaseBlind fun c => accepts c || accepts' c := by
  intro c
  dsimp only
  rw [first c, second c]

theorem caseBlind_isBlank : CaseBlind isBlank :=
  ((((caseBlind_eq (by decide)).or (caseBlind_eq (by decide))).or (caseBlind_eq (by decide))).or
    (caseBlind_eq (by decide))).or (caseBlind_eq (by decide))

theorem caseBlind_isWordStart : CaseBlind isWordStart :=
  caseBlind_of_letters true fun c letter => by rw [isWordStart, letter, Bool.true_or]

theorem caseBlind_isWordPart : CaseBlind isWordPart :=
  caseBlind_of_letters true fun c letter => by
    rw [isWordPart, Char.isAlphanum, letter, Bool.true_or, Bool.true_or]

theorem toUpper_toUpper (c : Char) : c.toUpper.toUpper = c.toUpper := by
  have once := toNat_toUpper c
  have twice := toNat_toUpper c.toUpper
  rw [← Char.toNat_inj]
  split at once <;> split at twice <;> omega

/-- A letter of a keyword is the same letter in both cases. -/
theorem caseBlind_matchesCapital (capital : Char) : CaseBlind (matchesCapital capital) := by
  intro c
  have long := toUpper_beq (by decide : 'ſ'.isAlpha = false) c
  rw [matchesCapital, toUpper_toUpper, long, matchesCapital]

theorem caseBlind_exponent : CaseBlind fun c => c == 'e' || c == 'E' := by
  intro c
  rw [Bool.eq_iff_iff]
  simp only [Bool.or_eq_true, beq_iff_eq, ← Char.toNat_inj, toNat_toUpper, Char.reduceToNat]
  split <;> omega

end Letters

section Searches

variable {accepts : Char → Bool} {close text : List Char}

@[simp] theorem capitals_cons (c : Char) (rest : List Char) :
    capitals (c :: rest) = c.toUpper :: capitals rest := rfl

theorem takeWhile_capitals (blind : CaseBlind accepts) (text : List Char) :
    (capitals text).takeWhile accepts = capitals (text.takeWhile accepts) := by
  have same : accepts ∘ Char.toUpper = accepts := funext blind
  rw [capitals, List.takeWhile_map, same, capitals]

theorem runLength_capitals (blind : CaseBlind accepts) (text : List Char) :
    runLength accepts (capitals text) = runLength accepts text := by
  rw [runLength, takeWhile_capitals blind, capitals, List.length_map, runLength]

theorem isPrefixOf_capitals (plain : ∀ d ∈ close, d.isAlpha = false) (text : List Char) :
    close.isPrefixOf (capitals text) = close.isPrefixOf text := by
  induction close generalizing text with
  | nil => cases text <;> rfl
  | cons d rest ih =>
    obtain ⟨other, others⟩ := List.forall_mem_cons.mp plain
    cases text with
    | nil => rfl
    | cons c text =>
      rw [capitals_cons, List.isPrefixOf, List.isPrefixOf, ih others, BEq.comm, toUpper_beq other,
        BEq.comm]

theorem lengthThrough_capitals (plain : ∀ d ∈ close, d.isAlpha = false) (text : List Char) :
    lengthThrough close (capitals text) = lengthThrough close text := by
  induction text with
  | nil => rfl
  | cons c rest ih =>
    rw [capitals_cons, lengthThrough, ← capitals_cons, isPrefixOf_capitals plain, ih, lengthThrough]

theorem startsWithWord_capitals (word text : List Char) :
    startsWithWord word (capitals text) = startsWithWord word text := by
  induction word generalizing text with
  | nil => rfl
  | cons capital word ih =>
    cases text with
    | nil => rfl
    | cons c text =>
      rw [capitals_cons, startsWithWord, caseBlind_matchesCapital capital c, ih, startsWithWord]

theorem exponentLength_capitals (text : List Char) :
    exponentLength (capitals text) = exponentLength text := by
  have digits := runLength_capitals caseBlind_isDigit
  cases text with
  | nil => rfl
  | cons c rest =>
    have letter : (c.toUpper == 'e' || c.toUpper == 'E') = (c == 'e' || c == 'E') :=
      caseBlind_exponent c
    cases rest with
    | nil =>
      change exponentLength [c.toUpper] = exponentLength [c]
      simp only [exponentLength, letter]
    | cons sign rest =>
      have plus := toUpper_beq (by decide : '+'.isAlpha = false) sign
      have minus := toUpper_beq (by decide : '-'.isAlpha = false) sign
      simp only [capitals_cons, exponentLength, letter, plus, minus]
      rw [← capitals_cons, digits, digits]

/-- A search behind a fixed character that is no letter. -/
theorem longest_capitals_behind {d : Char} (other : d.isAlpha = false)
    {longest : List Char → Option Nat} (fails : ∀ c rest, c ≠ d → longest (c :: rest) = none)
    (same : ∀ rest, longest (d :: capitals rest) = longest (d :: rest)) (text : List Char) :
    longest (capitals text) = longest text := by
  cases text with
  | nil => rfl
  | cons c rest =>
    by_cases here : c = d
    · subst here
      rw [capitals_cons, toUpper_of_other other, same]
    · rw [capitals_cons, fails _ _ (mt (toUpper_eq_other other).mp here), fails _ _ here]

theorem drop_capitals (length : Nat) (text : List Char) :
    (capitals text).drop length = capitals (text.drop length) := List.map_drop.symm

theorem fractionLength_capitals (text : List Char) :
    fractionLength (capitals text) = fractionLength text := by
  refine longest_capitals_behind (by decide : '.'.isAlpha = false) ?_ ?_ text
  · intro c rest other
    rw [fractionLength.eq_2]
    exact fun _ same => other (List.cons.inj same).1
  · intro rest
    simp only [fractionLength, runLength_capitals caseBlind_isDigit, drop_capitals,
      exponentLength_capitals]

theorem textLength_capitals (text : List Char) : textLength (capitals text) = textLength text := by
  have quote : '\x27'.toUpper = '\x27' := by decide
  fun_induction textLength text with
  | case1 => rfl
  | case2 rest reach found ih =>
    simp only [capitals_cons, quote, textLength, ih, found]
  | case3 rest unclosed ih =>
    simp only [capitals_cons, quote, textLength, ih, unclosed]
  | case4 rest single =>
    rw [capitals_cons, quote]
    cases rest with
    | nil => rfl
    | cons d rest =>
      have other : d ≠ '\x27' := fun same => single rest rfl (by rw [same])
      have other' : d.toUpper ≠ '\x27' := mt (toUpper_eq_other (by decide)).mp other
      rw [capitals_cons, textLength, if_pos rfl]
      exact fun _ _ same => other' (List.cons.inj same).1
  | case5 c rest single other ih =>
    have other' : c.toUpper ≠ '\x27' := mt (toUpper_eq_other (by decide)).mp other
    rw [capitals_cons, textLength_cons_other other', ih]

theorem Pattern.longest_braceComment_capitals (text : List Char) :
    braceComment.longest (capitals text) = braceComment.longest text := by
  refine longest_capitals_behind (by decide : '\x7b'.isAlpha = false) ?_ ?_ text
  · intro c rest other
    simp only [braceComment]
    split
    · rename_i same
      exact absurd (List.cons.inj same).1 other
    · rfl
  · intro rest
    have through : lengthThrough ['\x7d'] (capitals rest) = _ :=
      lengthThrough_capitals (by simp) rest
    simp only [braceComment, through]

theorem Pattern.longest_starComment_capitals (text : List Char) :
    starComment.longest (capitals text) = starComment.longest text := by
  refine longest_capitals_behind (by decide : '('.isAlpha = false) ?_ ?_ text
  · intro c rest other
    simp only [starComment]
    split
    · rename_i same
      exact absurd (List.cons.inj same).1 other
    · rfl
  · refine fun rest => @longest_capitals_behind '*' (by decide)
      (fun rest => starComment.longest ('(' :: rest)) ?_ ?_ rest
    · intro c rest other
      simp only [starComment]
      split
      · rename_i same
        exact absurd (List.cons.inj (List.cons.inj same).2).1 other
      · rfl
    · intro rest
      have through : lengthThrough ['*', ')'] (capitals rest) = _ :=
        lengthThrough_capitals (by simp) rest
      simp only [starComment, through]

theorem Pattern.longest_text_capitals (source : List Char) :
    Pattern.text.longest (capitals source) = Pattern.text.longest source := by
  refine longest_capitals_behind (by decide : '\x27'.isAlpha = false) ?_ ?_ source
  · intro c rest other
    simp only [Pattern.text]
    split
    · rename_i same
      exact absurd (List.cons.inj same).1 other
    · rfl
  · intro rest
    simp only [Pattern.text, textLength_capitals]

theorem Mark.symbol_plain {mark : Mark} (symbol : mark ∈ symbols) :
    ∀ d ∈ mark.spelling.toList, d.isAlpha = false := by
  have plain : ∀ mark ∈ symbols, mark.spelling.toList.all (!·.isAlpha) = true := by decide
  simpa using plain mark symbol

/-- No search of the scanner depends on the case of letters. -/
theorem Rule.longest_capitals {rule : Rule} (listed : rule ∈ all) (text : List Char) :
    rule.pattern.longest (capitals text) = rule.pattern.longest text := by
  cases rule with
  | blanks => exact runLength_capitals caseBlind_isBlank text
  | braceComment => exact Pattern.longest_braceComment_capitals text
  | starComment => exact Pattern.longest_starComment_capitals text
  | keyword mark =>
    rw [pattern, Pattern.keyword]
    dsimp only
    rw [startsWithWord_capitals]
  | integer => exact runLength_capitals caseBlind_isDigit text
  | real =>
    simp only [pattern, Pattern.real, runLength_capitals caseBlind_isDigit, drop_capitals,
      fractionLength_capitals]
  | text => exact Pattern.longest_text_capitals text
  | identifier =>
    cases text with
    | nil => rfl
    | cons c rest =>
      rw [pattern, Pattern.identifier]
      simp only [capitals_cons, caseBlind_isWordStart c, takeWhile_capitals caseBlind_isWordPart]
      simp only [capitals, List.length_map]
  | symbol mark =>
    rw [pattern, Pattern.symbol]
    dsimp only
    rw [isPrefixOf_capitals (Mark.symbol_plain (mem_symbols listed))]

theorem Rule.matches_capitals {rule : Rule} (listed : rule ∈ all) (word : List Char) :
    rule.form.Matches (capitals word) ↔ rule.form.Matches word := by
  rw [matches_iff listed, matches_iff listed, longest_capitals listed, capitals, List.length_map]

end Searches

section Changes

variable {c : Char} {width : Char → Nat} {flips : Nat → Bool} {offset : Nat}
  {text word : List Char}

theorem otherCase_of_other (other : c.isAlpha = false) : otherCase c = c := by
  have small : c.isUpper = false := by
    rw [← Bool.not_eq_true, isAlpha_iff] at other
    rw [← Bool.not_eq_true, isUpper_iff]
    omega
  rw [otherCase, small, if_neg Bool.false_ne_true, toUpper_of_other other]

theorem isAlpha_otherCase (letter : c.isAlpha = true) : (otherCase c).isAlpha = true := by
  rw [otherCase]
  split
  · rw [isAlpha_iff] at letter ⊢
    rw [toNat_toLower]
    split <;> omega
  · exact isAlpha_toUpper letter

theorem toUpper_otherCase (c : Char) : (otherCase c).toUpper = c.toUpper := by
  rw [otherCase]
  split
  · have lowered := toNat_toLower c
    have raised := toNat_toUpper c.toLower
    have capital := toNat_toUpper c
    rename_i upper
    rw [isUpper_iff] at upper
    rw [← Char.toNat_inj, raised, capital, lowered, if_pos upper]
    split <;> split <;> omega
  · exact toUpper_toUpper c

theorem utf8Size_of_letter (letter : c.isAlpha = true) : c.utf8Size = 1 := by
  have small : c.val ≤ 127 := by
    rw [isAlpha_iff] at letter
    have bound : c.toNat ≤ 127 := by omega
    exact bound
  delta Char.utf8Size
  exact if_pos small

theorem utf8Size_otherCase (c : Char) : (otherCase c).utf8Size = c.utf8Size := by
  cases letter : c.isAlpha with
  | false => rw [otherCase_of_other letter]
  | true => rw [utf8Size_of_letter letter, utf8Size_of_letter (isAlpha_otherCase letter)]

/-- A character and what becomes of it have the same capital and the same size. -/
theorem changed_letter (chosen : Bool) (c : Char) :
    (if chosen then otherCase c else c).toUpper = c.toUpper ∧
      (if chosen then otherCase c else c).utf8Size = c.utf8Size := by
  cases chosen with
  | false => exact ⟨rfl, rfl⟩
  | true => exact ⟨toUpper_otherCase c, utf8Size_otherCase c⟩

theorem changed_of_other (chosen : Bool) (other : c.isAlpha = false) :
    (if chosen then otherCase c else c) = c := by
  rw [otherCase_of_other other, ite_self]

theorem changed_isDigit (chosen : Bool) (other : c.isDigit = false) :
    (if chosen then otherCase c else c).isDigit = false := by
  rw [← caseBlind_isDigit, (changed_letter chosen c).1, caseBlind_isDigit, other]

/-- Two characters with the same capital are the same but for their case. -/
theorem eq_or_otherCase {d : Char} (same : d.toUpper = c.toUpper) : d = c ∨ d = otherCase c := by
  have first := toNat_toUpper d
  have second := toNat_toUpper c
  have lower := toNat_toLower c
  have upper := @isUpper_iff c
  rw [same] at first
  rw [otherCase]
  split
  · rename_i capital
    have larges := upper.mp capital
    rw [if_pos larges] at lower
    rw [← Char.toNat_inj, ← Char.toNat_inj, lower]
    split at first <;> split at second <;> omega
  · rename_i small
    rw [upper] at small
    rw [← Char.toNat_inj, ← Char.toNat_inj]
    split at first <;> split at second <;> omega

theorem recased_cons (offset : Nat) (c : Char) (rest : List Char) :
    recased width flips offset (c :: rest) =
      (if flips offset then otherCase c else c) :: recased width flips (offset + width c) rest := rfl

theorem capitals_recased (width : Char → Nat) (flips : Nat → Bool) (offset : Nat)
    (text : List Char) : capitals (recased width flips offset text) = capitals text := by
  induction text generalizing offset with
  | nil => rfl
  | cons c rest ih =>
    rw [recased_cons, capitals_cons, ih, (changed_letter (flips offset) c).1, capitals_cons]

theorem length_recased (width : Char → Nat) (flips : Nat → Bool) (offset : Nat)
    (text : List Char) : (recased width flips offset text).length = text.length := by
  have same := congrArg List.length (capitals_recased width flips offset text)
  rwa [capitals, capitals, List.length_map, List.length_map] at same

theorem byteLength_recased (width : Char → Nat) (flips : Nat → Bool) (offset : Nat)
    (text : List Char) : byteLength (recased width flips offset text) = byteLength text := by
  induction text generalizing offset with
  | nil => rfl
  | cons c rest ih =>
    rw [recased_cons, byteLength_cons, ih, (changed_letter (flips offset) c).2, byteLength_cons]

theorem take_recased (width : Char → Nat) (flips : Nat → Bool) (offset length : Nat)
    (text : List Char) :
    (recased width flips offset text).take length = recased width flips offset (text.take length) := by
  induction text generalizing offset length with
  | nil => rw [recased, List.take_nil, recased]
  | cons c rest ih =>
    cases length with
    | zero => rfl
    | succ length => rw [recased_cons, List.take_succ_cons, ih, List.take_succ_cons, recased_cons]

theorem recased_append (flips : Nat → Bool) (offset : Nat) (front back : List Char) :
    recased Char.utf8Size flips offset (front ++ back) = recased Char.utf8Size flips offset front ++
      recased Char.utf8Size flips (offset + byteLength front) back := by
  induction front generalizing offset with
  | nil => rfl
  | cons c rest ih =>
    rw [List.cons_append, recased_cons, ih, recased_cons, byteLength_cons, List.cons_append,
      Nat.add_assoc]

theorem recased_of_others (others : ∀ c ∈ text, c.isAlpha = false) (offset : Nat) :
    recased width flips offset text = text := by
  induction text generalizing offset with
  | nil => rfl
  | cons c rest ih =>
    obtain ⟨other, others⟩ := List.forall_mem_cons.mp others
    rw [recased_cons, changed_of_other _ other, ih others]

/-- Quotes are doubled before the change as after it. -/
theorem recased_doubled (flips : Nat → Bool) (offset : Nat) (payload : List Char) :
    recased Char.utf8Size flips offset (doubled payload) =
      doubled (recased quotedSize flips offset payload) := by
  induction payload generalizing offset with
  | nil => rfl
  | cons c rest ih =>
    rw [doubled_cons, recased_cons, doubled_cons]
    have plain : '\x27'.isAlpha = false := by decide
    by_cases quote : c = '\x27'
    · subst quote
      have size : '\x27'.utf8Size = 1 := by decide
      rw [changed_of_other _ plain, if_pos rfl, quotedSize, if_pos rfl, ← ih, List.cons_append,
        List.cons_append, recased_cons, recased_cons, changed_of_other _ plain,
        changed_of_other _ plain, size]
      rfl
    · have same := (changed_letter (flips offset) c).1
      have changed : (if flips offset then otherCase c else c) ≠ '\x27' := by
        intro quoted
        rw [quoted, toUpper_of_other plain] at same
        exact quote ((toUpper_eq_other plain).mp same.symm)
      rw [if_neg quote, if_neg changed, quotedSize, if_neg quote, ← ih]
      rfl

end Changes

section Reading

variable {flips : Nat → Bool} {offset : Nat} {text word : List Char} {rule : Rule} {token : Token}

theorem isAlpha_of_digit {c : Char} (digit : c.isDigit = true) : c.isAlpha = false := by
  rw [isDigit_iff] at digit
  rw [← Bool.not_eq_true, isAlpha_iff]
  omega

/-- The letter of an exponent does not come into the value of a real. -/
theorem realOfLiteral_exponent {whole fraction : List Char} (digits : ∀ c ∈ whole, c.isDigit)
    (digits' : ∀ c ∈ fraction, c.isDigit) {c d : Char} (other : c.isDigit = false)
    (other' : d.isDigit = false) (power : List Char) :
    realOfLiteral (whole ++ '.' :: (fraction ++ c :: power)) =
      realOfLiteral (whole ++ '.' :: (fraction ++ d :: power)) := by
  have point : '.'.isDigit = false := by decide
  simp [realOfLiteral, List.takeWhile_append_of_pos digits, List.takeWhile_append_of_pos digits',
    point, other, other']

theorem Rule.matches_recased (listed : rule ∈ all) (flips : Nat → Bool) (offset : Nat)
    (word : List Char) :
    rule.form.Matches (recased Char.utf8Size flips offset word) ↔ rule.form.Matches word := by
  rw [← matches_capitals listed, capitals_recased, matches_capitals listed]

/-- What matches at the head of a changed text matched there before the change. -/
theorem Rule.matches_of_recased (listed : rule ∈ all) (matched : rule.form.Matches word)
    (front : word <+: recased Char.utf8Size flips offset text) :
    ∃ before, before <+: text ∧ before.length = word.length ∧ rule.form.Matches before := by
  have taken : word = recased Char.utf8Size flips offset (text.take word.length) := by
    rw [← take_recased]
    exact List.prefix_iff_eq_take.mp front
  refine ⟨text.take word.length, List.take_prefix _ _, ?_, ?_⟩
  · have sizes := congrArg List.length taken
    rw [length_recased] at sizes
    exact sizes.symm
  · rw [taken, matches_recased listed] at matched
    exact matched

theorem Rule.Takes.recased {rest : List Char} (takes : rule.Takes word rest) (flips : Nat → Bool)
    (offset : Nat) : rule.Takes (recased Char.utf8Size flips offset word)
      (MiniPascal.recased Char.utf8Size flips (offset + byteLength word) rest) := by
  refine ⟨takes.listed, (matches_recased takes.listed ..).mpr takes.matched, ?_, ?_⟩
  · intro other listed longer matched front
    rw [← recased_append] at front
    obtain ⟨before, within, same, matched⟩ := matches_of_recased listed matched front
    rw [length_recased, ← same]
    exact takes.longest other listed before matched within
  · intro mark keyword matched
    exact takes.keyword mark keyword ((matches_recased (keyword_listed keyword) ..).mp matched)

theorem Rule.Unmatched.recased (unmatched : Rule.Unmatched text) (flips : Nat → Bool)
    (offset : Nat) : Rule.Unmatched (MiniPascal.recased Char.utf8Size flips offset text) := by
  intro rule listed word matched front
  obtain ⟨before, within, -, matched⟩ := matches_of_recased listed matched front
  exact unmatched rule listed before matched within

/-- Where no rule matches there is no letter. -/
theorem Rule.Unmatched.not_letter {c : Char} (unmatched : Rule.Unmatched (c :: text)) :
    c.isAlpha = false := by
  rw [← Bool.not_eq_true]
  intro letter
  have matched : Rule.identifier.form.Matches [c] := by
    refine (matches_iff (by decide) [c]).mpr ?_
    simp [pattern, Pattern.identifier, isWordStart, letter]
  exact unmatched .identifier (by decide) [c] matched ⟨text, rfl⟩

theorem recased_digits (digits : Rule.integer.form.Matches word) (flips : Nat → Bool)
    (offset : Nat) : recased Char.utf8Size flips offset word = word := by
  have digital := (matches_digits_iff.mp digits).2
  exact recased_of_others (fun c member => isAlpha_of_digit (digital c member)) offset

theorem realOfLiteral_recased (matched : Rule.real.form.Matches word) (flips : Nat → Bool)
    (offset : Nat) :
    realOfLiteral (recased Char.utf8Size flips offset word) = realOfLiteral word := by
  obtain ⟨whole, _, rfl, run, tail⟩ := Regex.matches_seq_iff.mp matched
  obtain ⟨_, _, rfl, point, tail⟩ := Regex.matches_seq_iff.mp tail
  obtain ⟨fraction, power, rfl, run', power⟩ := Regex.matches_seq_iff.mp tail
  obtain rfl := Regex.matches_char_iff.mp point
  have dot : recased Char.utf8Size flips (offset + byteLength whole) ['.'] = ['.'] :=
    recased_of_others (by simp) _
  -- the only letter of a real is that of its exponent
  rw [recased_append, recased_append, recased_append, recased_digits run, recased_digits run', dot]
  rcases Regex.matches_either_iff.mp power with power | none
  · obtain ⟨_, _, rfl, head, tail⟩ := Regex.matches_seq_iff.mp power
    obtain ⟨sign, digits, rfl, signed, run''⟩ := Regex.matches_seq_iff.mp tail
    obtain ⟨c, rfl, letter⟩ := Regex.matches_oneOf_iff.mp head
    have other : c.isDigit = false := by
      have letter : c = 'e' ∨ c = 'E' := by simpa using letter
      rcases letter with rfl | rfl <;> decide
    have plain : ∀ d ∈ sign, d.isAlpha = false := by
      rcases Regex.matches_either_iff.mp signed with one | none
      · obtain ⟨d, rfl, sign⟩ := Regex.matches_oneOf_iff.mp one
        have sign : d = '+' ∨ d = '-' := by simpa using sign
        rcases sign with rfl | rfl <;> simp
      · rw [Regex.matches_empty_iff.mp none]
        exact List.forall_mem_nil _
    have joined : [c] ++ (sign ++ digits) = c :: (sign ++ digits) := rfl
    rw [joined, recased_cons, recased_append, recased_of_others plain, recased_digits run'']
    exact realOfLiteral_exponent (matches_digits_iff.mp run).2 (matches_digits_iff.mp run').2
      (changed_isDigit _ other) other _
  · rw [Regex.matches_empty_iff.mp none]
    rfl

theorem Rule.Denotes.recased (matched : rule.form.Matches word) (denotes : rule.Denotes word token)
    (flips : Nat → Bool) (offset : Nat) :
    rule.Denotes (MiniPascal.recased Char.utf8Size flips offset word)
      (token.recased flips offset) := by
  cases denotes with
  | keyword => exact .keyword
  | symbol => exact .symbol
  | integer decimal =>
    rw [recased_digits matched]
    exact .integer decimal
  | real =>
    rw [Token.recased, ← realOfLiteral_recased matched flips offset]
    · exact .real
    · exact nofun
    · exact nofun
  | @text _ payload quoted =>
    rw [Token.recased, String.toList_ofList]
    refine .text ?_
    have plain : '\x27'.isAlpha = false := by decide
    have size : '\x27'.utf8Size = 1 := by decide
    rw [quoted, recased_cons, recased_append, changed_of_other _ plain, size, recased_doubled,
      recased_cons, changed_of_other _ plain]
    rfl
  | identifier =>
    rw [Token.recased, String.toList_ofList]
    exact .identifier

/-- A changed text is tiled as before, with the same places. -/
theorem Tiled.recased {items : List (Except ScanError Lexeme)} (tiled : Tiled offset text items)
    (flips : Nat → Bool) : Tiled offset (MiniPascal.recased Char.utf8Size flips offset text)
      (items.map (Except.map (Lexeme.recased flips))) := by
  induction tiled with
  | finish => exact .finish
  | @skip offset text word rest items rule split takes skips after ih =>
    subst split
    rw [← byteLength_recased Char.utf8Size flips offset word] at ih
    refine .skip (recased_append ..) (takes.recased flips offset) skips ?_
    rwa [byteLength_recased] at ih ⊢
  | @token offset text word rest items rule token split takes denotes after ih =>
    subst split
    have tiles := Tiled.token (recased_append flips offset word rest) (takes.recased flips offset)
      (denotes.recased takes.matched flips offset) (by rwa [byteLength_recased])
    rw [byteLength_recased] at tiles
    exact tiles
  | @tooLarge offset text digits rest c split takes large =>
    -- a failure shows the first character, which is a digit here and no letter below
    subst split
    have same := recased_digits takes.matched flips offset
    have takes' := takes.recased flips offset
    rw [same] at takes'
    rw [recased_append, same]
    exact .tooLarge rfl takes' large
  | @unclosed offset c rest opening unmatched =>
    have changed := unmatched.recased flips offset
    have size := byteLength_recased Char.utf8Size flips offset (c :: rest)
    rw [recased_cons, changed_of_other _ unmatched.not_letter] at changed size ⊢
    have tiles := @Tiled.unclosed offset _ _ opening changed
    rw [size] at tiles
    exact tiles
  | @stray offset c rest other unmatched =>
    have changed := unmatched.recased flips offset
    rw [recased_cons, changed_of_other _ unmatched.not_letter] at changed ⊢
    exact .stray other changed

end Reading

theorem Scan.items_recased (flips : Nat → Bool) (scan : Scan) :
    (scan.recased flips).items = scan.items.map (Except.map (Lexeme.recased flips)) := by
  obtain ⟨lexemes, failure⟩ := scan
  cases failure <;> simp [Scan.items, Scan.recased, Except.map]

theorem recased_congr {flips flips' : Nat → Bool} (text : List Char) {offset : Nat}
    (same : ∀ later, offset ≤ later → flips later = flips' later) :
    recased Char.utf8Size flips offset text = recased Char.utf8Size flips' offset text := by
  induction text generalizing offset with
  | nil => rfl
  | cons c rest ih =>
    rw [recased_cons, recased_cons, same offset (Nat.le_refl _),
      ih fun later behind => same later (Nat.le_trans (Nat.le_add_right _ _) behind)]

/-- A text that has the capitals of another is the other with the case of some letters changed. -/
theorem exists_recased (offset : Nat) {text changed : List Char}
    (same : capitals changed = capitals text) :
    ∃ flips, changed = recased Char.utf8Size flips offset text := by
  induction text generalizing changed offset with
  | nil => exact ⟨fun _ => false, List.map_eq_nil_iff.mp same⟩
  | cons c rest ih =>
    obtain ⟨d, others, rfl, heads, tails⟩ := List.map_eq_cons_iff.mp same
    obtain ⟨flips, rfl⟩ := ih (offset + c.utf8Size) tails
    -- the letters to change are those that differ; later ones lie behind the first
    refine ⟨fun place => if place = offset then d != c else flips place, ?_⟩
    have positive := c.utf8Size_pos
    rw [recased_cons, if_pos rfl]
    congr 1
    · by_cases kept : d = c
      · rw [kept, bne_self_eq_false, if_neg Bool.false_ne_true]
      · rw [if_pos (bne_iff_ne.mpr kept)]
        exact (eq_or_otherCase heads).resolve_left kept
    · refine recased_congr rest fun later behind => ?_
      have behind : later ≠ offset := by omega
      rw [if_neg behind]

/-- The case of letters moves no token. When it is changed anywhere in a source, the scanner reads the
same tokens at the same places and fails in the same way; only names and texts have the letters
changed that are changed in the source. What can be made by such changes is every text with the same
capitals. -/
theorem letter_case_moves_no_token (source : String) :
    (∀ flips, scan (.ofList (recased Char.utf8Size flips 0 source.toList)) =
      (scan source).recased flips) ∧
    ∀ changed : String, capitals changed.toList = capitals source.toList ↔
      ∃ flips, changed = .ofList (recased Char.utf8Size flips 0 source.toList) := by
  refine ⟨fun flips => ?_, fun changed => ⟨fun same => ?_, ?_⟩⟩
  · have tiled := (scan_tiled source).recased flips
    refine Scan.items_injective ?_
    rw [Scan.items_recased, tiled.items_eq, scan, String.toList_ofList]
  · obtain ⟨flips, changes⟩ := exists_recased 0 same
    exact ⟨flips, by rw [← changes, String.ofList_toList]⟩
  · rintro ⟨flips, rfl⟩
    rw [String.toList_ofList, capitals_recased]

example : scan "BEGIN iT := \x27Don\x27\x27T\x27" =
    (scan "begin It := \x27dON\x27\x27t\x27").recased fun _ => true := by
  decide

end MiniPascal
