import MiniPascal.Token.Scan
import MiniPascal.Proofs.Token.Priority

namespace MiniPascal

/-- A text with every quote in it doubled. -/
def doubled (payload : List Char) : List Char :=
  payload.flatMap fun c => if c = '\x27' then [c, c] else [c]

/-- What a match of a rule stands for. -/
inductive Rule.Denotes : Rule → List Char → Token → Prop where
  | keyword {mark : Mark} {word : List Char} : Denotes (keyword mark) word (.mark mark)
  | symbol {mark : Mark} {word : List Char} : Denotes (symbol mark) word (.mark mark)
  | integer {word : List Char} {value : Int64} (decimal : value.toInt = natOfDigits word) :
    Denotes integer word (.integer value)
  | real {word : List Char} : Denotes real word (.real (realOfLiteral word))
  | text {word payload : List Char} (quoted : word = '\x27' :: (doubled payload ++ ['\x27'])) :
    Denotes text word (.text (String.ofList payload))
  | identifier {word : List Char} : Denotes identifier word (.ident (String.ofList word))

/-- No rule matches at the head of a text. -/
def Rule.Unmatched (text : List Char) : Prop :=
  ∀ rule ∈ Rule.all, ∀ word, rule.form.Matches word → ¬ word <+: text

/-- How a text that starts at a byte offset is tiled: one match after another, of which skipped ones
leave nothing and the others their tokens, to the end of the text or to the first error in it. -/
inductive Tiled : Nat → List Char → List (Except ScanError Lexeme) → Prop where
  | finish {offset : Nat} : Tiled offset [] [.ok ⟨.mark .endOfInput, .point offset⟩]
  | skip {offset : Nat} {text word rest : List Char} {items : List (Except ScanError Lexeme)}
    {rule : Rule} (split : text = word ++ rest) (takes : rule.Takes word rest)
    (skips : rule.isSkip = true) (after : Tiled (offset + byteLength word) rest items) :
    Tiled offset text items
  | token {offset : Nat} {text word rest : List Char} {items : List (Except ScanError Lexeme)}
    {rule : Rule} {token : Token} (split : text = word ++ rest) (takes : rule.Takes word rest)
    (denotes : rule.Denotes word token) (after : Tiled (offset + byteLength word) rest items) :
    Tiled offset text (.ok ⟨token, offset, offset + byteLength word⟩ :: items)
  | tooLarge {offset : Nat} {text digits rest : List Char} {c : Char}
    (split : text = c :: digits ++ rest) (takes : Rule.integer.Takes (c :: digits) rest)
    (large : Nat.pow 2 63 ≤ natOfDigits (c :: digits)) :
    Tiled offset text [.error ⟨c, offset, offset + byteLength (c :: digits)⟩]
  | unclosed {offset : Nat} {c : Char} {rest : List Char} (opening : c = '\x27' ∨ c = '\x7b')
    (unmatched : Rule.Unmatched (c :: rest)) :
    Tiled offset (c :: rest) [.error ⟨c, offset, offset + byteLength (c :: rest)⟩]
  | stray {offset : Nat} {c : Char} {rest : List Char} (other : ¬ (c = '\x27' ∨ c = '\x7b'))
    (unmatched : Rule.Unmatched (c :: rest)) :
    Tiled offset (c :: rest) [.error ⟨c, offset, offset + c.utf8Size⟩]

section Payloads

theorem doubled_cons (c : Char) (rest : List Char) :
    doubled (c :: rest) = (if c = '\x27' then [c, c] else [c]) ++ doubled rest :=
  List.flatMap_cons ..

theorem undoubled_cons_other {c : Char} (other : c ≠ '\x27') (rest : List Char) :
    undoubled (c :: rest) = c :: undoubled rest := by
  rw [undoubled]
  intro _ quote
  exact absurd quote other

theorem undoubled_doubled (payload : List Char) : undoubled (doubled payload) = payload := by
  induction payload with
  | nil => rfl
  | cons c rest ih =>
    rw [doubled_cons]
    split
    · rename_i quote
      subst quote
      rw [List.cons_append, List.singleton_append, undoubled, ih]
    · rename_i other
      rw [List.singleton_append, undoubled_cons_other other, ih]

/-- Undoing the doubling of quotes and doubling them again gives a literal back. -/
theorem doubled_undoubled {body : List Char}
    (items : Regex.Matches (.many (.either (.noneOf ['\x27']) (.literal ['\x27', '\x27']))) body) :
    doubled (undoubled body) = body := by
  refine items.many_induction rfl ?_
  intro front back item _ ih
  rcases Regex.matches_either_iff.mp item with single | pair
  · obtain ⟨c, rfl, accepted⟩ := Regex.matches_oneOf_iff.mp single
    have other : c ≠ '\x27' := by simpa using accepted
    rw [List.singleton_append, undoubled_cons_other other, doubled_cons, ih, if_neg other,
      List.singleton_append]
  · obtain rfl := Regex.matches_literal_iff.mp pair
    simp only [List.cons_append, List.nil_append, undoubled, doubled_cons, ih, if_true]

/-- What a pattern yields of a match is what the match stands for; only integers are refused. -/
theorem Rule.yields {rule : Rule} {word : List Char} (matched : rule.form.Matches word) :
    match rule.pattern.yields word with
    | .nothing => rule.isSkip = true
    | .token token => rule.Denotes word token
    | .refused => rule = .integer ∧ Nat.pow 2 63 ≤ natOfDigits word := by
  cases rule with
  | blanks | braceComment | starComment => exact rfl
  | keyword mark => exact .keyword
  | symbol mark => exact .symbol
  | real => exact .real
  | identifier => exact .identifier
  | integer =>
    by_cases small : natOfDigits word < Nat.pow 2 63
    · simp only [pattern, Pattern.integer, integerOfLiteral?, if_pos small]
      exact .integer (Int64.toInt_ofNat_of_lt small)
    · simp only [pattern, Pattern.integer, integerOfLiteral?, if_neg small]
      exact ⟨trivial, Nat.le_of_not_lt small⟩
  | text =>
    obtain ⟨_, tail, rfl, head, tailed⟩ := Regex.matches_seq_iff.mp matched
    obtain rfl := Regex.matches_literal_iff.mp head
    obtain ⟨body, close, rfl, items, closes⟩ := Regex.matches_seq_iff.mp tailed
    obtain rfl := Regex.matches_char_iff.mp closes
    refine .text ?_
    simp [doubled_undoubled items]

theorem Rule.Denotes.not_skip {rule : Rule} {word : List Char} {token : Token}
    (denotes : rule.Denotes word token) : rule.isSkip = false := by
  cases denotes <;> rfl

theorem Rule.Denotes.small {word : List Char} {token : Token}
    (denotes : Rule.integer.Denotes word token) : natOfDigits word < Nat.pow 2 63 := by
  cases denotes with
  | integer decimal =>
    rename_i value
    have bound := value.toInt_lt
    change (natOfDigits word) < 2 ^ 63
    omega

theorem Rule.Denotes.unique {rule : Rule} {word : List Char} {token token' : Token}
    (denotes : rule.Denotes word token) (denotes' : rule.Denotes word token') : token = token' := by
  cases denotes with
  | keyword | symbol | real | identifier => cases denotes'; rfl
  | integer decimal =>
    cases denotes' with
    | integer decimal' => rw [Int64.toInt_inj.mp (decimal.trans decimal'.symm)]
  | text quoted =>
    cases denotes' with
    | text quoted' =>
      have same := List.append_cancel_right (List.cons.inj (quoted.symm.trans quoted')).2
      have payloads := congrArg undoubled same
      rw [undoubled_doubled, undoubled_doubled] at payloads
      rw [payloads]

section

variable {rule : Rule} {word : List Char} {token : Token}

theorem Rule.yields_nothing (matched : rule.form.Matches word) (skips : rule.isSkip = true) :
    rule.pattern.yields word = .nothing := by
  have yields := rule.yields matched
  split at yields
  · assumption
  · exact absurd skips (by rw [yields.not_skip]; exact Bool.false_ne_true)
  · rw [yields.1] at skips
    cases skips

theorem Rule.yields_token (matched : rule.form.Matches word) (denotes : rule.Denotes word token) :
    rule.pattern.yields word = .token token := by
  have yields := rule.yields matched
  split at yields
  · rw [denotes.not_skip] at yields
    cases yields
  · rename_i same
    rw [same, yields.unique denotes]
  · obtain ⟨rfl, large⟩ := yields
    exact absurd denotes.small (Nat.not_lt.mpr large)

theorem Rule.yields_refused (matched : integer.form.Matches word)
    (large : Nat.pow 2 63 ≤ natOfDigits word) : integer.pattern.yields word = .refused := by
  have yields := integer.yields matched
  split at yields
  · cases yields
  · exact absurd yields.small (Nat.not_lt.mpr large)
  · assumption

end

end Payloads

section Scanning

variable {offset : Nat} {text word rest : List Char} {rule : Rule}

@[simp] theorem byteLength_nil : byteLength [] = 0 := rfl

@[simp] theorem byteLength_cons (c : Char) (rest : List Char) :
    byteLength (c :: rest) = c.utf8Size + byteLength rest := rfl

@[simp] theorem byteLength_append (front back : List Char) :
    byteLength (front ++ back) = byteLength front + byteLength back := by
  induction front with
  | nil => simp
  | cons c rest ih => simp [ih, Nat.add_assoc]

theorem utf8ByteSize_ofList (text : List Char) :
    (String.ofList text).utf8ByteSize = byteLength text := by
  induction text with
  | nil => rfl
  | cons c rest ih =>
    have front : String.ofList (c :: rest) = String.singleton c ++ String.ofList rest := by
      rw [String.singleton_eq_ofList, ← String.ofList_append, List.singleton_append]
    rw [front, String.utf8ByteSize_append, String.utf8ByteSize_singleton, ih, byteLength_cons]

theorem byteLength_toList (source : String) : byteLength source.toList = source.utf8ByteSize := by
  rw [← utf8ByteSize_ofList, String.ofList_toList]

theorem Pattern.best?_of_takes (takes : rule.Takes word rest) :
    best? (word ++ rest) = some (word.length, rule.pattern) := by
  cases found : best? (word ++ rest) with
  | none =>
    exact absurd (List.prefix_append word rest) (best?_none found takes.listed takes.matched)
  | some best =>
    obtain ⟨other, word', rest', split, same, pattern, takes'⟩ := best?_takes found
    obtain ⟨rfl, rfl, rfl⟩ := takes.unique takes' split
    rw [← same, ← pattern]

theorem Pattern.best?_of_unmatched (unmatched : Rule.Unmatched text) : best? text = none := by
  cases found : best? text with
  | none => rfl
  | some best =>
    obtain ⟨rule, word, rest, rfl, -, -, takes⟩ := best?_takes found
    exact absurd (List.prefix_append word rest)
      (unmatched rule takes.listed word takes.matched)

theorem Scan.startingAt_append (offset : Nat) (word rest : List Char) :
    startingAt offset word.length (word ++ rest) = startingAt (offset + byteLength word) 0 rest := by
  induction word generalizing offset with
  | nil => rfl
  | cons c others ih =>
    rw [List.cons_append, List.length_cons, startingAt, ih, byteLength_cons, Nat.add_assoc]

/-- A step of the scanner: it passes over what a rule takes, and leaves what that yields. -/
theorem Scan.startingAt_takes {c : Char} {others : List Char} (offset : Nat)
    (takes : rule.Takes (c :: others) rest) :
    startingAt offset 0 (c :: others ++ rest) =
      match rule.pattern.yields (c :: others) with
      | .nothing => startingAt (offset + byteLength (c :: others)) 0 rest
      | .token token =>
        (startingAt (offset + byteLength (c :: others)) 0 rest).cons
          ⟨token, offset, offset + byteLength (c :: others)⟩
      | .refused => ⟨[], some ⟨c, offset, offset + byteLength (c :: others)⟩⟩ := by
  have best := Pattern.best?_of_takes takes
  have after := startingAt_append (offset + c.utf8Size) others rest
  rw [Nat.add_assoc, ← byteLength_cons] at after
  have taken : (c :: (others ++ rest)).take (others.length + 1) = c :: others := by
    rw [← List.cons_append, ← List.length_cons, List.take_left]
  rw [List.cons_append] at best ⊢
  cases yields : rule.pattern.yields (c :: others) <;>
    simp only [startingAt, best, List.length_cons, Nat.add_sub_cancel, after, taken, yields]

theorem Scan.startingAt_unmatched {c : Char} (unmatched : Rule.Unmatched (c :: rest)) :
    startingAt offset 0 (c :: rest) = ⟨[], some ⟨c, offset,
      offset + byteLength ((c :: rest).take (unmatchedLength (c :: rest)))⟩⟩ := by
  rw [startingAt, Pattern.best?_of_unmatched unmatched]

/-- Every text is tiled by what the scanner reads of it. -/
theorem Scan.startingAt_tiled (offset : Nat) (text : List Char) :
    Tiled offset text (startingAt offset 0 text).items := by
  -- a match is not empty, so what stands behind it is shorter
  induction sized : text.length using Nat.strongRecOn generalizing offset text with
  | ind size ih =>
  cases text with
  | nil => exact .finish
  | cons c rest =>
    cases found : Pattern.best? (c :: rest) with
    | none =>
      have unmatched : Rule.Unmatched (c :: rest) := fun rule listed word matched =>
        Pattern.best?_none found listed matched
      rw [startingAt_unmatched unmatched, unmatchedLength]
      split
      · rename_i opening
        rw [← List.length_cons, List.take_length]
        exact .unclosed opening unmatched
      · rename_i other
        exact .stray other unmatched
    | some best =>
      obtain ⟨rule, word, back, split, -, -, takes⟩ := Pattern.best?_takes found
      obtain ⟨d, others, rfl⟩ := List.exists_cons_of_ne_nil (Rule.ne_nil takes.listed takes.matched)
      have shorter : back.length < size := by
        rw [← sized, split, List.length_append, List.length_cons]
        omega
      have after := ih back.length shorter (offset + byteLength (d :: others)) back rfl
      have yields := rule.yields takes.matched
      rw [split, startingAt_takes offset takes]
      split at yields
      · exact .skip rfl takes yields after
      · exact .token rfl takes yields after
      · obtain ⟨rfl, large⟩ := yields
        exact .tooLarge rfl takes large

/-- A tiling is what the scanner reads. -/
theorem Tiled.items_eq {items : List (Except ScanError Lexeme)} (tiled : Tiled offset text items) :
    items = (Scan.startingAt offset 0 text).items := by
  induction tiled with
  | finish => rfl
  | @skip offset text word rest items rule split takes skips after ih =>
    subst split
    obtain ⟨c, others, rfl⟩ := List.exists_cons_of_ne_nil (Rule.ne_nil takes.listed takes.matched)
    rw [Scan.startingAt_takes offset takes, Rule.yields_nothing takes.matched skips, ih]
  | @token offset text word rest items rule token split takes denotes after ih =>
    subst split
    obtain ⟨c, others, rfl⟩ := List.exists_cons_of_ne_nil (Rule.ne_nil takes.listed takes.matched)
    rw [Scan.startingAt_takes offset takes, Rule.yields_token takes.matched denotes, ih]
    rfl
  | @tooLarge offset text digits rest c split takes large =>
    subst split
    rw [Scan.startingAt_takes offset takes, Rule.yields_refused takes.matched large]
    rfl
  | @unclosed offset c rest opening unmatched =>
    rw [Scan.startingAt_unmatched unmatched, unmatchedLength, if_pos opening, ← List.length_cons,
      List.take_length]
    rfl
  | @stray offset c rest other unmatched =>
    rw [Scan.startingAt_unmatched unmatched, unmatchedLength, if_neg other]
    rfl

end Scanning

end MiniPascal
