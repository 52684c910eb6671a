import MiniPascal.Proofs.Token.Tiled

namespace MiniPascal

/-- A span that stands for a word of a text: it starts and stops between characters. -/
def Span.Covers (source : List Char) (span : Span) (word : List Char) : Prop :=
  ∃ front back, source = front ++ word ++ back ∧ span.start = byteLength front ∧
    span.stop = byteLength front + byteLength word

/-- Texts between tokens: any number of matches that are skipped. -/
def Regex.skipped : Regex :=
  .many (.either (Rule.form .blanks) (.either (Rule.form .braceComment) (Rule.form .starComment)))

/-- The place of an entry of a token stream. -/
def itemSpan : Except ScanError Lexeme → Span
  | .ok lexeme => lexeme.span
  | .error error => error.span

/-- From an offset to the first of some entries, and from each to the next, there is only skipped
text. -/
def GapsSkipped (source : List Char) : Nat → List (Except ScanError Lexeme) → Prop
  | _, [] => True
  | offset, item :: rest =>
    (∃ gap, Span.Covers source ⟨offset, (itemSpan item).start⟩ gap ∧ Regex.skipped.Matches gap) ∧
      GapsSkipped source (itemSpan item).stop rest

section Spans

variable {source text front : List Char} {items : List (Except ScanError Lexeme)}

theorem byteLength_pos {word : List Char} (nonempty : word ≠ []) : 0 < byteLength word := by
  obtain ⟨c, rest, rfl⟩ := List.exists_cons_of_ne_nil nonempty
  have positive := c.utf8Size_pos
  rw [byteLength_cons]
  omega

theorem eq_of_byteLength_eq {first second rest rest' : List Char}
    (same : first ++ rest = second ++ rest') (sizes : byteLength first = byteLength second) :
    first = second := by
  induction first generalizing second with
  | nil =>
    cases second with
    | nil => rfl
    | cons d others =>
      exact absurd sizes (Nat.ne_of_lt (byteLength_pos (List.cons_ne_nil d others)))
  | cons c others ih =>
    cases second with
    | nil => exact absurd sizes (Nat.ne_of_gt (byteLength_pos (List.cons_ne_nil c others)))
    | cons d others' =>
      obtain ⟨rfl, tails⟩ := List.cons.inj same
      rw [byteLength_cons, byteLength_cons, Nat.add_left_cancel_iff] at sizes
      rw [ih tails sizes]

theorem Span.Covers.append {start middle stop : Nat} {first second : List Char}
    (before : Span.Covers source ⟨start, middle⟩ first)
    (after : Span.Covers source ⟨middle, stop⟩ second) :
    Span.Covers source ⟨start, stop⟩ (first ++ second) := by
  obtain ⟨front, back, rfl, starts, stops⟩ := before
  obtain ⟨front', back', same, starts', stops'⟩ := after
  dsimp only at starts stops starts' stops'
  have sizes : byteLength (front ++ first) = byteLength front' := by
    rw [byteLength_append]
    omega
  rw [List.append_assoc front'] at same
  obtain rfl := eq_of_byteLength_eq same sizes
  refine ⟨front, back', ?_, starts, ?_⟩
  · rw [same]
    simp
  · simp only [byteLength_append] at stops' ⊢
    omega

theorem Span.covers_at (front word back : List Char) :
    Span.Covers (front ++ (word ++ back))
      ⟨byteLength front, byteLength front + byteLength word⟩ word :=
  ⟨front, back, (List.append_assoc ..).symm, rfl, rfl⟩

theorem Span.Covers.le {span : Span} {word : List Char} (covers : span.Covers source word) :
    span.start ≤ span.stop ∧ span.stop ≤ byteLength source := by
  obtain ⟨front, back, rfl, starts, stops⟩ := covers
  simp only [byteLength_append]
  omega

theorem Rule.Denotes.ne_end {rule : Rule} {word : List Char} {token : Token}
    (denotes : rule.Denotes word token) (listed : rule ∈ all) : token ≠ .mark .endOfInput := by
  cases denotes with
  | keyword =>
    rintro ⟨⟩
    exact absurd (mem_keywords listed) (by decide)
  | symbol =>
    rintro ⟨⟩
    exact absurd (mem_symbols listed) (by decide)
  | integer | real | text | identifier => exact nofun

theorem Regex.matches_skipped {rule : Rule} {word gap : List Char} (skips : rule.isSkip = true)
    (matched : rule.form.Matches word) (rest : Regex.skipped.Matches gap) :
    Regex.skipped.Matches (word ++ gap) := by
  refine .more ?_ rest
  cases rule with
  | blanks => exact .left matched
  | braceComment => exact .right (.left matched)
  | starComment => exact .right (.right matched)
  | keyword | integer | real | text | identifier | symbol => cases skips

/-- How a token stream over a text ends: at the end of the text, or with an error at a stretch of
it. -/
def Closes (source : List Char) : Except ScanError Lexeme → Prop
  | .ok lexeme => lexeme = ⟨.mark .endOfInput, .point (byteLength source)⟩
  | .error error => ∃ others, error.span.Covers source (error.char :: others)

/-- Entries behind an offset of a text: tokens for words of it and an ending, in order, with skipped
text between them. -/
structure Placed (source : List Char) (offset : Nat) (items : List (Except ScanError Lexeme)) :
    Prop where
  ends : ∃ (lexemes : List Lexeme) (last : Except ScanError Lexeme),
    items = lexemes.map .ok ++ [last] ∧ Closes source last ∧ ∀ lexeme ∈ lexemes,
      lexeme.token ≠ .mark .endOfInput ∧ ∃ word, word ≠ [] ∧ lexeme.span.Covers source word
  behind : ∀ item ∈ items, offset ≤ (itemSpan item).start
  ordered : (items.map itemSpan).Pairwise fun first second =>
    first.start < second.start ∧ first.stop ≤ second.start
  gaps : GapsSkipped source offset items

/-- An ending on its own, where no text was skipped. -/
theorem Placed.single {offset : Nat} {item : Except ScanError Lexeme} (closes : Closes source item)
    (starts : (itemSpan item).start = offset) (within : Span.Covers source ⟨offset, offset⟩ []) :
    Placed source offset [item] where
  ends := ⟨[], item, rfl, closes, List.forall_mem_nil _⟩
  behind := by simp [starts]
  ordered := List.pairwise_singleton _ _
  gaps := ⟨⟨[], starts ▸ within, .done⟩, trivial⟩

theorem Span.covers_point (front back : List Char) :
    Span.Covers (front ++ back) ⟨byteLength front, byteLength front⟩ [] :=
  ⟨front, back, by simp, rfl, rfl⟩

theorem Placed.skip {rule : Rule} {word rest : List Char} (skips : rule.isSkip = true)
    (takes : rule.Takes word rest)
    (after : Placed (front ++ (word ++ rest)) (byteLength front + byteLength word) items) :
    Placed (front ++ (word ++ rest)) (byteLength front) items where
  ends := after.ends
  behind item member := Nat.le_trans (Nat.le_add_right _ _) (after.behind item member)
  ordered := after.ordered
  gaps := by
    cases items with
    | nil => trivial
    | cons item others =>
      obtain ⟨⟨gap, covers, skipped⟩, later⟩ := after.gaps
      exact ⟨⟨word ++ gap, (Span.covers_at front word rest).append covers,
        Regex.matches_skipped skips takes.matched skipped⟩, later⟩

theorem Placed.token {rule : Rule} {word rest : List Char} {token : Token}
    (takes : rule.Takes word rest) (denotes : rule.Denotes word token)
    (after : Placed (front ++ (word ++ rest)) (byteLength front + byteLength word) items) :
    Placed (front ++ (word ++ rest)) (byteLength front)
      (.ok ⟨token, byteLength front, byteLength front + byteLength word⟩ :: items) where
  ends := by
    obtain ⟨lexemes, last, rfl, closes, words⟩ := after.ends
    refine ⟨_ :: lexemes, last, rfl, closes, List.forall_mem_cons.mpr ⟨?_, words⟩⟩
    exact ⟨denotes.ne_end takes.listed, word, Rule.ne_nil takes.listed takes.matched,
      Span.covers_at front word rest⟩
  behind := by
    refine List.forall_mem_cons.mpr ⟨Nat.le_refl _, fun item member => ?_⟩
    exact Nat.le_trans (Nat.le_add_right _ _) (after.behind item member)
  ordered := by
    have positive := byteLength_pos (Rule.ne_nil takes.listed takes.matched)
    rw [List.map_cons, List.pairwise_cons]
    refine ⟨List.forall_mem_map.mpr fun item member => ?_, after.ordered⟩
    have later := after.behind item member
    have strictly : byteLength front < (itemSpan item).start := by omega
    exact ⟨strictly, later⟩
  gaps := ⟨⟨[], Span.covers_point front _, .done⟩, after.gaps⟩

theorem Tiled.placed {offset : Nat} (tiled : Tiled offset text items) :
    ∀ front, offset = byteLength front → Placed (front ++ text) offset items := by
  induction tiled with
  | finish =>
    rintro front rfl
    refine .single ?_ rfl (Span.covers_point front [])
    rw [Closes, List.append_nil]
  | @skip offset text word rest items rule split takes skips after ih =>
    rintro front rfl
    subst split
    have after := ih (front ++ word) (byteLength_append ..).symm
    rw [List.append_assoc] at after
    exact .skip skips takes after
  | @token offset text word rest items rule token split takes denotes after ih =>
    rintro front rfl
    subst split
    have after := ih (front ++ word) (byteLength_append ..).symm
    rw [List.append_assoc] at after
    exact .token takes denotes after
  | @tooLarge offset text digits rest c split takes large =>
    rintro front rfl
    subst split
    exact .single ⟨digits, Span.covers_at front (c :: digits) rest⟩ rfl (Span.covers_point front _)
  | @unclosed offset c rest opening unmatched =>
    rintro front rfl
    have covers := Span.covers_at front (c :: rest) []
    rw [List.append_nil] at covers
    exact .single ⟨rest, covers⟩ rfl (Span.covers_point front _)
  | @stray offset c rest other unmatched =>
    rintro front rfl
    exact .single ⟨[], Span.covers_at front [c] rest⟩ rfl (Span.covers_point front _)

/-- Every token of a tiling but the end of the input is what a word of the text stands for. -/
theorem Tiled.denoted {offset : Nat} {lexeme : Lexeme} (tiled : Tiled offset text items)
    (listed : .ok lexeme ∈ items) (shows : lexeme.token ≠ .mark .endOfInput) :
    ∀ front, offset = byteLength front → ∃ (rule : Rule) (word : List Char),
      rule.Denotes word lexeme.token ∧ lexeme.span.Covers (front ++ text) word := by
  induction tiled with
  | finish =>
    obtain ⟨⟩ := List.mem_singleton.mp listed
    exact absurd rfl shows
  | @skip offset text word rest items rule split takes skips after ih =>
    rintro front rfl
    have later := ih listed (front ++ word) (byteLength_append ..).symm
    rwa [List.append_assoc, ← split] at later
  | @token offset text word rest items rule token split takes denotes after ih =>
    rintro front rfl
    subst split
    rcases List.mem_cons.mp listed with same | later
    · obtain rfl : lexeme = _ := Except.ok.inj same
      exact ⟨rule, word, denotes, Span.covers_at front word rest⟩
    · have later := ih later (front ++ word) (byteLength_append ..).symm
      rwa [List.append_assoc] at later
  | tooLarge | unclosed | stray => cases List.mem_singleton.mp listed

end Spans

theorem Scan.mem_items_of_lexeme {scan : Scan} {lexeme : Lexeme}
    (listed : lexeme ∈ scan.lexemes) : .ok lexeme ∈ scan.items := by
  simp [Scan.items, listed]

theorem scan_tiled (source : String) : Tiled 0 source.toList (scan source).items :=
  Scan.startingAt_tiled 0 source.toList

theorem scan_denoted {source : String} {lexeme : Lexeme} (listed : lexeme ∈ (scan source).lexemes)
    (shows : lexeme.token ≠ .mark .endOfInput) : ∃ (rule : Rule) (word : List Char),
      rule.Denotes word lexeme.token ∧ lexeme.span.Covers source.toList word :=
  (scan_tiled source).denoted (Scan.mem_items_of_lexeme listed) shows [] rfl

theorem scan_placed (source : String) : Placed source.toList 0 (scan source).items :=
  (scan_tiled source).placed [] rfl

/-- Scanning tiles a source: at each place the longest match of any rule is taken, a keyword before
an identifier, until the end of the source or the first error. The entries stand for words of the
source, in order and apart, and between them is only skipped text. Offsets count the bytes of the
source. -/
theorem scan_tiles (source : String) :
    (∀ items, Tiled 0 source.toList items ↔ items = (scan source).items) ∧
      Placed source.toList 0 (scan source).items ∧
      byteLength source.toList = source.utf8ByteSize := by
  refine ⟨fun items => ⟨Tiled.items_eq, ?_⟩, scan_placed source, byteLength_toList source⟩
  rintro rfl
  exact scan_tiled source

end MiniPascal
