import MiniPascal.Command.Execute
import MiniPascal.Proofs.Parse.FirstError
import MiniPascal.Proofs.Token.Placed

namespace MiniPascal

/-- Does a character open a new line for the text that follows it? A carriage return before a line
feed does not, and neither does the last character of the text. -/
def opensLine (c : Char) (later : List Char) : Bool :=
  isLineEnd c && !later.isEmpty && !(c == '\r' && later.head? == some '\n')

/-- The position behind a character, given the text that follows it. -/
def Position.advance (position : Position) (c : Char) (later : List Char) : Position :=
  if opensLine c later then ⟨position.line + 1, 1⟩ else ⟨position.line, position.column + 1⟩

/-- The position behind a front part of a text, reached character by character. -/
def Position.behind (position : Position) : List Char → List Char → Position
  | [], _ => position
  | c :: front, rest => (position.advance c (front ++ rest)).behind front rest

/-- The order in which a text passes through its positions. -/
def Position.Before (first second : Position) : Prop :=
  first.line < second.line ∨ first.line = second.line ∧ first.column < second.column

section Positions

variable {front middle rest text : List Char} {position other : Position}

theorem Position.Before.trans {third : Position} (before : position.Before other)
    (later : other.Before third) : position.Before third := by
  unfold Position.Before at *
  omega

theorem Position.before_advance (position : Position) (c : Char) (later : List Char) :
    position.Before (position.advance c later) := by
  rw [Position.advance]
  split
  · exact .inl (Nat.lt_succ_self _)
  · exact .inr ⟨rfl, Nat.lt_succ_self _⟩

theorem Position.before_behind (position : Position) (nonempty : front ≠ []) (rest : List Char) :
    position.Before (position.behind front rest) := by
  induction front generalizing position with
  | nil => exact absurd rfl nonempty
  | cons c front ih =>
    have first := position.before_advance c (front ++ rest)
    rw [Position.behind]
    by_cases last : front = []
    · subst last
      exact first
    · exact first.trans (ih _ last)

theorem Position.behind_append (position : Position) (front middle rest : List Char) :
    position.behind (front ++ middle) rest =
      (position.behind front (middle ++ rest)).behind middle rest := by
  induction front generalizing position with
  | nil => rfl
  | cons c front ih =>
    rw [List.cons_append, Position.behind, ih, Position.behind, List.append_assoc]

/-- No two places in a text have the same position. -/
theorem Position.behind_ne (nonempty : middle ≠ []) (position : Position)
    (front rest : List Char) :
    position.behind front (middle ++ rest) ≠ position.behind (front ++ middle) rest := by
  intro same
  rw [Position.behind_append] at same
  have later := Position.before_behind (position.behind front (middle ++ rest)) nonempty rest
  rw [← same] at later
  unfold Position.Before at later
  omega

/-- The first line reaches over what is counted into it, unless it is the last. -/
theorem Position.locate_first (line length : Nat) (text : List Char) :
    Position.locate line length (lineLengths length text) = ⟨line, length + 1⟩ := by
  have first : lineLengths length text = [] ∨ ∃ head tail,
      lineLengths length text = head :: tail ∧ (length < head ∨ tail = []) := by
    fun_induction lineLengths length text with
    | case1 => exact .inl rfl
    | case2 length some => exact .inr ⟨length, [], rfl, .inr rfl⟩
    | case3 length rest ih => exact .inr ⟨_, _, rfl, .inl (by omega)⟩
    | case4 length c rest other ending ih => exact .inr ⟨_, _, rfl, .inl (by omega)⟩
    | case5 length c rest other within ih =>
      rcases ih with empty | ⟨head, tail, split, inside⟩
      · exact .inl empty
      · exact .inr ⟨head, tail, split, inside.imp_left fun below => by omega⟩
  rcases first with empty | ⟨head, tail, split, inside⟩
  · rw [empty, Position.locate]
  · rw [split, Position.locate, if_pos inside]

theorem lineLengths_ne_nil {text : List Char} (nonempty : text ≠ []) (length : Nat) :
    lineLengths length text ≠ [] := by
  fun_induction lineLengths length text with
  | case1 => exact absurd rfl nonempty
  | case2 | case3 | case4 => exact List.cons_ne_nil _ _
  | case5 length c rest other within ih =>
    by_cases last : rest = []
    · subst last
      simp [lineLengths]
    · exact ih last

theorem opensLine_eq {c : Char} {later : List Char}
    (alone : ¬ (c = '\r' ∧ later.head? = some '\n')) :
    opensLine c later = (isLineEnd c && !later.isEmpty) := by
  have single : (c == '\r' && later.head? == some '\n') = false := by simpa using alone
  rw [opensLine, single, Bool.not_false, Bool.and_true]

/-- Behind a line end, counting goes on with the next line if there is one. -/
theorem Position.locate_ended {line length : Nat} {c : Char} (ending : isLineEnd c = true)
    (alone : ¬ (c = '\r' ∧ (front ++ rest).head? = some '\n'))
    (next : Position.locate (line + 1) (0 + front.length) (lineLengths 0 (front ++ rest)) =
      Position.behind ⟨line + 1, 0 + 1⟩ front rest) :
    Position.locate line (length + front.length) (length :: lineLengths 0 (front ++ rest)) =
      Position.behind ⟨line, length⟩ (c :: front) rest := by
  rw [Position.behind, Position.advance, opensLine_eq alone, ending, Bool.true_and, Position.locate]
  by_cases more : front ++ rest = []
  · obtain ⟨rfl, rfl⟩ := List.append_eq_nil_iff.mp more
    simp [lineLengths, Position.behind]
  · have beyond : ¬ (length + front.length < length ∨ lineLengths 0 (front ++ rest) = []) := by
      rintro (below | none)
      · omega
      · exact lineLengths_ne_nil more 0 none
    have opens : (!(front ++ rest).isEmpty) = true := by simpa using more
    rw [if_neg beyond, if_pos opens, ← next, Nat.add_sub_cancel_left, Nat.zero_add]

/-- A character other than a carriage return before a line feed is counted by itself. -/
theorem lineLengths_cons (length : Nat) {c : Char} {text : List Char}
    (alone : ¬ (c = '\r' ∧ text.head? = some '\n')) :
    lineLengths length (c :: text) =
      if isLineEnd c then (length + 1) :: lineLengths 0 text
      else lineLengths (length + 1) text := by
  rw [lineLengths]
  rintro rest rfl rfl
  exact alone ⟨rfl, rfl⟩

/-- Counting along the lines comes to the same position as going through the text. -/
theorem Position.locate_eq (line length : Nat) (front rest : List Char) :
    Position.locate line (length + front.length) (lineLengths length (front ++ rest)) =
      Position.behind ⟨line, length + 1⟩ front rest := by
  -- A line end of two characters is passed in one go, hence the induction on the length.
  induction size : front.length using Nat.strongRecOn generalizing line length front with
  | ind _ ih =>
    subst size
    cases front with
    | nil => exact Position.locate_first line length rest
    | cons c front =>
      rw [List.cons_append, List.length_cons]
      by_cases pair : c = '\r' ∧ (front ++ rest).head? = some '\n'
      · obtain ⟨rfl, feed⟩ := pair
        have within : opensLine '\r' (front ++ rest) = false := by simp [opensLine, feed]
        rw [Position.behind, Position.advance, within, if_neg Bool.false_ne_true]
        cases front with
        | nil =>
          obtain ⟨later, rfl⟩ := List.head?_eq_some_iff.mp feed
          rw [List.nil_append, lineLengths, Position.locate, if_pos (.inl (by simp))]
          rfl
        | cons d front =>
          obtain rfl : d = '\n' := Option.some.inj feed
          have shorter : front.length < ('\r' :: '\n' :: front).length := by
            rw [List.length_cons, List.length_cons]
            omega
          have next := ih front.length shorter (line + 1) 0 front rfl
          have count : length + (front.length + 1 + 1) = length + 2 + front.length := by omega
          rw [List.cons_append, lineLengths, List.length_cons, count]
          exact Position.locate_ended (by decide) (by simp) next
      · have count : length + (front.length + 1) = length + 1 + front.length := by omega
        rw [lineLengths_cons length pair, count]
        by_cases ending : isLineEnd c = true
        · have next := ih front.length (by simp) (line + 1) 0 front rfl
          rw [if_pos ending]
          exact Position.locate_ended ending pair next
        · have within : opensLine c (front ++ rest) = false := by simp [opensLine, ending]
          rw [if_neg ending, Position.behind, Position.advance, within, if_neg Bool.false_ne_true]
          exact ih front.length (by simp) line (length + 1) front rfl

/-- Where the offset counts characters, the position of the character there is found. -/
theorem Position.ofOffset?_length {source : String} (split : source.toList = front ++ rest) :
    Position.ofOffset? source front.length = some (Position.behind ⟨1, 1⟩ front rest) := by
  have inside : front.length ≤ source.length := by
    rw [← String.length_toList, split, List.length_append]
    omega
  have located := Position.locate_eq 1 0 front rest
  rw [Nat.zero_add] at located
  rw [Position.ofOffset?, if_pos inside, split, located]

theorem length_le_byteLength (text : List Char) : text.length ≤ byteLength text := by
  induction text with
  | nil => exact Nat.le_refl 0
  | cons c rest ih =>
    have positive := c.utf8Size_pos
    rw [byteLength_cons, List.length_cons]
    omega

theorem byteLength_eq_length_iff :
    byteLength text = text.length ↔ ∀ c ∈ text, c.utf8Size = 1 := by
  induction text with
  | nil => simp
  | cons c rest ih =>
    have positive := c.utf8Size_pos
    have least := length_le_byteLength rest
    rw [byteLength_cons, List.length_cons, List.forall_mem_cons, ← ih]
    omega

/-- Where the offset counts bytes, the position of the character there is found only if the bytes
before it are as many as the characters. -/
theorem Position.ofOffset?_byteLength {source : String} (split : source.toList = front ++ rest) :
    Position.ofOffset? source (byteLength front) = some (Position.behind ⟨1, 1⟩ front rest) ↔
      ∀ c ∈ front, c.utf8Size = 1 := by
  rw [← byteLength_eq_length_iff]
  constructor
  · intro found
    apply Classical.byContradiction
    intro differs
    have least := length_le_byteLength front
    have inside : byteLength front ≤ source.length := by
      rw [Position.ofOffset?] at found
      split at found
      · assumption
      · cases found
    rw [← String.length_toList, split, List.length_append] at inside
    let count := byteLength front - front.length
    have farther : source.toList = (front ++ rest.take count) ++ rest.drop count := by
      rw [split, List.append_assoc, List.take_append_drop]
    have length : (front ++ rest.take count).length = byteLength front := by
      rw [List.length_append, List.length_take]
      omega
    have other := Position.ofOffset?_length farther
    rw [length, found, Option.some.injEq] at other
    have nonempty : rest.take count ≠ [] := by
      intro none
      rw [none, List.append_nil] at length
      exact differs length.symm
    refine Position.behind_ne nonempty ⟨1, 1⟩ front (rest.drop count) ?_
    rw [List.take_append_drop]
    exact other
  · intro same
    rw [same]
    exact Position.ofOffset?_length split

end Positions

section Errors

variable {source : String} {error : SourceError}

/-- The entry of the token stream that an error is about. -/
def SourceError.item : SourceError → Except ScanError Lexeme
  | .lexical cause => .error cause
  | .grammatical _ found => .ok found

/-- Errors that parsing a text or listing its tokens gives. -/
inductive SourceError.RaisedBy (source : String) : SourceError → Prop where
  | parsing {error : SourceError} (outcome : (parse source).outcome = .error (.error error)) :
    RaisedBy source error
  | listing {failure : ScanError} (result : (scan source).result = .error failure) :
    RaisedBy source (.lexical failure)

theorem Scan.mem_items_of_failure {scan : Scan} {failure : ScanError}
    (failed : scan.failure = some failure) : .error failure ∈ scan.items := by
  simp [Scan.items, failed]

theorem SourceError.RaisedBy.item_mem (raised : error.RaisedBy source) :
    error.item ∈ (scan source).items := by
  cases raised with
  | listing result => exact Scan.mem_items_of_failure (Scan.result_error result)
  | parsing outcome =>
    by_cases nonempty : (scan source).lexemes = []
    · cases failed : (scan source).failure with
      | none =>
        obtain ⟨before, tokens⟩ := scan_complete failed
        rw [nonempty] at tokens
        simp at tokens
      | some failure =>
        rw [parse_lexical failed (by rw [nonempty]; exact Token.viable_nil)] at outcome
        cases outcome
        exact Scan.mem_items_of_failure failed
    · have ends := Parser.program_ends (scan_ended source nonempty)
        (Nat.le_of_lt (Nat.lt_of_lt_of_le (Cursor.length_opening nonempty)
          (Nat.le_add_right _ 3)))
      rw [parse, Scan.parse_outcome nonempty] at outcome
      generalize Parser.program _ _ = result at ends outcome
      cases ends with
      | accepts passesEnd => cases outcome
      | lexical failed viable =>
        cases outcome
        rw [Cursor.failure_opening] at failed
        exact Scan.mem_items_of_failure failed
      | grammatical passes viable =>
        cases outcome
        refine Scan.mem_items_of_lexeme ?_
        have split := passes.remaining
        rw [Cursor.remaining_opening nonempty, Cursor.remaining] at split
        rw [split]
        simp

/-- Every entry of a token stream begins behind a front part of the source, and the end of the input
behind all of it. -/
theorem scan_item_begins {item : Except ScanError Lexeme} (listed : item ∈ (scan source).items) :
    ∃ front rest, source.toList = front ++ rest ∧ (itemSpan item).start = byteLength front ∧
      ∀ lexeme, item = .ok lexeme → lexeme.token = .mark .endOfInput → rest = [] := by
  obtain ⟨lexemes, last, split, closes, words⟩ := (scan_placed source).ends
  rw [split, List.mem_append, List.mem_map, List.mem_singleton] at listed
  rcases listed with ⟨lexeme, among, rfl⟩ | rfl
  · obtain ⟨inner, word, -, front, back, whole, starts, -⟩ := words lexeme among
    refine ⟨front, word ++ back, by rw [whole, List.append_assoc], starts, ?_⟩
    rintro _ ⟨⟩ final
    exact absurd final inner
  · cases item with
    | ok lexeme =>
      obtain rfl : lexeme = _ := closes
      exact ⟨source.toList, [], by simp, rfl, fun _ _ _ => rfl⟩
    | error failure =>
      obtain ⟨others, front, back, whole, starts, -⟩ := closes
      exact ⟨front, _ :: others ++ back, by rw [whole, List.append_assoc], starts, nofun⟩

/-- Every command that fails on a text reports the error of the text. -/
theorem commands_report (outcome : (parse source).outcome = .error (.error error)) (fuel : Nat)
    (file : String) (json : Bool) (maxDepth : Option Nat) :
    (parseCommand file source).diagnostics = error.report file source ∧
      (runCommand fuel file source json maxDepth).diagnostics = error.report file source := by
  constructor
  · rw [parseCommand, outcome]
    rfl
  · unfold runCommand
    simp only [interpret, outcome]
    rfl

theorem tokensCommand_reports {failure : ScanError} (result : (scan source).result = .error failure)
    (file : String) :
    (tokensCommand file source).diagnostics = (SourceError.lexical failure).report file source := by
  rw [tokensCommand, result]
  rfl

end Errors

/-- The position that a report prints. An error begins behind a front part of the text, at its end
for an error about the end of the input. Its offset counts the bytes of that part, and is looked up
as if it counted characters. So the line and the column printed are those of the character at which
the error begins exactly if every character before it takes a single byte. -/
theorem reported_position_exact {source : String} {error : SourceError}
    (raised : error.RaisedBy source) : ∃ front rest, source.toList = front ++ rest ∧
    error.span.start = byteLength front ∧
    (∀ expected found, error = .grammatical expected found →
      found.token = .mark .endOfInput → rest = []) ∧
    (∀ file, error.report file source = ["Error: " ++ error.kind ++ " error",
      "╭─[ " ++ file ++ ":" ++
        Position.text (Position.ofOffset? source error.span.start) ++ " ]"]) ∧
    (Position.ofOffset? source error.span.start = some (Position.behind ⟨1, 1⟩ front rest) ↔
      ∀ c ∈ front, c.utf8Size = 1) ∧
    ((parse source).outcome = .error (.error error) → ∀ fuel file json maxDepth,
      (parseCommand file source).diagnostics = error.report file source ∧
      (runCommand fuel file source json maxDepth).diagnostics = error.report file source) ∧
    ∀ failure, (scan source).result = .error failure → ∀ file,
      (tokensCommand file source).diagnostics =
        (SourceError.lexical failure).report file source := by
  obtain ⟨front, rest, split, starts, last⟩ := scan_item_begins raised.item_mem
  have start : error.span.start = byteLength front := by
    rw [← starts]
    cases error <;> rfl
  refine ⟨front, rest, split, start, ?_, fun file => rfl, ?_, ?_, ?_⟩
  · rintro expected found rfl final
    exact last found rfl final
  · rw [start]
    exact Position.ofOffset?_byteLength split
  · exact fun outcome fuel file json maxDepth => commands_report outcome fuel file json maxDepth
  · exact fun failure result file => tokensCommand_reports result file

/-- In a text of single bytes the position is right. -/
theorem reported_position_exact_ascii : ∃ (error : SourceError) (front rest : List Char),
    error.RaisedBy "(*e*) #" ∧ "(*e*) #".toList = front ++ rest ∧
      Position.ofOffset? "(*e*) #" error.span.start = some (Position.behind ⟨1, 1⟩ front rest) ∧
      (parseCommand "input.pas" "(*e*) #").diagnostics =
        ["Error: Lexical error", "╭─[ input.pas:1:7 ]"] := by
  have scanned : scan "(*e*) #" = ⟨[], some ⟨'#', 6, 7⟩⟩ := by decide +kernel
  have outcome : (parse "(*e*) #").outcome = .error (.error (.lexical ⟨'#', 6, 7⟩)) := by
    rw [parse, scanned]
    rfl
  have raised := SourceError.RaisedBy.parsing outcome
  obtain ⟨front, rest, split, -, -, -, position, commands, -⟩ := reported_position_exact raised
  have single : "(*e*) #".toList.all (fun c => c.utf8Size == 1) = true := by decide
  refine ⟨_, front, rest, raised, split, position.mpr fun c listed => ?_, ?_⟩
  · have within : c ∈ "(*e*) #".toList := split ▸ List.mem_append_left rest listed
    exact beq_iff_eq.mp (List.all_eq_true.mp single c within)
  · rw [(commands outcome 0 "input.pas" false none).1]
    rfl

/-- A character of two bytes in a comment moves the position of what follows it by one column. -/
theorem reported_position_shifted : ∃ (error : SourceError) (front rest : List Char),
    error.RaisedBy "(*é*) #" ∧ "(*é*) #".toList = front ++ rest ∧
      error.span.start = byteLength front ∧ Position.behind ⟨1, 1⟩ front rest = ⟨1, 7⟩ ∧
      (parseCommand "input.pas" "(*é*) #").diagnostics =
        ["Error: Lexical error", "╭─[ input.pas:1:8 ]"] := by
  have scanned : scan "(*é*) #" = ⟨[], some ⟨'#', 7, 8⟩⟩ := by decide +kernel
  have outcome : (parse "(*é*) #").outcome = .error (.error (.lexical ⟨'#', 7, 8⟩)) := by
    rw [parse, scanned]
    rfl
  refine ⟨_, "(*é*) ".toList, ['#'], .parsing outcome, by decide, by decide, by decide, ?_⟩
  rw [(commands_report outcome 0 "input.pas" false none).1]
  rfl

end MiniPascal
