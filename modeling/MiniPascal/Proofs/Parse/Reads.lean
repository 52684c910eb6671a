import MiniPascal.Parse.Rules
import MiniPascal.Proofs.Sequence

namespace MiniPascal

variable {α β : Type}

def Token.isIdent : Token → Bool
  | .ident _ => true
  | _ => false

def Lexeme.tokens (lexemes : List Lexeme) : List Token := lexemes.map Lexeme.token

@[simp] theorem Lexeme.tokens_nil : tokens [] = [] := rfl

@[simp] theorem Lexeme.tokens_cons (first : Lexeme) (rest : List Lexeme) :
    tokens (first :: rest) = first.token :: tokens rest := rfl

@[simp] theorem Lexeme.tokens_append (first rest : List Lexeme) :
    tokens (first ++ rest) = tokens first ++ tokens rest := List.map_append

def Cursor.remaining (cursor : Cursor) : List Lexeme := cursor.current :: cursor.rest

/-- A scan without a failure goes on to the end of the input. -/
def Cursor.Ended (cursor : Cursor) : Prop :=
  cursor.failure = none → cursor.remaining.getLast?.map Lexeme.token = some (.mark .endOfInput)

/-- A cursor comes to another place of the same scan by passing lexemes. -/
structure Cursor.Passes (before : Cursor) (passed : List Lexeme) (after : Cursor) : Prop where
  remaining : before.remaining = passed ++ after.remaining
  failure : after.failure = before.failure

theorem Cursor.Passes.refl (cursor : Cursor) : cursor.Passes [] cursor := ⟨rfl, rfl⟩

theorem Cursor.Passes.trans {first second third : Cursor} {passed further : List Lexeme}
    (start : first.Passes passed second) (next : second.Passes further third) :
    first.Passes (passed ++ further) third :=
  ⟨by rw [start.remaining, next.remaining, List.append_assoc], next.failure.trans start.failure⟩

theorem Cursor.Passes.ended {before after : Cursor} {passed : List Lexeme}
    (passes : before.Passes passed after) (ended : before.Ended) : after.Ended := by
  intro unfailed
  have last := ended (passes.failure.symm.trans unfailed)
  rw [passes.remaining, List.getLast?_append] at last
  simpa [Cursor.remaining] using last

theorem Cursor.Passes.length_rest {before after : Cursor} {passed : List Lexeme}
    (passes : before.Passes passed after) :
    before.rest.length = passed.length + after.rest.length := by
  have lengths := congrArg List.length passes.remaining
  simp only [Cursor.remaining, List.length_append, List.length_cons] at lengths
  omega

/-- What a rule may read: the lexemes it passes, what it makes of them, and the token in view
afterwards. -/
abbrev Reading (α : Type) := List Lexeme → α → Token → Prop

@[simp] def Reading.after (reading : Reading α) (passed : List Lexeme) : Reading α :=
  fun further => reading (passed ++ further)

theorem Reading.after_after (reading : Reading α) (passed further : List Lexeme) :
    (reading.after passed).after further = reading.after (passed ++ further) := by
  funext more
  simp only [after, List.append_assoc]

def Reading.Viable (reading : Reading α) : Prop := ∃ passed result next, reading passed result next

/-- A stop is justified at a cursor: what was read up to it could go on, and it names the token in
view where the grammar has no place for it, or what ended the scan behind that token. -/
def ParseStop.Justified (stop : ParseStop) (after : Cursor) (left : Reading α) : Prop :=
  match stop with
  | .error (.grammatical _ found) => found = after.current ∧ left.Viable
  | .error (.lexical failure) =>
    after.rest = [] ∧ after.failure = some failure ∧ (left.after [after.current]).Viable
  | .outOfFuel => False

theorem ParseStop.Justified.imp {stop : ParseStop} {after : Cursor} {left : Reading α}
    {right : Reading β} (justified : stop.Justified after left)
    (goesOn : ∀ passed, (left.after passed).Viable → (right.after passed).Viable) :
    stop.Justified after right := by
  match stop, justified with
  | .error (.grammatical _ _), ⟨found, viable⟩ => exact ⟨found, goesOn [] viable⟩
  | .error (.lexical _), ⟨last, failed, viable⟩ => exact ⟨last, failed, goesOn _ viable⟩

namespace Parser

/-- From a cursor a rule succeeds on something it may read, or stops for a reason. -/
def ReadsFrom (rule : Parser α) (reading : Reading α) (cursor : Cursor) : Prop :=
  match rule cursor with
  | .ok result after => ∃ passed, cursor.Passes passed after ∧ reading passed result after.current.token
  | .error stop after => ∃ passed, cursor.Passes passed after ∧ stop.Justified after (reading.after passed)

/-- A rule reads from every cursor that has the token in view and fewer than `bound` lexemes behind
it. The bound is what the fuel of a rule allows. -/
structure ReadsAt (token : Token) (bound : Nat) (rule : Parser α) (reading : Reading α) : Prop where
  viable : reading.Viable
  reads : ∀ cursor : Cursor, cursor.Ended → cursor.current.token = token → cursor.rest.length < bound →
    ReadsFrom rule reading cursor

def Reads (bound : Nat) (rule : Parser α) (reading : Reading α) : Prop :=
  ∀ token, ReadsAt token bound rule reading

theorem Reads.mono {bound lower : Nat} {rule : Parser α} {reading : Reading α}
    (reads : Reads bound rule reading) (le : lower ≤ bound) : Reads lower rule reading :=
  fun token => ⟨(reads token).viable, fun cursor ended view short =>
    (reads token).reads cursor ended view (Nat.lt_of_lt_of_le short le)⟩

theorem Reads.zero {rule : Parser α} {reading : Reading α} (viable : reading.Viable) :
    Reads 0 rule reading :=
  fun _ => ⟨viable, fun _ _ _ short => absurd short (Nat.not_lt_zero _)⟩

section Steps

variable {token : Token} {bound : Nat} {reading : Reading β}

/-- In sequence: the rest reads what is left after the first part. Where the first part stops, the
rest shows that what was read could go on. -/
theorem ReadsAt.bind {rule : Parser α} {next : α → Parser β} {first : Reading α}
    (head : ReadsAt token bound rule first)
    (tail : ∀ passed result seen, first passed result seen →
      ReadsAt seen (bound - passed.length) (next result) (reading.after passed)) :
    ReadsAt token bound (rule >>= next) reading := by
  have goesOn : ∀ passed, (first.after passed).Viable → (reading.after passed).Viable := by
    rintro passed ⟨more, result, seen, read⟩
    obtain ⟨others, final, last, reads⟩ := (tail _ result seen read).viable
    exact ⟨more ++ others, final, last, by simpa only [Reading.after, List.append_assoc] using reads⟩
  refine ⟨goesOn [] head.viable, fun cursor ended view short => ?_⟩
  have start := head.reads cursor ended view short
  unfold ReadsFrom at start ⊢
  cases run : rule cursor with
  | error stop after =>
    rw [run] at start
    rw [bind_of_error run]
    obtain ⟨passed, passes, justified⟩ := start
    refine ⟨passed, passes, justified.imp fun further viable => ?_⟩
    rw [Reading.after_after] at viable ⊢
    exact goesOn _ viable
  | ok result after =>
    rw [run] at start
    rw [bind_of_ok run]
    obtain ⟨passed, passes, read⟩ := start
    have length := passes.length_rest
    have rest := (tail passed result _ read).reads after (passes.ended ended) rfl (by omega)
    unfold ReadsFrom at rest
    cases final : next result after with
    | error stop last =>
      rw [final] at rest
      obtain ⟨further, more, justified⟩ := rest
      rw [Reading.after_after] at justified
      exact ⟨passed ++ further, passes.trans more, justified⟩
    | ok final last =>
      rw [final] at rest
      obtain ⟨further, more, reads⟩ := rest
      exact ⟨passed ++ further, passes.trans more, reads⟩

theorem ReadsAt.pure {result : β} (read : reading [] result token) :
    ReadsAt token bound (Pure.pure result) reading :=
  ⟨⟨[], result, token, read⟩, fun cursor _ view _ => ⟨[], .refl cursor, by rw [view]; exact read⟩⟩

theorem ReadsAt.weaken {rule : Parser β} {tighter : Reading β} (reads : ReadsAt token bound rule tighter)
    (imp : ∀ passed result seen, tighter passed result seen → reading passed result seen) :
    ReadsAt token bound rule reading := by
  have next : ReadsAt token bound (rule >>= Pure.pure) reading :=
    reads.bind fun passed result seen read =>
      .pure (by simpa only [Reading.after, List.append_nil] using imp passed result seen read)
  rwa [bind_pure] at next

theorem ReadsAt.unexpected {expected : Expected} (viable : reading.Viable) :
    ReadsAt token bound (unexpected expected) reading :=
  ⟨viable, fun cursor _ _ _ => ⟨[], .refl cursor, rfl, viable⟩⟩

/-- A look at the cursor does not move it. -/
theorem ReadsAt.look {look : Parser α} {next : α → Parser β} (seen : Cursor → α)
    (looks : ∀ cursor, look cursor = .ok (seen cursor) cursor)
    (tail : ∀ cursor : Cursor, cursor.current.token = token →
      ReadsAt token bound (next (seen cursor)) reading) :
    ReadsAt token bound (look >>= next) reading := by
  refine ⟨?_, fun cursor ended view short => ?_⟩
  · exact (tail ⟨⟨token, .point 0⟩, [], none, .point 0, []⟩ rfl).viable
  · unfold ReadsFrom
    rw [bind_of_ok (looks cursor)]
    exact (tail cursor view).reads cursor ended view short

theorem ReadsAt.peek {next : Token → Parser β} (tail : ReadsAt token bound (next token) reading) :
    ReadsAt token bound (peek >>= next) reading :=
  .look (fun cursor => cursor.current.token) (fun _ => rfl) fun _ view => view ▸ tail

theorem ReadsAt.here {next : Span → Parser β}
    (tail : ∀ span, ReadsAt token bound (next span) reading) :
    ReadsAt token bound (here >>= next) reading :=
  .look (fun cursor => cursor.current.span) (fun _ => rfl) fun _ _ => tail _

theorem ReadsAt.previous {next : Span → Parser β}
    (tail : ∀ span, ReadsAt token bound (next span) reading) :
    ReadsAt token bound (previous >>= next) reading :=
  .look (fun cursor => cursor.previous) (fun _ => rfl) fun _ _ => tail _

theorem ReadsAt.sees {kind : Mark} {next : Bool → Parser β}
    (tail : ReadsAt token bound (next (token == .mark kind)) reading) :
    ReadsAt token bound (sees kind >>= next) reading :=
  .look (fun cursor => cursor.current.token == .mark kind) (fun _ => rfl) fun _ view => view ▸ tail

theorem ReadsAt.note {event : ParseEvent} {next : Unit → Parser β}
    (tail : ReadsAt token bound (next ()) reading) :
    ReadsAt token bound (note event >>= next) reading := by
  have noted : ReadsAt token bound (Parser.note event) fun passed _ seen => passed = [] ∧ seen = token :=
    ⟨⟨[], (), token, rfl, rfl⟩, fun cursor _ view _ => ⟨[], ⟨rfl, rfl⟩, rfl, view⟩⟩
  refine noted.bind ?_
  rintro _ _ _ ⟨rfl, rfl⟩
  exact tail

/-- Passing the token in view. The last lexeme of a scan that failed is not passed, and the end of
the input is no token to pass. -/
theorem ReadsAt.advance {next : Lexeme → Parser β} (open_ : token ≠ .mark .endOfInput)
    (tail : ∀ lexeme : Lexeme, lexeme.token = token →
      Reads (bound - 1) (next lexeme) (reading.after [lexeme])) :
    ReadsAt token bound (advance >>= next) reading := by
  have advanced : ReadsAt token bound Parser.advance fun passed lexeme _ =>
      passed = [lexeme] ∧ lexeme.token = token := by
    refine ⟨⟨_, ⟨token, .point 0⟩, token, rfl, rfl⟩, fun cursor ended view _ => ?_⟩
    obtain ⟨current, rest, failure, previous, events⟩ := cursor
    match rest, failure with
    | _ :: _, _ => exact ⟨[current], ⟨rfl, rfl⟩, rfl, view⟩
    | [], some failure => exact ⟨[], .refl _, rfl, rfl, [], current, token, rfl, view⟩
    | [], none =>
      have last := ended rfl
      simp only [Cursor.remaining, List.getLast?_singleton, Option.map_some, Option.some.injEq] at last
      exact absurd (view.symm.trans last) open_
  refine advanced.bind ?_
  rintro _ lexeme seen ⟨rfl, view⟩
  exact tail lexeme view seen

theorem ReadsAt.expect {kind : Mark} {next : Unit → Parser β} (open_ : kind ≠ .endOfInput)
    (tail : ∀ lexeme : Lexeme, lexeme.token = .mark kind →
      Reads (bound - 1) (next ()) (reading.after [lexeme])) :
    ReadsAt token bound (expect kind >>= next) reading := by
  have expected : ReadsAt token bound (Parser.expect kind) fun passed _ _ =>
      ∃ lexeme : Lexeme, passed = [lexeme] ∧ lexeme.token = .mark kind := by
    refine .sees ?_
    by_cases view : token = .mark kind
    · rw [if_pos (beq_iff_eq.mpr view)]
      refine .advance (by rw [view]; simpa using open_) fun lexeme shows seen => .pure ?_
      exact ⟨lexeme, rfl, shows.trans view⟩
    · rw [if_neg (by simpa using view)]
      exact .unexpected ⟨_, (), token, ⟨.mark kind, .point 0⟩, rfl, rfl⟩
  refine expected.bind ?_
  rintro _ _ seen ⟨lexeme, rfl, shows⟩
  exact tail lexeme shows seen

theorem ReadsAt.ifEat {kind : Mark} {yes no : Parser β} (open_ : kind ≠ .endOfInput)
    (taken : token = .mark kind → ∀ lexeme : Lexeme, lexeme.token = .mark kind →
      Reads (bound - 1) yes (reading.after [lexeme]))
    (left : token ≠ .mark kind → ReadsAt token bound no reading) :
    ReadsAt token bound (eat kind >>= fun found => if found = true then yes else no) reading := by
  by_cases view : token = .mark kind
  · have eaten : ReadsAt token bound (Parser.eat kind) fun passed found _ =>
        ∃ lexeme : Lexeme, passed = [lexeme] ∧ lexeme.token = .mark kind ∧ found = true := by
      refine .sees ?_
      rw [if_pos (beq_iff_eq.mpr view)]
      refine .advance (by rw [view]; simpa using open_) fun lexeme shows seen => .pure ?_
      exact ⟨lexeme, rfl, shows.trans view, rfl⟩
    refine eaten.bind ?_
    rintro _ _ seen ⟨lexeme, rfl, shows, rfl⟩
    exact taken view lexeme shows seen
  · have looked : ReadsAt token bound (Parser.eat kind) fun passed found seen =>
        passed = [] ∧ found = false ∧ seen = token := by
      refine .sees ?_
      rw [if_neg (by simpa using view)]
      exact .pure ⟨rfl, rfl, rfl⟩
    refine looked.bind ?_
    rintro _ _ _ ⟨rfl, rfl, rfl⟩
    exact left view

theorem ident_reads (bound : Nat) : Reads bound ident fun passed ident _ =>
    ∃ lexeme : Lexeme, passed = [lexeme] ∧ lexeme.token = .ident ident.name ∧
      ident.span = lexeme.span := by
  intro token
  refine .peek ?_
  split
  · refine .advance (by simp) fun lexeme shows seen => .pure ?_
    exact ⟨lexeme, rfl, shows, rfl⟩
  · exact .unexpected ⟨_, ⟨"", .point 0⟩, token, ⟨.ident "", .point 0⟩, rfl, rfl, rfl⟩

theorem ReadsAt.ident {next : Ident → Parser β}
    (tail : ∀ (lexeme : Lexeme) (name : String), lexeme.token = .ident name →
      Reads (bound - 1) (next ⟨name, lexeme.span⟩) (reading.after [lexeme])) :
    ReadsAt token bound (ident >>= next) reading := by
  refine (ident_reads bound token).bind ?_
  rintro _ ⟨name, _⟩ seen ⟨lexeme, rfl, shows, rfl⟩
  exact tail lexeme name shows seen

theorem atIdent_eq (cursor : Cursor) : atIdent cursor = .ok cursor.current.token.isIdent cursor := by
  unfold atIdent
  rw [bind_of_ok (show peek cursor = .ok cursor.current.token cursor from rfl)]
  cases cursor.current.token <;> rfl

theorem ReadsAt.ifAtIdent {yes no : Parser β} (taken : ReadsAt token bound yes reading)
    (left : ReadsAt token bound no reading) :
    ReadsAt token bound (atIdent >>= fun found => if found = true then yes else no) reading := by
  refine .look (fun cursor => cursor.current.token.isIdent) atIdent_eq fun cursor _ => ?_
  split
  · exact taken
  · exact left

end Steps

end Parser

end MiniPascal
