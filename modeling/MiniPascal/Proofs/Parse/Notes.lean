import MiniPascal.Proofs.Grammar.Finished
import MiniPascal.Proofs.Parse.Exactness
import MiniPascal.Proofs.Parse.Silent

namespace MiniPascal

variable {α β : Type}

/-- Between two cursors routines have been noted. -/
def Cursor.Notes (before : Cursor) (log : List Signature) (after : Cursor) : Prop :=
  after.events = (log.map Signature.event).reverse ++ before.events

theorem Cursor.Notes.trans {first second third : Cursor} {log further : List Signature}
    (start : first.Notes log second) (next : second.Notes further third) :
    first.Notes (log ++ further) third := by
  rw [Cursor.Notes, next, start, List.map_append, List.reverse_append, List.append_assoc]

theorem ParseStop.Justified.viable {stop : ParseStop} {after : Cursor} {left : Reading α}
    (justified : stop.Justified after left) : left.Viable := by
  match stop, justified with
  | .error (.grammatical _ _), ⟨_, viable⟩ => exact viable
  | .error (.lexical _), ⟨_, _, more, result, seen, read⟩ => exact ⟨_, result, seen, read⟩

namespace Parser

/-- Which routines end among the tokens still to come, whatever these are. -/
abbrev Outlook := List Token → List Signature

/-- From a cursor a rule notes the routines that end among the lexemes it passes. Where it succeeds, its
result tells which they are, and `further` which end among the lexemes that follow. -/
def NotesFrom (rule : Parser α) (outlook further : Outlook) (noted : List Signature → α → Prop)
    (cursor : Cursor) : Prop :=
  match rule cursor with
  | .ok result after => ∃ passed log, cursor.Passes passed after ∧ cursor.Notes log after ∧
    noted log result ∧ ∀ rest, outlook (Lexeme.tokens passed ++ rest) = log ++ further rest
  | .error _ after => ∃ passed, cursor.Passes passed after ∧
    cursor.Notes (outlook (Lexeme.tokens passed)) after

def NotesAt (token : Token) (bound : Nat) (rule : Parser α) (outlook further : Outlook)
    (noted : List Signature → α → Prop) : Prop :=
  ∀ cursor : Cursor, cursor.Ended → cursor.current.token = token → cursor.rest.length < bound →
    NotesFrom rule outlook further noted cursor

def Notes (bound : Nat) (rule : Parser α) (outlook further : Outlook)
    (noted : List Signature → α → Prop) : Prop :=
  ∀ token, NotesAt token bound rule outlook further noted

section Steps

variable {token : Token} {bound : Nat} {outlook middle further : Outlook}
  {noted : List Signature → β → Prop}

theorem Notes.mono {lower : Nat} {rule : Parser β} (notes : Notes bound rule outlook further noted)
    (le : lower ≤ bound) : Notes lower rule outlook further noted :=
  fun token cursor ended view short => notes token cursor ended view (Nat.lt_of_lt_of_le short le)

theorem Notes.zero {rule : Parser β} : Notes 0 rule outlook further noted :=
  fun _ _ _ _ short => absurd short (Nat.not_lt_zero _)

section Sequence

variable {rule : Parser α} {next : α → Parser β} {cursor after : Cursor} {passed : List Lexeme}

theorem NotesFrom.of_error {stop : ParseStop} (run : rule cursor = .error stop after)
    (passes : cursor.Passes passed after)
    (notes : cursor.Notes (outlook (Lexeme.tokens passed)) after) :
    NotesFrom (rule >>= next) outlook further noted cursor := by
  unfold NotesFrom
  rw [bind_of_error run]
  exact ⟨passed, passes, notes⟩

theorem NotesFrom.of_ok {result : α} {log : List Signature} (run : rule cursor = .ok result after)
    (passes : cursor.Passes passed after) (notes : cursor.Notes log after)
    (splits : ∀ rest, outlook (Lexeme.tokens passed ++ rest) = log ++ middle rest)
    (tail : NotesFrom (next result) middle further (fun more => noted (log ++ more)) after) :
    NotesFrom (rule >>= next) outlook further noted cursor := by
  unfold NotesFrom at tail ⊢
  rw [bind_of_ok run]
  cases final : next result after with
  | error stop last =>
    rw [final] at tail
    obtain ⟨others, more, notes'⟩ := tail
    refine ⟨passed ++ others, passes.trans more, ?_⟩
    rw [Lexeme.tokens_append, splits]
    exact notes.trans notes'
  | ok final last =>
    rw [final] at tail
    obtain ⟨others, log', more, notes', holds, splits'⟩ := tail
    refine ⟨passed ++ others, log ++ log', passes.trans more, notes.trans notes', holds, fun rest => ?_⟩
    rw [Lexeme.tokens_append, List.append_assoc, splits, splits', List.append_assoc]

end Sequence

theorem NotesAt.bind {rule : Parser α} {next : α → Parser β} {first : List Signature → α → Prop}
    (head : NotesAt token bound rule outlook middle first)
    (tail : ∀ log result, first log result →
      Notes bound (next result) middle further fun more => noted (log ++ more)) :
    NotesAt token bound (rule >>= next) outlook further noted := by
  intro cursor ended view short
  have start := head cursor ended view short
  unfold NotesFrom at start
  cases run : rule cursor with
  | error stop after =>
    rw [run] at start
    obtain ⟨passed, passes, notes⟩ := start
    exact .of_error run passes notes
  | ok result after =>
    rw [run] at start
    obtain ⟨passed, log, passes, notes, holds, splits⟩ := start
    have shorter := passes.length_rest
    exact .of_ok run passes notes splits
      (tail log result holds _ after (passes.ended ended) rfl (by omega))

theorem NotesAt.pure {result : β} (same : ∀ rest, outlook rest = further rest)
    (holds : noted [] result) : NotesAt token bound (Pure.pure result) outlook further noted :=
  fun cursor _ _ _ => ⟨[], [], .refl cursor, rfl, holds, same⟩

/-- A rule that notes nothing passes lexemes among which no routine ends, as far as it comes. -/
theorem NotesAt.silent {rule : Parser α} {next : α → Parser β} {reading : Reading α}
    (silent : Silent rule) (reads : ReadsAt token bound rule reading)
    (cut : ∀ passed, (reading.after passed).Viable → outlook (Lexeme.tokens passed) = [])
    (tail : ∀ passed result seen, reading passed result seen →
      NotesAt seen (bound - passed.length) (next result)
        (fun rest => outlook (Lexeme.tokens passed ++ rest)) further noted) :
    NotesAt token bound (rule >>= next) outlook further noted := by
  intro cursor ended view short
  have start := reads.reads cursor ended view short
  have kept := silent cursor
  unfold ReadsFrom at start
  cases run : rule cursor with
  | error stop after =>
    rw [run] at start kept
    obtain ⟨passed, passes, justified⟩ := start
    refine .of_error run passes ?_
    rw [cut passed justified.viable]
    exact kept
  | ok result after =>
    rw [run] at start kept
    obtain ⟨passed, passes, read⟩ := start
    have shorter := passes.length_rest
    have noted : cursor.Notes [] after := kept
    exact .of_ok run passes noted (fun _ => rfl)
      (tail passed result _ read after (passes.ended ended) rfl (by omega))

/-- A look at the cursor does not move it. -/
theorem NotesAt.look {look : Parser α} {next : α → Parser β} (seen : Cursor → α)
    (looks : ∀ cursor, look cursor = .ok (seen cursor) cursor)
    (tail : ∀ cursor : Cursor, cursor.current.token = token →
      NotesAt token bound (next (seen cursor)) outlook further noted) :
    NotesAt token bound (look >>= next) outlook further noted := by
  intro cursor ended view short
  unfold NotesFrom
  rw [bind_of_ok (looks cursor)]
  exact tail cursor view cursor ended view short

theorem NotesAt.peek {next : Token → Parser β}
    (tail : NotesAt token bound (next token) outlook further noted) :
    NotesAt token bound (peek >>= next) outlook further noted :=
  .look (fun cursor => cursor.current.token) (fun _ => rfl) fun _ view => view ▸ tail

theorem NotesAt.previous {next : Span → Parser β}
    (tail : ∀ span, NotesAt token bound (next span) outlook further noted) :
    NotesAt token bound (previous >>= next) outlook further noted :=
  .look (fun cursor => cursor.previous) (fun _ => rfl) fun _ _ => tail _

/-- A routine whose block has ended is noted. -/
theorem NotesAt.note {signature : Signature} {next : Unit → Parser β}
    (ended : ∀ rest, outlook rest = signature :: middle rest)
    (tail : Notes bound (next ()) middle further fun more => noted (signature :: more)) :
    NotesAt token bound (note signature.event >>= next) outlook further noted := by
  have noting : NotesAt token bound (Parser.note signature.event) outlook middle
      fun log _ => log = [signature] :=
    fun cursor _ _ _ => ⟨[], [signature], ⟨rfl, rfl⟩, rfl, rfl, ended⟩
  refine noting.bind ?_
  rintro _ _ rfl
  exact tail

theorem expect_of_view {kind : Mark} {cursor : Cursor}
    (shown : cursor.current.token = .mark kind) :
    expect kind cursor = (do let _ ← advance : Parser Unit) cursor := by
  unfold expect
  rw [bind_of_ok (show sees kind cursor = .ok (cursor.current.token == .mark kind) cursor from rfl),
    if_pos (beq_iff_eq.mpr shown)]

/-- Where a mark is missing, nothing is passed. -/
theorem NotesAt.expect {kind : Mark} {next : Unit → Parser β} (open_ : kind ≠ .endOfInput)
    (nothing : outlook [] = [])
    (tail : Notes (bound - 1) (next ()) (fun rest => outlook (.mark kind :: rest)) further noted) :
    NotesAt token bound (expect kind >>= next) outlook further noted := by
  intro cursor ended view short
  have stops (stop : ParseStop) (run : Parser.expect kind cursor = .error stop cursor) :
      NotesFrom (Parser.expect kind >>= next) outlook further noted cursor := by
    refine .of_error run (.refl cursor) ?_
    rw [Lexeme.tokens_nil, nothing]
    rfl
  by_cases shown : cursor.current.token = .mark kind
  · have run := expect_of_view shown
    obtain ⟨current, rest, failure, previous, events⟩ := cursor
    match rest, failure with
    | following :: rest, failure =>
      let before : Cursor := ⟨current, following :: rest, failure, previous, events⟩
      let after : Cursor := ⟨following, rest, failure, current.span, events⟩
      have passes : before.Passes [current] after := ⟨rfl, rfl⟩
      have notes : before.Notes [] after := rfl
      refine .of_ok run passes notes (fun others => ?_)
        (tail _ after (passes.ended ended) rfl (Nat.lt_sub_of_add_lt short))
      rw [Lexeme.tokens_cons, shown]
      rfl
    | [], some failure => exact stops _ run
    | [], none =>
      have last := ended rfl
      simp only [Cursor.remaining, List.getLast?_singleton, Option.map_some, Option.some.injEq] at last
      cases last.symm.trans shown
      exact absurd rfl open_
  · exact stops _ (expect_of_other shown)

end Steps

end Parser

end MiniPascal
