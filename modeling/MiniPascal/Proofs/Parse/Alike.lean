import MiniPascal.Proofs.Parse.Extends
import MiniPascal.Proofs.Parse.Reads

namespace MiniPascal

variable {α β : Type}

/-- How many tokens a cursor has still to consume, ends of the input not counted. -/
def Cursor.pending (cursor : Cursor) : Nat :=
  cursor.remaining.countP (·.token ≠ .mark .endOfInput)

namespace Parser

/-- Two rules do the same from every cursor that has the token in view and fewer than `bound` tokens
to come, and do not go back. Only if fuel is `short` may it run out. -/
def AlikeAt (short : Prop) (token : Token) (bound : Nat) (rule rule' : Parser α) : Prop :=
  ∀ cursor : Cursor, cursor.current.token = token → cursor.pending < bound →
    rule cursor = rule' cursor ∧ (ending (rule cursor)).pending ≤ cursor.pending ∧
      ∀ after, rule cursor = .error .outOfFuel after → short

def Alike (short : Prop) (bound : Nat) (rule rule' : Parser α) : Prop :=
  ∀ token, AlikeAt short token bound rule rule'

variable {short : Prop} {token : Token} {bound : Nat}

theorem Alike.mono {lower : Nat} {rule rule' : Parser α} (alike : Alike short bound rule rule')
    (le : lower ≤ bound) : Alike short lower rule rule' :=
  fun token cursor view low => alike token cursor view (Nat.lt_of_lt_of_le low le)

section Steps

theorem AlikeAt.bind {rule rule' : Parser α} {next next' : α → Parser β}
    (head : AlikeAt short token bound rule rule')
    (tail : ∀ result, Alike short bound (next result) (next' result)) :
    AlikeAt short token bound (rule >>= next) (rule' >>= next') := by
  intro cursor view low
  obtain ⟨same, forward, fuelled⟩ := head cursor view low
  cases run : rule cursor with
  | error stop after =>
    rw [run] at same forward
    rw [bind_of_error run, bind_of_error same.symm]
    refine ⟨rfl, forward, ?_⟩
    rintro _ ⟨⟩
    exact fuelled after run
  | ok result after =>
    rw [run] at same forward
    obtain ⟨same', forward', fuelled'⟩ :=
      tail result _ after rfl (Nat.lt_of_le_of_lt forward low)
    rw [bind_of_ok run, bind_of_ok same.symm]
    exact ⟨same', Nat.le_trans forward' forward, fuelled'⟩

theorem Alike.bind {rule rule' : Parser α} {next next' : α → Parser β}
    (head : Alike short bound rule rule')
    (tail : ∀ result, Alike short bound (next result) (next' result)) :
    Alike short bound (rule >>= next) (rule' >>= next') :=
  fun token => (head token).bind tail

theorem AlikeAt.pure (result : α) :
    AlikeAt short token bound (Pure.pure result) (Pure.pure result) :=
  fun _ _ _ => ⟨rfl, Nat.le_refl _, nofun⟩

/-- Rules that fail at the token in view. -/
theorem AlikeAt.fails {rule rule' : Parser α} (cause : Cursor → SourceError)
    (stops : ∀ cursor, rule cursor = .error (.error (cause cursor)) cursor)
    (stops' : ∀ cursor, rule' cursor = .error (.error (cause cursor)) cursor) :
    AlikeAt short token bound rule rule' := by
  intro cursor _ _
  rw [stops, stops']
  exact ⟨rfl, Nat.le_refl _, nofun⟩

theorem AlikeAt.unexpected (expected : Expected) :
    AlikeAt short token bound (Parser.unexpected expected : Parser α) (Parser.unexpected expected) :=
  .fails (fun cursor => .grammatical expected cursor.current) (fun _ => rfl) fun _ => rfl

theorem Alike.outOfFuel (enough : short ∨ bound = 0) :
    Alike short bound (Parser.outOfFuel : Parser α) Parser.outOfFuel := by
  intro token cursor _ low
  refine ⟨rfl, Nat.le_refl _, fun _ _ => ?_⟩
  rcases enough with short | rfl
  · exact short
  · exact absurd low (Nat.not_lt_zero _)

/-- A look at the cursor does not move it. -/
theorem AlikeAt.look {look : Parser α} {next next' : α → Parser β} (seen : Cursor → α)
    (looks : ∀ cursor, look cursor = .ok (seen cursor) cursor)
    (tail : ∀ cursor : Cursor, cursor.current.token = token →
      AlikeAt short token bound (next (seen cursor)) (next' (seen cursor))) :
    AlikeAt short token bound (look >>= next) (look >>= next') := by
  intro cursor view low
  rw [bind_of_ok (looks cursor), bind_of_ok (looks cursor)]
  exact tail cursor view cursor view low

theorem AlikeAt.peek {next next' : Token → Parser β}
    (tail : AlikeAt short token bound (next token) (next' token)) :
    AlikeAt short token bound (peek >>= next) (peek >>= next') :=
  .look (fun cursor => cursor.current.token) (fun _ => rfl) fun _ view => view ▸ tail

theorem AlikeAt.here {next next' : Span → Parser β}
    (tail : ∀ span, AlikeAt short token bound (next span) (next' span)) :
    AlikeAt short token bound (here >>= next) (here >>= next') :=
  .look (fun cursor => cursor.current.span) (fun _ => rfl) fun _ _ => tail _

theorem AlikeAt.previous {next next' : Span → Parser β}
    (tail : ∀ span, AlikeAt short token bound (next span) (next' span)) :
    AlikeAt short token bound (previous >>= next) (previous >>= next') :=
  .look (fun cursor => cursor.previous) (fun _ => rfl) fun _ _ => tail _

theorem AlikeAt.sees {kind : Mark} {next next' : Bool → Parser β}
    (tail : AlikeAt short token bound (next (token == .mark kind)) (next' (token == .mark kind))) :
    AlikeAt short token bound (sees kind >>= next) (sees kind >>= next') :=
  .look (fun cursor => cursor.current.token == .mark kind) (fun _ => rfl) fun _ view => view ▸ tail

theorem AlikeAt.ifAtIdent {yes yes' no no' : Parser β} (taken : AlikeAt short token bound yes yes')
    (left : AlikeAt short token bound no no') :
    AlikeAt short token bound (atIdent >>= fun found => if found = true then yes else no)
      (atIdent >>= fun found => if found = true then yes' else no') := by
  refine .look (fun cursor => cursor.current.token.isIdent) atIdent_eq fun cursor _ => ?_
  split
  · exact taken
  · exact left

theorem note_alike (event : ParseEvent) : Alike short bound (note event) (note event) :=
  fun _ _ _ _ => ⟨rfl, Nat.le_refl _, nofun⟩

/-- Consuming a token leaves those behind it to come; the end of the input may come again. -/
theorem advance_pending {cursor after : Cursor} {lexeme : Lexeme}
    (run : advance cursor = .ok lexeme after) :
    cursor.pending =
      after.pending + if cursor.current.token = .mark .endOfInput then 0 else 1 := by
  obtain ⟨current, rest, failure, previous, events⟩ := cursor
  match rest, failure with
  | next :: rest, _ =>
    cases run
    simp [Cursor.pending, Cursor.remaining, List.countP_cons]
  | [], none =>
    cases run
    simp [Cursor.pending, Cursor.remaining, List.countP_cons]
  | [], some _ => cases run

theorem advance_alike : Alike short bound advance advance := by
  rintro token ⟨current, rest, failure, previous, events⟩ _ _
  refine ⟨rfl, ?_⟩
  match rest, failure with
  | next :: rest, _ => exact ⟨Nat.le.intro (advance_pending rfl).symm, nofun⟩
  | [], none => exact ⟨Nat.le.intro (advance_pending rfl).symm, nofun⟩
  | [], some _ => exact ⟨Nat.le_refl _, nofun⟩

/-- Behind a token that is not the end of the input there is one fewer to come. -/
theorem AlikeAt.advance {next next' : Lexeme → Parser β} (inner : token ≠ .mark .endOfInput)
    (tail : ∀ lexeme, Alike short (bound - 1) (next lexeme) (next' lexeme)) :
    AlikeAt short token bound (advance >>= next) (advance >>= next') := by
  intro cursor view low
  obtain ⟨-, forward, fuelled⟩ := @advance_alike short bound token cursor view low
  cases run : Parser.advance cursor with
  | error stop after =>
    rw [run] at forward
    rw [bind_of_error run, bind_of_error run]
    refine ⟨rfl, forward, ?_⟩
    rintro _ ⟨⟩
    exact fuelled after run
  | ok lexeme after =>
    have pending := advance_pending run
    rw [if_neg (by rw [view]; exact inner)] at pending
    obtain ⟨same, forward', fuelled'⟩ := tail lexeme _ after rfl (by omega)
    rw [bind_of_ok run, bind_of_ok run]
    exact ⟨same, by omega, fuelled'⟩

theorem AlikeAt.expect {kind : Mark} {next next' : Unit → Parser β} (inner : kind ≠ .endOfInput)
    (tail : Alike short (bound - 1) (next ()) (next' ())) :
    AlikeAt short token bound (expect kind >>= next) (expect kind >>= next') := by
  unfold Parser.expect
  rw [bind_assoc, bind_assoc]
  refine .sees ?_
  by_cases view : token = .mark kind
  · rw [if_pos (beq_iff_eq.mpr view), bind_assoc, bind_assoc]
    exact .advance (by rw [view]; simpa using inner) fun _ => tail
  · rw [if_neg (by simpa using view)]
    exact .fails (fun cursor => .grammatical (.mark kind) cursor.current) (fun _ => rfl) fun _ => rfl

theorem AlikeAt.ifEat {kind : Mark} {yes yes' no no' : Parser β} (inner : kind ≠ .endOfInput)
    (taken : Alike short (bound - 1) yes yes') (left : AlikeAt short token bound no no') :
    AlikeAt short token bound (eat kind >>= fun found => if found = true then yes else no)
      (eat kind >>= fun found => if found = true then yes' else no') := by
  unfold Parser.eat
  rw [bind_assoc, bind_assoc]
  refine .sees ?_
  by_cases view : token = .mark kind
  · rw [if_pos (beq_iff_eq.mpr view), bind_assoc, bind_assoc]
    exact .advance (by rw [view]; simpa using inner) fun _ => taken
  · rw [if_neg (by simpa using view)]
    exact left

theorem AlikeAt.ident {next next' : Ident → Parser β}
    (tail : ∀ name, Alike short (bound - 1) (next name) (next' name)) :
    AlikeAt short token bound (ident >>= next) (ident >>= next') := by
  unfold Parser.ident
  rw [bind_assoc, bind_assoc]
  refine .peek ?_
  cases token with
  | ident name =>
    rw [bind_assoc, bind_assoc]
    exact .advance (by simp) fun _ => tail _
  | mark | integer | real | text =>
    exact .fails (fun cursor => .grammatical .identifier cursor.current) (fun _ => rfl) fun _ => rfl

theorem ident_alike : Alike short bound ident ident := by
  intro token
  have named : AlikeAt short token bound (ident >>= Pure.pure) (ident >>= Pure.pure) :=
    .ident fun name _ => .pure name
  rwa [bind_pure] at named

/-- The end of the input is consumed like any token. -/
theorem expect_alike (kind : Mark) : Alike short bound (expect kind) (expect kind) := by
  intro token
  refine .sees ?_
  split
  · exact (advance_alike token).bind fun _ _ => .pure _
  · exact .unexpected _

end Steps

end Parser

end MiniPascal
