import MiniPascal.Proofs.Parse.Reads

namespace MiniPascal

variable {α β : Type}

def Cursor.tokens (cursor : Cursor) : List Token := Lexeme.tokens cursor.remaining

theorem Cursor.view_of_tokens {cursor : Cursor} {tokens rest : List Token} {next : Token}
    (ahead : cursor.tokens = tokens ++ next :: rest) :
    cursor.current.token = tokens.headD next := by
  cases tokens with
  | nil => exact (List.cons.inj ahead).1
  | cons first others => exact (List.cons.inj ahead).1

namespace Parser

/-- A rule passes exactly these tokens wherever the given one comes next. -/
def Takes (rule : Parser α) (tokens : List Token) (next : Token) (good : α → Prop) : Prop :=
  ∀ (cursor : Cursor) (rest : List Token), cursor.tokens = tokens ++ next :: rest →
    ∃ result after, rule cursor = .ok result after ∧ good result ∧ after.tokens = next :: rest ∧
      after.failure = cursor.failure

section Steps

variable {tokens : List Token} {next : Token} {good : β → Prop}

theorem Takes.bind {rule : Parser α} {andThen : α → Parser β} {others : List Token} {part : α → Prop}
    (head : Takes rule tokens (others.headD next) part)
    (tail : ∀ result, part result → Takes (andThen result) others next good) :
    Takes (rule >>= andThen) (tokens ++ others) next good := by
  intro cursor rest ahead
  obtain ⟨further, split⟩ : ∃ further, others ++ next :: rest = others.headD next :: further := by
    cases others with
    | nil => exact ⟨rest, rfl⟩
    | cons other others => exact ⟨others ++ next :: rest, rfl⟩
  rw [List.append_assoc, split] at ahead
  obtain ⟨result, middle, run, fine, left, failure⟩ := head cursor further ahead
  rw [bind_of_ok run, ← failure]
  exact tail result fine middle rest (left.trans split.symm)

theorem Takes.pure {result : β} (fine : good result) : Takes (Pure.pure result) [] next good :=
  fun cursor _ ahead => ⟨result, cursor, rfl, fine, ahead, rfl⟩

theorem Takes.look {look : Parser α} {andThen : α → Parser β} (seen : Cursor → α)
    (looks : ∀ cursor, look cursor = .ok (seen cursor) cursor)
    (tail : ∀ cursor : Cursor, cursor.current.token = tokens.headD next →
      Takes (andThen (seen cursor)) tokens next good) :
    Takes (look >>= andThen) tokens next good := by
  intro cursor rest ahead
  rw [bind_of_ok (looks cursor)]
  exact tail cursor (Cursor.view_of_tokens ahead) cursor rest ahead

theorem Takes.peek {andThen : Token → Parser β}
    (tail : Takes (andThen (tokens.headD next)) tokens next good) :
    Takes (peek >>= andThen) tokens next good :=
  .look (fun cursor => cursor.current.token) (fun _ => rfl) fun _ view => view ▸ tail

theorem Takes.here {andThen : Span → Parser β}
    (tail : ∀ span, Takes (andThen span) tokens next good) :
    Takes (here >>= andThen) tokens next good :=
  .look (fun cursor => cursor.current.span) (fun _ => rfl) fun _ _ => tail _

theorem Takes.previous {andThen : Span → Parser β}
    (tail : ∀ span, Takes (andThen span) tokens next good) :
    Takes (previous >>= andThen) tokens next good :=
  .look (fun cursor => cursor.previous) (fun _ => rfl) fun _ _ => tail _

theorem Takes.sees {kind : Mark} {andThen : Bool → Parser β}
    (tail : Takes (andThen (tokens.headD next == .mark kind)) tokens next good) :
    Takes (sees kind >>= andThen) tokens next good :=
  .look (fun cursor => cursor.current.token == .mark kind) (fun _ => rfl) fun _ view => view ▸ tail

theorem Takes.note {event : ParseEvent} {andThen : Unit → Parser β}
    (tail : Takes (andThen ()) tokens next good) :
    Takes (note event >>= andThen) tokens next good :=
  fun cursor rest ahead => tail { cursor with events := event :: cursor.events } rest ahead

theorem Takes.advance {token : Token} {andThen : Lexeme → Parser β}
    (tail : ∀ lexeme, lexeme.token = token → Takes (andThen lexeme) tokens next good) :
    Takes (advance >>= andThen) (token :: tokens) next good := by
  intro cursor rest ahead
  have view : cursor.current.token = token := Cursor.view_of_tokens ahead
  have behind : Lexeme.tokens cursor.rest = tokens ++ next :: rest := (List.cons.inj ahead).2
  obtain ⟨current, lexemes, failure, previous, events⟩ := cursor
  cases lexemes with
  | nil => simp at behind
  | cons following lexemes => exact tail current view ⟨following, lexemes, failure, _, events⟩ rest behind

theorem Takes.expect {kind : Mark} {andThen : Unit → Parser β}
    (tail : Takes (andThen ()) tokens next good) :
    Takes (expect kind >>= andThen) (.mark kind :: tokens) next good := by
  have expected : ∀ token, Takes (Parser.expect kind) [.mark kind] token fun _ => True := by
    intro token
    refine .sees ?_
    rw [List.headD_cons, if_pos (beq_self_eq_true _)]
    exact .advance fun _ _ => .pure trivial
  change Takes _ ([.mark kind] ++ tokens) next good
  exact (expected _).bind fun _ _ => tail

theorem Takes.eat {kind : Mark} {yes no : Parser β} (tail : Takes yes tokens next good) :
    Takes (eat kind >>= fun found => if found = true then yes else no)
      (.mark kind :: tokens) next good := by
  have eaten : ∀ token, Takes (Parser.eat kind) [.mark kind] token (· = true) := by
    intro token
    refine .sees ?_
    rw [List.headD_cons, if_pos (beq_self_eq_true _)]
    exact .advance fun _ _ => .pure rfl
  change Takes _ ([.mark kind] ++ tokens) next good
  refine (eaten _).bind ?_
  rintro _ rfl
  exact tail

theorem Takes.leave {kind : Mark} {yes no : Parser β} (other : tokens.headD next ≠ .mark kind)
    (tail : Takes no tokens next good) :
    Takes (Parser.eat kind >>= fun found => if found = true then yes else no) tokens next good := by
  have left : Takes (Parser.eat kind) [] (tokens.headD next) (· = false) := by
    refine .sees ?_
    rw [List.headD_nil, if_neg (by simpa using other)]
    exact .pure rfl
  change Takes _ ([] ++ tokens) next good
  refine left.bind ?_
  rintro _ rfl
  exact tail

theorem ident_takes (name : String) (next : Token) :
    Takes ident [.ident name] next (·.name = name) := by
  refine .peek ?_
  exact .advance fun _ _ => .pure rfl

theorem Takes.ident {name : String} {andThen : Ident → Parser β}
    (tail : ∀ ident, ident.name = name → Takes (andThen ident) tokens next good) :
    Takes (ident >>= andThen) (.ident name :: tokens) next good := by
  change Takes _ ([.ident name] ++ tokens) next good
  exact (ident_takes name _).bind tail

end Steps

end Parser

end MiniPascal
