import MiniPascal.Proofs.Grammar.Nodes
import MiniPascal.Proofs.Parse.Reads.Expressions

namespace MiniPascal

variable {α β : Type}

/-- Lexemes in the order of their starts and of their stops. -/
def Lexeme.Ordered (lexemes : List Lexeme) : Prop :=
  lexemes.Pairwise fun first second =>
    first.span.start ≤ second.span.start ∧ first.span.stop ≤ second.span.stop

section Extents

variable {slice others : List Lexeme} {first last : Lexeme}

theorem Lexeme.Ordered.first_last (ordered : Ordered slice) (starts : slice.head? = some first)
    (stops : slice.getLast? = some last) :
    first.span.start ≤ last.span.start ∧ first.span.stop ≤ last.span.stop := by
  obtain ⟨rest, rfl⟩ := List.head?_eq_some_iff.mp starts
  by_cases more : rest = []
  · subst more
    cases stops
    exact ⟨Nat.le_refl _, Nat.le_refl _⟩
  · rw [List.getLast?_cons_of_ne_nil more] at stops
    exact List.rel_of_pairwise_cons ordered (List.mem_of_getLast? stops)

/-- The spans of the first and the last lexeme together give the extent. -/
theorem Lexeme.Ordered.extent (ordered : Ordered slice) (starts : slice.head? = some first)
    (stops : slice.getLast? = some last) : Lexeme.Extent slice (first.span.merge last.span) := by
  have ⟨start, stop⟩ := ordered.first_last starts stops
  refine ⟨first, last, starts, stops, ?_⟩
  rw [Span.merge, Nat.min_eq_left start, Nat.max_eq_right stop]

/-- So do the spans of two parts, one at either end. -/
theorem Lexeme.Extent.merge {left right : Span} {middle : List Lexeme}
    (before : Lexeme.Extent slice left) (after : Lexeme.Extent others right)
    (ordered : Lexeme.Ordered (slice ++ (middle ++ others))) :
    Lexeme.Extent (slice ++ (middle ++ others)) (left.merge right) := by
  obtain ⟨first, last, starts, stops, rfl⟩ := before
  obtain ⟨first', last', starts', stops', rfl⟩ := after
  have apart (lexeme : Lexeme) (among : lexeme ∈ slice) (lexeme' : Lexeme)
      (among' : lexeme' ∈ others) :
      lexeme.span.start ≤ lexeme'.span.start ∧ lexeme.span.stop ≤ lexeme'.span.stop :=
    (List.pairwise_append.mp ordered).2.2 _ among _ (List.mem_append_right _ among')
  have start := (apart _ (List.mem_of_mem_head? starts) _ (List.mem_of_mem_head? starts')).1
  have stop := (apart _ (List.mem_of_getLast? stops) _ (List.mem_of_getLast? stops')).2
  refine ⟨first, last', ?_, ?_, ?_⟩
  · simp [List.head?_append, starts]
  · simp [List.getLast?_append, stops']
  · rw [Span.merge, Nat.min_eq_left start, Nat.max_eq_right stop]

end Extents

/-- A cursor passes lexemes and remembers where the last of them stands. -/
structure Cursor.Moves (before : Cursor) (passed : List Lexeme) (after : Cursor) : Prop
    extends before.Passes passed after where
  previous : after.previous = (passed.getLast?.map Lexeme.span).getD before.previous

theorem Cursor.Moves.refl (cursor : Cursor) : cursor.Moves [] cursor := ⟨.refl cursor, rfl⟩

theorem Cursor.Moves.trans {first second third : Cursor} {passed further : List Lexeme}
    (start : first.Moves passed second) (next : second.Moves further third) :
    first.Moves (passed ++ further) third := by
  refine ⟨start.toPasses.trans next.toPasses, ?_⟩
  rw [next.previous, start.previous, List.getLast?_append]
  cases further.getLast? <;> rfl

/-- A cursor behind lexemes that a rule has passed so far. -/
structure Cursor.Behind (cursor : Cursor) (passed : List Lexeme) : Prop where
  ended : cursor.Ended
  ordered : Lexeme.Ordered (passed ++ cursor.remaining)
  previous : ∀ last ∈ passed.getLast?, cursor.previous = last.span

theorem Cursor.Behind.move {before after : Cursor} {passed further : List Lexeme}
    (behind : before.Behind passed) (moves : before.Moves further after) :
    after.Behind (passed ++ further) := by
  refine ⟨moves.ended behind.ended, ?_, fun last ends => ?_⟩
  · rw [List.append_assoc, ← moves.remaining]
    exact behind.ordered
  · rw [moves.previous]
    rw [List.getLast?_append] at ends
    -- If nothing more was passed, the last lexeme is the one from before.
    cases final : further.getLast? with
    | some lexeme =>
      rw [final] at ends
      cases ends
      rfl
    | none =>
      rw [final] at ends
      exact behind.previous last ends

theorem Cursor.Behind.begin {cursor : Cursor} {passed : List Lexeme}
    (behind : cursor.Behind passed) : cursor.Behind [] :=
  ⟨behind.ended, (List.pairwise_append.mp behind.ordered).2.1, by simp⟩

namespace Parser

/-- Behind some lexemes and before another one, a rule builds something where it succeeds: from the
lexemes behind it and those it passes, and with a look at the one that follows. -/
def Builds (passed : List Lexeme) (view : Lexeme) (rule : Parser α)
    (built : List Lexeme → Lexeme → α → Prop) : Prop :=
  ∀ cursor result after, cursor.Behind passed → cursor.current = view →
    rule cursor = .ok result after →
    ∃ further, cursor.Moves further after ∧ built (passed ++ further) after.current result

section Steps

variable {passed : List Lexeme} {view : Lexeme} {built : List Lexeme → Lexeme → β → Prop}

theorem Builds.bind {rule : Parser α} {next : α → Parser β}
    {first : List Lexeme → Lexeme → α → Prop} (head : Builds [] view rule first)
    (tail : ∀ slice seen result, first slice seen result →
      Builds (passed ++ slice) seen (next result) built) :
    Builds passed view (rule >>= next) built := by
  intro cursor result after behind shown run
  obtain ⟨middle, between, start, rest⟩ := ok_of_bind run
  obtain ⟨slice, moves, read⟩ := head cursor middle between behind.begin shown start
  obtain ⟨further, more, done⟩ := tail slice _ middle read between result after
    (behind.move moves) rfl rest
  rw [List.append_assoc] at done
  exact ⟨slice ++ further, moves.trans more, done⟩

theorem Builds.pure {result : β} (done : built passed view result) :
    Builds passed view (Pure.pure result) built := by
  rintro cursor _ _ - rfl ⟨⟩
  exact ⟨[], .refl cursor, by rwa [List.append_nil]⟩

/-- What was passed is in order. -/
theorem Builds.ordered {rule : Parser β}
    (builds : Lexeme.Ordered passed → Builds passed view rule built) :
    Builds passed view rule built :=
  fun cursor result after behind =>
    builds (List.pairwise_append.mp behind.ordered).1 cursor result after behind

theorem Builds.weaken {rule : Parser β} {tighter : List Lexeme → Lexeme → β → Prop}
    (builds : Builds passed view rule tighter)
    (imp : ∀ slice seen result, tighter slice seen result → built slice seen result) :
    Builds passed view rule built := by
  intro cursor result after behind shown run
  obtain ⟨further, moves, done⟩ := builds cursor result after behind shown run
  exact ⟨further, moves, imp _ _ _ done⟩

theorem Builds.stops {rule : Parser β}
    (fails : ∀ cursor, ∃ stop after, rule cursor = .error stop after) :
    Builds passed view rule built := by
  intro cursor result after _ _ run
  obtain ⟨stop, last, failed⟩ := fails cursor
  rw [failed] at run
  cases run

theorem Builds.unexpected {expected : Expected} : Builds passed view (unexpected expected) built :=
  .stops fun cursor => ⟨_, cursor, rfl⟩

theorem Builds.outOfFuel : Builds passed view outOfFuel built :=
  .stops fun cursor => ⟨_, cursor, rfl⟩

/-- A look at the cursor does not move it. -/
theorem Builds.look {look : Parser α} {next : α → Parser β} (seen : Cursor → α)
    (looks : ∀ cursor, look cursor = .ok (seen cursor) cursor)
    (tail : ∀ cursor : Cursor, cursor.Behind passed → cursor.current = view →
      Builds passed view (next (seen cursor)) built) :
    Builds passed view (look >>= next) built := by
  intro cursor result after behind shown run
  rw [bind_of_ok (looks cursor)] at run
  exact tail cursor behind shown cursor result after behind shown run

theorem Builds.peek {next : Token → Parser β} (tail : Builds passed view (next view.token) built) :
    Builds passed view (peek >>= next) built :=
  .look (fun cursor => cursor.current.token) (fun _ => rfl) fun _ _ shown => shown ▸ tail

theorem Builds.here {next : Span → Parser β} (tail : Builds passed view (next view.span) built) :
    Builds passed view (here >>= next) built :=
  .look (fun cursor => cursor.current.span) (fun _ => rfl) fun _ _ shown => shown ▸ tail

theorem Builds.sees {kind : Mark} {next : Bool → Parser β}
    (tail : Builds passed view (next (view.token == .mark kind)) built) :
    Builds passed view (sees kind >>= next) built :=
  .look (fun cursor => cursor.current.token == .mark kind) (fun _ => rfl)
    fun _ _ shown => shown ▸ tail

/-- The span of the last lexeme that was passed. -/
theorem Builds.previous {next : Span → Parser β} (nonempty : passed ≠ [])
    (tail : ∀ last, passed.getLast? = some last → Builds passed view (next last.span) built) :
    Builds passed view (previous >>= next) built := by
  refine .look (fun cursor => cursor.previous) (fun _ => rfl) fun cursor behind _ => ?_
  have ends := List.getLast?_eq_some_getLast nonempty
  rw [behind.previous _ ends]
  exact tail _ ends

/-- A node that goes from the first lexeme passed to the last is the extent of them all. -/
theorem Builds.spanning {first : Lexeme} (node : Span → β) (starts : passed.head? = some first)
    (done : ∀ span, Lexeme.Extent passed span → built passed view (node span)) :
    Builds passed view (do return node (first.span.merge (← Parser.previous))) built := by
  have nonempty : passed ≠ [] := by
    rintro rfl
    cases starts
  refine .previous nonempty fun last ends => .ordered fun ordered => .pure ?_
  exact done _ (ordered.extent starts ends)

theorem Builds.note {event : ParseEvent} {next : Unit → Parser β}
    (tail : Builds passed view (next ()) built) :
    Builds passed view (note event >>= next) built := by
  have noted : Builds [] view (Parser.note event) fun slice seen _ => slice = [] ∧ seen = view := by
    rintro cursor _ _ - rfl ⟨⟩
    exact ⟨[], ⟨⟨rfl, rfl⟩, rfl⟩, rfl, rfl⟩
  refine noted.bind ?_
  rintro _ _ _ ⟨rfl, rfl⟩
  rwa [List.append_nil]

theorem advance_moves {cursor after : Cursor} {lexeme : Lexeme} (ended : cursor.Ended)
    (inner : cursor.current.token ≠ .mark .endOfInput)
    (run : advance cursor = .ok lexeme after) :
    lexeme = cursor.current ∧ cursor.Moves [cursor.current] after := by
  obtain ⟨current, rest, failure, previous, events⟩ := cursor
  match rest, failure with
  | _ :: _, _ =>
    cases run
    exact ⟨rfl, ⟨rfl, rfl⟩, rfl⟩
  | [], some _ => cases run
  | [], none =>
    have last := ended rfl
    simp only [Cursor.remaining, List.getLast?_singleton, Option.map_some,
      Option.some.injEq] at last
    exact absurd last inner

/-- Passing the token in view, which is not the end of the input. -/
theorem Builds.advance {next : Lexeme → Parser β} (inner : view.token ≠ .mark .endOfInput)
    (tail : ∀ seen, Builds (passed ++ [view]) seen (next view) built) :
    Builds passed view (advance >>= next) built := by
  have advanced : Builds [] view Parser.advance fun slice _ lexeme =>
      slice = [view] ∧ lexeme = view := by
    rintro cursor lexeme after behind rfl run
    obtain ⟨rfl, moves⟩ := advance_moves behind.ended inner run
    exact ⟨_, moves, rfl, rfl⟩
  refine advanced.bind ?_
  rintro _ seen _ ⟨rfl, rfl⟩
  exact tail seen

theorem Builds.expect {kind : Mark} {next : Unit → Parser β} (inner : kind ≠ .endOfInput)
    (tail : view.token = .mark kind → ∀ seen, Builds (passed ++ [view]) seen (next ()) built) :
    Builds passed view (expect kind >>= next) built := by
  have expected : Builds [] view (Parser.expect kind) fun slice _ _ =>
      slice = [view] ∧ view.token = .mark kind := by
    refine .sees ?_
    split
    · rename_i shown
      have shown : view.token = .mark kind := beq_iff_eq.mp shown
      exact .advance (by simpa [shown] using inner) fun seen => .pure ⟨rfl, shown⟩
    · exact .unexpected
  refine expected.bind ?_
  rintro _ seen _ ⟨rfl, shown⟩
  exact tail shown seen

theorem Builds.ifEat {kind : Mark} {yes no : Parser β} (inner : kind ≠ .endOfInput)
    (taken : view.token = .mark kind → ∀ seen, Builds (passed ++ [view]) seen yes built)
    (left : Builds passed view no built) :
    Builds passed view (eat kind >>= fun found => if found = true then yes else no) built := by
  have eaten : Builds [] view (Parser.eat kind) fun slice seen found =>
      slice = [view] ∧ view.token = .mark kind ∧ found = true ∨
        slice = [] ∧ seen = view ∧ found = false := by
    refine .sees ?_
    split
    · rename_i shown
      have shown : view.token = .mark kind := beq_iff_eq.mp shown
      exact .advance (by simpa [shown] using inner) fun seen => .pure (.inl ⟨rfl, shown, rfl⟩)
    · exact .pure (.inr ⟨rfl, rfl, rfl⟩)
  refine eaten.bind ?_
  rintro _ seen _ (⟨rfl, shown, rfl⟩ | ⟨rfl, rfl, rfl⟩)
  · exact taken shown seen
  · rwa [List.append_nil]

theorem ident_builds : Builds [] view ident fun slice _ name =>
    slice = [view] ∧ view.token = .ident name.name ∧ name.span = view.span := by
  refine .peek ?_
  split
  · rename_i name shown
    exact .advance (by simp [shown]) fun seen => .pure ⟨rfl, shown, rfl⟩
  · exact .unexpected

theorem Builds.ident {next : Ident → Parser β}
    (tail : ∀ name, view.token = .ident name → ∀ seen,
      Builds (passed ++ [view]) seen (next ⟨name, view.span⟩) built) :
    Builds passed view (ident >>= next) built := by
  refine ident_builds.bind ?_
  rintro _ seen ⟨name, _⟩ ⟨rfl, shown, rfl⟩
  exact tail name shown seen

theorem Builds.ifAtIdent {yes no : Parser β} (taken : Builds passed view yes built)
    (left : Builds passed view no built) :
    Builds passed view (atIdent >>= fun found => if found = true then yes else no) built := by
  refine .look (fun cursor => cursor.current.token.isIdent) atIdent_eq fun cursor _ _ => ?_
  split
  · exact taken
  · exact left

end Steps

end Parser

end MiniPascal
