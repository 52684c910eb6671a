namespace MiniPascal

/-- Regular expressions over characters. -/
inductive Regex where
  | empty
  | oneOf (accepts : Char → Bool)
  | seq (first second : Regex)
  | either (left right : Regex)
  | many (item : Regex)

namespace Regex

/-- The words of the language of an expression. -/
inductive Matches : Regex → List Char → Prop where
  | empty : Matches .empty []
  | oneOf {accepts : Char → Bool} {c : Char} (accepted : accepts c = true) :
    Matches (.oneOf accepts) [c]
  | seq {first second : Regex} {front back : List Char} (head : Matches first front)
    (tail : Matches second back) : Matches (.seq first second) (front ++ back)
  | left {left right : Regex} {word : List Char} (taken : Matches left word) :
    Matches (.either left right) word
  | right {left right : Regex} {word : List Char} (taken : Matches right word) :
    Matches (.either left right) word
  | done {item : Regex} : Matches (.many item) []
  | more {item : Regex} {front back : List Char} (head : Matches item front)
    (tail : Matches (.many item) back) : Matches (.many item) (front ++ back)

/-- A given character. -/
def char (c : Char) : Regex := .oneOf (· == c)

/-- A given text. -/
def literal : List Char → Regex
  | [] => .empty
  | c :: rest => .seq (char c) (literal rest)

/-- One item or more. -/
def many1 (item : Regex) : Regex := .seq item (.many item)

/-- An item or nothing. -/
def optional (item : Regex) : Regex := .either item .empty

variable {word : List Char} {accepts : Char → Bool} {first second item : Regex}

@[simp] theorem matches_empty_iff : Matches .empty word ↔ word = [] := by
  constructor
  · rintro ⟨⟩
    rfl
  · rintro rfl
    exact .empty

@[simp] theorem matches_oneOf_iff : Matches (.oneOf accepts) word ↔ ∃ c, word = [c] ∧ accepts c := by
  constructor
  · rintro ⟨⟩
    exact ⟨_, rfl, ‹_›⟩
  · rintro ⟨c, rfl, accepted⟩
    exact .oneOf accepted

@[simp] theorem matches_seq_iff : Matches (.seq first second) word ↔
    ∃ front back, word = front ++ back ∧ Matches first front ∧ Matches second back := by
  constructor
  · rintro ⟨⟩
    exact ⟨_, _, rfl, ‹_›, ‹_›⟩
  · rintro ⟨front, back, rfl, head, tail⟩
    exact .seq head tail

@[simp] theorem matches_either_iff :
    Matches (.either first second) word ↔ Matches first word ∨ Matches second word := by
  constructor
  · rintro ⟨⟩
    · exact .inl ‹_›
    · exact .inr ‹_›
  · rintro (taken | taken)
    · exact .left taken
    · exact .right taken

theorem matches_many_iff : Matches (.many item) word ↔
    word = [] ∨ ∃ front back, word = front ++ back ∧ Matches item front ∧ Matches (.many item) back := by
  constructor
  · rintro ⟨⟩
    · exact .inl rfl
    · exact .inr ⟨_, _, rfl, ‹_›, ‹_›⟩
  · rintro (rfl | ⟨front, back, rfl, head, tail⟩)
    · exact .done
    · exact .more head tail

/-- What holds of no items, and of one item more than it holds of, holds of any number of items. -/
@[elab_as_elim] theorem Matches.many_induction {motive : List Char → Prop}
    (matched : Matches (.many item) word) (done : motive [])
    (more : ∀ front back, Matches item front → Matches (.many item) back → motive back →
      motive (front ++ back)) : motive word := by
  generalize form : Regex.many item = expression at matched
  induction matched with
  | empty | oneOf | seq | left | right => cases form
  | done => exact done
  | more head tail _ ih =>
    cases form
    exact more _ _ head tail (ih rfl)

@[simp] theorem matches_char_iff {c : Char} : Matches (char c) word ↔ word = [c] := by
  simp [char]

@[simp] theorem matches_literal_iff {text : List Char} : Matches (literal text) word ↔ word = text := by
  induction text generalizing word with
  | nil => simp [literal]
  | cons c rest ih => simp [literal, ih]

theorem matches_many_oneOf_iff : Matches (.many (.oneOf accepts)) word ↔ ∀ c ∈ word, accepts c := by
  constructor
  · intro matched
    refine matched.many_induction ?_ ?_
    · exact List.forall_mem_nil _
    intro front back head _ rest
    obtain ⟨c, rfl, accepted⟩ := matches_oneOf_iff.mp head
    simpa [accepted] using rest
  · intro accepted
    induction word with
    | nil => exact .done
    | cons c rest ih =>
      have ⟨head, tail⟩ := List.forall_mem_cons.mp accepted
      exact .more (.oneOf head) (ih tail)

theorem matches_many1_oneOf_iff :
    Matches (many1 (.oneOf accepts)) word ↔ word ≠ [] ∧ ∀ c ∈ word, accepts c := by
  simp only [many1, matches_seq_iff, matches_oneOf_iff, matches_many_oneOf_iff]
  constructor
  · rintro ⟨_, back, rfl, ⟨c, rfl, accepted⟩, rest⟩
    simpa [accepted] using rest
  · rintro ⟨nonempty, accepted⟩
    cases word with
    | nil => exact absurd rfl nonempty
    | cons c rest =>
      have ⟨head, tail⟩ := List.forall_mem_cons.mp accepted
      exact ⟨[c], rest, rfl, ⟨c, rfl, head⟩, tail⟩

/-- One item more in front of some. -/
theorem Matches.many1_cons {front back : List Char} (head : Matches item front)
    (tail : Matches (many1 item) back) : Matches (many1 item) (front ++ back) := by
  obtain ⟨next, rest, rfl, one, others⟩ := matches_seq_iff.mp tail
  exact .seq head (.more one others)

end Regex

end MiniPascal
