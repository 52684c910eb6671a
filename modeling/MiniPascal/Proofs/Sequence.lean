namespace MiniPascal

variable {ε σ α β : Type} {first : EStateM ε σ α} {next : α → EStateM ε σ β} {before after : σ}

/-- Where the first part of a sequence succeeds, the rest goes on from there. -/
theorem bind_of_ok {result : α} (run : first before = .ok result after) :
    (first >>= next) before = next result after := by
  change EStateM.bind first next before = _
  rw [EStateM.bind, run]

/-- Where the first part of a sequence stops, so does the whole. -/
theorem bind_of_error {stop : ε} (run : first before = .error stop after) :
    (first >>= next) before = .error stop after := by
  change EStateM.bind first next before = _
  rw [EStateM.bind, run]

/-- A sequence that succeeds does so in both of its parts. -/
theorem ok_of_bind {result : β} (run : (first >>= next) before = .ok result after) :
    ∃ middle between, first before = .ok middle between ∧ next middle between = .ok result after := by
  cases start : first before with
  | error stop between =>
    rw [bind_of_error start] at run
    cases run
  | ok middle between =>
    rw [bind_of_ok start] at run
    exact ⟨middle, between, rfl, run⟩

/-- A sequence that stops does so in one of its parts. -/
theorem error_of_bind {stop : ε} (run : (first >>= next) before = .error stop after) :
    first before = .error stop after ∨
      ∃ middle between, first before = .ok middle between ∧ next middle between = .error stop after := by
  cases start : first before with
  | error cause between =>
    rw [bind_of_error start] at run
    cases run
    exact .inl rfl
  | ok middle between =>
    rw [bind_of_ok start] at run
    exact .inr ⟨middle, between, rfl, run⟩

/-- A sequence that may fail gives a result where both of its parts do. -/
theorem except_bind_ok {first : Except ε α} {next : α → Except ε β} {result : β} :
    (first >>= next) = .ok result ↔ ∃ middle, first = .ok middle ∧ next middle = .ok result := by
  cases first with
  | error cause => simp [bind, Except.bind]
  | ok middle => simp [bind, Except.bind]

theorem except_bind_error {first : Except ε α} {next : α → Except ε β} {cause : ε} :
    (first >>= next) = .error cause ↔
      first = .error cause ∨ ∃ middle, first = .ok middle ∧ next middle = .error cause := by
  cases first with
  | error cause => simp [bind, Except.bind]
  | ok middle => simp [bind, Except.bind]

end MiniPascal
