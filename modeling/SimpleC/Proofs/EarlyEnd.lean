/-!
# Programs with an early end

Sequences of programs with state that may end early. The first program decides
how a sequence goes on: with the second one in the state that it left, or not at
all. Both the recognizer and the checks of a program are of this kind.
-/

namespace SimpleC

variable {ε σ α β : Type} {step : EStateM ε σ α} {next : α → EStateM ε σ β} {state : σ}

theorem discard_eq_bind (step : EStateM ε σ α) :
    discard step = step >>= fun _ => pure () :=
  rfl

/-- A sequence whose first program ends well goes on with the second one. -/
theorem bind_of_ok
    {answer : α}
    {middle : σ}
    (h : step state = .ok answer middle) :
    (step >>= next) state = next answer middle := by
  show EStateM.bind step next state = _
  simp only [EStateM.bind, h]

/-- A sequence whose first program ends early ends in the same way. -/
theorem bind_of_error
    {violation : ε}
    {middle : σ}
    (h : step state = .error violation middle) :
    (step >>= next) state = .error violation middle := by
  show EStateM.bind step next state = _
  simp only [EStateM.bind, h]

/-- A sequence ends well exactly if both its programs do. -/
theorem bind_eq_ok
    {answer : β}
    {after : σ} :
    (step >>= next) state = .ok answer after ↔
      ∃ first middle, step state = .ok first middle ∧ next first middle = .ok answer after := by
  cases hstep : step state with
  | ok first middle =>
      rw [bind_of_ok hstep]
      constructor
      · intro h
        exact ⟨first, middle, rfl, h⟩
      · rintro ⟨_, _, hfirst, h⟩
        cases hfirst
        exact h
  | error violation middle =>
      rw [bind_of_error hstep]
      simp

/-- Answers in a row are given exactly if each of them is. -/
theorem except_bind_eq_ok
    {first : Except ε α}
    {next : α → Except ε β}
    {answer : β} :
    (first >>= next) = .ok answer ↔ ∃ middle, first = .ok middle ∧ next middle = .ok answer := by
  cases first with
  | ok middle =>
      constructor
      · intro h
        exact ⟨middle, rfl, h⟩
      · rintro ⟨_, hfirst, h⟩
        cases hfirst
        exact h
  | error violation =>
      constructor
      · intro h
        cases h
      · rintro ⟨_, hfirst, _⟩
        cases hfirst

/-- Answers in a row fail where the first of them does that is not given. -/
theorem except_bind_eq_error
    {first : Except ε α}
    {next : α → Except ε β}
    {violation : ε} :
    (first >>= next) = .error violation ↔
      first = .error violation ∨
        ∃ middle, first = .ok middle ∧ next middle = .error violation := by
  cases first with
  | ok middle =>
      constructor
      · intro h
        exact .inr ⟨middle, rfl, h⟩
      · rintro (hfirst | ⟨_, hfirst, h⟩)
        · cases hfirst
        · cases hfirst
          exact h
  | error other =>
      constructor
      · intro h
        cases h
        exact .inl rfl
      · rintro (hfirst | ⟨_, hfirst, _⟩)
        · cases hfirst
          rfl
        · cases hfirst

/-- What is made of an answer is made of one that is given. -/
theorem except_map_eq_ok
    {answer : Except ε α}
    {change : α → β}
    {result : β} :
    answer.map change = .ok result ↔ ∃ given, answer = .ok given ∧ change given = result := by
  cases answer with
  | ok | error =>
      simp [Except.map]

/-- What is made of an answer fails exactly if the answer is not given. -/
theorem except_map_eq_error
    {answer : Except ε α}
    {change : α → β}
    {violation : ε} :
    answer.map change = .error violation ↔ answer = .error violation := by
  cases answer with
  | ok | error =>
      simp [Except.map]

end SimpleC
