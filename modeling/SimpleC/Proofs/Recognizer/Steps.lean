import SimpleC.Proofs.EarlyEnd
import SimpleC.Proofs.Phrase.Basic
import SimpleC.Recognizer.Grammar

/-!
# What the steps of the recognizer have done

Inversion of the steps: what is known about a step that has ended well. A step
that looks at tokens tells which of them lay ahead, and a check has left the
cursor where it was.
-/

namespace SimpleC

namespace Recognizer

variable {α β : Type} {switches : Switches} {state after : State}

theorem discard_eq_ok
    {step : Recognizer α}
    (h : discard step state = .ok () after) :
    ∃ answer, step state = .ok answer after := by
  have hbind : (step >>= fun _ => pure ()) state = .ok () after := h
  obtain ⟨answer, middle, hstep, hpure⟩ := bind_eq_ok.mp hbind
  cases hpure
  exact ⟨answer, hstep⟩

theorem obey_eq_ok
    {result : Except Violation α}
    {answer : α}
    (h : obey result state = .ok answer after) :
    result = .ok answer ∧ after = state := by
  cases result with
  | ok value =>
      cases h
      exact ⟨rfl, rfl⟩
  | error violation =>
      cases h

/-- A token that was seen lies ahead. -/
theorem peek_eq_ok
    {token : Token}
    (h : peek state = .ok token after) :
    after = state ∧ ∃ tail, state.cursor.ahead = token :: tail := by
  have hobey : obey state.cursor.peek state = .ok token after := h
  obtain ⟨hpeek, hafter⟩ := obey_eq_ok hobey
  refine ⟨hafter, ?_⟩
  unfold Cursor.peek at hpeek
  split at hpeek
  · cases hpeek
  · rename_i tail hahead
    cases hpeek
    exact ⟨tail, hahead⟩

/-- A token that was consumed lay ahead and is what was wanted. -/
theorem consume_eq_ok
    {wanted : Expectation}
    {token : Token}
    (h : consume switches wanted state = .ok token after) :
    wanted.accepts token = true ∧
      state.cursor.ahead = token :: after.cursor.ahead := by
  obtain ⟨_, _, hget, h⟩ := bind_eq_ok.mp h
  cases hget
  obtain ⟨⟨found, cursor⟩, middle, hobey, hrest⟩ := bind_eq_ok.mp h
  obtain ⟨hconsume, rfl⟩ := obey_eq_ok hobey
  cases hrest
  unfold Cursor.consume at hconsume
  split at hconsume
  · cases hconsume
  · rename_i tail hahead
    split at hconsume
    · rename_i haccepts
      cases hconsume
      exact ⟨haccepts, by simpa using hahead⟩
    · cases hconsume

theorem expect_eq_ok
    {spelling : String}
    (h : expect switches spelling state = .ok () after) :
    ∃ word : Word spelling, state.cursor.ahead = word.token :: after.cursor.ahead := by
  obtain ⟨token, hconsume⟩ := discard_eq_ok h
  obtain ⟨haccepts, hahead⟩ := consume_eq_ok hconsume
  exact ⟨⟨token, haccepts⟩, hahead⟩

theorem identifier_eq_ok
    {text : String}
    (h : identifier switches state = .ok text after) :
    ∃ name : Identifier,
      name.token.text = text ∧ state.cursor.ahead = name.token :: after.cursor.ahead := by
  obtain ⟨token, middle, hconsume, hpure⟩ := bind_eq_ok.mp h
  obtain ⟨haccepts, hahead⟩ := consume_eq_ok hconsume
  cases hpure
  exact ⟨⟨token, haccepts⟩, rfl, hahead⟩

/-- The spelling that was seen is that of the token ahead. -/
theorem nextSpelling_eq_ok
    {spelling : String}
    (h : nextSpelling state = .ok spelling after) :
    after = state ∧
      ∃ token tail, state.cursor.ahead = token :: tail ∧ token.spelling? = some spelling := by
  obtain ⟨token, middle, hpeek, hrest⟩ := bind_eq_ok.mp h
  obtain ⟨rfl, tail, hahead⟩ := peek_eq_ok hpeek
  cases hspelling : token.spelling? with
  | some found =>
      rw [hspelling] at hrest
      cases hrest
      exact ⟨rfl, token, tail, hahead, hspelling⟩
  | none =>
      rw [hspelling] at hrest
      cases hrest

/-- A production that was read was read by its step. -/
theorem producing_eq_ok
    {production : Production}
    {typeOf : α → Option ValueType}
    {step : Recognizer α}
    {answer : α}
    (h : producing switches production typeOf step state = .ok answer after) :
    ∃ inner, step (state.enter production) = .ok answer inner ∧
      after.cursor = inner.cursor := by
  unfold producing at h
  split at h
  · rename_i result inner hstep
    cases h
    exact ⟨inner, hstep, by simp⟩
  · cases h

/-- Entering a production does not move the cursor. -/
@[simp] theorem cursor_enter (production : Production) :
    (state.enter production).cursor = state.cursor :=
  rfl

/-- A step that never moves the cursor. -/
def KeepsCursor (step : Recognizer α) : Prop :=
  ∀ state answer after, step state = .ok answer after → after.cursor = state.cursor

theorem keepsCursor_pure (answer : α) : KeepsCursor (pure answer) := by
  intro state _ after h
  cases h
  rfl

theorem keepsCursor_fault (reason : Fault) : KeepsCursor (fault reason : Recognizer α) := by
  intro state _ after h
  cases h

theorem keepsCursor_obey (result : Except Violation α) : KeepsCursor (obey result) := by
  intro state _ after h
  rw [(obey_eq_ok h).2]

theorem keepsCursor_get : KeepsCursor (get : Recognizer State) := by
  intro state _ after h
  cases h
  rfl

theorem keepsCursor_warn (warning : Warning) : KeepsCursor (warn warning) := by
  intro state _ after h
  cases h
  rfl

theorem keepsCursor_bind
    {step : Recognizer α}
    {next : α → Recognizer β}
    (hstep : KeepsCursor step)
    (hnext : ∀ answer, KeepsCursor (next answer)) :
    KeepsCursor (step >>= next) := by
  intro state answer after h
  obtain ⟨first, middle, hfirst, hsecond⟩ := bind_eq_ok.mp h
  rw [hnext first middle answer after hsecond, hstep state first middle hfirst]

end Recognizer

end SimpleC
