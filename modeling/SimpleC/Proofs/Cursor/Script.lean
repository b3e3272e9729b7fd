import SimpleC.Cursor.Script

/-!
# Cursors under scripts

Whatever a script asks of a cursor, the cursor stands after the tokens that it has handed out
for good, and the other tokens of the list lie ahead of it. One operation keeps this, and so
does a whole script. What is answered at any moment, and where the cursor is then, can
therefore be read off the list and the position alone.
-/

namespace SimpleC

/-- What it takes to meet an expectation: a spelling stands for bare tokens with that text,
and a kind for the tokens of that kind, whatever their text. -/
inductive Expectation.Met : Expectation → Token → Prop
  | spelled {token : Token} (hbare : token.kind.hasPayload = false) :
      Met (.spelled token.text) token
  | ofKind (token : Token) :
      Met (.ofKind token.kind) token

theorem Expectation.accepts_iff {wanted : Expectation} {token : Token} :
    wanted.accepts token = true ↔ wanted.Met token := by
  constructor
  · intro h
    cases wanted with
    | spelled spelling =>
        obtain ⟨hbare, rfl⟩ := (token.isSpelled_eq_true_iff spelling).mp h
        exact .spelled hbare
    | ofKind kind =>
        obtain rfl : token.kind = kind := beq_iff_eq.mp h
        exact .ofKind token
  · intro h
    cases h with
    | spelled hbare =>
        exact (token.isSpelled_eq_true_iff token.text).mpr ⟨hbare, rfl⟩
    | ofKind =>
        exact beq_self_eq_true token.kind

namespace Cursor

/-- The token that an operation has consumed, if that is how it was answered. -/
def consumed? : Operation × Answer → Option Token
  | (.consume _, .token token) => some token
  | _ => none

/-- The tokens that a script has consumed, from the first to the last. -/
def consumed (cursor : Cursor) (operations : List Operation) : List Token :=
  (operations.zip ((cursor.performAll operations).map Prod.fst)).filterMap consumed?

/-- Where a script has left the cursor. -/
def finish (cursor : Cursor) (operations : List Operation) : Cursor :=
  ((cursor.performAll operations).getLast?.map Prod.snd).getD cursor

/-- The cursor stands after some of the tokens, and the others lie ahead. -/
structure StandsAfter (cursor : Cursor) (front tokens : List Token) : Prop where
  position : cursor.position = front.length
  tokens : tokens = front ++ cursor.ahead

/-- What one operation can do to a cursor: a token is consumed if it is there and accepted, and
in all other cases the cursor stays. -/
inductive Step (cursor : Cursor) : Operation → Answer × Cursor → Prop
  | shown {token : Token} {rest : List Token} (hahead : cursor.ahead = token :: rest) :
      Step cursor .peek (.token token, cursor)
  | nothingShown (hahead : cursor.ahead = []) :
      Step cursor .peek (.violation .endOfInput, cursor)
  | atEnd :
      Step cursor .atEnd (.truth cursor.ahead.isEmpty, cursor)
  | accepts (wanted : Expectation) :
      Step cursor (.accepts wanted) (.truth (cursor.accepts wanted), cursor)
  | consumed {wanted : Expectation} {token : Token} {rest : List Token}
      (hahead : cursor.ahead = token :: rest)
      (haccepts : cursor.accepts wanted = true) :
      Step cursor (.consume wanted) (.token token, ⟨cursor.position + 1, rest⟩)
  | refused {wanted : Expectation} {token : Token} {rest : List Token}
      (hahead : cursor.ahead = token :: rest)
      (haccepts : cursor.accepts wanted = false) :
      Step cursor (.consume wanted) (.violation (.unexpected wanted token), cursor)
  | exhausted {wanted : Expectation}
      (hahead : cursor.ahead = [])
      (haccepts : cursor.accepts wanted = false) :
      Step cursor (.consume wanted) (.violation .endOfInput, cursor)

/-- What a cursor at its position in the tokens answers to each operation. -/
structure AnswersFrom (cursor : Cursor) (tokens : List Token) : Prop where
  peek_token_iff : ∀ token,
    (cursor.perform .peek).1 = .token token ↔ tokens[cursor.position]? = some token
  peek_violation_iff :
    (∃ violation, (cursor.perform .peek).1 = .violation violation) ↔
      (cursor.perform .atEnd).1 = .truth true
  atEnd_eq : (cursor.perform .atEnd).1 = .truth (tokens.length ≤ cursor.position)
  accepts_eq : ∀ wanted, ∃ value, (cursor.perform (.accepts wanted)).1 = .truth value ∧
    (value = true ↔ ∃ token, tokens[cursor.position]? = some token ∧ wanted.Met token)
  consume_token_iff : ∀ wanted,
    (∃ token, (cursor.perform (.consume wanted)).1 = .token token) ↔
      (cursor.perform (.accepts wanted)).1 = .truth true
  consume_violation_iff : ∀ wanted,
    (∃ violation, (cursor.perform (.consume wanted)).1 = .violation violation) ↔
      (cursor.perform (.accepts wanted)).1 = .truth false
  /-- A token is consumed where it stands, and the cursor is behind it then. -/
  consume_token : ∀ wanted token, (cursor.perform (.consume wanted)).1 = .token token →
    tokens[cursor.position]? = some token ∧
      (cursor.perform (.consume wanted)).2.position = cursor.position + 1
  /-- Whatever consumes no token leaves the cursor as it is. -/
  unchanged : ∀ operation, consumed? (operation, (cursor.perform operation).1) = none →
    (cursor.perform operation).2 = cursor
  /-- A failure is one of grammar. It reports that the tokens are exhausted, or what was
  expected and the token that stands there instead. -/
  failure : ∀ operation violation, (cursor.perform operation).1 = .violation violation →
    violation.phase = .grammar ∧
      (tokens.length ≤ cursor.position ∧ violation.message = "unexpected end of input" ∨
        ∃ wanted token, operation = .consume wanted ∧
          tokens[cursor.position]? = some token ∧
          violation.message = "expecting " ++ wanted.describe ++ ", but found " ++ token.wire)

section Scripts

variable
    {cursor : Cursor}
    {front tokens : List Token}
    (operation : Operation)
    (operations later : List Operation)

theorem performAll_cons :
    cursor.performAll (operation :: operations) =
      cursor.perform operation :: (cursor.perform operation).2.performAll operations :=
  rfl

theorem step_perform (cursor : Cursor) : cursor.Step operation (cursor.perform operation) := by
  obtain ⟨position, ahead⟩ := cursor
  cases operation with
  | atEnd =>
      exact .atEnd
  | accepts wanted =>
      exact .accepts wanted
  | peek =>
      cases ahead with
      | nil =>
          exact .nothingShown rfl
      | cons token rest =>
          exact .shown rfl
  | consume wanted =>
      cases ahead with
      | nil =>
          exact .exhausted rfl rfl
      | cons token rest =>
          simp only [perform, consume]
          cases haccepts : wanted.accepts token with
          | true =>
              exact .consumed rfl haccepts
          | false =>
              exact .refused rfl haccepts

namespace Step

variable {wanted : Expectation} {token : Token} {performed : Answer × Cursor}

/-- A token is shown if it is the next one. -/
theorem peek_token_iff (hstep : cursor.Step .peek performed) :
    performed.1 = .token token ↔ cursor.ahead.head? = some token := by
  cases hstep with
  | shown hahead | nothingShown hahead =>
      simp [hahead]

/-- Nothing can be shown at the end. -/
theorem peek_violation_iff (hstep : cursor.Step .peek performed) :
    (∃ violation, performed.1 = .violation violation) ↔ cursor.ahead.isEmpty = true := by
  cases hstep with
  | shown hahead | nothingShown hahead =>
      simp [hahead]

/-- A token is consumed if it is accepted, and otherwise consuming fails. -/
theorem consume_iff (hstep : cursor.Step (.consume wanted) performed) :
    ((∃ token, performed.1 = .token token) ↔ cursor.accepts wanted = true) ∧
      ((∃ violation, performed.1 = .violation violation) ↔ cursor.accepts wanted = false) := by
  cases hstep with
  | consumed _ haccepts | refused _ haccepts | exhausted _ haccepts =>
      simp [haccepts]

/-- The token that is consumed is the next one. -/
theorem consume_token
    (hstep : cursor.Step (.consume wanted) performed)
    (h : performed.1 = .token token) :
    cursor.ahead.head? = some token ∧ performed.2.position = cursor.position + 1 := by
  cases hstep with
  | refused | exhausted =>
      cases h
  | consumed hahead =>
      cases h
      exact ⟨congrArg List.head? hahead, rfl⟩

/-- Only a token that is consumed moves the cursor. -/
theorem unchanged
    (hstep : cursor.Step operation performed)
    (h : consumed? (operation, performed.1) = none) :
    performed.2 = cursor := by
  cases hstep with
  | shown | nothingShown | atEnd | accepts | refused | exhausted =>
      rfl
  | consumed =>
      cases h

/-- What fails does so for want of tokens, or for the next one. -/
theorem failure
    {violation : Violation}
    (hstep : cursor.Step operation performed)
    (h : performed.1 = .violation violation) :
    violation = .endOfInput ∧ cursor.ahead = [] ∨
      ∃ wanted token, operation = .consume wanted ∧ cursor.ahead.head? = some token ∧
        violation = .unexpected wanted token := by
  cases hstep with
  | shown | atEnd | accepts | consumed =>
      cases h
  | nothingShown hahead | exhausted hahead =>
      cases h
      exact .inl ⟨rfl, hahead⟩
  | refused hahead =>
      cases h
      exact .inr ⟨_, _, rfl, congrArg List.head? hahead, rfl⟩

end Step

@[simp] theorem finish_nil : cursor.finish [] = cursor :=
  rfl

@[simp] theorem finish_cons :
    cursor.finish (operation :: operations) = (cursor.perform operation).2.finish operations := by
  rw [finish, finish, performAll_cons, List.getLast?_cons]
  cases ((cursor.perform operation).2.performAll operations).getLast? with
  | none | some =>
      rfl

@[simp] theorem consumed_nil : cursor.consumed [] = [] :=
  rfl

theorem consumed_cons :
    cursor.consumed (operation :: operations) =
      (consumed? (operation, (cursor.perform operation).1)).toList ++
        (cursor.perform operation).2.consumed operations := by
  rw [consumed, performAll_cons, List.map_cons, List.zip_cons_cons, List.filterMap_cons]
  cases consumed? (operation, (cursor.perform operation).1) with
  | none | some =>
      rfl

/-- A script goes on where the one before it has left the cursor. -/
theorem performAll_append :
    cursor.performAll (operations ++ later) =
      cursor.performAll operations ++ (cursor.finish operations).performAll later := by
  induction operations generalizing cursor with
  | nil =>
      rfl
  | cons operation rest ih =>
      rw [List.cons_append, performAll_cons, performAll_cons, ih, finish_cons, List.cons_append]

theorem finish_append :
    cursor.finish (operations ++ later) = (cursor.finish operations).finish later := by
  induction operations generalizing cursor with
  | nil =>
      rfl
  | cons operation rest ih =>
      rw [List.cons_append, finish_cons, finish_cons, ih]

namespace StandsAfter

theorem start (tokens : List Token) : (Cursor.start tokens).StandsAfter [] tokens :=
  ⟨rfl, rfl⟩

/-- One operation passes the token that it consumes, and no other. -/
theorem step
    {performed : Answer × Cursor}
    (h : cursor.StandsAfter front tokens)
    (hstep : cursor.Step operation performed) :
    performed.2.StandsAfter (front ++ (consumed? (operation, performed.1)).toList) tokens := by
  cases hstep with
  | shown | nothingShown | atEnd | accepts | refused | exhausted =>
      show cursor.StandsAfter (front ++ []) tokens
      rwa [List.append_nil]
  | @consumed wanted token rest hahead =>
      refine ⟨?_, ?_⟩
      · show cursor.position + 1 = (front ++ [token]).length
        rw [h.position, List.length_append, List.length_singleton]
      · show tokens = (front ++ [token]) ++ rest
        rw [h.tokens, hahead, List.append_assoc, List.singleton_append]

/-- A script passes the tokens that it consumes. -/
theorem finish (h : cursor.StandsAfter front tokens) :
    (cursor.finish operations).StandsAfter (front ++ cursor.consumed operations) tokens := by
  induction operations generalizing cursor front with
  | nil =>
      rwa [finish_nil, consumed_nil, List.append_nil]
  | cons operation rest ih =>
      rw [finish_cons, consumed_cons, ← List.append_assoc]
      exact ih (h.step operation (step_perform operation cursor))

theorem getElem?_position (h : cursor.StandsAfter front tokens) :
    tokens[cursor.position]? = cursor.ahead.head? := by
  rw [h.tokens, h.position, List.getElem?_append_right (Nat.le_refl _), Nat.sub_self,
    List.head?_eq_getElem?]

theorem length_eq (h : cursor.StandsAfter front tokens) :
    tokens.length = cursor.position + cursor.ahead.length := by
  rw [h.tokens, h.position, List.length_append]

theorem take_position (h : cursor.StandsAfter front tokens) :
    tokens.take cursor.position = front := by
  rw [h.tokens, h.position, List.take_left]

theorem length_le_iff (h : cursor.StandsAfter front tokens) :
    tokens.length ≤ cursor.position ↔ cursor.ahead = [] := by
  rw [h.length_eq, ← List.length_eq_zero_iff]
  omega

/-- What is accepted is the token at the position, if it is what is expected. -/
theorem accepts_iff (h : cursor.StandsAfter front tokens) (wanted : Expectation) :
    cursor.accepts wanted = true ↔
      ∃ token, tokens[cursor.position]? = some token ∧ wanted.Met token := by
  rw [h.getElem?_position, Cursor.accepts]
  cases cursor.ahead with
  | nil =>
      simp
  | cons token rest =>
      simp [Expectation.accepts_iff]

/-- Where a cursor stands in the tokens decides what it answers. -/
theorem answersFrom (h : cursor.StandsAfter front tokens) : cursor.AnswersFrom tokens where
  peek_token_iff token := by
    rw [h.getElem?_position]
    exact (step_perform .peek cursor).peek_token_iff
  peek_violation_iff := by
    show _ ↔ Answer.truth cursor.ahead.isEmpty = .truth true
    rw [Answer.truth.injEq]
    exact (step_perform .peek cursor).peek_violation_iff
  atEnd_eq := by
    show Answer.truth cursor.ahead.isEmpty = _
    rw [Answer.truth.injEq, Bool.eq_iff_iff, List.isEmpty_iff, decide_eq_true_iff,
      h.length_le_iff]
  accepts_eq wanted := ⟨cursor.accepts wanted, rfl, h.accepts_iff wanted⟩
  consume_token_iff wanted := by
    show _ ↔ Answer.truth (cursor.accepts wanted) = .truth true
    rw [Answer.truth.injEq]
    exact (step_perform (.consume wanted) cursor).consume_iff.1
  consume_violation_iff wanted := by
    show _ ↔ Answer.truth (cursor.accepts wanted) = .truth false
    rw [Answer.truth.injEq]
    exact (step_perform (.consume wanted) cursor).consume_iff.2
  consume_token wanted token htoken := by
    rw [h.getElem?_position]
    exact (step_perform (.consume wanted) cursor).consume_token htoken
  unchanged operation := (step_perform operation cursor).unchanged operation
  failure operation violation hfailed := by
    rw [h.getElem?_position]
    rcases (step_perform operation cursor).failure operation hfailed with
      ⟨rfl, hahead⟩ | ⟨wanted, token, rfl, htoken, rfl⟩
    · exact ⟨rfl, .inl ⟨h.length_le_iff.mpr hahead, rfl⟩⟩
    · exact ⟨rfl, .inr ⟨wanted, token, rfl, htoken, rfl⟩⟩

end StandsAfter

end Scripts

/-- A script moves a cursor from the first token on over the tokens that it consumes, one by
one and never back; at every moment these are the tokens before its position. What is asked
next is answered from the token at the position. -/
theorem scripts_pass_consumed_tokens (tokens : List Token) (operations : List Operation) :
    let cursor := (start tokens).finish operations
    let consumed := (start tokens).consumed operations
    (start tokens).position = 0 ∧
    cursor.position = consumed.length ∧
    tokens.take cursor.position = consumed ∧
    cursor.position ≤ tokens.length ∧
    cursor.AnswersFrom tokens ∧
    ∀ later,
      (start tokens).performAll (operations ++ later) =
        (start tokens).performAll operations ++ cursor.performAll later ∧
      cursor.position ≤ ((start tokens).finish (operations ++ later)).position := by
  intro cursor consumed
  have hstands : cursor.StandsAfter consumed tokens :=
    (StandsAfter.start tokens).finish operations
  refine ⟨rfl, hstands.position, hstands.take_position, ?_, hstands.answersFrom, ?_⟩
  · rw [hstands.length_eq]
    exact Nat.le_add_right _ _
  · intro later
    refine ⟨performAll_append operations later, ?_⟩
    have hlater := hstands.finish later
    rw [finish_append, hstands.position, hlater.position, List.length_append]
    exact Nat.le_add_right _ _

/-- A literal that is spelled like the end of a program is not taken for it. -/
example :
    ((start [⟨.strLiteral, "$"⟩]).performAll
      [.consume (.spelled "$"), .accepts (.ofKind .strLiteral), .consume (.ofKind .strLiteral),
        .peek]).map Prod.fst =
      [.violation (.unexpected (.spelled "$") ⟨.strLiteral, "$"⟩), .truth true,
        .token ⟨.strLiteral, "$"⟩, .violation .endOfInput] := by
  decide

end Cursor

end SimpleC
