import SimpleC.Proofs.Course.Asking

/-!
# The courses of expressions

An expression is a value, or two with an operator between them. Its course asks about
each value once it is read, and about the operator at the end; it may stop before each of
its three tokens, except that the operator is only read where one follows.
-/

namespace SimpleC

/-- The steps that read a value and ask about it. -/
def Operand.steps (value : Operand) : List Step :=
  [.read value.token, .check (.value value)]

/-- The steps of a whole expression. -/
def Expression.steps : Expression → List Step
  | single value => value.steps
  | binary left sign right =>
      left.steps ++ .read sign.word.token ::
        (right.steps ++ [.check (.operation left sign right)])

/-- The steps of an expression, and whether they come to its end. -/
inductive Expression.Steps : List Step → Bool → Prop
  | stopped (violation : Violation) :
      Steps [.stop violation] false
  | stoppedAfterValue (value : Operand) (violation : Violation) :
      Steps (value.steps ++ [.stop violation]) false
  | single (value : Operand) :
      Steps value.steps true
  | stoppedAfterSign (left : Operand) (sign : Sign) (violation : Violation) :
      Steps (left.steps ++ [.read sign.word.token, .stop violation]) false
  | binary (left : Operand) (sign : Sign) (right : Operand) :
      Steps (left.steps ++ .read sign.word.token ::
        (right.steps ++ [.check (.operation left sign right)])) true

section Expressions

variable
    {token : Token}
    {ahead : List Token}
    {moves : List Move}
    {rest? : Option (List Token)}

/-- A value is read and asked about, if there is one. -/
theorem Course.reads_value
    (h : Course .value [] Production.value.items ahead moves rest?) :
    (∃ violation, Move.stepsAll moves = [.stop violation] ∧ rest? = none) ∨
      ∃ value : Operand, Move.stepsAll moves = value.steps ∧ rest?.isSome = true := by
  have hchoice : Course .value [] [.choice .operand] ahead moves rest? := h
  cases hchoice with
  | refused | undecided =>
      exact .inl ⟨_, rfl, rfl⟩
  | @choice _ _ _ _ more _ _ _ token hmore hcourse =>
      cases hwanted : token.valueExpectation? with
      | none =>
          simp [Choice.items, hwanted] at hmore
      | some wanted =>
          simp only [Choice.items, hwanted, Except.ok.injEq] at hmore
          subst hmore
          cases hcourse with
          | unexpected =>
              exact .inl ⟨_, rfl, rfl⟩
          | token _ hcourse =>
              cases hcourse with
              | check hcourse =>
                  cases hcourse with
                  | done =>
                      let value : Operand := ⟨token, by rw [hwanted]; rfl⟩
                      have hvalue : Operand.ofToken? token = some value := value.ofToken?_token
                      refine .inr ⟨value, ?_, rfl⟩
                      simp [Production.checks, Production.demand?, hvalue, Operand.steps, value]

/-- An operator is read where one follows. -/
theorem Course.reads_operator
    (hoperator : token.isOperator = true)
    (h : Course .operator [] Production.operator.items (token :: ahead) moves rest?) :
    ∃ sign : Sign, Move.stepsAll moves = [.read sign.word.token] ∧ rest?.isSome = true := by
  have hchoice : Course .operator [] [.choice .sign] (token :: ahead) moves rest? := h
  obtain ⟨operator, hfound⟩ := Option.isSome_iff_exists.mp hoperator
  have haccepts : (Expectation.spelled operator.spelling).accepts token = true := by
    obtain ⟨spelling, hspelling, hof⟩ := Option.bind_eq_some_iff.mp hfound
    rw [Operator.ofSpelling?_eq_some_iff] at hof
    simp [Expectation.accepts, Token.isSpelled, hspelling, hof]
  cases hchoice with
  | refused hmore =>
      simp [Choice.items, hfound] at hmore
  | choice hmore hcourse =>
      simp only [Choice.items, hfound, Except.ok.injEq] at hmore
      subst hmore
      cases hcourse with
      | unexpected hrefused =>
          rw [haccepts] at hrefused
          cases hrefused
      | token _ hcourse =>
          cases hcourse with
          | done =>
              exact ⟨⟨operator, token, haccepts⟩, rfl, rfl⟩

@[simp] theorem Operand.tokens_steps (value : Operand) :
    Step.tokens value.steps = [value.token] :=
  rfl

@[simp] theorem Expression.tokens_steps (phrase : Expression) :
    Step.tokens phrase.steps = phrase.tokens := by
  cases phrase with
  | single | binary =>
      rfl

/-- Steps that come to the end of an expression are those of the whole expression. -/
theorem Expression.Steps.exists_eq
    {steps : List Step}
    (h : Expression.Steps steps true) :
    ∃ phrase : Expression, steps = phrase.steps := by
  cases h with
  | single value =>
      exact ⟨.single value, rfl⟩
  | binary left sign right =>
      exact ⟨.binary left sign right, rfl⟩

/-- The part of an expression after its first value. -/
theorem Course.operation_steps
    {left : Operand}
    (h : Course .expression [left.token] [.choice .operation] ahead moves rest?) :
    Expression.Steps (left.steps ++ Move.stepsAll moves) rest?.isSome := by
  cases h with
  | undecided =>
      exact .stoppedAfterValue left _
  | refused hmore =>
      simp only [Choice.items] at hmore
      split at hmore <;> cases hmore
  | @choice _ _ _ _ more _ _ _ token hmore hcourse =>
      cases hoperator : token.isOperator with
      | false =>
          simp only [Choice.items, hoperator] at hmore
          cases hmore
          cases hcourse
          simpa using Expression.Steps.single left
      | true =>
          simp only [Choice.items, hoperator] at hmore
          cases hmore
          cases hcourse with
          | broken hsign =>
              obtain ⟨_, _, hrest⟩ := hsign.reads_operator hoperator
              cases hrest
          | phrase hsign hcourse =>
              obtain ⟨sign, hsign, _⟩ := hsign.reads_operator hoperator
              rw [Move.tokens, hsign] at hcourse
              rw [Move.stepsAll_within, hsign]
              cases hcourse with
              | broken hvalue =>
                  rcases hvalue.reads_value with ⟨violation, hsteps, _⟩ | ⟨_, _, hrest⟩
                  · rw [Move.stepsAll_within, hsteps]
                    exact .stoppedAfterSign left sign violation
                  · cases hrest
              | phrase hvalue hcourse =>
                  rcases hvalue.reads_value with ⟨_, _, hrest⟩ | ⟨right, hright, _⟩
                  · cases hrest
                  rw [Move.tokens, hright] at hcourse
                  rw [Move.stepsAll_within, hright]
                  cases hcourse with
                  | check hcourse =>
                      cases hcourse with
                      | done =>
                          have hchecks : Production.expression.checks
                              [left.token, sign.word.token, right.token] =
                                [.step (.check (.operation left sign right))] := by
                            simp [Production.checks, Production.demand?, left.ofToken?_token,
                              sign.ofToken?_token, right.ofToken?_token]
                          rw [List.append_nil]
                          exact hchecks ▸ .binary left sign right

/-- The steps of the course of an expression. -/
theorem Course.expression_steps
    (h : Course .expression [] Production.expression.items ahead moves rest?) :
    Expression.Steps (Move.stepsAll moves) rest?.isSome := by
  have hitems : Course .expression [] [.phrase .value, .choice .operation] ahead moves rest? := h
  cases hitems with
  | broken hvalue =>
      rcases hvalue.reads_value with ⟨violation, hsteps, _⟩ | ⟨_, _, hrest⟩
      · rw [Move.stepsAll_within, hsteps]
        exact .stopped violation
      · cases hrest
  | phrase hvalue hcourse =>
      rcases hvalue.reads_value with ⟨_, _, hrest⟩ | ⟨left, hleft, _⟩
      · cases hrest
      rw [Move.tokens, hleft] at hcourse
      rw [Move.stepsAll_within, hleft]
      exact hcourse.operation_steps

end Expressions

end SimpleC
