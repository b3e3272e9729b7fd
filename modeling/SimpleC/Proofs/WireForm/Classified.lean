import SimpleC.Proofs.Course.Basic
import SimpleC.Proofs.Course.TypePhases
import SimpleC.Proofs.WireForm.Basic
import SimpleC.Verdict

/-!
# Classified tokens

A bare token whose kind is not the one that its spelling calls for is given that kind. What is
asked of a token depends on its payload or its spelling, and so do the demands and the messages
about it: none of them changes.
-/

namespace SimpleC

namespace Token

/-- The token, with the kind that its spelling calls for if it is bare. -/
def classified (token : Token) : Token :=
  if token.kind.hasPayload then token else bare token.text

variable {token : Token}

theorem classified_of_payload (h : token.kind.hasPayload = true) : token.classified = token :=
  if_pos h

theorem classified_of_bare (h : token.kind.hasPayload = false) :
    token.classified = bare token.text := by
  rw [classified, h]
  rfl

@[simp] theorem hasPayload_classified (token : Token) :
    token.classified.kind.hasPayload = token.kind.hasPayload := by
  cases h : token.kind.hasPayload with
  | true =>
      rw [classified_of_payload h, h]
  | false =>
      rw [classified_of_bare h, bare, TokenKind.hasPayload_ofBareSpelling]

@[simp] theorem text_classified (token : Token) : token.classified.text = token.text := by
  unfold classified
  split <;> rfl

@[simp] theorem classified_classified (token : Token) :
    token.classified.classified = token.classified := by
  cases h : token.kind.hasPayload with
  | true =>
      rw [classified_of_payload h, classified_of_payload h]
  | false =>
      have hbare := token.hasPayload_classified.trans h
      rw [classified_of_bare hbare, text_classified, classified_of_bare h]

@[simp] theorem spelling?_classified (token : Token) :
    token.classified.spelling? = token.spelling? := by
  simp [spelling?]

@[simp] theorem wire_classified (token : Token) : token.classified.wire = token.wire := by
  cases h : token.kind.hasPayload with
  | true =>
      rw [classified_of_payload h]
  | false =>
      rw [classified_of_bare h, wire_bare, wire_of_bare h]

/-- A kind that carries a payload is the same before and after. -/
theorem kind_classified_eq_iff
    {kind : TokenKind}
    (hpayload : kind.hasPayload = true) :
    token.classified.kind = kind ↔ token.kind = kind := by
  cases h : token.kind.hasPayload with
  | true =>
      rw [classified_of_payload h]
  | false =>
      have hclassified := token.hasPayload_classified.trans h
      constructor
      · rintro rfl
        rw [hpayload] at hclassified
        cases hclassified
      · rintro rfl
        rw [hpayload] at h
        cases h

@[simp] theorem isSpelled_classified (token : Token) (spelling : String) :
    token.classified.isSpelled spelling = token.isSpelled spelling := by
  simp [isSpelled]

@[simp] theorem isOperator_classified (token : Token) :
    token.classified.isOperator = token.isOperator := by
  simp [isOperator]

@[simp] theorem form_classified (token : Token) :
    StatementForm.ofToken? token.classified = StatementForm.ofToken? token := by
  have hidentifier : token.classified.kind = .identifier ↔ token.kind = .identifier :=
    kind_classified_eq_iff rfl
  simp [StatementForm.ofToken?, hidentifier]

/-- What is expected of a value is its kind only if that carries a payload. -/
@[simp] theorem valueExpectation?_classified (token : Token) :
    token.classified.valueExpectation? = token.valueExpectation? := by
  cases h : token.kind.hasPayload with
  | true =>
      rw [classified_of_payload h]
  | false =>
      simp [valueExpectation?, spelling?, h]

/-- Where a token has no tag that it should not have, its wire form is read as the token with
the kind that its spelling calls for. -/
theorem ofWire_wire_eq_classified
    (huntagged : token.kind.hasPayload = false → ¬ IsTagged token.text) :
    ofWire token.wire = token.classified := by
  cases h : token.kind.hasPayload with
  | true =>
      rw [ofWire_wire_of_payload h, classified_of_payload h]
  | false =>
      rw [wire_of_bare h, ofWire_of_not_isTagged (huntagged h), classified_of_bare h]

end Token

/-- The expectation names no kind of bare tokens. -/
def Expectation.ignoresBareKind : Expectation → Bool
  | spelled _ => true
  | ofKind kind => kind.hasPayload

theorem Expectation.accepts_classified
    {wanted : Expectation}
    (hwanted : wanted.ignoresBareKind = true)
    (token : Token) :
    wanted.accepts token.classified = wanted.accepts token := by
  cases wanted with
  | spelled spelling =>
      simp [accepts]
  | ofKind kind =>
      rw [accepts, accepts, Bool.eq_iff_iff, beq_iff_eq, beq_iff_eq]
      exact Token.kind_classified_eq_iff hwanted

/-- The violation that is reported of the classified token. -/
def Violation.classified : Violation → Violation
  | unexpected wanted found => unexpected wanted found.classified
  | notAValue found => notAValue found.classified
  | notAStatement found => notAStatement found.classified
  | trailing found => trailing found.classified
  | untypedToken found => untypedToken found.classified
  | endOfInput => endOfInput
  | redefined name => redefined name
  | undefined name => undefined name
  | arithmeticOperands spelling => arithmeticOperands spelling
  | operandMismatch left spelling right => operandMismatch left spelling right
  | unknownOperator spelling => unknownOperator spelling
  | notAssignable target value => notAssignable target value
  | conditionNotBool found => conditionNotBool found

theorem Violation.expecting_classified (wanted : String) (found : Token) :
    expecting wanted found.classified = expecting wanted found := by
  rw [expecting, expecting, Token.wire_classified]

/-- Violations are reported in the same words. -/
theorem Violation.message_classified (violation : Violation) :
    violation.classified.message = violation.message := by
  cases violation with
  | unexpected | notAValue | notAStatement | trailing | untypedToken =>
      exact expecting_classified _ _
  | endOfInput | redefined | undefined | arithmeticOperands | operandMismatch | unknownOperator
  | notAssignable | conditionNotBool =>
      rw [classified]

theorem Violation.verdict_classified (violation : Violation) :
    Verdict.ofStop (.violation violation.classified) = .ofStop (.violation violation) := by
  have hphase : violation.classified.phase = violation.phase := by
    cases violation <;> rfl
  rw [Verdict.ofStop, Verdict.ofStop, hphase, message_classified]

/-- Only violations of the grammar tell of a token. -/
theorem Violation.classified_of_phase
    {violation : Violation}
    (h : violation.phase ≠ .grammar) :
    violation.classified = violation := by
  cases violation with
  | unexpected | notAValue | notAStatement | trailing | untypedToken =>
      exact absurd rfl h
  | endOfInput | redefined | undefined | arithmeticOperands | operandMismatch | unknownOperator
  | notAssignable | conditionNotBool =>
      simp only [classified]

/-- The value with its token classified. -/
def Operand.classified (value : Operand) : Operand :=
  ⟨value.token.classified, by rw [Token.valueExpectation?_classified]; exact value.isValue⟩

/-- The operator with its token classified. -/
def Sign.classified (sign : Sign) : Sign :=
  ⟨sign.operator, sign.word.token.classified, by
    rw [Expectation.accepts_classified rfl]; exact sign.word.accepted⟩

/-- The expression with its tokens classified. -/
def Expression.classified : Expression → Expression
  | single value => single value.classified
  | binary left sign right => binary left.classified sign.classified right.classified

section Phrases

variable (token : Token) (tokens : List Token)

theorem Operand.ofToken?_classified :
    ofToken? token.classified = (ofToken? token).map classified := by
  unfold ofToken?
  by_cases h : token.valueExpectation?.isSome = true
  · simp [h, classified]
  · simp [h]

theorem Sign.ofToken?_classified :
    ofToken? token.classified = (ofToken? token).map classified := by
  have hspelling := token.spelling?_classified
  unfold ofToken?
  split
  · rename_i operator h
    have hsame := h
    rw [hspelling] at hsame
    split
    · rename_i other hother
      cases hsame.symm.trans hother
      rfl
    · rename_i hnone
      cases hsame.symm.trans hnone
  · rename_i h
    rw [hspelling] at h
    split
    · rename_i other hother
      cases h.symm.trans hother
    · rfl

theorem Expression.ofTokens?_classified :
    ofTokens? (tokens.map Token.classified) = (ofTokens? tokens).map classified := by
  rcases tokens with _ | ⟨left, _ | ⟨sign, _ | ⟨right, _ | ⟨next, rest⟩⟩⟩⟩
  · rfl
  · simp only [List.map_cons, List.map_nil, ofTokens?, Operand.ofToken?_classified]
    cases Operand.ofToken? left <;> rfl
  · rfl
  · simp only [List.map_cons, List.map_nil, ofTokens?, Operand.ofToken?_classified,
      Sign.ofToken?_classified]
    cases Operand.ofToken? left with
    | none =>
        rfl
    | some =>
        cases Sign.ofToken? sign with
        | none =>
            rfl
        | some =>
            cases Operand.ofToken? right <;> rfl
  · rfl

end Phrases

section Typing

variable (symbols : SymbolTable)

theorem Operand.typing_classified (value : Operand) :
    value.classified.typing symbols = value.typing symbols := by
  cases h : value.token.kind.hasPayload with
  | true =>
      simp only [typing, classified, Token.classified_of_payload h]
  | false =>
      -- a bare value is a truth value, whatever its kind
      have hclassified : value.classified.token.kind.hasPayload = false :=
        value.token.hasPayload_classified.trans h
      rw [typing_eq_ok_iff.mpr (.truth (value.isSpelled_of_bare h)),
        typing_eq_ok_iff.mpr (.truth (value.classified.isSpelled_of_bare hclassified))]

theorem Expression.typing_classified (phrase : Expression) :
    phrase.classified.typing symbols = phrase.typing symbols := by
  cases phrase with
  | single value =>
      simp only [classified, typing, Operand.typing_classified]
  | binary left sign right =>
      simp only [classified, typing, Operand.typing_classified, Sign.classified]

end Typing

namespace Demand

/-- The demand about the classified phrases. -/
def classified : Demand → Demand
  | declaration type name => declaration type name
  | lookup name => lookup name
  | value operand => value operand.classified
  | operation left sign right => operation left.classified sign.classified right.classified
  | assignment name phrase => assignment name phrase.classified
  | condition phrase => condition phrase.classified

/-- The answers to a demand are the same. -/
theorem answer_classified
    (demand : Demand)
    (switches : Switches)
    (symbols : SymbolTable) :
    demand.classified.answer switches symbols = demand.answer switches symbols := by
  cases demand with
  | declaration | lookup =>
      rfl
  | value operand =>
      simp only [classified, answer, ruling, Operand.typing_classified]
  | operation left sign right =>
      have htyping := (Expression.binary left sign right).typing_classified symbols
      simp only [Expression.classified] at htyping
      simp only [classified, answer, ruling, htyping]
  | assignment name phrase =>
      simp only [classified, answer, ruling, Expression.typing_classified]
  | condition phrase =>
      simp only [classified, answer, ruling, Expression.typing_classified]

/-- What is found wrong with a demand does not tell of a token. -/
theorem classified_of_answer
    {demand : Demand}
    {switches : Switches}
    {symbols : SymbolTable}
    {violation : Violation}
    (h : demand.answer switches symbols = .error violation) :
    violation.classified = violation := by
  refine Violation.classified_of_phase ?_
  cases hkind : demand.isDeclaration with
  | false =>
      have hphase := phase_of_answer hkind h
      rintro hgrammar
      rw [hgrammar] at hphase
      simp [typePhases] at hphase
  | true =>
      obtain ⟨type, name, rfl⟩ := eq_declaration hkind
      rw [answer_declaration] at h
      split at h
      · have hdeclare := except_map_eq_error.mp h
        rw [((SymbolTable.declare_eq_error_iff _ _ _ _).mp hdeclare).2]
        simp [Violation.phase]
      · cases h

end Demand

/-- What is asked about classified tokens is what is asked about the tokens. -/
theorem Production.demand?_classified (production : Production) (read : List Token) :
    production.demand? (read.map Token.classified) =
      (production.demand? read).map Demand.classified := by
  cases production with
  | declaration =>
      rcases read with _ | ⟨word, _ | ⟨name, _ | ⟨semicolon, _ | ⟨_, _⟩⟩⟩⟩
      · rfl
      · rfl
      · rfl
      · simp only [List.map_cons, List.map_nil, demand?, Token.spelling?_classified,
          Token.text_classified]
        cases word.spelling?.bind ValueType.ofDeclarator? <;> rfl
      · rfl
  | input =>
      rcases read with _ | ⟨word, _ | ⟨arrows, _ | ⟨name, _ | ⟨_, _⟩⟩⟩⟩
      · rfl
      · rfl
      · rfl
      · simp only [List.map_cons, List.map_nil, demand?, Token.text_classified, Option.map_some,
          Demand.classified]
      · rfl
  | assignment =>
      rcases read with _ | ⟨name, _ | ⟨equals, tokens⟩⟩
      · rfl
      · simp only [List.map_cons, List.map_nil, demand?, Token.text_classified, Option.map_some,
          Demand.classified]
      · simp only [List.map_cons, demand?, Token.text_classified,
          Expression.ofTokens?_classified]
        cases Expression.ofTokens? tokens <;> rfl
  | condition =>
      simp only [demand?, Expression.ofTokens?_classified]
      cases Expression.ofTokens? read <;> rfl
  | expression =>
      rcases read with _ | ⟨left, _ | ⟨sign, _ | ⟨right, _ | ⟨_, _⟩⟩⟩⟩
      · rfl
      · rfl
      · rfl
      · simp only [List.map_cons, List.map_nil, demand?, Operand.ofToken?_classified,
          Sign.ofToken?_classified]
        cases Operand.ofToken? left <;> cases Sign.ofToken? sign <;>
          cases Operand.ofToken? right <;> rfl
      · rfl
  | value =>
      rcases read with _ | ⟨token, _ | ⟨_, _⟩⟩
      · rfl
      · simp only [List.map_cons, List.map_nil, demand?, Operand.ofToken?_classified]
        cases Operand.ofToken? token <;> rfl
      · rfl
  | program | statements | statement | empty | output | outputValue | conditional | thenPart
  | elsePart | operator =>
      rfl

end SimpleC
