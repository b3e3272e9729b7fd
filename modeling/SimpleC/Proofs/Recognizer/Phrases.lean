import SimpleC.Proofs.Phrase.Form
import SimpleC.Proofs.Phrase.NearestElse
import SimpleC.Proofs.Recognizer.Steps

/-!
# What the recognizer reads is a phrase

Whatever the switches, a recognition that ends well has read the tokens of a
phrase. Its `else`s belong to the nearest conditionals that are open, since the
recognizer looks for an `else` as soon as a branch ends.
-/

namespace SimpleC

namespace Recognizer

variable {switches : Switches} {state after : State}

section Checks

theorem keepsCursor_declare (name : String) (type : ValueType) :
    KeepsCursor (declare name type) :=
  keepsCursor_bind keepsCursor_get fun _ =>
    keepsCursor_bind (keepsCursor_obey _) fun _ => by
      intro state _ after h
      cases h
      rfl

theorem keepsCursor_known (type? : Option ValueType) : KeepsCursor (known type?) := by
  cases type? with
  | some type =>
      exact keepsCursor_pure type
  | none =>
      exact keepsCursor_fault _

theorem keepsCursor_addVariable (word name : String) :
    KeepsCursor (addVariable switches word name) := by
  unfold addVariable
  split
  · split
    · exact keepsCursor_declare name _
    · exact keepsCursor_fault _
  · exact keepsCursor_pure ()

theorem keepsCursor_variableType (name : String) :
    KeepsCursor (variableType switches name) := by
  unfold variableType
  split
  · refine keepsCursor_bind ?_ fun _ => keepsCursor_pure _
    exact keepsCursor_bind keepsCursor_get fun _ => keepsCursor_obey _
  · exact keepsCursor_pure none

theorem keepsCursor_valueType (token : Token) :
    KeepsCursor (valueType switches token) := by
  unfold valueType
  split
  · refine keepsCursor_bind keepsCursor_get fun _ => ?_
    exact keepsCursor_bind (keepsCursor_obey _) fun _ => keepsCursor_pure _
  · exact keepsCursor_pure none

theorem keepsCursor_warnings (warnings : List Warning) :
    KeepsCursor (warnings.forM warn) := by
  induction warnings with
  | nil =>
      exact keepsCursor_pure _
  | cons warning rest ih =>
      exact keepsCursor_bind (keepsCursor_warn warning) fun _ => ih

theorem keepsCursor_binaryType (left? right? : Option ValueType) (spelling : String) :
    KeepsCursor (binaryType switches left? spelling right?) := by
  unfold binaryType
  split
  · refine keepsCursor_bind (keepsCursor_known left?) fun left => ?_
    refine keepsCursor_bind (keepsCursor_known right?) fun right => ?_
    refine keepsCursor_bind (keepsCursor_obey _) fun typing => ?_
    exact keepsCursor_bind (keepsCursor_warnings _) fun _ => keepsCursor_pure _
  · exact keepsCursor_pure none

theorem keepsCursor_checkAssignment (target? value? : Option ValueType) :
    KeepsCursor (checkAssignment switches target? value?) := by
  unfold checkAssignment
  split
  · refine keepsCursor_bind (keepsCursor_known target?) fun target => ?_
    exact keepsCursor_bind (keepsCursor_known value?) fun value => keepsCursor_obey _
  · exact keepsCursor_pure ()

theorem keepsCursor_checkCondition (type? : Option ValueType) :
    KeepsCursor (checkCondition switches type?) := by
  unfold checkCondition
  split
  · exact keepsCursor_bind (keepsCursor_known type?) fun type => keepsCursor_obey _
  · exact keepsCursor_pure ()

end Checks

/-- A value that was read is an operand. -/
theorem value_eq_ok
    {type? : Option ValueType}
    (h : value switches state = .ok type? after) :
    ∃ operand : Operand, state.cursor.ahead = operand.token :: after.cursor.ahead := by
  obtain ⟨inner, hstep, hafter⟩ := producing_eq_ok h
  rw [bind_eq_ok] at hstep
  obtain ⟨token, middle, hpeek, h⟩ := hstep
  obtain ⟨rfl, tail, hahead⟩ := peek_eq_ok hpeek
  cases hwanted : token.valueExpectation? with
  | none =>
      rw [hwanted] at h
      cases h
  | some wanted =>
      rw [hwanted] at h
      rw [bind_eq_ok] at h
      obtain ⟨_, consumed, hconsume, h⟩ := h
      obtain ⟨found, hconsume⟩ := discard_eq_ok hconsume
      obtain ⟨_, hfound⟩ := consume_eq_ok hconsume
      have hkeeps := keepsCursor_valueType token _ _ _ h
      have htoken : found = token := by
        rw [hahead] at hfound
        exact (List.cons.inj hfound).1.symm
      subst htoken
      refine ⟨⟨found, by simp [hwanted]⟩, ?_⟩
      rw [hafter, hkeeps]
      exact hfound

/-- An operator that was read where one was seen is a sign. -/
theorem operator_eq_ok
    {spelling : String}
    {token : Token}
    {tail : List Token}
    (hahead : state.cursor.ahead = token :: tail)
    (hoperator : token.isOperator = true)
    (h : operator switches state = .ok spelling after) :
    ∃ sign : Sign,
      sign.operator.spelling = spelling ∧
        state.cursor.ahead = sign.word.token :: after.cursor.ahead := by
  obtain ⟨inner, hstep, hafter⟩ := producing_eq_ok h
  rw [bind_eq_ok] at hstep
  obtain ⟨found, middle, hspelling, h⟩ := hstep
  obtain ⟨rfl, seen, rest, hseen, hfound⟩ := nextSpelling_eq_ok hspelling
  rw [bind_eq_ok] at h
  obtain ⟨_, consumed, hexpect, h⟩ := h
  obtain ⟨word, hword⟩ := expect_eq_ok hexpect
  cases h
  have htoken : seen = token := by
    rw [cursor_enter, hahead] at hseen
    exact (List.cons.inj hseen).1.symm
  rw [htoken] at hfound
  have hsome : (Operator.ofSpelling? spelling).isSome = true := by
    simpa [Token.isOperator, hfound] using hoperator
  obtain ⟨operator, hof⟩ := Option.isSome_iff_exists.mp hsome
  have hspelled := Operator.ofSpelling?_eq_some_iff.mp hof
  subst hspelled
  exact ⟨⟨operator, word⟩, rfl, by rw [hafter]; exact hword⟩

theorem expression_eq_ok
    {type? : Option ValueType}
    (h : expression switches state = .ok type? after) :
    ∃ phrase : Expression, state.cursor.ahead = phrase.tokens ++ after.cursor.ahead := by
  obtain ⟨inner, hstep, hafter⟩ := producing_eq_ok h
  rw [bind_eq_ok] at hstep
  obtain ⟨left?, afterLeft, hleft, h⟩ := hstep
  obtain ⟨left, haheadLeft⟩ := value_eq_ok hleft
  rw [bind_eq_ok] at h
  obtain ⟨token, _, hpeek, h⟩ := h
  obtain ⟨rfl, tail, hahead⟩ := peek_eq_ok hpeek
  rw [cursor_enter] at haheadLeft
  split at h
  · rename_i hoperator
    rw [bind_eq_ok] at h
    obtain ⟨spelling, afterSign, hsign, h⟩ := h
    obtain ⟨sign, _, haheadSign⟩ := operator_eq_ok hahead hoperator hsign
    rw [bind_eq_ok] at h
    obtain ⟨right?, afterRight, hright, h⟩ := h
    obtain ⟨right, haheadRight⟩ := value_eq_ok hright
    have hkeeps := keepsCursor_binaryType _ _ _ _ _ _ h
    refine ⟨.binary left sign right, ?_⟩
    rw [haheadLeft, haheadSign, haheadRight, hafter, hkeeps]
    rfl
  · cases h
    exact ⟨.single left, by rw [haheadLeft, hafter]; rfl⟩

/-- What was read between the marks of a declaration, an input or an output. -/
theorem expect_bind_eq_ok
    {β : Type}
    {spelling : String}
    {next : Unit → Recognizer β}
    {answer : β}
    (h : (expect switches spelling >>= next) state = .ok answer after) :
    ∃ (word : Word spelling) (middle : State),
      state.cursor.ahead = word.token :: middle.cursor.ahead ∧
        next () middle = .ok answer after := by
  rw [bind_eq_ok] at h
  obtain ⟨_, middle, hexpect, hnext⟩ := h
  obtain ⟨word, hword⟩ := expect_eq_ok hexpect
  exact ⟨word, middle, hword, hnext⟩

theorem emptyStatement_eq_ok
    (h : emptyStatement switches state = .ok () after) :
    ∃ semicolon : Word ";",
      state.cursor.ahead = (Statement.empty semicolon).tokens ++ after.cursor.ahead := by
  obtain ⟨inner, hstep, hafter⟩ := producing_eq_ok h
  obtain ⟨semicolon, hsemicolon⟩ := expect_eq_ok hstep
  exact ⟨semicolon, by rw [hafter]; exact hsemicolon⟩

/-- A declaration that was read where one begins is a statement. -/
theorem declaration_eq_ok
    {token : Token}
    {tail : List Token}
    (hahead : state.cursor.ahead = token :: tail)
    (hform : StatementForm.ofToken? token = some .declaration)
    (h : declaration switches state = .ok () after) :
    ∃ (declarator : Declarator) (name : Identifier) (semicolon : Word ";"),
      state.cursor.ahead =
        (Statement.declaration declarator name semicolon).tokens ++ after.cursor.ahead := by
  obtain ⟨inner, hstep, hafter⟩ := producing_eq_ok h
  rw [bind_eq_ok] at hstep
  obtain ⟨spelling, _, hspelling, hstep⟩ := hstep
  obtain ⟨rfl, seen, rest, hseen, hfound⟩ := nextSpelling_eq_ok hspelling
  obtain ⟨word, afterWord, hword, hstep⟩ := expect_bind_eq_ok hstep
  rw [bind_eq_ok] at hstep
  obtain ⟨text, afterName, hname, hstep⟩ := hstep
  obtain ⟨name, _, hname⟩ := identifier_eq_ok hname
  obtain ⟨semicolon, afterSemicolon, hsemicolon, hstep⟩ := expect_bind_eq_ok hstep
  have hkeeps := keepsCursor_addVariable _ _ _ _ _ hstep
  have htoken : seen = token := by
    rw [cursor_enter, hahead] at hseen
    exact (List.cons.inj hseen).1.symm
  rw [htoken] at hfound
  rw [StatementForm.ofToken?_of_spelling? hfound] at hform
  obtain ⟨type, hnumeric, rfl⟩ := StatementForm.exists_type_of_declaration hform
  refine ⟨⟨type, hnumeric, word⟩, name, semicolon, ?_⟩
  rw [hafter, hkeeps]
  rw [cursor_enter] at hword
  rw [hword, hname, hsemicolon]
  rfl

theorem input_eq_ok
    (h : input switches state = .ok () after) :
    ∃ word arrows name semicolon,
      state.cursor.ahead =
        (Statement.input word arrows name semicolon).tokens ++ after.cursor.ahead := by
  obtain ⟨inner, hstep, hafter⟩ := producing_eq_ok h
  obtain ⟨word, _, hword, hstep⟩ := expect_bind_eq_ok hstep
  obtain ⟨arrows, _, harrows, hstep⟩ := expect_bind_eq_ok hstep
  rw [bind_eq_ok] at hstep
  obtain ⟨text, afterName, hname, hstep⟩ := hstep
  obtain ⟨name, _, hname⟩ := identifier_eq_ok hname
  rw [bind_eq_ok] at hstep
  obtain ⟨_, _, hlookup, hstep⟩ := hstep
  obtain ⟨_, hlookup⟩ := discard_eq_ok hlookup
  have hkeeps := keepsCursor_variableType _ _ _ _ hlookup
  obtain ⟨semicolon, hsemicolon⟩ := expect_eq_ok hstep
  rw [cursor_enter] at hword
  refine ⟨word, arrows, name, semicolon, ?_⟩
  rw [hword, harrows, hname, ← hkeeps, hsemicolon, hafter]
  rfl

/-- What was put out is the end of a line or a value. -/
theorem outputValue_eq_ok
    (h : outputValue switches state = .ok () after) :
    ∃ printed : Printed, state.cursor.ahead = printed.token :: after.cursor.ahead := by
  obtain ⟨inner, hstep, hafter⟩ := producing_eq_ok h
  rw [bind_eq_ok] at hstep
  obtain ⟨token, _, hpeek, hstep⟩ := hstep
  obtain ⟨rfl, tail, hahead⟩ := peek_eq_ok hpeek
  rw [hafter]
  split at hstep
  · obtain ⟨word, hword⟩ := expect_eq_ok hstep
    exact ⟨.endOfLine word, hword⟩
  · obtain ⟨_, hvalue⟩ := discard_eq_ok hstep
    obtain ⟨operand, hoperand⟩ := value_eq_ok hvalue
    exact ⟨.value operand, hoperand⟩

theorem output_eq_ok
    (h : output switches state = .ok () after) :
    ∃ word arrows printed semicolon,
      state.cursor.ahead =
        (Statement.output word arrows printed semicolon).tokens ++ after.cursor.ahead := by
  obtain ⟨inner, hstep, hafter⟩ := producing_eq_ok h
  obtain ⟨word, _, hword, hstep⟩ := expect_bind_eq_ok hstep
  obtain ⟨arrows, _, harrows, hstep⟩ := expect_bind_eq_ok hstep
  rw [bind_eq_ok] at hstep
  obtain ⟨_, _, hvalue, hstep⟩ := hstep
  obtain ⟨printed, hprinted⟩ := outputValue_eq_ok hvalue
  obtain ⟨semicolon, hsemicolon⟩ := expect_eq_ok hstep
  rw [cursor_enter] at hword
  refine ⟨word, arrows, printed, semicolon, ?_⟩
  rw [hword, harrows, hprinted, hsemicolon, hafter]
  rfl

theorem assignment_eq_ok
    (h : assignment switches state = .ok () after) :
    ∃ name equals value semicolon,
      state.cursor.ahead =
        (Statement.assignment name equals value semicolon).tokens ++ after.cursor.ahead := by
  obtain ⟨inner, hstep, hafter⟩ := producing_eq_ok h
  rw [bind_eq_ok] at hstep
  obtain ⟨text, afterName, hname, hstep⟩ := hstep
  obtain ⟨name, _, hname⟩ := identifier_eq_ok hname
  rw [bind_eq_ok] at hstep
  obtain ⟨target?, afterLookup, hlookup, hstep⟩ := hstep
  have hkeepsLookup := keepsCursor_variableType _ _ _ _ hlookup
  obtain ⟨equals, _, hequals, hstep⟩ := expect_bind_eq_ok hstep
  rw [bind_eq_ok] at hstep
  obtain ⟨value?, afterValue, hvalue, hstep⟩ := hstep
  obtain ⟨value, hvalue⟩ := expression_eq_ok hvalue
  rw [bind_eq_ok] at hstep
  obtain ⟨_, afterCheck, hcheck, hstep⟩ := hstep
  have hkeepsCheck := keepsCursor_checkAssignment _ _ _ _ _ hcheck
  obtain ⟨semicolon, hsemicolon⟩ := expect_eq_ok hstep
  rw [cursor_enter] at hname
  refine ⟨name, equals, value, semicolon, ?_⟩
  rw [hname, ← hkeepsLookup, hequals, hvalue, ← hkeepsCheck, hsemicolon, hafter]
  simp [Statement.tokens]

theorem condition_eq_ok
    {type? : Option ValueType}
    (h : condition switches state = .ok type? after) :
    ∃ phrase : Expression, state.cursor.ahead = phrase.tokens ++ after.cursor.ahead := by
  obtain ⟨inner, hstep, hafter⟩ := producing_eq_ok h
  rw [bind_eq_ok] at hstep
  obtain ⟨found?, afterFound, hfound, hstep⟩ := hstep
  obtain ⟨phrase, hphrase⟩ := expression_eq_ok hfound
  rw [bind_eq_ok] at hstep
  obtain ⟨_, afterCheck, hcheck, hstep⟩ := hstep
  have hkeeps := keepsCursor_checkCondition _ _ _ _ hcheck
  cases hstep
  refine ⟨phrase, ?_⟩
  rw [hafter, hkeeps]
  exact hphrase

end Recognizer

end SimpleC
