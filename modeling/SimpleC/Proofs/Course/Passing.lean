import SimpleC.Proofs.Course.Marks

/-!
# Steps that pass

Steps that come to their end and what is found then. When types are checked, an expression
whose steps pass has a type under the symbol table, which it leaves as it is.
-/

namespace SimpleC

/-- The steps come to their end, with these findings. -/
structure Step.Passes
    (switches : Switches)
    (steps : List Step)
    (findings after : Findings) : Prop where
  violation : (outcome switches steps findings).violation? = none
  findings : (outcome switches steps findings).findings = after

namespace Step

variable
    {switches : Switches}
    {findings after : Findings}
    {left right rest : List Step}

@[simp] theorem passes_nil : Passes switches [] findings after ↔ findings = after := by
  constructor
  · intro h
    exact h.findings
  · rintro rfl
    exact ⟨rfl, rfl⟩

@[simp] theorem passes_read (token : Token) :
    Passes switches (read token :: rest) findings after ↔ Passes switches rest findings after := by
  constructor
  · intro h
    exact ⟨h.violation, h.findings⟩
  · intro h
    exact ⟨h.violation, h.findings⟩

theorem passes_check (demand : Demand) :
    Passes switches (check demand :: rest) findings after ↔
      ∃ symbols warnings, demand.answer switches findings.symbols = .ok (symbols, warnings) ∧
        Passes switches rest ⟨symbols, findings.warnings ++ warnings⟩ after := by
  constructor
  · rintro ⟨hviolation, hfindings⟩
    simp only [outcome] at hviolation hfindings
    cases hanswer : demand.answer switches findings.symbols with
    | error violation =>
        rw [hanswer] at hviolation
        cases hviolation
    | ok found =>
        rw [hanswer] at hviolation hfindings
        exact ⟨found.1, found.2, rfl, hviolation, hfindings⟩
  · rintro ⟨symbols, warnings, hanswer, hviolation, hfindings⟩
    constructor
    · simpa only [outcome, hanswer] using hviolation
    · simpa only [outcome, hanswer] using hfindings

/-- Steps in a row pass if each part of them does. -/
theorem passes_append :
    Passes switches (left ++ right) findings after ↔
      ∃ middle, Passes switches left findings middle ∧ Passes switches right middle after := by
  constructor
  · rintro ⟨hviolation, hfindings⟩
    cases hleft : (outcome switches left findings).violation? with
    | some violation =>
        rw [outcome_append_of_violation hleft, hleft] at hviolation
        cases hviolation
    | none =>
        rw [outcome_append_of_none hleft] at hviolation hfindings
        exact ⟨_, ⟨hleft, rfl⟩, hviolation, hfindings⟩
  · rintro ⟨middle, ⟨hleft, rfl⟩, hviolation, hfindings⟩
    rw [← hfindings]
    constructor
    · rw [outcome_append_of_none hleft, hviolation]
    · rw [outcome_append_of_none hleft]

end Step

section Expressions

variable
    {switches : Switches}
    {findings after : Findings}
    (htypes : switches.checkTypes = true)

include htypes

/-- A value whose steps pass has a type. -/
theorem Operand.typing_of_passes
    {value : Operand}
    (h : Step.Passes switches value.steps findings after) :
    after.symbols = findings.symbols ∧ ∃ type, value.typing findings.symbols = .ok type := by
  rw [steps, Step.passes_read, Step.passes_check] at h
  obtain ⟨symbols, warnings, hanswer, h⟩ := h
  rw [Step.passes_nil] at h
  subst h
  rw [Demand.answer_value htypes] at hanswer
  obtain ⟨type, htyping, hfound⟩ := except_map_eq_ok.mp hanswer
  cases hfound
  exact ⟨rfl, type, htyping⟩

/-- Both values of an expression have types once its steps pass up to its mark. -/
theorem Operand.typing_of_passes_both
    {left right : Operand}
    {sign : Sign}
    (h : Step.Passes switches (left.steps ++ .read sign.word.token :: right.steps) findings after) :
    after.symbols = findings.symbols ∧
      ∃ leftType rightType, left.typing findings.symbols = .ok leftType ∧
        right.typing findings.symbols = .ok rightType := by
  obtain ⟨middle, hleft, hright⟩ := Step.passes_append.mp h
  rw [Step.passes_read] at hright
  obtain ⟨hmiddle, leftType, hleft⟩ := typing_of_passes htypes hleft
  obtain ⟨hafter, rightType, hright⟩ := typing_of_passes htypes hright
  rw [hmiddle] at hafter hright
  exact ⟨hafter, leftType, rightType, hleft, hright⟩

/-- An expression whose steps pass has a type. -/
theorem Expression.typing_of_passes
    {phrase : Expression}
    (h : Step.Passes switches phrase.steps findings after) :
    after.symbols = findings.symbols ∧ ∃ typing, phrase.typing findings.symbols = .ok typing := by
  cases phrase with
  | single value =>
      obtain ⟨hafter, type, htyping⟩ := Operand.typing_of_passes htypes h
      exact ⟨hafter, ⟨type, []⟩, except_bind_eq_ok.mpr ⟨type, htyping, rfl⟩⟩
  | binary left sign right =>
      have hsteps : (Expression.binary left sign right).steps =
          (left.steps ++ .read sign.word.token :: right.steps) ++
            [.check (.operation left sign right)] := by
        simp [steps]
      rw [hsteps] at h
      obtain ⟨middle, hvalues, hmark⟩ := Step.passes_append.mp h
      obtain ⟨hmiddle, leftType, rightType, hleft, hright⟩ :=
        Operand.typing_of_passes_both htypes hvalues
      rw [Step.passes_check, hmiddle, Demand.answer_operation htypes hleft hright] at hmark
      obtain ⟨symbols, warnings, hanswer, hmark⟩ := hmark
      rw [Step.passes_nil] at hmark
      subst hmark
      obtain ⟨typing, hoperation, hfound⟩ := except_map_eq_ok.mp hanswer
      cases hfound
      refine ⟨rfl, typing, ?_⟩
      exact except_bind_eq_ok.mpr ⟨leftType, hleft,
        except_bind_eq_ok.mpr ⟨rightType, hright, hoperation⟩⟩

end Expressions

section Types

variable
    {switches : Switches}
    {findings after : Findings}
    {table larger : SymbolTable}
    {phrase : Expression}
    {production : Production}
    {ahead rest : List Token}
    {moves : List Move}
    {rest? : Option (List Token)}

/-- Moves that are performed without an early end pass. -/
theorem Move.passes_of_performAll
    {state ended : State}
    (h : performAll switches moves state = .ok () ended) :
    Step.Passes switches (stepsAll moves) state.findings ended.findings := by
  have hdescribes : (Step.outcome switches (stepsAll moves) state.findings).Describes state
      (performAll switches moves state) := describes_performAll moves state
  rw [h] at hdescribes
  generalize houtcome : Step.outcome switches (stepsAll moves) state.findings = outcome
    at hdescribes
  cases hdescribes
  exact ⟨by rw [houtcome], by rw [houtcome]⟩

/-- The type of an expression stays as the symbol table grows. -/
theorem Expression.type?_of_within
    {typing : BinaryTyping}
    (htyping : phrase.typing table = .ok typing)
    (hwithin : table.Within larger) :
    phrase.type? (some larger) = phrase.type? (some table) := by
  have hlarger := (phrase.typing_of_within hwithin).eq_ok htyping
  rw [type?, type?, Option.bind_some, Option.bind_some, htyping, hlarger]

/-- What has a type and has come to its end has read a whole expression. -/
theorem Course.exists_expression
    (h : Course production [] production.items ahead moves (some rest))
    (hproduction : production ∈ [.value, .expression, .condition]) :
    ∃ phrase : Expression, Move.stepsAll moves = phrase.steps ∨
      Move.stepsAll moves = phrase.steps ++ [.check (.condition phrase)] := by
  cases production with
  | value =>
      obtain ⟨value, hsteps⟩ := Production.exists_operand h
      exact ⟨.single value, .inl hsteps⟩
  | expression =>
      obtain ⟨phrase, hsteps⟩ := Production.exists_expression h
      exact ⟨phrase, .inl hsteps⟩
  | condition =>
      have hitems : Course .condition [] [.phrase .expression, .check] ahead moves (some rest) := h
      obtain ⟨_, inside, _, hmoves, hinner, hcheck⟩ := hitems.exists_phrase
      obtain ⟨phrase, hphrase⟩ := Production.exists_expression hinner
      rw [Move.tokens, hphrase] at hcheck
      cases hcheck with
      | check hdone =>
          cases hdone
          refine ⟨phrase, .inr ?_⟩
          rw [hmoves, hphrase, List.nil_append, (Production.Marks.condition phrase).checks_eq]
          rfl
  | _ =>
      simp at hproduction

theorem Production.type?_of_expression
    (hproduction : production ∈ [.value, .expression, .condition])
    (symbols? : Option SymbolTable) :
    production.type? symbols? phrase.tokens = phrase.type? symbols? := by
  cases production with
  | value | expression | condition =>
      rw [type?, phrase.ofTokens?_tokens, Option.bind_some]
  | _ =>
      simp at hproduction

/-- When types are checked, what has come to its end and has a type has got it under the last
symbol table. -/
theorem Course.exists_typing
    (htypes : switches.checkTypes = true)
    (h : Course production [] production.items ahead moves (some rest))
    (hproduction : production ∈ [.value, .expression, .condition])
    (hpasses : Step.Passes switches (Move.stepsAll moves) findings after) :
    ∃ (phrase : Expression) (typing : BinaryTyping), Move.tokens moves = phrase.tokens ∧
      phrase.typing after.symbols = .ok typing := by
  obtain ⟨phrase, hsteps | hsteps⟩ := h.exists_expression hproduction
  · rw [hsteps] at hpasses
    obtain ⟨hsame, typing, htyping⟩ := Expression.typing_of_passes htypes hpasses
    exact ⟨phrase, typing, by rw [Move.tokens, hsteps, phrase.tokens_steps], by rwa [hsame]⟩
  · rw [hsteps, Step.passes_append] at hpasses
    obtain ⟨middle, hphrase, hmark⟩ := hpasses
    obtain ⟨hsame, typing, htyping⟩ := Expression.typing_of_passes htypes hphrase
    obtain ⟨symbols, warnings, hanswer, hdone⟩ := (Step.passes_check _).mp hmark
    cases Step.passes_nil.mp hdone
    refine ⟨phrase, typing, by simp [Move.tokens, hsteps], ?_⟩
    rwa [Demand.symbols_of_answer rfl hanswer, hsame]

/-- The type of a phrase whose steps pass stays as the symbol table grows. -/
theorem Course.type?_of_passes
    (h : Course production [] production.items ahead moves rest?)
    (hpasses : Step.Passes switches (Move.stepsAll moves) findings after)
    (hwithin : after.symbols.Within larger) :
    production.type? (switches.typesUnder larger) (Move.tokens moves) =
      production.type? (switches.typesUnder after.symbols) (Move.tokens moves) := by
  cases rest? with
  | none =>
      exact absurd hpasses.violation (h.violation?_ne_none switches findings)
  | some rest =>
      by_cases htypes : switches.checkTypes = true
      · by_cases hproduction : production ∈ [.value, .expression, .condition]
        · obtain ⟨phrase, typing, htokens, htyping⟩ :=
            h.exists_typing htypes hproduction hpasses
          rw [htokens, Production.type?_of_expression hproduction,
            Production.type?_of_expression hproduction, Switches.typesUnder,
            Switches.typesUnder, if_pos htypes, if_pos htypes]
          exact Expression.type?_of_within htyping hwithin
        · cases production with
          | value | expression | condition =>
              exact absurd (by decide) hproduction
          | _ =>
              rfl
      · rw [Switches.typesUnder, Switches.typesUnder, if_neg htypes, if_neg htypes]

end Types

end SimpleC
