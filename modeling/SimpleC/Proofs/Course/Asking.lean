import SimpleC.Proofs.Course.Follows

/-!
# What is asked at the marks

Each check of the recognizer asks what is demanded at the mark of its production.
When types are checked, it answers with the type that the phrase has; otherwise it
asks nothing and has no answer.
-/

namespace SimpleC

theorem Operand.ofToken?_token (value : Operand) : ofToken? value.token = some value := by
  rw [ofToken?, dif_pos value.isValue]

theorem Sign.ofToken?_token (sign : Sign) : ofToken? sign.word.token = some sign := by
  have hoperator : sign.word.token.spelling?.bind Operator.ofSpelling? = some sign.operator := by
    rw [Word.spelling?_token, Option.bind_some, Operator.ofSpelling?_eq_some_iff]
  obtain ⟨operator, word⟩ := sign
  unfold ofToken?
  split
  · rename_i other hother
    cases hoperator.symm.trans hother
    rfl
  · rename_i hnone
    cases hoperator.symm.trans hnone

/-- An expression is told by its tokens. -/
theorem Expression.ofTokens?_tokens (phrase : Expression) :
    ofTokens? phrase.tokens = some phrase := by
  cases phrase with
  | single value =>
      simp [tokens, ofTokens?, value.ofToken?_token]
  | binary left sign right =>
      simp [tokens, ofTokens?, left.ofToken?_token, sign.ofToken?_token, right.ofToken?_token]

namespace Knowledge

/-- The type of the value with these tokens is known, if types are checked. -/
def ofValue (tokens : List Token) : Knowledge (Option ValueType) where
  Holds switches symbols answer :=
    ∃ value : Operand, tokens = [value.token] ∧
      (typed (.single value)).Holds switches symbols answer
  lasts hwithin := by
    rintro ⟨value, htokens, hvalue⟩
    exact ⟨value, htokens, (typed (.single value)).lasts hwithin hvalue⟩

/-- The spelling of the operator with these tokens is known. -/
def ofOperator (tokens : List Token) : Knowledge String where
  Holds _ _ answer := ∃ sign : Sign, tokens = [sign.word.token] ∧ answer = sign.operator.spelling
  lasts _ h := h

/-- The type of the expression with these tokens is known, if types are checked. -/
def ofExpression (tokens : List Token) : Knowledge (Option ValueType) where
  Holds switches symbols answer :=
    ∃ phrase : Expression, tokens = phrase.tokens ∧ (typed phrase).Holds switches symbols answer
  lasts hwithin := by
    rintro ⟨phrase, htokens, hphrase⟩
    exact ⟨phrase, htokens, (typed phrase).lasts hwithin hphrase⟩

variable {switches : Switches} {symbols : SymbolTable} {answer : Option ValueType}

/-- A type is known when types are checked. -/
theorem known_some
    {has : ValueType → Prop}
    {type : ValueType}
    (htypes : switches.checkTypes = true)
    (htype : has type) :
    (switches.checkTypes = true → ∃ found, has found ∧ some type = some found) ∧
      (switches.checkTypes = false → some type = none) := by
  refine ⟨fun _ => ⟨type, htype, rfl⟩, ?_⟩
  intro hoff
  cases htypes.symm.trans hoff

/-- No type is known when types are not checked. -/
theorem known_none
    {has : ValueType → Prop}
    (htypes : switches.checkTypes = false) :
    (switches.checkTypes = true → ∃ found, has found ∧ none = some found) ∧
      (switches.checkTypes = false → (none : Option ValueType) = none) := by
  refine ⟨?_, fun _ => rfl⟩
  intro hon
  cases htypes.symm.trans hon

/-- The type that is known is the one that the node of the phrase carries. -/
theorem type?_of_typed
    {phrase : Expression}
    (h : (typed phrase).Holds switches symbols answer) :
    answer = phrase.type? (switches.typesUnder symbols) := by
  cases htypes : switches.checkTypes with
  | false =>
      simp [Switches.typesUnder, htypes, Expression.type?, h.2 htypes]
  | true =>
      obtain ⟨type, ⟨warnings, htyping⟩, rfl⟩ := h.1 htypes
      simp [Switches.typesUnder, htypes, Expression.type?, htyping, Except.toOption]

theorem ofExpression_of_ofValue
    {tokens : List Token}
    (h : (ofValue tokens).Holds switches symbols answer) :
    (ofExpression tokens).Holds switches symbols answer := by
  obtain ⟨value, rfl, hvalue⟩ := h
  exact ⟨.single value, rfl, hvalue⟩

end Knowledge

namespace Recognizer

variable
    {ι α : Type}
    {production : Production}
    {read : List Token}
    {demand : Demand}
    {given : Knowledge ι}
    {first : Knowledge α}
    {switches : Switches}
    {state : State}

theorem performAll_checks (hdemand : production.demand? read = some demand) :
    Move.performAll switches (production.checks read) state =
      match demand.answer switches state.symbols with
      | .ok (symbols, warnings) => .ok () (state.learn symbols warnings)
      | .error violation => .error (.violation violation) state := by
  rw [Production.checks, hdemand]
  show Move.performAll switches [.step (.check demand)] state = _
  rw [Move.performAll_singleton, Move.perform]
  exact Step.perform_check demand

/-- A check has ended as it is ruled. -/
inductive Rules (switches : Switches) (first : Knowledge α) (state : State) :
    EStateM.Result Stop State α → Except Violation (List Warning) → Prop where
  | ok {answer : α} {warnings : List Warning}
      (hfirst : first.Holds switches state.symbols answer) :
      Rules switches first state (.ok answer (state.learn state.symbols warnings)) (.ok warnings)
  | error {violation : Violation} :
      Rules switches first state (.error (.violation violation) state) (.error violation)

/-- A check asks what is demanded at the mark if it follows the ruling when types are checked,
and does nothing otherwise. -/
theorem takes_checks
    {ended : EStateM.Result Stop State α}
    (hdemand : production.demand? read = some demand)
    (hkind : demand.isDeclaration = false)
    (hon : switches.checkTypes = true →
      Rules switches first state ended (demand.ruling state.symbols))
    (hoff : switches.checkTypes = false →
      ∃ answer, ended = .ok answer state ∧ first.Holds switches state.symbols answer) :
    Takes switches (some state.cursor.ahead) first state ended
      (Move.performAll switches (production.checks read) state) := by
  rw [performAll_checks hdemand]
  cases htypes : switches.checkTypes with
  | true =>
      have hrules := hon htypes
      rw [Demand.answer_of_types hkind htypes]
      generalize demand.ruling state.symbols = ruling at hrules
      cases hrules with
      | ok hfirst =>
          exact .ok rfl (.refl _) hfirst
      | error =>
          exact .error
  | false =>
      obtain ⟨answer, rfl, hfirst⟩ := hoff htypes
      rw [Demand.answer_of_no_types hkind htypes]
      show Takes _ _ _ _ _ (.ok () (state.learn state.symbols []))
      rw [State.learn_nothing]
      exact .ok rfl (.refl _) hfirst

/-- What is asked of the symbol table, if types are checked. -/
theorem takes_checks_of_rule
    {γ : Type}
    {ended : EStateM.Result Stop State (Option ValueType)}
    (rule : Except Violation γ)
    (typeOf : γ → ValueType)
    {found : Knowledge (Option ValueType)}
    (hdemand : production.demand? read = some demand)
    (hkind : demand.isDeclaration = false)
    (hruling : demand.ruling state.symbols = rule.map fun _ => [])
    (hon : switches.checkTypes = true →
      ended = (obey rule >>= fun answer => pure (some (typeOf answer))) state ∧
        ∀ answer, rule = .ok answer →
          found.Holds switches state.symbols (some (typeOf answer)))
    (hoff : switches.checkTypes = false →
      ended = .ok none state ∧ found.Holds switches state.symbols none) :
    Takes switches (some state.cursor.ahead) found state ended
      (Move.performAll switches (production.checks read) state) := by
  refine takes_checks hdemand hkind ?_ ?_
  · intro htypes
    obtain ⟨rfl, hfound⟩ := hon htypes
    rw [hruling]
    cases hrule : rule with
    | error violation =>
        exact .error
    | ok answer =>
        have hrules : Rules switches found state
            (.ok (some (typeOf answer)) (state.learn state.symbols [])) (.ok []) :=
          .ok (hfound answer hrule)
        rwa [State.learn_nothing] at hrules
  · intro htypes
    exact ⟨none, hoff htypes⟩

/-- The type of a value is asked for. -/
theorem asks_valueType (value : Operand) :
    Asks .value [value.token] given (.typed (.single value))
      (fun switches _ => valueType switches value.token) := by
  intro switches state earlier hgiven
  have hdemand : Production.value.demand? [value.token] = some (.value value) := by
    simp [Production.demand?, value.ofToken?_token]
  refine takes_checks_of_rule (TypeRules.value state.symbols value.token) id hdemand rfl rfl
    ?_ ?_
  · intro htypes
    simp only [valueType, htypes, if_true]
    refine ⟨rfl, fun type htype => Knowledge.known_some htypes ⟨[], ?_⟩⟩
    rw [Expression.typing, Operand.typing, htype]
    rfl
  · intro htypes
    simp only [valueType, htypes, Bool.false_eq_true, if_false]
    exact ⟨rfl, Knowledge.known_none htypes⟩

/-- The type of a variable is asked for. -/
theorem asks_variableType
    {name : String}
    (hdemand : production.demand? read = some (.lookup name)) :
    Asks production read given (.declared name)
      (fun switches _ => variableType switches name) := by
  intro switches state earlier hgiven
  refine takes_checks_of_rule (state.symbols.lookup name) Symbol.type hdemand rfl rfl ?_ ?_
  · intro htypes
    simp only [variableType, htypes, if_true]
    exact ⟨rfl, fun symbol hlookup => Knowledge.known_some htypes ⟨symbol, hlookup, rfl⟩⟩
  · intro htypes
    simp only [variableType, htypes, Bool.false_eq_true, if_false]
    exact ⟨rfl, Knowledge.known_none htypes⟩

/-- Warnings are given one by one or all at once. -/
theorem forM_warn (warnings : List Warning) (state : State) :
    warnings.forM warn state = .ok () (state.learn state.symbols warnings) := by
  induction warnings generalizing state with
  | nil =>
      rw [State.learn_nothing]
      rfl
  | cons warning rest ih =>
      have hwarn : warn warning state = .ok () (state.learn state.symbols [warning]) := by
        show EStateM.Result.ok () _ = _
        simp [State.learn, State.note]
      show (warn warning >>= fun _ => rest.forM warn) state = _
      rw [bind_of_ok hwarn, ih]
      simp [State.learn]

/-- The type of a value that is part of an expression. -/
theorem exists_type_of_value
    {value : Operand}
    {symbols : SymbolTable}
    {answer : Option ValueType}
    (htypes : switches.checkTypes = true)
    (h : (Knowledge.typed (.single value)).Holds switches symbols answer) :
    ∃ type, value.typing symbols = .ok type ∧ answer = some type := by
  obtain ⟨type, ⟨warnings, htyping⟩, rfl⟩ := h.1 htypes
  obtain ⟨found, hfound, hpure⟩ := except_bind_eq_ok.mp htyping
  cases hpure
  exact ⟨type, hfound, rfl⟩

/-- The type of two values with an operator between them is asked for. -/
theorem asks_binaryType {left sign right : List Token} :
    Asks .expression (left ++ sign ++ right)
      (((given.and (.ofValue left)).and (.ofOperator sign)).and (.ofValue right))
      (.ofExpression (left ++ sign ++ right))
      (fun switches earlier =>
        binaryType switches earlier.1.1.2 earlier.1.2 earlier.2) := by
  rintro switches state ⟨⟨⟨earlier, left?⟩, spelling⟩, right?⟩
  rintro ⟨⟨⟨hgiven, leftValue, rfl, hleft⟩, operator, rfl, hspelling⟩, rightValue, rfl, hright⟩
  dsimp only at hleft hspelling hright ⊢
  subst hspelling
  have hdemand : Production.expression.demand?
      ([leftValue.token] ++ [operator.word.token] ++ [rightValue.token]) =
        some (.operation leftValue operator rightValue) := by
    simp [Production.demand?, leftValue.ofToken?_token, operator.ofToken?_token,
      rightValue.ofToken?_token]
  refine takes_checks hdemand rfl ?_ ?_
  · intro htypes
    obtain ⟨leftType, hleftTyping, rfl⟩ := exists_type_of_value htypes hleft
    obtain ⟨rightType, hrightTyping, rfl⟩ := exists_type_of_value htypes hright
    have htyping : (Expression.binary leftValue operator rightValue).typing state.symbols =
        TypeRules.operation leftType operator.operator rightType := by
      rw [Expression.typing, hleftTyping, hrightTyping]
      rfl
    have hrule : TypeRules.binary leftType operator.operator.spelling rightType =
        TypeRules.operation leftType operator.operator rightType := by
      rw [TypeRules.binary, Operator.ofSpelling?_eq_some_iff.mpr rfl]
    simp only [binaryType, htypes, if_true, known, pure_bind, hrule, Demand.ruling, htyping]
    cases hoperation : TypeRules.operation leftType operator.operator rightType with
    | error violation =>
        exact .error
    | ok typing =>
        have hended : (typing.warnings.forM warn >>= fun _ => pure (some typing.type)) state =
            .ok (some typing.type) (state.learn state.symbols typing.warnings) := by
          rw [bind_of_ok (forM_warn typing.warnings state)]
          rfl
        show Rules _ _ _ ((typing.warnings.forM warn >>= fun _ => pure (some typing.type)) state)
          (.ok typing.warnings)
        rw [hended]
        refine .ok ⟨.binary leftValue operator rightValue, rfl, ?_⟩
        exact Knowledge.known_some htypes ⟨typing.warnings, by rw [htyping, hoperation]⟩
  · intro htypes
    rw [hleft.2 htypes, hright.2 htypes]
    simp only [binaryType, htypes, Bool.false_eq_true, if_false]
    exact ⟨none, rfl, .binary leftValue operator rightValue, rfl, Knowledge.known_none htypes⟩

/-- Whether a condition is a truth value is asked. -/
theorem asks_checkCondition {tokens : List Token} :
    Asks .condition tokens (given.and (.ofExpression tokens)) (.nothing : Knowledge Unit)
      (fun switches earlier => checkCondition switches earlier.2) := by
  rintro switches state ⟨earlier, type?⟩ ⟨hgiven, phrase, rfl, hphrase⟩
  dsimp only at hphrase ⊢
  have hdemand : Production.condition.demand? phrase.tokens = some (.condition phrase) := by
    simp [Production.demand?, phrase.ofTokens?_tokens]
  refine takes_checks hdemand rfl ?_ ?_
  · intro htypes
    obtain ⟨type, ⟨warnings, htyping⟩, rfl⟩ := hphrase.1 htypes
    simp only [checkCondition, htypes, if_true, known, pure_bind, Demand.ruling, htyping]
    show Rules _ _ _ _ (TypeRules.condition type >>= fun _ => pure [])
    cases TypeRules.condition type with
    | error violation =>
        exact .error
    | ok answer =>
        have hrules : Rules switches (.nothing : Knowledge Unit) state
            (.ok () (state.learn state.symbols [])) (.ok []) := .ok trivial
        rwa [State.learn_nothing] at hrules
  · intro htypes
    simp only [checkCondition, htypes, Bool.false_eq_true, if_false]
    exact ⟨(), rfl, trivial⟩

/-- Whether a variable can hold a value is asked. -/
theorem asks_checkAssignment {name equals : Token} {tokens : List Token} :
    Asks .assignment ([name] ++ [equals] ++ tokens)
      ((given.and (.declared name.text)).and (.ofExpression tokens)) (.nothing : Knowledge Unit)
      (fun switches earlier => checkAssignment switches earlier.1.2 earlier.2) := by
  rintro switches state ⟨⟨earlier, target?⟩, type?⟩ ⟨⟨hgiven, htarget⟩, phrase, rfl, hphrase⟩
  dsimp only at htarget hphrase ⊢
  have hdemand : Production.assignment.demand? ([name] ++ [equals] ++ phrase.tokens) =
      some (.assignment name.text phrase) := by
    simp [Production.demand?, phrase.ofTokens?_tokens]
  refine takes_checks hdemand rfl ?_ ?_
  · intro htypes
    obtain ⟨type, ⟨warnings, htyping⟩, rfl⟩ := hphrase.1 htypes
    obtain ⟨_, ⟨symbol, hlookup, rfl⟩, rfl⟩ := htarget.1 htypes
    simp only [checkAssignment, htypes, if_true, known, pure_bind, Demand.ruling, htyping,
      hlookup]
    show Rules _ _ _ _ (TypeRules.assignment symbol.type type >>= fun _ => pure [])
    cases TypeRules.assignment symbol.type type with
    | error violation =>
        exact .error
    | ok answer =>
        have hrules : Rules switches (.nothing : Knowledge Unit) state
            (.ok () (state.learn state.symbols [])) (.ok []) := .ok trivial
        rwa [State.learn_nothing] at hrules
  · intro htypes
    simp only [checkAssignment, htypes, Bool.false_eq_true, if_false]
    exact ⟨(), rfl, trivial⟩

/-- The variable of a declaration is added. -/
theorem asks_addVariable
    {word name semicolon : Token}
    {spelling : String}
    {type : ValueType}
    (hspelling : word.spelling? = some spelling)
    (htype : ValueType.ofDeclarator? spelling = some type) :
    Asks .declaration [word, name, semicolon] given (.nothing : Knowledge Unit)
      (fun switches _ => addVariable switches spelling name.text) := by
  intro switches state earlier hgiven
  have hdemand : Production.declaration.demand? [word, name, semicolon] =
      some (.declaration type name.text) := by
    simp [Production.demand?, hspelling, htype]
  rw [performAll_checks hdemand, Demand.answer_declaration]
  simp only [addVariable, htype]
  cases switches.declare with
  | false =>
      show Takes _ _ _ _ (.ok () state) (.ok () (state.learn state.symbols []))
      rw [State.learn_nothing]
      exact .ok rfl (.refl _) trivial
  | true =>
      show Takes _ _ _ _ ((obey (state.symbols.declare name.text type) >>= fun symbols =>
        modify fun state => { state with symbols := symbols }) state) _
      cases hdeclare : state.symbols.declare name.text type with
      | error violation =>
          exact .error
      | ok extended =>
          have hlearn : state.learn extended [] = { state with symbols := extended } := by
            simp [State.learn]
          show Takes _ _ _ _ (.ok () { state with symbols := extended })
            (.ok () (state.learn extended []))
          rw [hlearn]
          exact .ok rfl (SymbolTable.within_of_declare hdeclare) trivial

end Recognizer

end SimpleC
