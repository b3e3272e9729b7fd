import SimpleC.Proofs.Checking.Rulings
import SimpleC.Proofs.Phrase.Derivation
import SimpleC.Proofs.Recognizer.Reading

/-!
# Reading values and expressions

The phrases that have a type. When types are not checked, they are read without
any check and have none; otherwise each of them is checked, and its node carries
its type under every symbol table that the final one may be.
-/

namespace SimpleC

namespace Switches

/-- The check of a type, if types are checked. -/
def typing (switches : Switches) (check : Checking ValueType) : Checking (Option ValueType) :=
  if switches.checkTypes then
    do
      let type ← check
      return some type
  else
    pure none

/-- The same type is known on both sides, or none since types are not checked. -/
def Known (switches : Switches) (found result : Option ValueType) : Prop :=
  found = result ∧ result.isSome = switches.checkTypes

/-- Types are known when they are checked. -/
theorem Known.exists_type
    {switches : Switches}
    {found result : Option ValueType}
    (h : switches.Known found result)
    (htypes : switches.checkTypes = true) :
    ∃ type, found = some type ∧ result = some type := by
  obtain ⟨rfl, hsome⟩ := h
  rw [htypes, Option.isSome_iff_exists] at hsome
  obtain ⟨type, rfl⟩ := hsome
  exact ⟨type, rfl, rfl⟩

/-- No type is known when types are not checked. -/
theorem Known.eq_none
    {switches : Switches}
    {found result : Option ValueType}
    (h : switches.Known found result)
    (htypes : ¬switches.checkTypes = true) :
    found = none ∧ result = none := by
  obtain ⟨rfl, hsome⟩ := h
  cases found with
  | none =>
      exact ⟨rfl, rfl⟩
  | some type =>
      exact absurd hsome.symm htypes

/-- A type that is known is the one that the phrase has under every table of types,
if a check that ends well tells that one. -/
theorem type_of_typing
    {switches : Switches}
    {check : Checking ValueType}
    {findings after : Findings}
    {found result : Option ValueType}
    {symbols : SymbolTable}
    (type? : Option SymbolTable → Option ValueType)
    (hnone : type? none = none)
    (hsome : ∀ type, check findings = .ok type after → type? (some symbols) = some type)
    (hcheck : switches.typing check findings = .ok result after)
    (hknown : switches.Known found result) :
    found = type? (switches.typesUnder symbols) := by
  obtain ⟨rfl, _⟩ := hknown
  unfold typing at hcheck
  unfold typesUnder
  split at hcheck
  · rename_i htypes
    obtain ⟨type, middle, htype, hpure⟩ := bind_eq_ok.mp hcheck
    cases hpure
    rw [if_pos htypes]
    exact (hsome type htype).symm
  · rename_i htypes
    cases hcheck
    rw [if_neg htypes, hnone]

end Switches

/-- A value that has a type keeps it under a larger table. -/
theorem Operand.type?_of_check
    {value : Operand}
    {findings after : Findings}
    {type : ValueType}
    {symbols : SymbolTable}
    (hcheck : Checking.operand value findings = .ok type after)
    (hsymbols : after.symbols.Within symbols) :
    value.type? (some symbols) = some type := by
  obtain ⟨htyping, rfl⟩ := Checking.operand_eq_ok.mp hcheck
  have hlarger := (value.typing_of_within hsymbols).eq_ok htyping
  simp [type?, hlarger, Except.toOption]

/-- An expression that has a type keeps it under a larger table. -/
theorem Expression.type?_of_check
    {phrase : Expression}
    {findings after : Findings}
    {type : ValueType}
    {symbols : SymbolTable}
    (hcheck : Checking.expression phrase findings = .ok type after)
    (hsymbols : after.symbols.Within symbols) :
    phrase.type? (some symbols) = some type := by
  obtain ⟨warnings, htyping, rfl⟩ := Checking.expression_eq_ok.mp hcheck
  have hlarger := (phrase.typing_of_within hsymbols).eq_ok htyping
  simp [type?, hlarger, Except.toOption]

namespace Checking

/-- The type of two values with an operator between them, if theirs are known. -/
def binary? (operator : Operator) :
    Option ValueType → Option ValueType → Checking (Option ValueType)
  | some left, some right => do
      let typing ← obey (TypeRules.operation left operator right)
      warn typing.warnings
      return some typing.type
  | _, _ => pure none

/-- A value may be assigned to a variable, if their types are known. -/
def assignment? : Option ValueType → Option ValueType → Checking Unit
  | some target, some value => obey (TypeRules.assignment target value)
  | _, _ => pure ()

/-- A value may serve as a condition, if its type is known. -/
def condition? : Option ValueType → Checking Unit
  | some type => obey (TypeRules.condition type)
  | none => pure ()

theorem condition?_eq_ok
    {type? : Option ValueType}
    {findings after : Findings}
    (h : condition? type? findings = .ok () after) :
    after = findings := by
  cases type? with
  | none =>
      cases h
      rfl
  | some type =>
      exact (obey_eq_ok.mp h).2

theorem expression_single (value : Operand) : expression (.single value) = operand value := by
  funext findings
  show (obey (Expression.typing findings.symbols (.single value)) >>= _) findings =
    obey (value.typing findings.symbols) findings
  rw [Expression.typing]
  cases value.typing findings.symbols with
  | error violation =>
      rfl
  | ok type =>
      show EStateM.Result.ok type _ = EStateM.Result.ok type findings
      simp

/-- The check of an expression with an operator takes one step after the other. -/
theorem expression_binary (left right : Operand) (sign : Sign) :
    expression (.binary left sign right) =
      (do
        let leftType ← operand left
        let rightType ← operand right
        let typing ← obey (TypeRules.operation leftType sign.operator rightType)
        warn typing.warnings
        return typing.type) := by
  funext findings
  show (obey (Expression.typing findings.symbols (.binary left sign right)) >>= _) findings =
    (obey (left.typing findings.symbols) >>= _) findings
  rw [Expression.typing]
  cases left.typing findings.symbols with
  | error violation =>
      rfl
  | ok leftType =>
      show _ = (obey (right.typing findings.symbols) >>= _) findings
      cases right.typing findings.symbols with
      | error violation =>
          rfl
      | ok rightType =>
          rfl

/-- The checks of two values and of the operator between them make up the check of
the expression. -/
theorem typing_binary
    (switches : Switches)
    (left right : Operand)
    (sign : Sign) :
    (do
      let left? ← switches.typing (operand left)
      let right? ← switches.typing (operand right)
      binary? sign.operator left? right?) =
      switches.typing (expression (.binary left sign right)) := by
  unfold Switches.typing
  split
  · rw [expression_binary]
    simp [binary?]
  · rfl

end Checking

namespace Recognizer

variable {switches : Switches} {rest : List Token}

/-- What is asked of the symbol table has a type, if types are checked. -/
theorem Reads.typing
    {α : Type}
    {ask : Recognizer α}
    {typeOf : α → ValueType}
    {check : Checking ValueType}
    (hask : Reads switches rest rest (fun answer type => typeOf answer = type) (fun _ => [])
      ask check) :
    Reads switches rest rest switches.Known (fun _ => [])
      (if switches.checkTypes then do
        let answer ← ask
        return some (typeOf answer)
      else
        return none)
      (switches.typing check) := by
  unfold Switches.typing
  split
  · rename_i htypes
    refine hask.check_bind ?_
    rintro answer _ rfl
    exact .pure ⟨rfl, htypes.symm⟩
  · rename_i htypes
    exact .pure ⟨rfl, by simpa using htypes⟩

theorem reads_valueType (value : Operand) :
    Reads switches rest rest switches.Known (fun _ => [])
      (valueType switches value.token) (switches.typing (Checking.operand value)) := by
  have hask : Reads switches rest rest Eq (fun _ => [])
      (do obey (TypeRules.value (← get).symbols value.token)) (Checking.operand value) := by
    refine Reads.get.check_bind ?_
    rintro state findings rfl
    exact Reads.obey (TypeRules.value state.symbols value.token)
  exact Reads.typing hask

theorem reads_lookup (name : String) :
    Reads switches rest rest Eq (fun _ => []) (lookup name) (Checking.lookup name) := by
  refine Reads.get.check_bind ?_
  rintro state findings rfl
  exact Reads.obey (state.symbols.lookup name)

theorem reads_variableType (name : String) :
    Reads switches rest rest switches.Known (fun _ => [])
      (variableType switches name)
      (switches.typing (Symbol.type <$> Checking.lookup name)) := by
  have hask : Reads switches rest rest (fun symbol type => symbol.type = type) (fun _ => [])
      (lookup name) (Symbol.type <$> Checking.lookup name) := by
    rw [map_eq_pure_bind, ← bind_pure (lookup name)]
    refine (reads_lookup name).check_bind ?_
    rintro symbol _ rfl
    exact .pure rfl
  exact Reads.typing hask

theorem reads_value (value : Operand) :
    Reads switches (value.token :: rest) rest switches.Known
      (fun symbols => [value.node (switches.typesUnder symbols)])
      (Recognizer.value switches) (switches.typing (Checking.operand value)) := by
  obtain ⟨wanted, hwanted⟩ := Option.isSome_iff_exists.mp value.isValue
  refine Reads.producing ?_ ?_
  · refine Reads.peek_bind ?_
    simp only [hwanted]
    exact Reads.consume_bind (Token.accepts_of_valueExpectation? hwanted)
      (reads_valueType value)
  · intro answer result findings after hcheck hknown symbols hsymbols
    exact Switches.type_of_typing (fun symbols? => value.type? symbols?) rfl
      (fun type htype => value.type?_of_check htype hsymbols) hcheck hknown

/-- An operator is read without any check. -/
theorem reads_operator (sign : Sign) :
    Reads switches (sign.word.token :: rest) rest
      (fun answer _ => answer = sign.operator.spelling)
      (fun _ => [sign.node]) (operator switches) (pure ()) := by
  refine Reads.plain .operator ?_
  refine Reads.nextSpelling_bind sign.word.spelling?_token ?_
  exact (Reads.expect sign.word).bind_check fun _ _ _ => .pure rfl

/-- The types of two values are combined by the operator between them. -/
theorem reads_binaryType
    (sign : Sign)
    {left? right? left right : Option ValueType}
    (hleft : switches.Known left? left)
    (hright : switches.Known right? right) :
    Reads switches rest rest switches.Known (fun _ => [])
      (binaryType switches left? sign.operator.spelling right?)
      (Checking.binary? sign.operator left right) := by
  unfold binaryType
  split
  · rename_i htypes
    obtain ⟨leftType, rfl, rfl⟩ := hleft.exists_type htypes
    obtain ⟨rightType, rfl, rfl⟩ := hright.exists_type htypes
    have hoperator : TypeRules.binary leftType sign.operator.spelling rightType =
        TypeRules.operation leftType sign.operator rightType := by
      rw [TypeRules.binary, Operator.ofSpelling?_eq_some_iff.mpr rfl]
    simp only [known, pure_bind, hoperator, Checking.binary?]
    refine (Reads.obey _).check_bind ?_
    rintro typing _ rfl
    refine (Reads.warn typing.warnings).check_bind ?_
    rintro _ _ _
    exact .pure ⟨rfl, by simp [htypes]⟩
  · rename_i htypes
    obtain ⟨rfl, rfl⟩ := hleft.eq_none htypes
    obtain ⟨rfl, rfl⟩ := hright.eq_none htypes
    exact .pure ⟨rfl, by simpa using htypes⟩

/-- An expression is read and its type checked, if no operator follows. -/
theorem reads_expression
    (phrase : Expression)
    {token : Token}
    {tail : List Token}
    (hoperator : token.isOperator = false) :
    Reads switches (phrase.tokens ++ token :: tail) (token :: tail) switches.Known
      (fun symbols => [phrase.node (switches.typesUnder symbols)])
      (expression switches) (switches.typing (Checking.expression phrase)) := by
  refine Reads.producing ?_ ?_
  · cases phrase with
    | single value =>
        rw [Checking.expression_single, ← bind_pure (switches.typing _)]
        refine (reads_value value).bind_check ?_
        intro left? result hknown
        refine Reads.peek_bind ?_
        rw [hoperator]
        exact .pure hknown
    | binary left sign right =>
        rw [← Checking.typing_binary]
        refine Reads.bind (reads_value left) ?_
        intro left? leftType hleft
        refine Reads.peek_bind ?_
        rw [sign.isOperator_token]
        refine (reads_operator sign).read_bind ?_
        rintro _ rfl
        refine (reads_value right).bind_check ?_
        intro right? rightType hright
        exact reads_binaryType sign hleft hright
  · intro answer result findings after hcheck hknown symbols hsymbols
    exact Switches.type_of_typing (fun symbols? => phrase.type? symbols?) rfl
      (fun type htype => phrase.type?_of_check htype hsymbols) hcheck hknown

theorem reads_checkAssignment
    {target? value? target value : Option ValueType}
    (htarget : switches.Known target? target)
    (hvalue : switches.Known value? value) :
    Reads switches rest rest (fun _ _ => True) (fun _ => [])
      (checkAssignment switches target? value?) (Checking.assignment? target value) := by
  unfold checkAssignment
  split
  · rename_i htypes
    obtain ⟨targetType, rfl, rfl⟩ := htarget.exists_type htypes
    obtain ⟨valueType, rfl, rfl⟩ := hvalue.exists_type htypes
    simp only [known, pure_bind, Checking.assignment?]
    exact (Reads.obey _).mono fun _ _ _ => trivial
  · rename_i htypes
    obtain ⟨rfl, rfl⟩ := htarget.eq_none htypes
    exact .pure trivial

theorem reads_checkCondition
    {type? type : Option ValueType}
    (htype : switches.Known type? type) :
    Reads switches rest rest (fun _ _ => True) (fun _ => [])
      (checkCondition switches type?) (Checking.condition? type) := by
  unfold checkCondition
  split
  · rename_i htypes
    obtain ⟨found, rfl, rfl⟩ := htype.exists_type htypes
    simp only [known, pure_bind, Checking.condition?]
    exact (Reads.obey _).mono fun _ _ _ => trivial
  · rename_i htypes
    obtain ⟨rfl, rfl⟩ := htype.eq_none htypes
    exact .pure trivial

end Recognizer

end SimpleC
