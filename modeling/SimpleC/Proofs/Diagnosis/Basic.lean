import SimpleC.Proofs.Course.InPlace
import SimpleC.Proofs.Course.Passing
import SimpleC.Proofs.Course.TypePhases

/-!
# Diagnoses

What a violation says about the tokens on both sides of the place at which a recognition
ends, and about the variables that are declared by then. Violations of the grammar name the
first token ahead. All others are about the tokens that were just consumed: the last one is
a variable that is not declared, the last three declare a variable again, or the last ones
are an expression whose types break a rule.
-/

namespace SimpleC

/-- The violation is there, with these tokens consumed and those ahead: it is what the rules
of the language find, and names what is found. -/
inductive Violation.Diagnoses (symbols : SymbolTable) :
    List Token → List Token → Violation → Prop
  | grammar {consumed ahead : List Token} {violation : Violation}
      (hstops : violation.StopsAt ahead) :
      Diagnoses symbols consumed ahead violation
  | undefined {earlier ahead : List Token}
      (name : Identifier)
      (hnew : name.token.text ∉ symbols.names) :
      Diagnoses symbols (earlier ++ [name.token]) ahead (.undefined name.token.text)
  | redefined {earlier ahead : List Token}
      (declarator : Declarator) (name : Identifier) (semicolon : Word ";")
      (hbound : name.token.text ∈ symbols.names) :
      Diagnoses symbols
        (earlier ++ [declarator.word.token, name.token, semicolon.token]) ahead
        (.redefined name.token.text)
  /-- The operands of an arithmetic operator are not of one numeric type. -/
  | arithmetic {earlier ahead : List Token} {leftType rightType : ValueType}
      (left : Operand) (sign : Sign) (right : Operand)
      (hleft : left.HasType symbols.environment leftType)
      (hright : right.HasType symbols.environment rightType)
      (hsign : sign.operator.isArithmetic = true)
      (hbroken : ∀ type, ¬sign.operator.HasType leftType rightType type) :
      Diagnoses symbols (earlier ++ [left.token, sign.word.token, right.token]) ahead
        (.arithmeticOperands sign.word.token.text)
  /-- A comparison of different types, unless it is the one of a real for equality. -/
  | comparison {earlier ahead : List Token} {leftType rightType : ValueType}
      (left : Operand) (sign : Sign) (right : Operand)
      (hleft : left.HasType symbols.environment leftType)
      (hright : right.HasType symbols.environment rightType)
      (hsign : sign.operator.isArithmetic = false)
      (hbroken : ∀ type, ¬sign.operator.HasType leftType rightType type) :
      Diagnoses symbols (earlier ++ [left.token, sign.word.token, right.token]) ahead
        (.operandMismatch leftType sign.word.token.text rightType)
  /-- The variable cannot hold the value. -/
  | assignment {earlier ahead : List Token} {target type : ValueType}
      (name : Identifier) (equals : Word "=") (phrase : Expression)
      (hbound : symbols.environment name.token.text = some target)
      (htype : phrase.HasType symbols.environment type)
      (hbroken : ¬(type = target ∨ target = .real ∧ type = .int)) :
      Diagnoses symbols (earlier ++ name.token :: equals.token :: phrase.tokens) ahead
        (.notAssignable target type)
  | condition {earlier ahead : List Token} {type : ValueType}
      (opening : Word "if") (left : Word "(") (phrase : Expression)
      (htype : phrase.HasType symbols.environment type)
      (hbroken : type ≠ .bool) :
      Diagnoses symbols (earlier ++ opening.token :: left.token :: phrase.tokens) ahead
        (.conditionNotBool type)

/-- An operator is written as it is spelled. -/
theorem Sign.text_token (sign : Sign) : sign.word.token.text = sign.operator.spelling := by
  have hspelled := sign.word.accepted
  rw [Expectation.accepts, Token.isSpelled_eq_true_iff] at hspelled
  exact hspelled.2

section Answers

variable
    {switches : Switches}
    {start findings : Findings}
    {earlier own : List Step}
    {ahead : List Token}
    {demand : Demand}
    {production : Production}
    {violation : Violation}

/-- A variable that is looked up and not found is the last token that was read. -/
theorem Violation.diagnoses_lookup
    {consumed : List Token}
    {symbols : SymbolTable}
    {name : Identifier}
    (h : symbols.lookup name.token.text = .error violation) :
    violation.Diagnoses symbols (consumed ++ [name.token]) ahead := by
  obtain ⟨hnew, rfl⟩ := SymbolTable.lookup_eq_error_iff.mp h
  exact .undefined name hnew

/-- What is wrong with an operator is the types of its operands. -/
theorem Violation.diagnoses_operation
    {consumed : List Token}
    {symbols : SymbolTable}
    {left right : Operand}
    {sign : Sign}
    {leftType rightType : ValueType}
    (hleft : left.typing symbols = .ok leftType)
    (hright : right.typing symbols = .ok rightType)
    (h : TypeRules.operation leftType sign.operator rightType = .error violation) :
    violation.Diagnoses symbols (consumed ++ [left.token, sign.word.token, right.token])
      ahead := by
  rw [Operand.typing_eq_ok_iff] at hleft hright
  have hbroken : ∀ type, ¬sign.operator.HasType leftType rightType type := by
    intro type htype
    obtain ⟨_, hok⟩ := Operator.operation_eq_ok_iff.mpr htype
    cases h.symm.trans hok
  rcases TypeRules.violation_of_operation h with ⟨hsign, rfl⟩ | ⟨hsign, rfl⟩
  · rw [← congrArg Violation.arithmeticOperands sign.text_token]
    exact .arithmetic left sign right hleft hright hsign hbroken
  · rw [← congrArg (Violation.operandMismatch leftType · rightType) sign.text_token]
    exact .comparison left sign right hleft hright hsign hbroken

/-- A name that is declared again is the one of the declaration that was just read. -/
theorem Violation.diagnoses_declaration
    {consumed : List Token}
    {symbols : SymbolTable}
    {declarator : Declarator}
    {name : Identifier}
    {semicolon : Word ";"}
    (h : (Demand.declaration declarator.type name.token.text).answer switches symbols =
      .error violation) :
    violation.Diagnoses symbols
      (consumed ++ [declarator.word.token, name.token, semicolon.token]) ahead := by
  rw [Demand.answer_declaration] at h
  split at h
  · obtain ⟨hbound, rfl⟩ :=
      (SymbolTable.declare_eq_error_iff _ _ _ _).mp (except_map_eq_error.mp h)
    exact .redefined declarator name semicolon hbound
  · cases h

/-- An assignment whose value has got a type fails for this type. -/
theorem Violation.diagnoses_assignment
    {consumed : List Token}
    {symbols : SymbolTable}
    {name : Identifier}
    {equals : Word "="}
    {phrase : Expression}
    {target : Symbol}
    {typing : BinaryTyping}
    (hlookup : symbols.lookup name.token.text = .ok target)
    (htyping : phrase.typing symbols = .ok typing)
    (h : (Demand.assignment name.token.text phrase).ruling symbols = .error violation) :
    violation.Diagnoses symbols (consumed ++ name.token :: equals.token :: phrase.tokens)
      ahead := by
  have hrule : TypeRules.assignment target.type typing.type = .error violation := by
    rw [Demand.ruling, hlookup, htyping] at h
    exact except_map_eq_error.mp h
  rw [TypeRules.violation_of_assignment hrule]
  refine .assignment name equals phrase ?_ ?_ ?_
  · exact SymbolTable.environment_eq_some_iff.mpr ⟨target, hlookup, rfl⟩
  · exact Expression.typing_eq_ok_iff.mp ⟨typing.warnings, htyping⟩
  · intro hfits
    rw [TypeRules.assignment_eq_ok_iff.mpr hfits] at hrule
    cases hrule

/-- A condition that has got a type fails for this type. -/
theorem Violation.diagnoses_condition
    {consumed : List Token}
    {symbols : SymbolTable}
    {opening : Word "if"}
    {left : Word "("}
    {phrase : Expression}
    {typing : BinaryTyping}
    (htyping : phrase.typing symbols = .ok typing)
    (h : (Demand.condition phrase).ruling symbols = .error violation) :
    violation.Diagnoses symbols (consumed ++ opening.token :: left.token :: phrase.tokens)
      ahead := by
  have hrule : TypeRules.condition typing.type = .error violation := by
    rw [Demand.ruling, htyping] at h
    exact except_map_eq_error.mp h
  rw [TypeRules.violation_of_condition hrule]
  refine .condition opening left phrase ?_ ?_
  · exact Expression.typing_eq_ok_iff.mp ⟨typing.warnings, htyping⟩
  · intro hbool
    rw [TypeRules.condition_eq_ok_iff.mpr hbool] at hrule
    cases hrule

/-- A demand that is not met at a mark is diagnosed by the tokens that led to it. -/
theorem Production.Marks.diagnoses
    (hmarks : production.Marks own demand)
    (hopening : production = .condition → Step.OpensConditional earlier)
    (hpasses : Step.Passes switches own start findings)
    (hanswer : demand.answer switches findings.symbols = .error violation) :
    violation.Diagnoses findings.symbols (Step.tokens (earlier ++ own)) ahead := by
  rw [Step.tokens_append]
  cases hkind : demand.isDeclaration with
  | true =>
      cases hmarks with
      | declaration declarator name semicolon =>
          exact Violation.diagnoses_declaration hanswer
      | _ =>
          cases hkind
  | false =>
      have htypes : switches.checkTypes = true := by
        by_contra hoff
        rw [Demand.answer_of_no_types hkind (by simpa using hoff)] at hanswer
        cases hanswer
      rw [Demand.answer_of_types hkind htypes, except_map_eq_error] at hanswer
      cases hmarks with
      | declaration =>
          cases hkind
      | input word arrows name =>
          show violation.Diagnoses _ (_ ++ ([word.token, arrows.token] ++ [name.token])) _
          rw [← List.append_assoc]
          exact Violation.diagnoses_lookup (except_map_eq_error.mp hanswer)
      | target name =>
          exact Violation.diagnoses_lookup (except_map_eq_error.mp hanswer)
      | assignment name equals phrase =>
          rw [Step.passes_read, Step.passes_check] at hpasses
          obtain ⟨symbols, warnings, hlookup, hphrase⟩ := hpasses
          rw [Demand.answer_of_types rfl htypes] at hlookup
          obtain ⟨_, hruling, hfound⟩ := except_map_eq_ok.mp hlookup
          obtain ⟨target, htarget, _⟩ := except_map_eq_ok.mp hruling
          cases hfound
          rw [Step.passes_read] at hphrase
          obtain ⟨hsame, typing, htyping⟩ := Expression.typing_of_passes htypes hphrase
          rw [← hsame] at htarget htyping
          simpa using Violation.diagnoses_assignment htarget htyping hanswer
      | condition phrase =>
          obtain ⟨before, opening, left, rfl⟩ := hopening rfl
          obtain ⟨hsame, typing, htyping⟩ := Expression.typing_of_passes htypes hpasses
          rw [← hsame] at htyping
          simpa using Violation.diagnoses_condition htyping hanswer
      | operation left sign right =>
          obtain ⟨hsame, leftType, rightType, hleft, hright⟩ :=
            Operand.typing_of_passes_both htypes hpasses
          rw [← hsame] at hleft hright
          have hoperation : TypeRules.operation leftType sign.operator rightType =
              .error violation := by
            rw [Demand.ruling, Expression.typing, hleft, hright] at hanswer
            exact except_map_eq_error.mp hanswer
          simpa using Violation.diagnoses_operation hleft hright hoperation
      | value operand =>
          obtain ⟨name, hname, hnew, rfl⟩ :=
            Operand.undefined_of_typing (except_map_eq_error.mp hanswer)
          show Violation.Diagnoses _ (_ ++ [operand.token]) _ _
          rw [← hname]
          exact .undefined name hnew

end Answers

end SimpleC
