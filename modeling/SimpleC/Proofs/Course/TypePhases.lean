import SimpleC.Proofs.Course.Step
import SimpleC.Proofs.StaticSemantics.Typing

/-!
# Violations of the type rules

What the type rules find belongs to one of two phases: a variable is not declared, or
types do not go together. In particular a value that is typed is a value, so that none
of these violations is one of the grammar.
-/

namespace SimpleC

/-- The phases of violations that are found when types are checked. -/
def typePhases : List Phase :=
  [.undefined, .type]

/-- A violation that is found when types are checked: a variable is not declared, or types
do not go together. -/
inductive Violation.OfTypes (symbols : SymbolTable) : Violation → Prop
  | undefined {name : String}
      (hnew : name ∉ symbols.names) :
      OfTypes symbols (.undefined name)
  | type {violation : Violation}
      (hphase : violation.phase = .type) :
      OfTypes symbols violation

namespace Violation.OfTypes

variable {symbols : SymbolTable}

theorem phase_mem
    {violation : Violation}
    (h : violation.OfTypes symbols) :
    violation.phase ∈ typePhases := by
  cases h with
  | undefined =>
      simp [typePhases, Violation.phase]
  | type hphase =>
      simp [typePhases, hphase]

/-- A variable that is found not to be declared is not declared. -/
theorem notMem_names
    {name : String}
    (h : (Violation.undefined name).OfTypes symbols) :
    name ∉ symbols.names := by
  cases h with
  | undefined hnew =>
      exact hnew
  | type hphase =>
      cases hphase

end Violation.OfTypes

theorem SymbolTable.ofTypes_of_lookup
    {symbols : SymbolTable}
    {name : String}
    {violation : Violation}
    (h : symbols.lookup name = .error violation) :
    violation.OfTypes symbols := by
  obtain ⟨hnew, rfl⟩ := lookup_eq_error_iff.mp h
  exact .undefined hnew

/-- A value that has no type is a variable that is not declared. -/
theorem Operand.undefined_of_typing
    {value : Operand}
    {symbols : SymbolTable}
    {violation : Violation}
    (h : value.typing symbols = .error violation) :
    ∃ name : Identifier, name.token = value.token ∧
      name.token.text ∉ symbols.names ∧ violation = .undefined name.token.text := by
  unfold typing TypeRules.value at h
  cases hkind : value.token.kind with
  | identifier =>
      simp only [hkind] at h
      have hlookup := SymbolTable.lookup_eq_error_iff.mp (except_map_eq_error.mp h)
      exact ⟨⟨value.token, by simp [Expectation.accepts, hkind]⟩, rfl, hlookup⟩
  | intLiteral | realLiteral | strLiteral =>
      simp only [hkind] at h
      cases h
  | keyword | operator | punctuation | endMarker =>
      have hbool := value.text_mem_of_bare (by rw [hkind]; rfl)
      simp only [hkind, hbool, if_true] at h
      cases h

theorem Operand.ofTypes_of_typing
    {value : Operand}
    {symbols : SymbolTable}
    {violation : Violation}
    (h : value.typing symbols = .error violation) :
    violation.OfTypes symbols := by
  obtain ⟨_, _, hnew, rfl⟩ := undefined_of_typing h
  exact .undefined hnew

/-- What is wrong with the operands of an operator is their types. -/
theorem TypeRules.violation_of_operation
    {left right : ValueType}
    {operator : Operator}
    {violation : Violation}
    (h : operation left operator right = .error violation) :
    operator.isArithmetic = true ∧ violation = .arithmeticOperands operator.spelling ∨
      operator.isArithmetic = false ∧
        violation = .operandMismatch left operator.spelling right := by
  unfold operation at h
  split_ifs at h with harithmetic hnumeric hequality hsame
  · cases h
    exact .inl ⟨harithmetic, rfl⟩
  · cases h
    exact .inr ⟨by simpa using harithmetic, rfl⟩

theorem TypeRules.violation_of_assignment
    {target value : ValueType}
    {violation : Violation}
    (h : assignment target value = .error violation) :
    violation = .notAssignable target value := by
  unfold assignment at h
  split at h
  · cases h
  · cases h
    rfl

theorem TypeRules.violation_of_condition
    {type : ValueType}
    {violation : Violation}
    (h : condition type = .error violation) :
    violation = .conditionNotBool type := by
  unfold condition at h
  split at h
  · cases h
  · cases h
    rfl

theorem Expression.ofTypes_of_typing
    {phrase : Expression}
    {symbols : SymbolTable}
    {violation : Violation}
    (h : phrase.typing symbols = .error violation) :
    violation.OfTypes symbols := by
  cases phrase with
  | single value =>
      rcases except_bind_eq_error.mp h with hvalue | ⟨_, _, hpure⟩
      · exact Operand.ofTypes_of_typing hvalue
      · cases hpure
  | binary left sign right =>
      rcases except_bind_eq_error.mp h with hleft | ⟨leftType, _, h⟩
      · exact Operand.ofTypes_of_typing hleft
      · rcases except_bind_eq_error.mp h with hright | ⟨rightType, _, hoperation⟩
        · exact Operand.ofTypes_of_typing hright
        · rcases TypeRules.violation_of_operation hoperation with ⟨_, rfl⟩ | ⟨_, rfl⟩ <;>
            exact .type rfl

namespace Demand

variable
    {switches : Switches}
    {symbols : SymbolTable}
    {demand : Demand}
    {violation : Violation}

theorem ofTypes_of_ruling (h : demand.ruling symbols = .error violation) :
    violation.OfTypes symbols := by
  cases demand with
  | declaration type name =>
      cases h
  | lookup name =>
      exact SymbolTable.ofTypes_of_lookup (except_map_eq_error.mp h)
  | value operand =>
      exact Operand.ofTypes_of_typing (except_map_eq_error.mp h)
  | operation left sign right =>
      rcases except_bind_eq_error.mp h with htyping | ⟨_, _, hpure⟩
      · exact Expression.ofTypes_of_typing htyping
      · cases hpure
  | assignment name phrase =>
      rcases except_bind_eq_error.mp h with hlookup | ⟨target, _, h⟩
      · exact SymbolTable.ofTypes_of_lookup hlookup
      rcases except_bind_eq_error.mp h with htyping | ⟨typing, _, h⟩
      · exact Expression.ofTypes_of_typing htyping
      rcases except_bind_eq_error.mp h with hrule | ⟨_, _, hpure⟩
      · rw [TypeRules.violation_of_assignment hrule]
        exact .type rfl
      · cases hpure
  | condition phrase =>
      rcases except_bind_eq_error.mp h with htyping | ⟨typing, _, h⟩
      · exact Expression.ofTypes_of_typing htyping
      rcases except_bind_eq_error.mp h with hrule | ⟨_, _, hpure⟩
      · rw [TypeRules.violation_of_condition hrule]
        exact .type rfl
      · cases hpure

theorem phase_of_ruling (h : demand.ruling symbols = .error violation) :
    violation.phase ∈ typePhases :=
  (ofTypes_of_ruling h).phase_mem

/-- Only a declaration has a violation of another phase. -/
theorem phase_of_answer
    (hkind : demand.isDeclaration = false)
    (h : demand.answer switches symbols = .error violation) :
    violation.phase ∈ typePhases := by
  cases htypes : switches.checkTypes with
  | false =>
      rw [answer_of_no_types hkind htypes] at h
      cases h
  | true =>
      rw [answer_of_types hkind htypes] at h
      exact phase_of_ruling (except_map_eq_error.mp h)

end Demand

end SimpleC
