import Mathlib.Tactic.SplitIfs
import SimpleC.Proofs.Checking.Rulings
import SimpleC.Proofs.StaticSemantics.Basic

/-!
# Types that are computed

The symbol table read as an environment: a name that is looked up has the type
that it is bound to, and a declaration binds a name that was not bound. Then the
type rules compute exactly the types of the static semantics.
-/

namespace SimpleC

namespace SymbolTable

/-- The types of the variables, by name. -/
def environment (table : SymbolTable) : Environment :=
  fun name => (table.find? name).map Symbol.type

variable {table extended : SymbolTable} {name : String} {type : ValueType}

theorem environment_eq_some_iff :
    table.environment name = some type ↔
      ∃ symbol, table.lookup name = .ok symbol ∧ symbol.type = type := by
  unfold environment lookup
  cases table.find? name with
  | none =>
      simp
  | some symbol =>
      simp

theorem map_lookup_eq_ok_iff :
    (table.lookup name).map Symbol.type = .ok type ↔ table.environment name = some type := by
  unfold environment lookup
  cases table.find? name with
  | none =>
      simp [Except.map]
  | some symbol =>
      simp [Except.map]

theorem environment_eq_none_iff : table.environment name = none ↔ name ∉ table.names := by
  rw [environment, Option.map_eq_none_iff, find?_eq_none_iff]

/-- A declaration binds its name. -/
theorem environment_of_declare (h : table.declare name type = .ok extended) :
    extended.environment = table.environment.bind name type := by
  obtain ⟨hnew, hentries⟩ := entries_of_declare h
  have hnone := find?_eq_none_iff.mpr hnew
  funext other
  unfold find? at hnone
  unfold environment Environment.bind find?
  rw [hentries, List.find?_append]
  split
  · rename_i hsame
    subst hsame
    simp [hnone]
  · rename_i hother
    have hne : name ≠ other := fun hname => hother hname.symm
    simp [hne]

end SymbolTable

/-- A bare value is a truth value. -/
theorem Operand.isSpelled_of_bare
    (value : Operand)
    (hbare : value.token.kind.hasPayload = false) :
    value.token.isSpelled "true" = true ∨ value.token.isSpelled "false" = true := by
  have hvalue := value.isValue
  simpa [Token.valueExpectation?, Token.spelling?, hbare, boolSpellings,
    Token.isSpelled_eq_true_iff, Option.isSome_iff_exists] using hvalue

theorem Operand.text_mem_of_bare
    (value : Operand)
    (hbare : value.token.kind.hasPayload = false) :
    value.token.text ∈ boolSpellings := by
  have hword := value.isSpelled_of_bare hbare
  simp only [Token.isSpelled_eq_true_iff, ← and_or_left] at hword
  simpa [boolSpellings] using hword.2

/-- The type that is computed for a value is the one that it has. -/
theorem Operand.typing_eq_ok_iff
    {value : Operand}
    {table : SymbolTable}
    {type : ValueType} :
    value.typing table = .ok type ↔ value.HasType table.environment type := by
  unfold typing TypeRules.value
  constructor
  · intro h
    cases hkind : value.token.kind with
    | identifier =>
        simp only [hkind, SymbolTable.map_lookup_eq_ok_iff] at h
        exact .name hkind h
    | intLiteral =>
        simp only [hkind] at h
        cases h
        exact .intLiteral hkind
    | realLiteral =>
        simp only [hkind] at h
        cases h
        exact .realLiteral hkind
    | strLiteral =>
        simp only [hkind] at h
        cases h
        exact .strLiteral hkind
    | keyword | operator | punctuation | endMarker =>
        have hword := value.isSpelled_of_bare (by rw [hkind]; rfl)
        simp only [hkind] at h
        split at h
        · cases h
          exact .truth hword
        · cases h
  · intro h
    cases h with
    | name hkind hbound =>
        simpa only [hkind, SymbolTable.map_lookup_eq_ok_iff] using hbound
    | intLiteral hkind | realLiteral hkind | strLiteral hkind =>
        simp only [hkind]
    | truth hword =>
        simp only [Token.isSpelled_eq_true_iff, ← and_or_left] at hword
        obtain ⟨hbare, _⟩ := hword
        have hbool := value.text_mem_of_bare hbare
        revert hbare
        cases value.token.kind <;> simp [TokenKind.hasPayload, hbool]

theorem Operator.isArithmetic_iff (operator : Operator) :
    operator.isArithmetic = true ↔ operator ∈ [plus, minus, times, divide, power] := by
  cases operator <;> decide

theorem Operator.isArithmetic_eq_false_iff (operator : Operator) :
    operator.isArithmetic = false ↔
      operator ∈ [less, lessEqual, greater, greaterEqual, equal, notEqual] := by
  cases operator <;> decide

theorem ValueType.isNumeric_iff (type : ValueType) :
    type.isNumeric = true ↔ type = .int ∨ type = .real := by
  cases type <;> decide

/-- The type that is computed for an operator is the one of the rules. -/
theorem Operator.operation_eq_ok_iff
    {operator : Operator}
    {left right type : ValueType} :
    (∃ warnings, TypeRules.operation left operator right = .ok ⟨type, warnings⟩) ↔
      operator.HasType left right type := by
  constructor
  · rintro ⟨warnings, h⟩
    unfold TypeRules.operation at h
    split_ifs at h with harithmetic hnumeric hequality hsame
    · cases h
      obtain ⟨hnumeric, rfl⟩ := hnumeric
      exact .arithmetic (isArithmetic_iff _ |>.mp harithmetic) (left.isNumeric_iff.mp hnumeric)
    · cases h
      exact .realEquality hequality.1 hequality.2
    · cases h
      subst hsame
      exact .comparison (isArithmetic_eq_false_iff _ |>.mp (by simpa using harithmetic))
  · intro h
    unfold TypeRules.operation
    cases h with
    | arithmetic hoperator htype =>
        rw [if_pos (operator.isArithmetic_iff.mpr hoperator),
          if_pos ⟨left.isNumeric_iff.mpr htype, rfl⟩]
        exact ⟨_, rfl⟩
    | comparison hoperator =>
        have harithmetic := operator.isArithmetic_eq_false_iff.mpr hoperator
        simp only [harithmetic, Bool.false_eq_true, if_false, if_true]
        split_ifs
        · exact ⟨_, rfl⟩
        · exact ⟨_, rfl⟩
    | realEquality hoperator hreal =>
        subst hoperator
        rw [if_neg (by decide), if_pos ⟨rfl, hreal⟩]
        exact ⟨_, rfl⟩

/-- The type that is computed for an expression is the one that it has. -/
theorem Expression.typing_eq_ok_iff
    {phrase : Expression}
    {table : SymbolTable}
    {type : ValueType} :
    (∃ warnings, phrase.typing table = .ok ⟨type, warnings⟩) ↔
      phrase.HasType table.environment type := by
  cases phrase with
  | single value =>
      constructor
      · rintro ⟨warnings, h⟩
        obtain ⟨valueType, hvalue, hpure⟩ := except_bind_eq_ok.mp h
        cases hpure
        exact .single (Operand.typing_eq_ok_iff.mp hvalue)
      · intro h
        cases h with
        | single hvalue =>
            have hvalue := Operand.typing_eq_ok_iff.mpr hvalue
            exact ⟨[], except_bind_eq_ok.mpr ⟨type, hvalue, rfl⟩⟩
  | binary left sign right =>
      constructor
      · rintro ⟨warnings, h⟩
        obtain ⟨leftType, hleft, h⟩ := except_bind_eq_ok.mp h
        obtain ⟨rightType, hright, hoperation⟩ := except_bind_eq_ok.mp h
        exact .binary (Operand.typing_eq_ok_iff.mp hleft) (Operand.typing_eq_ok_iff.mp hright)
          (Operator.operation_eq_ok_iff.mp ⟨warnings, hoperation⟩)
      · intro h
        cases h with
        | @binary _ _ _ leftType rightType _ hleft hright hsign =>
            obtain ⟨warnings, hoperation⟩ := Operator.operation_eq_ok_iff.mpr hsign
            refine ⟨warnings, except_bind_eq_ok.mpr
              ⟨leftType, Operand.typing_eq_ok_iff.mpr hleft, ?_⟩⟩
            exact except_bind_eq_ok.mpr
              ⟨rightType, Operand.typing_eq_ok_iff.mpr hright, hoperation⟩

/-- An assignment computes whether the type of the value fits that of its target. -/
theorem TypeRules.assignment_eq_ok_iff {target value : ValueType} :
    assignment target value = .ok () ↔ value = target ∨ target = .real ∧ value = .int := by
  unfold assignment
  split <;> simp_all

theorem TypeRules.condition_eq_ok_iff {type : ValueType} :
    condition type = .ok () ↔ type = .bool := by
  unfold condition
  split <;> simp_all

/-- A rule about an expression is obeyed by the type that the expression has. -/
theorem Expression.ruling_eq_ok_iff
    {phrase : Expression}
    {table : SymbolTable}
    {rule : ValueType → Except Violation Unit} :
    (∃ warnings, phrase.ruling table rule = .ok warnings) ↔
      ∃ type, phrase.HasType table.environment type ∧ rule type = .ok () := by
  unfold ruling
  constructor
  · rintro ⟨warnings, h⟩
    obtain ⟨typing, htyping, h⟩ := except_bind_eq_ok.mp h
    obtain ⟨_, hrule, _⟩ := except_bind_eq_ok.mp h
    exact ⟨typing.type, typing_eq_ok_iff.mp ⟨typing.warnings, htyping⟩, hrule⟩
  · rintro ⟨type, htype, hrule⟩
    obtain ⟨warnings, htyping⟩ := typing_eq_ok_iff.mpr htype
    exact ⟨warnings, except_bind_eq_ok.mpr ⟨_, htyping, except_bind_eq_ok.mpr ⟨(), hrule, rfl⟩⟩⟩

end SimpleC
