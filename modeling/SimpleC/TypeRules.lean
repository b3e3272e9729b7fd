import SimpleC.Operator
import SimpleC.SymbolTable.Basic

/-!
# Type rules

The types of values and expressions, and what assignments and conditions ask
of them. Arithmetic needs two operands of one numeric type; a comparison needs
two operands of one type, except that equality is allowed as soon as a real
takes part, with a warning.
-/

namespace SimpleC

/-- A remark about a program that breaks no rule. -/
inductive Warning where
  | realEquality
  deriving DecidableEq, Inhabited

/-- The text of a warning. -/
def Warning.text : Warning → String
  | realEquality => "comparing real numbers with == may never be true"

/-- What a binary expression amounts to: its type and the warnings about it. -/
structure BinaryTyping where
  type : ValueType
  warnings : List Warning
  deriving DecidableEq

namespace TypeRules

/-- The type of a single value. Literals have the type of their kind, and a
variable has the type it was declared with. -/
def value (symbols : SymbolTable) (token : Token) : Except Violation ValueType :=
  match token.kind with
  | .identifier => (symbols.lookup token.text).map Symbol.type
  | .intLiteral => .ok .int
  | .realLiteral => .ok .real
  | .strLiteral => .ok .str
  | .keyword | .operator | .punctuation | .endMarker =>
      if token.text ∈ boolSpellings then
        .ok .bool
      else
        .error (.untypedToken token)

/-- The rule for one operator between operands of the given types. -/
def operation (left : ValueType) (operator : Operator) (right : ValueType) :
    Except Violation BinaryTyping :=
  if operator.isArithmetic then
    if left.isNumeric ∧ left = right then
      .ok ⟨left, []⟩
    else
      .error (.arithmeticOperands operator.spelling)
  else if operator = .equal ∧ (left = .real ∨ right = .real) then
    .ok ⟨.bool, [.realEquality]⟩
  else if left = right then
    .ok ⟨.bool, []⟩
  else
    .error (.operandMismatch left operator.spelling right)

/-- The rule for an operator that is given by its spelling. -/
def binary (left : ValueType) (spelling : String) (right : ValueType) :
    Except Violation BinaryTyping :=
  match Operator.ofSpelling? spelling with
  | some operator => operation left operator right
  | none => .error (.unknownOperator spelling)

/-- A variable takes values of its own type, and a real one takes integers. -/
def assignment (target value : ValueType) : Except Violation Unit :=
  if value = target ∨ (target = .real ∧ value = .int) then
    .ok ()
  else
    .error (.notAssignable target value)

/-- A condition is a truth value. -/
def condition (type : ValueType) : Except Violation Unit :=
  if type = .bool then
    .ok ()
  else
    .error (.conditionNotBool type)

end TypeRules

end SimpleC
