import SimpleC.Recognizer.Basic

/-!
# Checks during recognition

What a switch turns on or off: adding variables to the symbol table, looking
variables up, and applying the type rules. None of these steps moves the cursor,
so that a switch has no influence on which tokens are consumed.

The type of an expression is known exactly when types are checked.
-/

namespace SimpleC

namespace Recognizer

variable (switches : Switches)

/-- Adds the variable of a declaration that begins with the given word. -/
def addVariable (word name : String) : Recognizer Unit :=
  if switches.declare then
    match ValueType.ofDeclarator? word with
    | some type => declare name type
    | none => fault .notDeclarable
  else
    pure ()

/-- The type of the variable of the given name, which has to be declared. -/
def variableType (name : String) : Recognizer (Option ValueType) :=
  if switches.checkTypes then do
    let symbol ← lookup name
    return some symbol.type
  else
    pure none

/-- The type of a single value. -/
def valueType (token : Token) : Recognizer (Option ValueType) :=
  if switches.checkTypes then do
    let type ← obey (TypeRules.value (← get).symbols token)
    return some type
  else
    pure none

/-- The type of two values with an operator between them. -/
def binaryType (left? : Option ValueType) (spelling : String) (right? : Option ValueType) :
    Recognizer (Option ValueType) :=
  if switches.checkTypes then do
    let typing ← obey (TypeRules.binary (← known left?) spelling (← known right?))
    typing.warnings.forM warn
    return some typing.type
  else
    pure none

/-- A value may be assigned to the variable of the given type. -/
def checkAssignment (target? value? : Option ValueType) : Recognizer Unit :=
  if switches.checkTypes then do
    obey (TypeRules.assignment (← known target?) (← known value?))
  else
    pure ()

/-- A value may serve as a condition. -/
def checkCondition (type? : Option ValueType) : Recognizer Unit :=
  if switches.checkTypes then do
    obey (TypeRules.condition (← known type?))
  else
    pure ()

end Recognizer

end SimpleC
