import SimpleC.Proofs.Phrase.Basic
import SimpleC.Proofs.SymbolTable.Within

/-!
# The checks of a program

What a program asks of the symbol table and the type rules, apart from its
tokens. Since all variables share one scope, nesting does not matter: the checks
of a program are a list of obligations in the order of its text, and each of
them is met or violated by the table as it is at that point.

The switches decide which obligations are due: those of declarations, and those
of all other phrases.
-/

namespace SimpleC

/-- What the checks of a program have found so far. -/
structure Findings where
  symbols : SymbolTable
  warnings : List Warning

/-- A check: it may fail with a violation, and what it found outlives that. -/
abbrev Checking := EStateM Violation Findings

/-- The type of a value under a symbol table. -/
def Operand.typing (symbols : SymbolTable) (value : Operand) : Except Violation ValueType :=
  TypeRules.value symbols value.token

/-- The type of an expression under a symbol table, with the warnings about it. -/
def Expression.typing (symbols : SymbolTable) : Expression → Except Violation BinaryTyping
  | single value => do
      let type ← value.typing symbols
      return ⟨type, []⟩
  | binary left sign right => do
      let leftType ← left.typing symbols
      let rightType ← right.typing symbols
      TypeRules.operation leftType sign.operator rightType

namespace Checking

variable {α : Type}

/-- Goes on with what a rule answers; its violation ends the check. -/
def obey : Except Violation α → Checking α
  | .ok answer => pure answer
  | .error violation => throw violation

/-- Adds a variable to the symbol table. -/
def declare (name : String) (type : ValueType) : Checking Unit := do
  let symbols ← obey ((← get).symbols.declare name type)
  modify fun findings => { findings with symbols := symbols }

/-- The declared variable of the given name. -/
def lookup (name : String) : Checking Symbol := do
  obey ((← get).symbols.lookup name)

/-- Gives warnings. -/
def warn (warnings : List Warning) : Checking Unit :=
  modify fun findings => { findings with warnings := findings.warnings ++ warnings }

/-- The type of a value. -/
def operand (value : Operand) : Checking ValueType := do
  obey (value.typing (← get).symbols)

/-- The type of an expression, after the warnings about it. -/
def expression (phrase : Expression) : Checking ValueType := do
  let typing ← obey (phrase.typing (← get).symbols)
  warn typing.warnings
  return typing.type

end Checking

/-- What a phrase asks of the symbol table and the type rules. -/
inductive Obligation where
  /-- The name of a declaration is new. -/
  | declaration (type : ValueType) (name : String)
  /-- The target of an input is declared. -/
  | input (name : String)
  /-- What is put out has a type. -/
  | output (value : Operand)
  /-- The target of an assignment can hold the value. -/
  | assignment (name : String) (value : Expression)
  /-- A condition is a truth value. -/
  | condition (phrase : Expression)

namespace Obligation

/-- Whether the obligation is the one of a declaration. -/
def isDeclaration : Obligation → Bool
  | declaration .. => true
  | input .. | output .. | assignment .. | condition .. => false

/-- The check of an obligation. -/
def check : Obligation → Checking Unit
  | declaration type name => Checking.declare name type
  | input name => discard (Checking.lookup name)
  | output value => discard (Checking.operand value)
  | assignment name value => do
      let target ← Checking.lookup name
      let type ← Checking.expression value
      Checking.obey (TypeRules.assignment target.type type)
  | condition phrase => do
      let type ← Checking.expression phrase
      Checking.obey (TypeRules.condition type)

/-- Whether the obligation is due: declarations and types are switched apart. -/
def isDue (declares checksTypes : Bool) (obligation : Obligation) : Bool :=
  if obligation.isDeclaration then declares else checksTypes

/-- Checks the obligation if it is due. -/
def meet (declares checksTypes : Bool) (obligation : Obligation) : Checking Unit :=
  if obligation.isDue declares checksTypes then obligation.check else pure ()

/-- Checks the obligations that are due, from the first to the last. -/
def meetAll (declares checksTypes : Bool) : List Obligation → Checking Unit
  | [] => pure ()
  | obligation :: rest => do
      meet declares checksTypes obligation
      meetAll declares checksTypes rest

/-- The obligations of two lists in a row are checked one list after the other. -/
theorem meetAll_append
    (declares checksTypes : Bool)
    (left right : List Obligation) :
    meetAll declares checksTypes (left ++ right) =
      (do
        meetAll declares checksTypes left
        meetAll declares checksTypes right) := by
  induction left with
  | nil =>
      rfl
  | cons obligation rest ih =>
      simp [meetAll, ih]

end Obligation

/-- The obligations of what is put out. -/
def Printed.obligations : Printed → List Obligation
  | endOfLine _ => []
  | value operand => [.output operand]

/-- The obligations of a statement in the order of its text. -/
def Statement.obligations : Statement → List Obligation
  | empty _ => []
  | declaration declarator name _ => [.declaration declarator.type name.token.text]
  | input _ _ name _ => [.input name.token.text]
  | output _ _ printed _ => printed.obligations
  | assignment name _ value _ => [.assignment name.token.text value]
  | conditional guard thenPart => .condition guard.condition :: thenPart.obligations
  | alternative guard thenPart _ elsePart =>
      .condition guard.condition :: (thenPart.obligations ++ elsePart.obligations)

/-- The obligations of a program in the order of its text. -/
def Program.obligations (program : Program) : List Obligation :=
  program.statements.flatMap Statement.obligations

end SimpleC
