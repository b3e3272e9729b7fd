import SimpleC.Token.Wire
import SimpleC.ValueType

/-!
# Violations

A violation is a rule of the language that a program breaks, with what is
needed to report it. Each belongs to one of four phases.
-/

namespace SimpleC

/-- What the next token is expected to be: a bare token with a given spelling,
or any token of a given kind. -/
inductive Expectation where
  | spelled (spelling : String)
  | ofKind (kind : TokenKind)
  deriving DecidableEq, Inhabited

namespace Expectation

/-- How an expectation is named in messages. -/
def describe : Expectation → String
  | spelled spelling => spelling
  | ofKind kind => kind.name

/-- Whether a token is what is expected. -/
def accepts : Expectation → Token → Bool
  | spelled spelling, token => token.isSpelled spelling
  | ofKind kind, token => token.kind == kind

end Expectation

/-- The sorts of rules that a program can break. -/
inductive Phase where
  | grammar
  | redefinition
  | undefined
  | type
  deriving DecidableEq, Inhabited

namespace Phase

/-- Every phase, in the order in which listings name them. -/
def all : List Phase :=
  [grammar, redefinition, undefined, type]

/-- The name of a phase. -/
def name : Phase → String
  | grammar => "syntax"
  | redefinition => "redefinition"
  | undefined => "undefined"
  | type => "type"

/-- The word that opens the report of a violation. Both phases about names
share one. -/
def heading : Phase → String
  | grammar => "syntax_error"
  | redefinition => "semantic_error"
  | undefined => "semantic_error"
  | type => "type_error"

end Phase

/-- The ways to break a rule. -/
inductive Violation where
  /-- The tokens end where another one is needed. -/
  | endOfInput
  /-- The next token is not the one that the grammar calls for. -/
  | unexpected (wanted : Expectation) (found : Token)
  /-- No value of an expression begins with this token. -/
  | notAValue (found : Token)
  /-- No statement begins with this token. -/
  | notAStatement (found : Token)
  /-- A token follows the end of the program. -/
  | trailing (found : Token)
  /-- A type is asked of a token that has none. -/
  | untypedToken (found : Token)
  /-- A variable is declared a second time. -/
  | redefined (name : String)
  /-- A variable is used that is not declared. -/
  | undefined (name : String)
  /-- An arithmetic operator between operands it is not defined on. -/
  | arithmeticOperands (spelling : String)
  /-- A comparison of values of different types. -/
  | operandMismatch (left : ValueType) (spelling : String) (right : ValueType)
  /-- A spelling that no operator of expressions has. -/
  | unknownOperator (spelling : String)
  /-- A value that a variable of the given type cannot hold. -/
  | notAssignable (target value : ValueType)
  /-- A condition that is not a truth value. -/
  | conditionNotBool (found : ValueType)
  deriving DecidableEq

namespace Violation

/-- The phase to which a violation belongs. -/
def phase : Violation → Phase
  | endOfInput | unexpected .. | notAValue .. | notAStatement .. | trailing ..
  | untypedToken .. => .grammar
  | redefined .. => .redefinition
  | undefined .. => .undefined
  | arithmeticOperands .. | operandMismatch .. | unknownOperator .. | notAssignable ..
  | conditionNotBool .. => .type

/-- A text between single quotes. -/
def inQuotes (text : String) : String :=
  "\x27" ++ text ++ "\x27"

/-- The message about an expectation that a token does not meet. -/
def expecting (wanted : String) (found : Token) : String :=
  "expecting " ++ wanted ++ ", but found " ++ found.wire

/-- The message that reports a violation. -/
def message : Violation → String
  | endOfInput => "unexpected end of input"
  | unexpected wanted found => expecting wanted.describe found
  | notAValue found => expecting "identifier or literal" found
  | notAStatement found => expecting "statement" found
  | trailing found => expecting "end of input" found
  | untypedToken found => expecting "identifier or literal" found
  | redefined name => "redefinition of variable " ++ inQuotes name
  | undefined name => "variable " ++ inQuotes name ++ " undefined"
  | arithmeticOperands spelling =>
      "operator " ++ spelling ++ " must involve " ++ inQuotes "int" ++ " or " ++ inQuotes "real"
  | operandMismatch left spelling right =>
      "type mismatch " ++ inQuotes left.name ++ " " ++ spelling ++ " " ++ inQuotes right.name
  | unknownOperator spelling => "unknown operator: " ++ spelling
  | notAssignable target value =>
      "cannot assign " ++ inQuotes value.name ++ " to variable of type " ++ inQuotes target.name
  | conditionNotBool found =>
      "if condition must be " ++ inQuotes "bool" ++ ", but found " ++ inQuotes found.name

end Violation

end SimpleC
