import SimpleC.Operator
import SimpleC.Violation

/-!
# The productions of the grammar

The grammar decides on one token of lookahead:

    program      → void main ( ) { statements } $
    statements   → statement statement*
    statement    → empty | declaration | input | output | assignment | conditional
    empty        → ;
    declaration  → int identifier ; | real identifier ;
    input        → cin >> identifier ;
    output       → cout << output-value ;
    output-value → value | endl
    assignment   → identifier = expression ;
    conditional  → if ( condition ) then-part else-part
    condition    → expression
    then-part    → statement
    else-part    → else statement | nothing
    expression   → value operator value | value
    value        → identifier | literal | true | false

This module names the productions and tells which tokens begin a statement, a
value and the second half of an expression.
-/

namespace SimpleC

/-- The productions of the grammar. -/
inductive Production where
  | program
  | statements
  | statement
  | empty
  | declaration
  | input
  | output
  | outputValue
  | assignment
  | conditional
  | condition
  | thenPart
  | elsePart
  | expression
  | value
  | operator
  deriving DecidableEq, Inhabited

namespace Production

/-- The name of a production in derivations and traces. -/
def name : Production → String
  | program => "program"
  | statements => "stmts"
  | statement => "stmt"
  | empty => "empty"
  | declaration => "vardecl"
  | input => "input"
  | output => "output"
  | outputValue => "output_value"
  | assignment => "assignment"
  | conditional => "ifstmt"
  | condition => "condition"
  | thenPart => "then_part"
  | elsePart => "else_part"
  | expression => "expr"
  | value => "expr_value"
  | operator => "expr_op"

/-- Different productions have different names. -/
theorem name_injective {left right : Production} (h : left.name = right.name) :
    left = right := by
  cases left <;> cases right <;> simp_all [name]

end Production

/-- The forms of statements. -/
inductive StatementForm where
  | empty
  | declaration
  | input
  | output
  | assignment
  | conditional
  deriving DecidableEq, Inhabited

namespace StatementForm

/-- The form of a statement that begins with the given bare token. -/
def ofSpelling? (spelling : String) : Option StatementForm :=
  if spelling = ";" then
    some empty
  else if spelling = "int" ∨ spelling = "real" then
    some declaration
  else if spelling = "cin" then
    some input
  else if spelling = "cout" then
    some output
  else if spelling = "if" then
    some conditional
  else
    none

/-- The form of a statement that begins with the given token, if one does. -/
def ofToken? (token : Token) : Option StatementForm :=
  if token.kind = .identifier then
    some assignment
  else
    token.spelling?.bind ofSpelling?

end StatementForm

namespace Token

/-- What to expect of a value that begins with the given token, if one does:
identifiers and literals by kind, truth values by spelling. -/
def valueExpectation? (token : Token) : Option Expectation :=
  match token.spelling? with
  | none => some (.ofKind token.kind)
  | some spelling =>
      if spelling ∈ boolSpellings then some (.spelled spelling) else none

/-- Whether the token is an operator of expressions. -/
def isOperator (token : Token) : Bool :=
  (token.spelling?.bind Operator.ofSpelling?).isSome

end Token

end SimpleC
