import SimpleC.Recognizer.Checks

/-!
# Recognition of the grammar

One function for each production. A statement is recognized by a function that
is given what recognizes the statements inside it; the depth of that nesting and
the number of statements in a row are bounded by the number of tokens.
-/

namespace SimpleC

namespace Recognizer

variable (switches : Switches)

/-- A value: an identifier, a literal or a truth value. -/
def value : Recognizer (Option ValueType) :=
  typed switches .value do
    let token ← peek
    match token.valueExpectation? with
    | some wanted =>
        discard (consume switches wanted)
        valueType switches token
    | none => violate (.notAValue token)

/-- An operator, which is known to be the next token. -/
def operator : Recognizer String :=
  plain switches .operator do
    let spelling ← nextSpelling
    expect switches spelling
    return spelling

/-- One value, or two with an operator between them. -/
def expression : Recognizer (Option ValueType) :=
  typed switches .expression do
    let left? ← value switches
    if (← peek).isOperator then
      let spelling ← operator switches
      let right? ← value switches
      binaryType switches left? spelling right?
    else
      return left?

/-- A lone semicolon. -/
def emptyStatement : Recognizer Unit :=
  plain switches .empty do
    expect switches ";"

/-- A declaration, whose variable is added once the declaration is complete. -/
def declaration : Recognizer Unit :=
  plain switches .declaration do
    let word ← nextSpelling
    expect switches word
    let name ← identifier switches
    expect switches ";"
    addVariable switches word name

/-- Input into a variable. -/
def input : Recognizer Unit :=
  plain switches .input do
    expect switches "cin"
    expect switches ">>"
    let name ← identifier switches
    discard (variableType switches name)
    expect switches ";"

/-- What is put out: the end of a line, or a value of any type. -/
def outputValue : Recognizer Unit :=
  plain switches .outputValue do
    if (← peek).isSpelled "endl" then
      expect switches "endl"
    else
      discard (value switches)

/-- Output of one value. -/
def output : Recognizer Unit :=
  plain switches .output do
    expect switches "cout"
    expect switches "<<"
    outputValue switches
    expect switches ";"

/-- An assignment. The variable is looked up before the expression is read. -/
def assignment : Recognizer Unit :=
  plain switches .assignment do
    let name ← identifier switches
    let target? ← variableType switches name
    expect switches "="
    let value? ← expression switches
    checkAssignment switches target? value?
    expect switches ";"

/-- The condition of a conditional statement. -/
def condition : Recognizer (Option ValueType) :=
  typed switches .condition do
    let type? ← expression switches
    checkCondition switches type?
    return type?

/-- A conditional statement. An `else` belongs to the nearest one that is open. -/
def conditional (statement : Recognizer Unit) : Recognizer Unit :=
  plain switches .conditional do
    expect switches "if"
    expect switches "("
    discard (condition switches)
    expect switches ")"
    plain switches .thenPart statement
    plain switches .elsePart do
      if (← peek).isSpelled "else" then
        expect switches "else"
        statement

/-- A statement of the form that the next token calls for. -/
def statementOf (statement : Recognizer Unit) : Recognizer Unit :=
  plain switches .statement do
    let token ← peek
    match StatementForm.ofToken? token with
    | some .empty => emptyStatement switches
    | some .declaration => declaration switches
    | some .input => input switches
    | some .output => output switches
    | some .assignment => assignment switches
    | some .conditional => conditional switches statement
    | none => violate (.notAStatement token)

/-- A statement in which statements are nested less deeply than the bound. -/
def statement : Nat → Recognizer Unit
  | 0 => fault .outOfFuel
  | depth + 1 => statementOf switches (statement depth)

/-- Statements, fewer than the bound, as long as the next token begins one. -/
def repeated (statement : Recognizer Unit) : Nat → Recognizer Unit
  | 0 => fault .outOfFuel
  | count + 1 => do
      if (StatementForm.ofToken? (← peek)).isSome then
        statement
        repeated statement count

/-- One or more statements. -/
def statements (bound : Nat) : Recognizer Unit :=
  plain switches .statements do
    statement switches bound
    repeated (statement switches bound) bound

/-- A whole program up to its end marker. -/
def program (bound : Nat) : Recognizer Unit :=
  plain switches .program do
    expect switches "void"
    expect switches "main"
    expect switches "("
    expect switches ")"
    expect switches "\x7b"
    statements switches bound
    expect switches "\x7d"
    expect switches "$"

/-- Nothing may follow the end marker. -/
def nothingMore : Recognizer Unit := do
  match (← get).cursor.ahead with
  | [] => return ()
  | token :: _ => violate (.trailing token)

/-- A whole program and nothing after it. -/
def wholeInput (bound : Nat) : Recognizer Unit := do
  program switches bound
  nothingMore

end Recognizer

end SimpleC
