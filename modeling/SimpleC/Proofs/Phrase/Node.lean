import SimpleC.Derivation.Node
import SimpleC.Proofs.Checking.Basic

/-!
# The derivation of a phrase

The nodes that stand for a phrase in a derivation. Nodes of expressions carry
their types under a symbol table, if one is given.
-/

namespace SimpleC

/-- The node of a production whose phrases have no type. -/
def Production.node (production : Production) (children : List Node) : Node :=
  .inner production.name none children

/-- The type of a value, if types are known. -/
def Operand.type? (symbols? : Option SymbolTable) (value : Operand) : Option ValueType :=
  symbols?.bind fun symbols => (value.typing symbols).toOption

/-- The type of an expression, if types are known. -/
def Expression.type? (symbols? : Option SymbolTable) (phrase : Expression) :
    Option ValueType :=
  symbols?.bind fun symbols => (phrase.typing symbols).toOption.map BinaryTyping.type

/-- The derivation of a value. -/
def Operand.node (symbols? : Option SymbolTable) (value : Operand) : Node :=
  .inner Production.value.name (value.type? symbols?) [.leaf value.token]

/-- The derivation of an operator. -/
def Sign.node (sign : Sign) : Node :=
  Production.operator.node [.leaf sign.word.token]

/-- The derivations of the parts of an expression. -/
def Expression.parts (symbols? : Option SymbolTable) : Expression → List Node
  | single value => [value.node symbols?]
  | binary left sign right => [left.node symbols?, sign.node, right.node symbols?]

/-- The derivation of an expression. -/
def Expression.node (symbols? : Option SymbolTable) (phrase : Expression) : Node :=
  .inner Production.expression.name (phrase.type? symbols?) (phrase.parts symbols?)

/-- The derivation of a condition. -/
def Expression.conditionNode (symbols? : Option SymbolTable) (phrase : Expression) : Node :=
  .inner Production.condition.name (phrase.type? symbols?) [phrase.node symbols?]

/-- The derivation of what is put out. -/
def Printed.node (symbols? : Option SymbolTable) : Printed → Node
  | endOfLine word => Production.outputValue.node [.leaf word.token]
  | value operand => Production.outputValue.node [operand.node symbols?]

/-- The derivations of the head of a conditional statement. -/
def Guard.nodes (symbols? : Option SymbolTable) (guard : Guard) : List Node :=
  [.leaf guard.opening.token, .leaf guard.left.token,
    guard.condition.conditionNode symbols?, .leaf guard.right.token]

/-- The derivation of a statement. -/
def Statement.node (symbols? : Option SymbolTable) : Statement → Node
  | empty semicolon =>
      Production.statement.node [Production.empty.node [.leaf semicolon.token]]
  | declaration declarator name semicolon =>
      Production.statement.node
        [Production.declaration.node
          [.leaf declarator.word.token, .leaf name.token, .leaf semicolon.token]]
  | input word arrows name semicolon =>
      Production.statement.node
        [Production.input.node
          [.leaf word.token, .leaf arrows.token, .leaf name.token, .leaf semicolon.token]]
  | output word arrows printed semicolon =>
      Production.statement.node
        [Production.output.node
          [.leaf word.token, .leaf arrows.token, printed.node symbols?, .leaf semicolon.token]]
  | assignment name equals value semicolon =>
      Production.statement.node
        [Production.assignment.node
          [.leaf name.token, .leaf equals.token, value.node symbols?, .leaf semicolon.token]]
  | conditional guard thenPart =>
      Production.statement.node
        [Production.conditional.node
          (guard.nodes symbols? ++
            [Production.thenPart.node [thenPart.node symbols?], Production.elsePart.node []])]
  | alternative guard thenPart word elsePart =>
      Production.statement.node
        [Production.conditional.node
          (guard.nodes symbols? ++
            [Production.thenPart.node [thenPart.node symbols?],
              Production.elsePart.node [.leaf word.token, elsePart.node symbols?]])]

/-- The derivation of a program. -/
def Program.node (symbols? : Option SymbolTable) (program : Program) : Node :=
  Production.program.node
    [.leaf program.void.token, .leaf program.main.token, .leaf program.left.token,
      .leaf program.right.token, .leaf program.opening.token,
      Production.statements.node (program.statements.map (Statement.node symbols?)),
      .leaf program.closing.token, .leaf program.stop.token]

end SimpleC
