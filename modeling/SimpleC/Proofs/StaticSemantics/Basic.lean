import SimpleC.Proofs.Phrase.NearestElse

/-!
# Static semantics

When a program is well typed, stated by rules on its phrases and without the
symbol table, the order of checks or the messages of the recognizer.

Names are bound in one environment that only grows. A statement is checked in
the environment that the statements before it leave, and the branches of a
conditional are statements like all others: what the first one binds is bound in
the second one and after the conditional.
-/

namespace SimpleC

/-- The types of the names that are bound. -/
def Environment : Type :=
  String → Option ValueType

namespace Environment

/-- No name is bound. -/
def empty : Environment :=
  fun _ => none

/-- One more name is bound. -/
def bind (environment : Environment) (name : String) (type : ValueType) : Environment :=
  fun other => if other = name then some type else environment other

end Environment

/-- The types of a value. -/
inductive Operand.HasType (environment : Environment) (value : Operand) : ValueType → Prop
  | name {type : ValueType}
      (hkind : value.token.kind = .identifier)
      (hbound : environment value.token.text = some type) :
      HasType environment value type
  | intLiteral (hkind : value.token.kind = .intLiteral) :
      HasType environment value .int
  | realLiteral (hkind : value.token.kind = .realLiteral) :
      HasType environment value .real
  | strLiteral (hkind : value.token.kind = .strLiteral) :
      HasType environment value .str
  | truth (hword : value.token.isSpelled "true" = true ∨ value.token.isSpelled "false" = true) :
      HasType environment value .bool

/-- The types between which an operator may stand, and the type of the result. -/
inductive Operator.HasType (operator : Operator) : ValueType → ValueType → ValueType → Prop
  | arithmetic {type : ValueType}
      (hoperator : operator ∈ [plus, minus, times, divide, power])
      (htype : type = .int ∨ type = .real) :
      HasType operator type type type
  | comparison {type : ValueType}
      (hoperator : operator ∈ [less, lessEqual, greater, greaterEqual, equal, notEqual]) :
      HasType operator type type .bool
  /-- Reals may be compared with values of any type, but only by equality. -/
  | realEquality {left right : ValueType}
      (hoperator : operator = equal)
      (hreal : left = .real ∨ right = .real) :
      HasType operator left right .bool

/-- The types of an expression. -/
inductive Expression.HasType (environment : Environment) : Expression → ValueType → Prop
  | single {value : Operand} {type : ValueType}
      (hvalue : value.HasType environment type) :
      HasType environment (.single value) type
  | binary {left right : Operand} {sign : Sign} {leftType rightType type : ValueType}
      (hleft : left.HasType environment leftType)
      (hright : right.HasType environment rightType)
      (hsign : sign.operator.HasType leftType rightType type) :
      HasType environment (.binary left sign right) type

/-- What may be put out: the end of a line, and values of any type. -/
inductive Printed.WellTyped (environment : Environment) : Printed → Prop
  | endOfLine {word : Word "endl"} :
      WellTyped environment (.endOfLine word)
  | value {value : Operand} {type : ValueType}
      (hvalue : value.HasType environment type) :
      WellTyped environment (.value value)

/-- The statement is well typed in an environment and leaves another one. -/
inductive Statement.WellTyped : Environment → Statement → Environment → Prop
  | empty {environment : Environment} {semicolon : Word ";"} :
      WellTyped environment (.empty semicolon) environment
  /-- The name of a declaration is not bound yet. -/
  | declaration {environment : Environment}
      {declarator : Declarator} {name : Identifier} {semicolon : Word ";"}
      (hnew : environment name.token.text = none) :
      WellTyped environment (.declaration declarator name semicolon)
        (environment.bind name.token.text declarator.type)
  | input {environment : Environment}
      {word : Word "cin"} {arrows : Word ">>"} {name : Identifier} {semicolon : Word ";"}
      {type : ValueType}
      (hbound : environment name.token.text = some type) :
      WellTyped environment (.input word arrows name semicolon) environment
  | output {environment : Environment}
      {word : Word "cout"} {arrows : Word "<<"} {printed : Printed} {semicolon : Word ";"}
      (hprinted : printed.WellTyped environment) :
      WellTyped environment (.output word arrows printed semicolon) environment
  /-- A variable takes values of its own type, and a real one takes integers. -/
  | assignment {environment : Environment}
      {name : Identifier} {equals : Word "="} {value : Expression} {semicolon : Word ";"}
      {target type : ValueType}
      (hbound : environment name.token.text = some target)
      (hvalue : value.HasType environment type)
      (hfits : type = target ∨ target = .real ∧ type = .int) :
      WellTyped environment (.assignment name equals value semicolon) environment
  | conditional {environment after : Environment}
      {guard : Guard} {thenPart : Statement}
      (hcondition : guard.condition.HasType environment .bool)
      (hthen : thenPart.WellTyped environment after) :
      WellTyped environment (.conditional guard thenPart) after
  | alternative {environment middle after : Environment}
      {guard : Guard} {thenPart elsePart : Statement} {word : Word "else"}
      (hcondition : guard.condition.HasType environment .bool)
      (hthen : thenPart.WellTyped environment middle)
      (helse : elsePart.WellTyped middle after) :
      WellTyped environment (.alternative guard thenPart word elsePart) after

/-- Statements in a row are well typed in an environment and leave another one. -/
inductive Statement.AllWellTyped : Environment → List Statement → Environment → Prop
  | nil {environment : Environment} :
      AllWellTyped environment [] environment
  | cons {environment middle after : Environment}
      {statement : Statement} {further : List Statement}
      (hstatement : statement.WellTyped environment middle)
      (hfurther : AllWellTyped middle further after) :
      AllWellTyped environment (statement :: further) after

/-- A program is well typed if its statements are, no name being bound before them. -/
def Program.WellTyped (program : Program) : Prop :=
  ∃ after, Statement.AllWellTyped .empty program.statements after

end SimpleC
