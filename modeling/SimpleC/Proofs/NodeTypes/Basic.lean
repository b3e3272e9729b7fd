import SimpleC.Proofs.Checking.Passes
import SimpleC.Proofs.DerivationTree.Basic
import SimpleC.Proofs.Phrase.Node
import SimpleC.Proofs.StaticSemantics.Acceptance

/-!
# Types on the nodes of a tree

What the types on the nodes of a tree mean under a symbol table. A node is justified if it
has no type, or if its type is the one that the static semantics gives to what is right
below it: the token of a value, the values of an expression, the expression of a condition.
It is complete if it has the type that a node of its production is to have. In the tree of
a well-typed program all nodes are justified and complete.
-/

namespace SimpleC

/-- Whether something holds of all nodes of a tree. -/
def Node.Everywhere (holds : Node → Prop) (tree : Node) : Prop :=
  ∀ node ∈ tree.walk, holds node

section Everywhere

variable {holds : Node → Prop} {children : List Node}

@[simp] theorem Node.everywhere_leaf (token : Token) :
    (leaf token).Everywhere holds ↔ holds (leaf token) := by
  simp [Everywhere]

@[simp] theorem Node.everywhere_inner (name : String) (type? : Option ValueType) :
    (inner name type? children).Everywhere holds ↔
      holds (inner name type? children) ∧ ∀ child ∈ children, child.Everywhere holds := by
  simp only [Everywhere, walk_inner, List.forall_mem_cons, List.forall_mem_flatMap]

@[simp] theorem Production.everywhere_node (production : Production) :
    (production.node children).Everywhere holds ↔
      holds (production.node children) ∧ ∀ child ∈ children, child.Everywhere holds :=
  Node.everywhere_inner production.name none

end Everywhere

/-- The type of the node, if it has one, follows from what is right below the node. -/
inductive Node.Justified (symbols : SymbolTable) : Node → Prop
  | untyped {node : Node} (htype : node.type? = none) :
      Justified symbols node
  /-- A value has the type of its token. -/
  | value {operand : Operand} {type : ValueType}
      (hvalue : operand.HasType symbols.environment type) :
      Justified symbols (.inner Production.value.name (some type) [.leaf operand.token])
  /-- A single value gives its type to the expression. -/
  | single {value : Node} {type : ValueType}
      (hname : value.name = Production.value.name)
      (hvalue : value.type? = some type) :
      Justified symbols (.inner Production.expression.name (some type) [value])
  /-- An operator gives the type of its result. -/
  | binary {left right : Node} {sign : Sign} {leftType rightType type : ValueType}
      (hleft : left.name = Production.value.name)
      (hleftType : left.type? = some leftType)
      (hright : right.name = Production.value.name)
      (hrightType : right.type? = some rightType)
      (hsign : sign.operator.HasType leftType rightType type) :
      Justified symbols
        (.inner Production.expression.name (some type) [left, sign.node, right])
  /-- A condition is a truth value. -/
  | condition {phrase : Node}
      (hname : phrase.name = Production.expression.name)
      (hphrase : phrase.type? = some .bool) :
      Justified symbols (.inner Production.condition.name (some .bool) [phrase])

/-- The node of an assignment gives a value of a type that the variable can hold. -/
def Node.Assigns (symbols : SymbolTable) (node : Node) : Prop :=
  ∃ (name : Identifier) (equals : Word "=") (phrase : Node) (semicolon : Word ";")
    (target type : ValueType),
    node.children =
        [.leaf name.token, .leaf equals.token, phrase, .leaf semicolon.token] ∧
      phrase.name = Production.expression.name ∧ phrase.type? = some type ∧
        symbols.environment name.token.text = some target ∧
          (type = target ∨ target = .real ∧ type = .int)

/-- The node has a type if its production has types, and does what an assignment is to do
if it is one. -/
structure Node.Complete (symbols : SymbolTable) (node : Node) : Prop where
  typed : ∀ production ∈ [Production.value, .expression, .condition],
    node.kind = .production → node.name = production.name → node.type?.isSome = true
  assigns : node.kind = .production → node.name = Production.assignment.name →
    node.Assigns symbols

section Justified

variable {symbols larger : SymbolTable}

/-- A value keeps its type under a larger table. -/
theorem Operand.HasType.of_within
    {value : Operand}
    {type : ValueType}
    (hwithin : symbols.Within larger)
    (h : value.HasType symbols.environment type) :
    value.HasType larger.environment type :=
  typing_eq_ok_iff.mp ((value.typing_of_within hwithin).eq_ok (typing_eq_ok_iff.mpr h))

/-- What justifies a type still does under a larger table. -/
theorem Node.Justified.of_within
    {node : Node}
    (hwithin : symbols.Within larger)
    (h : node.Justified symbols) :
    node.Justified larger := by
  cases h with
  | untyped htype =>
      exact .untyped htype
  | value hvalue =>
      exact .value (hvalue.of_within hwithin)
  | single hname hvalue =>
      exact .single hname hvalue
  | binary hleft hleftType hright hrightType hsign =>
      exact .binary hleft hleftType hright hrightType hsign
  | condition hname hphrase =>
      exact .condition hname hphrase

@[simp] theorem Node.justified_leaf (token : Token) : (Node.leaf token).Justified symbols :=
  .untyped rfl

@[simp] theorem Production.justified_node (production : Production) (children : List Node) :
    (production.node children).Justified symbols :=
  .untyped rfl

theorem Operand.type?_of_hasType
    {value : Operand}
    {type : ValueType}
    (h : value.HasType symbols.environment type) :
    value.type? (some symbols) = some type := by
  rw [type?, Option.bind_some, typing_eq_ok_iff.mpr h]
  rfl

theorem Expression.type?_of_hasType
    {phrase : Expression}
    {type : ValueType}
    (h : phrase.HasType symbols.environment type) :
    phrase.type? (some symbols) = some type := by
  obtain ⟨warnings, htyping⟩ := typing_eq_ok_iff.mpr h
  rw [type?, Option.bind_some, htyping]
  rfl

/-- The type on the node of a value that has one is justified. -/
theorem Operand.justified_node
    {value : Operand}
    {type : ValueType}
    (h : value.HasType symbols.environment type) :
    (value.node (some symbols)).Everywhere (Node.Justified symbols) := by
  rw [node, type?_of_hasType h]
  simpa using Node.Justified.value h

/-- The types on the nodes of an expression that has one are justified. -/
theorem Expression.justified_node
    {phrase : Expression}
    {type : ValueType}
    (h : phrase.HasType symbols.environment type) :
    (phrase.node (some symbols)).Everywhere (Node.Justified symbols) := by
  rw [node, type?_of_hasType h, Node.everywhere_inner]
  cases h with
  | single hvalue =>
      refine ⟨.single rfl (Operand.type?_of_hasType hvalue), ?_⟩
      simpa [parts] using Operand.justified_node hvalue
  | binary hleft hright hsign =>
      refine ⟨.binary rfl (Operand.type?_of_hasType hleft) rfl
        (Operand.type?_of_hasType hright) hsign, ?_⟩
      simpa [parts, Sign.node] using
        ⟨Operand.justified_node hleft, Operand.justified_node hright⟩

/-- The types on the nodes of a condition are justified. -/
theorem Expression.justified_conditionNode
    {phrase : Expression}
    (h : phrase.HasType symbols.environment .bool) :
    (phrase.conditionNode (some symbols)).Everywhere (Node.Justified symbols) := by
  rw [conditionNode, type?_of_hasType h, Node.everywhere_inner]
  refine ⟨.condition rfl (type?_of_hasType h), ?_⟩
  simpa using justified_node h

end Justified

section Complete

variable {symbols : SymbolTable}

@[simp] theorem Node.complete_leaf (token : Token) : (Node.leaf token).Complete symbols where
  typed := by
    intro production _ hkind
    cases hkind
  assigns hkind := by
    cases hkind

/-- Nodes of productions without types that are no assignments need not have a type. -/
theorem Production.complete_node
    {production : Production}
    (hproduction : production ∉ [value, expression, condition, assignment])
    (children : List Node) :
    (production.node children).Complete symbols where
  typed := by
    intro other hmem _ hname
    obtain rfl : production = other := name_injective hname
    exact absurd (List.mem_append_left [assignment] hmem) hproduction
  assigns := by
    intro _ hname
    obtain rfl : production = assignment := name_injective hname
    exact absurd (by simp) hproduction

/-- A node that has a type is complete, if it is no assignment. -/
theorem Node.complete_of_type
    {production : Production}
    (hproduction : production ≠ .assignment)
    (type : ValueType)
    (children : List Node) :
    (Node.inner production.name (some type) children).Complete symbols where
  typed _ _ _ _ := rfl
  assigns := by
    intro _ hname
    exact absurd (Production.name_injective hname) hproduction

theorem Operand.complete_node
    {value : Operand}
    {type : ValueType}
    (h : value.HasType symbols.environment type) :
    (value.node (some symbols)).Everywhere (Node.Complete symbols) := by
  rw [node, type?_of_hasType h]
  simpa using Node.complete_of_type (by decide) type _

theorem Expression.complete_node
    {phrase : Expression}
    {type : ValueType}
    (h : phrase.HasType symbols.environment type) :
    (phrase.node (some symbols)).Everywhere (Node.Complete symbols) := by
  rw [node, type?_of_hasType h, Node.everywhere_inner]
  refine ⟨Node.complete_of_type (by decide) type _, ?_⟩
  cases h with
  | single hvalue =>
      simpa [parts] using Operand.complete_node hvalue
  | @binary _ _ sign _ _ _ hleft hright hsign =>
      have hnode : sign.node.Complete symbols := Production.complete_node (by decide) _
      simpa [parts, Sign.node] using
        ⟨Operand.complete_node hleft, hnode, Operand.complete_node hright⟩

theorem Expression.complete_conditionNode
    {phrase : Expression}
    (h : phrase.HasType symbols.environment .bool) :
    (phrase.conditionNode (some symbols)).Everywhere (Node.Complete symbols) := by
  rw [conditionNode, type?_of_hasType h, Node.everywhere_inner]
  refine ⟨Node.complete_of_type (by decide) .bool _, ?_⟩
  simpa using complete_node h

/-- Nodes of productions that have no types are complete everywhere if what is below is. -/
theorem Production.complete_everywhere
    {production : Production}
    {children : List Node}
    (hproduction : production ∉ [value, expression, condition, assignment])
    (hchildren : ∀ child ∈ children, child.Everywhere (Node.Complete symbols)) :
    (production.node children).Everywhere (Node.Complete symbols) :=
  (everywhere_node production).mpr ⟨complete_node hproduction children, hchildren⟩

/-- The rulings about the obligations are no violations. -/
def Obligation.AllRuled (symbols : SymbolTable) (obligations : List Obligation) : Prop :=
  ∀ obligation ∈ obligations, ∃ warnings, obligation.ruling symbols = .ok warnings

theorem Obligation.allRuled_of_rulings
    {obligations : List Obligation}
    {warnings : List Warning}
    (h : rulings symbols obligations = .ok warnings) :
    AllRuled symbols obligations := by
  induction obligations generalizing warnings with
  | nil =>
      exact List.forall_mem_nil _
  | cons obligation rest ih =>
      obtain ⟨first, further, hfirst, hfurther, rfl⟩ := rulings_cons_eq_ok.mp h
      exact List.forall_mem_cons.mpr ⟨⟨first, hfirst⟩, ih hfurther⟩

theorem Printed.complete_node
    {printed : Printed}
    (hruled : Obligation.AllRuled symbols printed.obligations) :
    (printed.node (some symbols)).Everywhere (Node.Complete symbols) := by
  cases printed with
  | endOfLine word =>
      exact Production.complete_everywhere (by decide) (by simp)
  | value operand =>
      obtain ⟨type, htype⟩ := (@Obligation.ruling_output_eq_ok_iff ⟨symbols, []⟩ _).mp
        (hruled _ List.mem_cons_self)
      exact Production.complete_everywhere (by decide) (by simpa using Operand.complete_node htype)

/-- The node of an assignment that is ruled to be right is complete. -/
theorem Statement.complete_assignment
    {name : Identifier}
    {equals : Word "="}
    {value : Expression}
    {semicolon : Word ";"}
    (hruled : ∃ warnings,
      (Obligation.assignment name.token.text value).ruling symbols = .ok warnings) :
    (Production.assignment.node [.leaf name.token, .leaf equals.token,
      value.node (some symbols), .leaf semicolon.token]).Everywhere (Node.Complete symbols) := by
  obtain ⟨target, type, hbound, htype, hfits⟩ :=
    (@Obligation.ruling_assignment_eq_ok_iff ⟨symbols, []⟩ _ _).mp hruled
  have hvalue : (value.node (some symbols)).Everywhere (Node.Complete symbols) :=
    Expression.complete_node htype
  refine (Production.everywhere_node _).mpr ⟨⟨?_, fun _ _ => ?_⟩, by simpa using hvalue⟩
  · intro production hmem _ hname
    obtain rfl : Production.assignment = production := Production.name_injective hname
    simp at hmem
  · exact ⟨name, equals, _, semicolon, target, type, rfl, rfl,
      Expression.type?_of_hasType htype, hbound, hfits⟩

theorem Guard.complete_nodes
    {guard : Guard}
    (hruled : ∃ warnings,
      (Obligation.condition guard.condition).ruling symbols = .ok warnings) :
    ∀ node ∈ guard.nodes (some symbols), node.Everywhere (Node.Complete symbols) := by
  have hcondition := (@Obligation.ruling_condition_eq_ok_iff ⟨symbols, []⟩ _).mp hruled
  simpa [nodes] using Expression.complete_conditionNode hcondition

/-- The node of a conditional is complete everywhere if its parts are. -/
theorem Guard.complete_everywhere
    {guard : Guard}
    {thenPart elsePart : Node}
    (hruled : ∃ warnings,
      (Obligation.condition guard.condition).ruling symbols = .ok warnings)
    (hthen : thenPart.Everywhere (Node.Complete symbols))
    (helse : elsePart.Everywhere (Node.Complete symbols)) :
    (Production.conditional.node (guard.nodes (some symbols) ++ [thenPart, elsePart])).Everywhere
      (Node.Complete symbols) := by
  refine Production.complete_everywhere (by decide) ?_
  simp only [List.forall_mem_append, List.forall_mem_cons]
  exact ⟨complete_nodes hruled, hthen, helse, List.forall_mem_nil _⟩

/-- The nodes of a statement are complete if all that it asks for is ruled to be right. -/
theorem Statement.complete_node
    {statement : Statement}
    (hruled : Obligation.AllRuled symbols statement.obligations) :
    (statement.node (some symbols)).Everywhere (Node.Complete symbols) := by
  -- the node of each statement is the node of its form under one of a statement
  have hform : ∀ {node : Node}, node.Everywhere (Node.Complete symbols) →
      (Production.statement.node [node]).Everywhere (Node.Complete symbols) := by
    intro node h
    exact Production.complete_everywhere (by decide) (by simpa using h)
  induction statement with
  | empty | declaration | input =>
      exact hform (Production.complete_everywhere (by decide) (by simp))
  | output word arrows printed semicolon =>
      have hprinted := Printed.complete_node hruled
      exact hform (Production.complete_everywhere (by decide) (by simpa using hprinted))
  | assignment name equals value semicolon =>
      exact hform (complete_assignment (hruled _ List.mem_cons_self))
  | conditional guard thenPart ih =>
      obtain ⟨hcondition, hthen⟩ := List.forall_mem_cons.mp hruled
      refine hform (Guard.complete_everywhere hcondition ?_ ?_)
      · exact Production.complete_everywhere (by decide) (by simpa using ih hthen)
      · exact Production.complete_everywhere (by decide) (List.forall_mem_nil _)
  | alternative guard thenPart word elsePart ihthen ihelse =>
      obtain ⟨hcondition, hparts⟩ := List.forall_mem_cons.mp hruled
      obtain ⟨hthen, helse⟩ := List.forall_mem_append.mp hparts
      refine hform (Guard.complete_everywhere hcondition ?_ ?_)
      · exact Production.complete_everywhere (by decide) (by simpa using ihthen hthen)
      · exact Production.complete_everywhere (by decide) (by simpa using ihelse helse)

/-- The nodes of a program are complete if all that it asks for is ruled to be right. -/
theorem Program.complete_node
    {program : Program}
    (hruled : Obligation.AllRuled symbols program.obligations) :
    (program.node (some symbols)).Everywhere (Node.Complete symbols) := by
  have hstatements : ∀ node ∈ program.statements.map (Statement.node (some symbols)),
      node.Everywhere (Node.Complete symbols) := by
    intro node hnode
    obtain ⟨statement, hmem, rfl⟩ := List.mem_map.mp hnode
    refine Statement.complete_node fun obligation hobligation => ?_
    exact hruled obligation (List.mem_flatMap.mpr ⟨statement, hmem, hobligation⟩)
  have hbody : (Production.statements.node (program.statements.map
      (Statement.node (some symbols)))).Everywhere (Node.Complete symbols) :=
    Production.complete_everywhere (by decide) hstatements
  refine Production.complete_everywhere (by decide) ?_
  simp only [List.forall_mem_cons, Node.everywhere_leaf]
  simp [hbody]

end Complete

end SimpleC
