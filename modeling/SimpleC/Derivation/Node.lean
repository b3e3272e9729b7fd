import SimpleC.Token.Wire
import SimpleC.ValueType

/-!
# Derivation trees

A derivation is an ordered tree. Its inner nodes stand for productions of the
grammar and its leaves for tokens; nodes of expressions may carry the type that
was computed for them. Trees of any other shape are trees as well, so that the
renderings are total.
-/

namespace SimpleC

/-- What a node stands for. -/
inductive NodeKind where
  | production
  | token
  deriving DecidableEq, Inhabited

namespace NodeKind

/-- Both kinds of nodes. -/
def all : List NodeKind :=
  [production, token]

/-- The name of a kind of nodes. -/
def name : NodeKind → String
  | production => "PRODUCTION"
  | token => "TOKEN"

end NodeKind

/-- A node with all that is below it. -/
structure Node where
  kind : NodeKind
  name : String
  token? : Option Token
  type? : Option ValueType
  children : List Node
  deriving Inhabited

namespace Node

/-- The leaf of a consumed token, named by its wire form. -/
def leaf (token : Token) : Node :=
  ⟨.token, token.wire, some token, none, []⟩

/-- An inner node. -/
def inner (name : String) (type? : Option ValueType) (children : List Node) : Node :=
  ⟨.production, name, none, type?, children⟩

/-- The name of a node, followed by its type if it has one. -/
def label (node : Node) : String :=
  match node.type? with
  | some type => node.name ++ " : " ++ type.name
  | none => node.name

mutual

/-- The nodes of a tree, each before the nodes below it, from left to right. -/
def walk (node : Node) : List Node :=
  match node with
  | ⟨kind, name, token?, type?, children⟩ =>
      ⟨kind, name, token?, type?, children⟩ :: walkAll children

/-- The nodes of a list of trees, tree by tree. -/
def walkAll (nodes : List Node) : List Node :=
  match nodes with
  | [] => []
  | node :: rest => walk node ++ walkAll rest

end

/-- The nodes that stand for the production of the given name. -/
def findAll (node : Node) (name : String) : List Node :=
  node.walk.filter (fun other => other.kind = .production ∧ other.name = name)

/-- The tokens on the nodes, in order. -/
def leaves (node : Node) : List Token :=
  node.walk.filterMap Node.token?

/-- A list of trees is walked tree by tree. -/
theorem walkAll_eq_flatMap (nodes : List Node) : walkAll nodes = nodes.flatMap walk := by
  induction nodes with
  | nil =>
      simp [walkAll]
  | cons node rest ih =>
      simp [walkAll, ih]

/-- A walk begins with the node itself and goes on with the trees below it. -/
theorem walk_eq (node : Node) : node.walk = node :: node.children.flatMap walk := by
  cases node
  rw [walk, walkAll_eq_flatMap]

end Node

end SimpleC
