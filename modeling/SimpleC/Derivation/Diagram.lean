import SimpleC.Derivation.Node
import SimpleC.Dot.Graph

/-!
# Derivations as diagrams

A derivation is drawn as a directed graph that runs from top to bottom:
ellipses for productions, boxes for tokens, and an edge from each node to each
of its children. Nodes are numbered in the order of a walk. The statements of a
child's whole tree stand before the edge that leads to it.
-/

namespace SimpleC

open Dot (Statement)

namespace Node

mutual

/-- The number of nodes of a tree. -/
def size (node : Node) : Nat :=
  match node with
  | ⟨_, _, _, _, children⟩ => sizeAll children + 1

/-- The number of nodes of a list of trees. -/
def sizeAll (nodes : List Node) : Nat :=
  match nodes with
  | [] => 0
  | node :: rest => size node + sizeAll rest

end

/-- What is written on a node: tokens show their name alone. -/
def caption (node : Node) : String :=
  match node.kind with
  | .token => node.name
  | .production => node.label

/-- The colour of a node: tokens have one of their own, and nodes with a type are
set apart from those without. -/
def colour (node : Node) : String :=
  match node.kind with
  | .token => "#efefff"
  | .production => if node.type?.isSome then "#efffef" else "white"

/-- The outline of a node. -/
def shape (node : Node) : String :=
  match node.kind with
  | .token => "box"
  | .production => "ellipse"

/-- The statement that draws a node under the given number. -/
def drawn (number : Nat) (node : Node) : Statement :=
  .node number
    [("label", node.caption), ("fillcolor", node.colour), ("shape", node.shape),
      ("style", "filled")]

mutual

/-- The statements that draw a tree whose root has the given number. -/
def diagram (number : Nat) (node : Node) : List Statement :=
  match node with
  | ⟨kind, name, token?, type?, children⟩ =>
      drawn number ⟨kind, name, token?, type?, children⟩ ::
        diagramAll number (number + 1) children

/-- The statements that draw trees, numbered from `next`, below the node with
the number `parent`. -/
def diagramAll (parent next : Nat) (nodes : List Node) : List Statement :=
  match nodes with
  | [] => []
  | node :: rest =>
      diagram next node ++ .edge parent next :: diagramAll parent (next + node.size) rest

end

end Node

/-- The statements before the first node: the direction of drawing, the font, and
a title unless it is empty. -/
def diagramHead (title : String) : List Statement :=
  [.defaults "graph" [("rankdir", "TB")],
    .defaults "node" [("fontname", "Helvetica"), ("fontsize", "10")]] ++
  (if title.isEmpty then [] else [.graph [("label", title), ("labelloc", "t")]])

/-- The statements that draw a derivation, if there is one. -/
def derivationStatements (title : String) (tree? : Option Node) : List Statement :=
  diagramHead title ++ (tree?.map (Node.diagram 0)).getD []

/-- The DOT text of a derivation. -/
def derivationDiagram (title : String) (tree? : Option Node) : String :=
  Dot.render (derivationStatements title tree?)

end SimpleC
