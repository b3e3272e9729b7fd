import SimpleC.Dot.Identifier

/-!
# Directed graphs in the DOT language

A graph is a list of statements, one on a line, between a head and a closing
brace.
-/

namespace SimpleC.Dot

/-- The attributes of a graph, a node or an edge, in the order of writing. -/
abbrev Attributes := List (String × String)

/-- The statements of a graph. Nodes are numbered. -/
inductive Statement where
  /-- Attributes of all elements of one sort. -/
  | defaults (sort : String) (attributes : Attributes)
  /-- Attributes of the graph itself. -/
  | graph (attributes : Attributes)
  /-- A node with its attributes. -/
  | node (number : Nat) (attributes : Attributes)
  /-- An edge from one node to another. -/
  | edge (source target : Nat)
  deriving DecidableEq

/-- The name of the node with the given number. -/
def nodeName (number : Nat) : String :=
  "n" ++ toString number

/-- The attributes as they stand in a statement. -/
def attributeList (attributes : Attributes) : String :=
  String.intercalate " " (attributes.map (fun (key, value) => key ++ "=" ++ identifier value))

/-- The text of a statement. -/
def Statement.render : Statement → String
  | defaults sort attributes => sort ++ " [" ++ attributeList attributes ++ "]"
  | graph attributes => attributeList attributes
  | node number attributes => nodeName number ++ " [" ++ attributeList attributes ++ "]"
  | edge source target => nodeName source ++ " -> " ++ nodeName target

/-- One indented line for each statement. -/
def statementLine (statement : Statement) : String :=
  "\t" ++ statement.render ++ "\n"

/-- The text of a directed graph. -/
def render (statements : List Statement) : String :=
  "digraph \x7b\n" ++ String.join (statements.map statementLine) ++ "\x7d\n"

end SimpleC.Dot
