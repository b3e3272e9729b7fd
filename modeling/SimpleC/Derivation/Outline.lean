import SimpleC.Derivation.Node

/-!
# Derivations as outlines

A derivation is shown with one line for each node, indented by its depth.
Tokens stand in quotes and hide what is below them.
-/

namespace SimpleC

namespace Node

/-- The text of a node in an outline. -/
def outlineEntry (node : Node) : String :=
  match node.kind with
  | .token => "\x27" ++ node.name ++ "\x27"
  | .production => node.label

/-- Two blanks for each level; there are none to the left of the margin. -/
def outlineIndent (depth : Int) : String :=
  String.ofList (List.replicate (2 * depth.toNat) ' ')

mutual

/-- The lines of a tree whose root stands at the given depth. -/
def outlineLines (depth : Int) (node : Node) : List String :=
  match node with
  | ⟨.token, name, token?, type?, children⟩ =>
      [outlineIndent depth ++ outlineEntry ⟨.token, name, token?, type?, children⟩]
  | ⟨.production, name, token?, type?, children⟩ =>
      (outlineIndent depth ++ outlineEntry ⟨.production, name, token?, type?, children⟩) ::
        outlineLinesAll (depth + 1) children

/-- The lines of a list of trees whose roots stand at the given depth. -/
def outlineLinesAll (depth : Int) (nodes : List Node) : List String :=
  match nodes with
  | [] => []
  | node :: rest => outlineLines depth node ++ outlineLinesAll depth rest

end

/-- The outline of a tree whose root stands at the given depth. -/
def outline (depth : Int) (node : Node) : String :=
  String.intercalate "\n" (outlineLines depth node)

end Node

/-- The outline of a derivation, if there is one. -/
def derivationOutline (depth : Int) (tree? : Option Node) : String :=
  match tree? with
  | some tree => tree.outline depth
  | none => "<no tree>"

end SimpleC
