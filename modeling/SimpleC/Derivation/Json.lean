import SimpleC.Derivation.Node
import SimpleC.Json.Document
import SimpleC.SymbolTable.Basic

/-!
# Derivations and symbol tables as JSON

A leaf is written as the kind and the text of its token, any other node as its
name, its children and its type if it has one.
-/

namespace SimpleC

/-- The JSON object of a token. -/
def Token.toJson (token : Token) : Json :=
  .object
    [("node_type", .text "Token"),
      ("kind", .text token.kind.name),
      ("text", .text token.text)]

namespace Node

/-- The member that holds the type of a node. -/
def typeMember (type? : Option ValueType) : List (String × Json) :=
  match type? with
  | some type => [("symbol_type", .text type.name)]
  | none => []

mutual

/-- The JSON value of a tree. A node that stands for a token shows the token
alone, provided that it has one. -/
def toJson (node : Node) : Json :=
  match node with
  | ⟨.token, _, some token, _, _⟩ => token.toJson
  | ⟨_, name, _, type?, children⟩ =>
      .object
        ([("node_type", .text "Production"),
            ("name", .text name),
            ("children", .array (toJsonAll children))] ++
          typeMember type?)

/-- The JSON values of a list of trees. -/
def toJsonAll (nodes : List Node) : List Json :=
  match nodes with
  | [] => []
  | node :: rest => toJson node :: toJsonAll rest

end

end Node

/-- The JSON value of a derivation, if there is one. -/
def derivationJson (tree? : Option Node) : Json :=
  match tree? with
  | some tree => tree.toJson
  | none => .null

/-- The JSON value of a symbol table: its variables in order. -/
def SymbolTable.toJson (table : SymbolTable) : Json :=
  .array (table.entries.map (fun symbol =>
    .object [("name", .text symbol.name), ("type", .text symbol.type.name)]))

end SimpleC
