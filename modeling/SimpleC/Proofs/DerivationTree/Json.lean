import Mathlib.Data.Set.Operations
import SimpleC.Derivation.Json
import SimpleC.Proofs.DerivationTree.Parts

/-!
# Derivations read off JSON

A tree whose leaves are tokens and whose other nodes are productions can be read off its JSON
value: tokens by kind and text, from which the name of the leaf follows, and productions by
name, children and type, which is absent where there is no member for it. All trees that are
recorded are of this sort, whole or broken off, with types or without.
-/

namespace SimpleC

/-- The kind of the given name. -/
def TokenKind.ofName? (name : String) : Option TokenKind :=
  all.find? fun kind => kind.name = name

theorem TokenKind.ofName?_name (kind : TokenKind) : ofName? kind.name = some kind := by
  cases kind <;> rfl

/-- The type of the given name. -/
def ValueType.ofName? (name : String) : Option ValueType :=
  all.find? fun type => type.name = name

theorem ValueType.ofName?_name (type : ValueType) : ofName? type.name = some type := by
  cases type <;> rfl

/-- The text that is the value of a member. -/
def Json.textMember? (key : String) (members : List (String × Json)) : Option String :=
  match members.lookup key with
  | some (.text content) => some content
  | _ => none

/-- Reads a token off the members of an object. -/
def Token.ofMembers? (members : List (String × Json)) : Option Token := do
  let name ← Json.textMember? "kind" members
  let kind ← TokenKind.ofName? name
  let text ← Json.textMember? "text" members
  return ⟨kind, text⟩

namespace Node

/-- Reads off the members of an object whether a node has a type, and which one. -/
def typeOfMembers? (members : List (String × Json)) : Option (Option ValueType) :=
  match members.lookup "symbol_type" with
  | none => some none
  | some (.text name) => (ValueType.ofName? name).map some
  | some _ => none

mutual

/-- Reads a tree off its JSON value. The members of an object may be in any order. -/
def ofJson? (json : Json) : Option Node :=
  match json with
  | .object members =>
      if Json.textMember? "node_type" members = some "Token" then
        (Token.ofMembers? members).map leaf
      else if Json.textMember? "node_type" members = some "Production" then do
        let name ← Json.textMember? "name" members
        let type? ← typeOfMembers? members
        let children ← childrenOfMembers? members
        return inner name type? children
      else
        none
  | _ => none

/-- Reads the children of a node off the members of an object. -/
def childrenOfMembers? (members : List (String × Json)) : Option (List Node) :=
  match members with
  | [] => none
  | (key, value) :: rest =>
      if key = "children" then childrenOfValue? value else childrenOfMembers? rest

/-- Reads trees off an array. -/
def childrenOfValue? (json : Json) : Option (List Node) :=
  match json with
  | .array items => ofJsonAll? items
  | _ => none

/-- Reads one tree off each value. -/
def ofJsonAll? (items : List Json) : Option (List Node) :=
  match items with
  | [] => some []
  | item :: rest => do
      let node ← ofJson? item
      let nodes ← ofJsonAll? rest
      return node :: nodes

end

/-- The node is as it is recorded: what stands for a token is named by its wire form and has
nothing else, and what stands for a production has no token. -/
structure AsRecorded (node : Node) : Prop where
  token : node.kind = .token → ∃ token, node.token? = some token ∧ node.name = token.wire ∧
    node.type? = none ∧ node.children = []
  production : node.kind = .production → node.token? = none

theorem asRecorded_leaf (token : Token) : (leaf token).AsRecorded :=
  ⟨fun _ => ⟨token, rfl, rfl, rfl, rfl⟩, fun hkind => by cases hkind⟩

theorem asRecorded_inner (name : String) (type? : Option ValueType) (children : List Node) :
    (inner name type? children).AsRecorded :=
  ⟨fun hkind => (by cases hkind), fun _ => rfl⟩

theorem AsRecorded.eq_leaf_or_inner {node : Node} (h : node.AsRecorded) :
    (∃ token, node = leaf token) ∨ node = inner node.name node.type? node.children := by
  obtain ⟨kind, name, token?, type?, children⟩ := node
  cases kind with
  | token =>
      obtain ⟨token, rfl, rfl, rfl, rfl⟩ := h.token rfl
      exact .inl ⟨token, rfl⟩
  | production =>
      obtain rfl : token? = none := h.production rfl
      exact .inr rfl

theorem toJsonAll_eq_map (nodes : List Node) : toJsonAll nodes = nodes.map toJson := by
  induction nodes with
  | nil =>
      rfl
  | cons node rest ih =>
      rw [toJsonAll, ih, List.map_cons]

theorem toJson_inner (name : String) (type? : Option ValueType) (children : List Node) :
    (inner name type? children).toJson =
      .object
        ([("node_type", .text "Production"), ("name", .text name),
            ("children", .array (children.map toJson))] ++
          typeMember type?) := by
  rw [← toJsonAll_eq_map]
  rfl

theorem ofJson?_leaf (token : Token) : ofJson? (leaf token).toJson = some (leaf token) := by
  have hread : Token.ofMembers? [("node_type", .text "Token"), ("kind", .text token.kind.name),
      ("text", .text token.text)] = some token := by
    show (TokenKind.ofName? token.kind.name).bind _ = some token
    rw [TokenKind.ofName?_name]
    rfl
  show ofJson? token.toJson = some (leaf token)
  rw [Token.toJson, ofJson?, hread]
  rfl

theorem typeOfMembers?_typeMember (type? : Option ValueType) :
    typeOfMembers? (typeMember type?) = some type? := by
  cases type? with
  | none =>
      rfl
  | some type =>
      show (ValueType.ofName? type.name).map some = some (some type)
      rw [ValueType.ofName?_name]
      rfl

theorem ofJson?_inner {name : String} {type? : Option ValueType} {children : List Node}
    (h : ofJsonAll? (children.map toJson) = some children) :
    ofJson? (inner name type? children).toJson = some (inner name type? children) := by
  have htype : typeOfMembers? ([("node_type", .text "Production"), ("name", .text name),
      ("children", .array (children.map toJson))] ++ typeMember type?) = some type? :=
    typeOfMembers?_typeMember type?
  have hchildren : childrenOfMembers? ([("node_type", .text "Production"), ("name", .text name),
      ("children", .array (children.map toJson))] ++ typeMember type?) = some children := by
    simp [childrenOfMembers?, childrenOfValue?, h]
  rw [toJson_inner, ofJson?, htype, hchildren]
  rfl

/-- Trees are read off their values if each of them is. -/
theorem ofJsonAll?_map_toJson {nodes : List Node}
    (h : ∀ node ∈ nodes, ofJson? node.toJson = some node) :
    ofJsonAll? (nodes.map toJson) = some nodes := by
  induction nodes with
  | nil =>
      simp [ofJsonAll?]
  | cons node rest ih =>
      rw [List.forall_mem_cons] at h
      rw [List.map_cons, ofJsonAll?, h.1, ih h.2]
      rfl

/-- A tree that could have been recorded is read off its value. -/
theorem ofJson?_toJson (tree : Node) (h : ∀ node ∈ tree.walk, node.AsRecorded) :
    ofJson? tree.toJson = some tree := by
  induction tree using induction with
  | h tree ih =>
      rw [walk_eq, List.forall_mem_cons] at h
      obtain ⟨hroot, hbelow⟩ := h
      rcases hroot.eq_leaf_or_inner with ⟨token, rfl⟩ | hinner
      · exact ofJson?_leaf token
      · rw [hinner]
        refine ofJson?_inner (ofJsonAll?_map_toJson fun child hchild => ih child hchild ?_)
        exact fun node hnode => hbelow node (List.mem_flatMap.mpr ⟨child, hchild, hnode⟩)

end Node

/-- The parts of recorded trees are as they are recorded. -/
theorem Grammar.IsPart.asRecorded {node : Node} (h : Grammar.IsPart node) : node.AsRecorded := by
  obtain ⟨constituent, _, hfits⟩ := h
  cases hfits with
  | terminal =>
      exact Node.asRecorded_leaf _
  | nonterminal =>
      exact Node.asRecorded_inner _ _ _

/-- The run has recorded a tree, all nodes of which are as they are recorded. -/
theorem Run.RecordsParts.exists_asRecorded {run : Run} (h : run.RecordsParts) :
    ∃ tree, run.tree? = some tree ∧ ∀ node ∈ tree.walk, node.AsRecorded := by
  obtain ⟨tree, htree, hparts⟩ := h
  exact ⟨tree, htree, fun node hnode => (hparts node hnode).asRecorded⟩

/-- A tree whose nodes are as they are recorded is read off its JSON value, so that different
ones have different values. The trees that runs and staged checks record, whether they fail or
not, are such trees. -/
theorem json_determines_tree :
    (∀ tree : Node, (∀ node ∈ tree.walk, node.AsRecorded) →
      Node.ofJson? tree.toJson = some tree) ∧
    Set.InjOn Node.toJson {tree | ∀ node ∈ tree.walk, node.AsRecorded} ∧
    ∀ tokens : List Token,
      (∀ declare checkTypes symbols,
        ∃ tree, (recognize ⟨declare, checkTypes, true⟩ symbols tokens).tree? = some tree ∧
          ∀ node ∈ tree.walk, node.AsRecorded) ∧
      ∃ tree, (checkStaged true tokens).tree? = some tree ∧ ∀ node ∈ tree.walk, node.AsRecorded := by
  refine ⟨Node.ofJson?_toJson, ?_, ?_⟩
  · intro tree htree other hother hsame
    have hread := Node.ofJson?_toJson tree htree
    rw [hsame, Node.ofJson?_toJson other hother] at hread
    exact (Option.some.inj hread).symm
  · intro tokens
    refine ⟨?_, (checkStaged_recordsParts tokens).exists_asRecorded⟩
    intro declare checkTypes symbols
    exact (recognize_recordsParts declare checkTypes symbols tokens).exists_asRecorded

/-- A program that adds a truth value to a number. -/
def addsTruthValue : List Token :=
  programOf [.bare "cout", .bare "<<", ⟨.strLiteral, "sum: "⟩, .bare ";",
    .bare "if", .bare "(", ⟨.intLiteral, "1"⟩, .bare "+", .bare "true", .bare ")", .bare ";"]

/-- The tree of a program that is broken off at a type error is read off its value. -/
theorem json_determines_tree_of_addsTruthValue :
    (check true addsTruthValue).isSuccess = false ∧
      ∃ tree, (check true addsTruthValue).tree? = some tree ∧
        (∀ node ∈ tree.walk, node.AsRecorded) ∧ Node.ofJson? tree.toJson = some tree := by
  have hfailed : (check true addsTruthValue).isSuccess = false := by decide +kernel
  obtain ⟨hread, _, hrecorded⟩ := json_determines_tree
  obtain ⟨tree, htree, hnodes⟩ := (hrecorded addsTruthValue).1 true true .empty
  exact ⟨hfailed, tree, htree, hnodes, hread tree hnodes⟩

end SimpleC
