import Mathlib.Data.List.Forall2
import SimpleC.Derivation.Node
import SimpleC.Proofs.Grammar.Derivation

/-!
# Derivation trees

What makes a tree the derivation of a list of tokens: its root stands for a
program, the children of every node of a production are a right-hand side of its
rule, its leaves are the tokens, and no conditional without an `else` is followed
by one. The conditions speak of single nodes and of their places in the tree. For
inductions, trees that stand side by side are compared with a list of
constituents as a whole.
-/

namespace SimpleC

namespace Node

/-- A property that a node has as soon as its children have it is one of all nodes. -/
@[elab_as_elim]
theorem induction
    {motive : Node → Prop}
    (h : ∀ node, (∀ child ∈ node.children, motive child) → motive node) :
    ∀ node, motive node
  | ⟨kind, name, token?, type?, children⟩ =>
      h _ fun child _ => induction h child

section Views

variable (name : String) (type? : Option ValueType) (children : List Node) (token : Token)

@[simp] theorem kind_leaf : (leaf token).kind = .token :=
  rfl

@[simp] theorem kind_inner : (inner name type? children).kind = .production :=
  rfl

@[simp] theorem name_inner : (inner name type? children).name = name :=
  rfl

@[simp] theorem children_inner : (inner name type? children).children = children :=
  rfl

@[simp] theorem walk_leaf : (leaf token).walk = [leaf token] := by
  rw [walk_eq]
  rfl

@[simp] theorem walk_inner :
    (inner name type? children).walk = inner name type? children :: children.flatMap walk := by
  rw [walk_eq]
  rfl

@[simp] theorem leaves_leaf : (leaf token).leaves = [token] := by
  rw [leaves, walk_leaf]
  rfl

@[simp] theorem leaves_inner :
    (inner name type? children).leaves = children.flatMap leaves := by
  rw [leaves, walk_inner, List.filterMap_cons_none rfl, List.filterMap_flatMap]
  rfl

end Views

mutual

/-- The tree without the types of its nodes. -/
def eraseTypes (node : Node) : Node :=
  match node with
  | ⟨kind, name, token?, _, children⟩ => ⟨kind, name, token?, none, eraseTypesAll children⟩

/-- The trees without the types of their nodes. -/
def eraseTypesAll (nodes : List Node) : List Node :=
  match nodes with
  | [] => []
  | node :: rest => eraseTypes node :: eraseTypesAll rest

end

theorem eraseTypesAll_eq_map (nodes : List Node) : eraseTypesAll nodes = nodes.map eraseTypes := by
  induction nodes with
  | nil =>
      rfl
  | cons node rest ih =>
      rw [eraseTypesAll, ih, List.map_cons]

/-- Only the types are erased, at each node. -/
theorem eraseTypes_eq (node : Node) :
    node.eraseTypes =
      ⟨node.kind, node.name, node.token?, none, node.children.map eraseTypes⟩ := by
  cases node
  rw [eraseTypes, eraseTypesAll_eq_map]

@[simp] theorem eraseTypes_leaf (token : Token) : (leaf token).eraseTypes = leaf token :=
  eraseTypes_eq _

@[simp] theorem eraseTypes_inner
    (name : String)
    (type? : Option ValueType)
    (children : List Node) :
    (inner name type? children).eraseTypes = inner name none (children.map eraseTypes) :=
  eraseTypes_eq _

/-- The node occurs in the tree, with these leaves of the tree after it. -/
inductive Occurs : Node → Node → List Token → Prop
  | root (tree : Node) :
      Occurs tree tree []
  | inside {tree child node : Node} {left right : List Node} {after : List Token}
      (hchildren : tree.children = left ++ child :: right)
      (hoccurs : Occurs child node after) :
      Occurs tree node (after ++ right.flatMap leaves)

/-- The node is a conditional whose part for `else` is empty. -/
def LacksElse (node : Node) : Prop :=
  node.kind = .production ∧ node.name = Production.conditional.name ∧
    ∃ part ∈ node.children,
      part.kind = .production ∧ part.name = Production.elsePart.name ∧ part.children = []

end Node

/-- The tokens do not begin with an `else`. -/
def BeginsWithoutElse (tokens : List Token) : Prop :=
  ∀ token ∈ tokens.head?, token.isSpelled "else" = false

namespace Grammar

/-- The node is what the constituent calls for, whatever is below it. -/
inductive Fits : Constituent → Node → Prop
  | terminal {wanted : Expectation} {token : Token}
      (haccepts : wanted.accepts token = true) :
      Fits (.terminal wanted) (.leaf token)
  | nonterminal (production : Production) (type? : Option ValueType) (children : List Node) :
      Fits (.nonterminal production) (.inner production.name type? children)

/-- The children of the node are a right-hand side of the rule that it is named after. -/
def IsComplete (node : Node) : Prop :=
  ∃ production body,
    node.name = production.name ∧ Rule production body ∧ List.Forall₂ Fits body node.children

/-- The tree is a derivation of the tokens in which every `else` is at the nearest
conditional. -/
structure IsDerivation (tree : Node) (tokens : List Token) : Prop where
  root : Fits (.nonterminal .program) tree
  complete : ∀ node ∈ tree.walk, node.kind = .production → IsComplete node
  leaves : tree.leaves = tokens
  nearestElse : ∀ node after, tree.Occurs node after → node.LacksElse →
    BeginsWithoutElse after

/-- The trees are derivations of the constituents, one of each. -/
inductive Spans : List Constituent → List Node → Prop
  | nil :
      Spans [] []
  | terminal {wanted : Expectation} {token : Token}
      {rest : List Constituent} {nodes : List Node}
      (haccepts : wanted.accepts token = true)
      (hrest : Spans rest nodes) :
      Spans (.terminal wanted :: rest) (.leaf token :: nodes)
  | nonterminal {production : Production} {body rest : List Constituent}
      {type? : Option ValueType} {children nodes : List Node}
      (hrule : Rule production body)
      (hbody : Spans body children)
      (hrest : Spans rest nodes) :
      Spans (.nonterminal production :: rest) (.inner production.name type? children :: nodes)

section Spans

variable {left right body : List Constituent} {front back nodes : List Node}

theorem Spans.append (hleft : Spans left front) (hright : Spans right back) :
    Spans (left ++ right) (front ++ back) := by
  induction hleft with
  | nil =>
      exact hright
  | terminal haccepts _ ih =>
      exact .terminal haccepts ih
  | nonterminal hrule hbody _ _ ih =>
      exact .nonterminal hrule hbody ih

theorem Spans.fits (h : Spans body nodes) : List.Forall₂ Fits body nodes := by
  induction h with
  | nil =>
      exact .nil
  | terminal haccepts _ ih =>
      exact .cons (.terminal haccepts) ih
  | nonterminal _ _ _ _ ih =>
      exact .cons (.nonterminal _ _ _) ih

/-- In a derivation the children of every node are a right-hand side. -/
theorem Spans.complete (h : Spans body nodes) :
    ∀ node ∈ nodes.flatMap Node.walk, node.kind = .production → IsComplete node := by
  induction h with
  | nil =>
      simp
  | terminal haccepts _ ih =>
      simp only [List.flatMap_cons, Node.walk_leaf, List.cons_append, List.nil_append,
        List.forall_mem_cons]
      refine ⟨?_, ih⟩
      intro hkind
      cases hkind
  | @nonterminal production body _ type? children _ hrule hbody _ ihbody ih =>
      simp only [List.flatMap_cons, Node.walk_inner, List.cons_append, List.forall_mem_cons,
        List.forall_mem_append]
      exact ⟨fun _ => ⟨production, body, rfl, hrule, hbody.fits⟩, ihbody, ih⟩

theorem IsComplete.of_inner
    {production : Production}
    {type? : Option ValueType}
    {children : List Node}
    (h : IsComplete (.inner production.name type? children)) :
    ∃ body, Rule production body ∧ List.Forall₂ Fits body children := by
  obtain ⟨other, body, hname, hrule, hfits⟩ := h
  have hsame : production = other := Production.name_injective hname
  subst hsame
  exact ⟨body, hrule, hfits⟩

/-- A node that is what a constituent calls for is a derivation of it, if the children of
all nodes are right-hand sides. -/
theorem Fits.spans (node : Node) :
    ∀ {constituent}, Fits constituent node →
      (∀ other ∈ node.walk, other.kind = .production → IsComplete other) →
        Spans [constituent] [node] := by
  induction node using Node.induction with
  | h node ih =>
      intro constituent hfits hcomplete
      cases hfits with
      | terminal haccepts =>
          exact .terminal haccepts .nil
      | nonterminal production type? children =>
          simp only [Node.walk_inner, List.forall_mem_cons] at hcomplete
          obtain ⟨hroot, hbelow⟩ := hcomplete
          obtain ⟨body, hrule, hchildren⟩ := (hroot rfl).of_inner
          refine .nonterminal hrule ?_ .nil
          clear hrule hroot
          change ∀ child ∈ children, _ at ih
          induction hchildren with
          | nil =>
              exact .nil
          | @cons constituent child rest others hfits _ ihrest =>
              simp only [List.flatMap_cons, List.forall_mem_append] at hbelow
              simp only [List.forall_mem_cons] at ih
              exact (ih.1 hfits hbelow.1).append (ihrest hbelow.2 ih.2)

end Spans

end Grammar

end SimpleC
