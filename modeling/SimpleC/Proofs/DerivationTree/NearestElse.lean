import SimpleC.Proofs.DerivationTree.Basic

/-!
# Conditionals in derivation trees

Which conditionals of a tree lack an `else` that follows the tree or them. The
condition on all places of a tree is taken apart along its children, each of
which is followed by its later siblings.
-/

namespace SimpleC

/-- Without tokens nothing begins with an `else`. -/
@[simp] theorem beginsWithoutElse_nil : BeginsWithoutElse [] := by
  intro token htoken
  cases htoken

@[simp] theorem beginsWithoutElse_cons (token : Token) (rest : List Token) :
    BeginsWithoutElse (token :: rest) ↔ token.isSpelled "else" = false := by
  simp [BeginsWithoutElse]

@[simp] theorem Production.name_inj {left right : Production} :
    left.name = right.name ↔ left = right :=
  ⟨name_injective, congrArg name⟩

namespace Node

/-- No conditional of the tree lacks an `else` that follows it, when the tree is followed
by the given tokens. -/
def KeepsElses (tree : Node) (next : List Token) : Prop :=
  ∀ node after, tree.Occurs node after → node.LacksElse → BeginsWithoutElse (after ++ next)

/-- No conditional of the trees lacks an `else`, each tree being followed by the later ones
and then by the given tokens. -/
def KeepElses (next : List Token) : List Node → Prop
  | [] => True
  | node :: rest => node.KeepsElses (rest.flatMap leaves ++ next) ∧ KeepElses next rest

variable {next : List Token}

@[simp] theorem keepElses_nil : KeepElses next [] :=
  trivial

@[simp] theorem keepElses_cons (node : Node) (rest : List Node) :
    KeepElses next (node :: rest) ↔
      node.KeepsElses (rest.flatMap leaves ++ next) ∧ KeepElses next rest :=
  Iff.rfl

theorem keepElses_append (left right : List Node) :
    KeepElses next (left ++ right) ↔
      KeepElses (right.flatMap leaves ++ next) left ∧ KeepElses next right := by
  induction left with
  | nil =>
      simp
  | cons node rest ih =>
      simp [ih, and_assoc]

/-- The places of a list of trees are the places of each of them. -/
theorem keepElses_iff_forall (nodes : List Node) :
    KeepElses next nodes ↔
      ∀ left child right, nodes = left ++ child :: right →
        child.KeepsElses (right.flatMap leaves ++ next) := by
  constructor
  · rintro hkeep left child right rfl
    exact ((keepElses_append left (child :: right)).mp hkeep).2.1
  · intro hplaces
    induction nodes with
    | nil =>
        trivial
    | cons node rest ih =>
        refine ⟨hplaces [] node rest rfl, ih ?_⟩
        rintro left child right rfl
        exact hplaces (node :: left) child right rfl

/-- A tree keeps its `else`s if its root and the trees below it do. -/
theorem keepsElses_iff (tree : Node) :
    tree.KeepsElses next ↔
      (tree.LacksElse → BeginsWithoutElse next) ∧ KeepElses next tree.children := by
  rw [keepElses_iff_forall]
  constructor
  · intro hkeeps
    constructor
    · intro hlacks
      exact hkeeps _ [] (.root _) hlacks
    · intro left child right hchildren node after hoccurs hlacks
      rw [← List.append_assoc]
      exact hkeeps node _ (.inside hchildren hoccurs) hlacks
  · rintro ⟨hroot, hbelow⟩ node after hoccurs hlacks
    cases hoccurs with
    | root =>
        exact hroot hlacks
    | inside hchildren hchild =>
        rw [List.append_assoc]
        exact hbelow _ _ _ hchildren node _ hchild hlacks

@[simp] theorem keepsElses_leaf (token : Token) : (leaf token).KeepsElses next := by
  rw [keepsElses_iff]
  refine ⟨?_, trivial⟩
  intro hlacks
  cases hlacks.1

@[simp] theorem keepsElses_inner
    (name : String)
    (type? : Option ValueType)
    (children : List Node) :
    (inner name type? children).KeepsElses next ↔
      ((inner name type? children).LacksElse → BeginsWithoutElse next) ∧
        KeepElses next children :=
  keepsElses_iff _

/-- Only a conditional can lack an `else`. -/
@[simp] theorem lacksElse_inner
    (production : Production)
    (type? : Option ValueType)
    (children : List Node) :
    (inner production.name type? children).LacksElse ↔
      production = .conditional ∧
        ∃ part ∈ children,
          part.kind = .production ∧ part.name = Production.elsePart.name ∧ part.children = [] := by
  constructor
  · rintro ⟨_, hname, hpart⟩
    exact ⟨Production.name_injective hname, hpart⟩
  · rintro ⟨rfl, hpart⟩
    exact ⟨rfl, rfl, hpart⟩

section EraseTypes

variable (tree : Node)

@[simp] theorem lacksElse_eraseTypes : tree.eraseTypes.LacksElse ↔ tree.LacksElse := by
  simp [LacksElse, eraseTypes_eq]

theorem leaves_eq : tree.leaves = tree.token?.toList ++ tree.children.flatMap leaves := by
  rw [leaves, walk_eq, List.filterMap_cons, List.filterMap_flatMap]
  cases tree.token? <;> rfl

/-- The types of nodes have nothing to do with the leaves. -/
@[simp] theorem leaves_eraseTypes : tree.eraseTypes.leaves = tree.leaves := by
  induction tree using induction with
  | h tree ih =>
      rw [leaves_eq, leaves_eq tree, eraseTypes_eq, List.flatMap_map, List.flatMap_congr ih]

/-- The types of nodes have nothing to do with conditionals. -/
@[simp] theorem keepsElses_eraseTypes :
    tree.eraseTypes.KeepsElses next ↔ tree.KeepsElses next := by
  induction tree using induction generalizing next with
  | h tree ih =>
      rw [keepsElses_iff, keepsElses_iff tree, lacksElse_eraseTypes, eraseTypes_eq]
      refine and_congr_right fun _ => ?_
      generalize tree.children = children at ih
      induction children with
      | nil =>
          rfl
      | cons child rest ihrest =>
          simp only [List.forall_mem_cons] at ih
          simp only [List.map_cons, keepElses_cons, List.flatMap_map, leaves_eraseTypes,
            ih.1, ihrest ih.2]

end EraseTypes

end Node

end SimpleC
