import SimpleC.Proofs.DerivationTree.Addresses

/-!
# Diagrams show trees

The statements of a diagram name nodes by their numbers. Which statements there are, and in which
order, is said by the tree alone: one statement for each node, one edge from each node to each of
its children, and the edge to a child right after all that is said about the nodes below it. The
text of a diagram has a line for each statement, in this order, with the nodes under their names.

The proofs cut the statements of a tree at an address. What stands before and after the statements
of the tree at that address is about other numbers.
-/

namespace SimpleC

open Dot (Statement)

namespace Dot.Statement

/-- The number of a drawn node, and its label. -/
def node? : Statement → Option (Nat × Option String)
  | .node number attributes => some (number, attributes.lookup "label")
  | _ => none

/-- The text of a statement that draws a node. -/
def nodeText? : Statement → Option String
  | .node number attributes => some (Statement.render (.node number attributes))
  | _ => none

/-- The node that is drawn, or that an edge leaves. -/
def subject? : Statement → Option Nat
  | .node number _ => some number
  | .edge source _ => some source
  | _ => none

/-- The node that an edge leads to. -/
def target? : Statement → Option Nat
  | .edge _ target => some target
  | _ => none

/-- The node that an edge from the given node leads to. -/
def targetFrom? (parent : Nat) : Statement → Option Nat
  | .edge source target => if source = parent then some target else none
  | _ => none

/-- The statement names the node. -/
def Mentions (statement : Statement) (number : Nat) : Prop :=
  statement.subject? = some number ∨ statement.target? = some number

/-- What holds of the node that a statement is about and of the one that it leads to, as far as
there are such nodes. -/
structure Concerns (subject target : Nat → Prop) (statement : Statement) : Prop where
  subject : ∀ number, statement.subject? = some number → subject number
  target : ∀ number, statement.target? = some number → target number

/-- The statement is about no node whose number is in the range. -/
def Avoids (low high : Nat) (statement : Statement) : Prop :=
  statement.Concerns (fun other => other < low ∨ high ≤ other)
    (fun other => other < low ∨ high ≤ other)

/-- The statement is about no node whose number is in the range, but may lead to the first one. -/
def Surrounds (low high : Nat) (statement : Statement) : Prop :=
  statement.Concerns (fun other => other < low ∨ high ≤ other)
    (fun other => other ≤ low ∨ high ≤ other)

theorem Concerns.imp
    {subject target subject' target' : Nat → Prop}
    {statement : Statement}
    (h : Concerns subject target statement)
    (hsubject : ∀ number, subject number → subject' number)
    (htarget : ∀ number, target number → target' number) :
    Concerns subject' target' statement :=
  ⟨fun number hnumber => hsubject number (h.subject number hnumber),
    fun number hnumber => htarget number (h.target number hnumber)⟩

theorem Concerns.of_mentions
    {named : Nat → Prop}
    {statement : Statement}
    {number : Nat}
    (h : Concerns named named statement)
    (hnumber : statement.Mentions number) :
    named number :=
  hnumber.elim (h.subject number) (h.target number)

theorem concerns_node
    {subject target : Nat → Prop}
    {number : Nat}
    (attributes : Dot.Attributes)
    (h : subject number) :
    Concerns subject target (.node number attributes) :=
  ⟨fun _ hnumber => Option.some.inj hnumber ▸ h, nofun⟩

theorem concerns_edge
    {subject target : Nat → Prop}
    {source number : Nat}
    (hsource : subject source)
    (hnumber : target number) :
    Concerns subject target (.edge source number) :=
  ⟨fun _ h => Option.some.inj h ▸ hsource, fun _ h => Option.some.inj h ▸ hnumber⟩

theorem targetFrom?_eq_some_iff {parent child : Nat} {statement : Statement} :
    statement.targetFrom? parent = some child ↔ statement = .edge parent child := by
  cases statement <;> simp [targetFrom?]

/-- Statements about other nodes have no edges from the node. -/
theorem filterMap_targetFrom?_eq_nil
    {parent : Nat}
    {subject target : Nat → Prop}
    {statements : List Statement}
    (h : ∀ statement ∈ statements, Concerns subject target statement)
    (hparent : ¬ subject parent) :
    statements.filterMap (targetFrom? parent) = [] := by
  rw [List.filterMap_eq_nil_iff]
  intro statement hstatement
  rw [Option.eq_none_iff_forall_not_mem]
  intro child hchild
  obtain rfl := targetFrom?_eq_some_iff.mp hchild
  exact hparent ((h _ hstatement).subject parent rfl)

end Dot.Statement

/-- The statements draw the tree, with its nodes numbered in the order of a walk. A token is
labelled by its name alone. -/
structure DrawsTree (statements : List Statement) (tree : Node) : Prop where
  nodes :
    statements.filterMap Statement.node? =
      tree.walk.mapIdx fun number node =>
        (number, some (match node.kind with | .token => node.name | .production => node.label))
  edges : (statements.filterMap Statement.target?).length + 1 = tree.walk.length
  edge_iff (parent child : Nat) : .edge parent child ∈ statements ↔ tree.IsChild parent child
  order (parent index child : Nat) :
    (statements.filterMap (Statement.targetFrom? parent))[index]? = some child ↔
      ∃ address, tree.addresses[parent]? = some address ∧
        tree.addresses[child]? = some (address ++ [index])
  edge_after (parent child : Nat) :
    tree.IsChild parent child →
      ∃ before inside after, statements = before ++ inside ++ .edge parent child :: after ∧
        (∃ attributes, .node parent attributes ∈ before) ∧
        (∃ attributes, .node child attributes ∈ inside) ∧
        (∀ statement ∈ inside, ∀ number, statement.Mentions number →
          tree.IsBelow child number) ∧
        ∀ statement ∈ before ++ after, ∀ number, statement.Mentions number →
          ¬ tree.IsBelow child number

/-- The text is that of statements which draw the tree: it has a line for each of them, in their
order. Nodes are named by the letter n and their numbers, also where edges lead, and their labels
are written as identifiers. What is neither a node nor an edge sets the direction and the font, or
gives the title. -/
structure WritesTree (text : String) (statements : List Statement) (title : String) (tree : Node) :
    Prop where
  lines : text =
    "digraph \x7b\n" ++
      String.join (statements.map fun statement => "\t" ++ statement.render ++ "\n") ++ "\x7d\n"
  nodes :
    statements.filterMap Statement.nodeText? =
      tree.walk.mapIdx fun number node =>
        "n" ++ toString number ++ " [label=" ++
          Dot.identifier (match node.kind with | .token => node.name | .production => node.label) ++
          " fillcolor=" ++ Dot.identifier node.colour ++ " shape=" ++ node.shape ++ " style=filled]"
  edges (parent child : Nat) :
    Statement.render (.edge parent child) = "n" ++ toString parent ++ " -> n" ++ toString child
  others : ∀ statement ∈ statements, statement.subject? = none →
    statement.render ∈
      ["graph [rankdir=TB]", "node [fontname=Helvetica fontsize=10]",
        "label=" ++ Dot.identifier title ++ " labelloc=t"]

namespace Node

section Statements

variable {tree node child : Node} {address : List Nat} {index number parent next : Nat}

theorem diagram_eq (number : Nat) (node : Node) :
    node.diagram number = node.drawn number :: diagramAll number (number + 1) node.children := by
  cases node
  rfl

theorem exists_mem_diagram (number : Nat) (node : Node) :
    ∃ attributes, .node number attributes ∈ node.diagram number := by
  rw [diagram_eq]
  exact ⟨_, List.mem_cons_self⟩

theorem diagramAll_append (parent next : Nat) (left right : List Node) :
    diagramAll parent next (left ++ right) =
      diagramAll parent next left ++ diagramAll parent (next + sizeAll left) right := by
  induction left generalizing next with
  | nil =>
      rfl
  | cons node rest ih =>
      rw [List.cons_append, diagramAll, diagramAll, ih, sizeAll, Nat.add_assoc, List.append_assoc,
        List.cons_append]

mutual

/-- Nodes are drawn in the order of a walk: what is gathered from their statements alone is
gathered along the walk. -/
theorem filterMap_diagram
    {α : Type}
    {gather : Statement → Option α}
    {shown : Nat → Node → α}
    (hdrawn : ∀ number node, gather (drawn number node) = some (shown number node))
    (hedge : ∀ source target, gather (.edge source target) = none)
    (number : Nat)
    (node : Node) :
    (node.diagram number).filterMap gather =
      node.walk.mapIdx fun index other => shown (number + index) other := by
  match node with
  | ⟨kind, name, token?, type?, children⟩ =>
      rw [diagram, walk, List.mapIdx_cons, List.filterMap_cons_some (hdrawn _ _),
        filterMap_diagramAll hdrawn hedge]
      simp only [Nat.add_assoc, Nat.add_comm 1, Nat.add_zero]

theorem filterMap_diagramAll
    {α : Type}
    {gather : Statement → Option α}
    {shown : Nat → Node → α}
    (hdrawn : ∀ number node, gather (drawn number node) = some (shown number node))
    (hedge : ∀ source target, gather (.edge source target) = none)
    (parent next : Nat)
    (nodes : List Node) :
    (diagramAll parent next nodes).filterMap gather =
      (walkAll nodes).mapIdx fun index other => shown (next + index) other := by
  match nodes with
  | [] =>
      rfl
  | node :: rest =>
      rw [diagramAll, walkAll, List.mapIdx_append, List.filterMap_append,
        filterMap_diagram hdrawn hedge, List.filterMap_cons_none (hedge _ _),
        filterMap_diagramAll hdrawn hedge, length_walk]
      simp only [Nat.add_assoc, Nat.add_comm node.size]

end

mutual

/-- There is an edge to every node but the root. -/
theorem length_edges_diagram (number : Nat) (node : Node) :
    ((node.diagram number).filterMap Statement.target?).length + 1 = node.size := by
  match node with
  | ⟨kind, name, token?, type?, children⟩ =>
      rw [diagram, List.filterMap_cons_none rfl, length_edges_diagramAll, size]

theorem length_edges_diagramAll (parent next : Nat) (nodes : List Node) :
    ((diagramAll parent next nodes).filterMap Statement.target?).length = sizeAll nodes := by
  match nodes with
  | [] =>
      rfl
  | node :: rest =>
      have hedge : Statement.target? (.edge parent next) = some next := rfl
      rw [diagramAll, List.filterMap_append, List.filterMap_cons_some hedge, List.length_append,
        List.length_cons, length_edges_diagramAll, sizeAll, ← length_edges_diagram next node,
        Nat.add_assoc, Nat.add_comm 1]

end

mutual

/-- All that is drawn for a tree is about its nodes, and no edge leads to its root. -/
theorem concerns_of_mem_diagram (number : Nat) (node : Node) :
    ∀ statement ∈ node.diagram number,
      statement.Concerns (fun other => number ≤ other ∧ other < number + node.size)
        (fun other => number < other ∧ other < number + node.size) := by
  match node with
  | ⟨kind, name, token?, type?, children⟩ =>
      rw [diagram, List.forall_mem_cons, size]
      constructor
      · exact Statement.concerns_node _ (by omega)
      · intro statement hstatement
        exact (concerns_of_mem_diagramAll number (number + 1) children statement hstatement).imp
          (by omega) (by omega)

/-- All that is drawn for the children of a node is about the nodes below it and the edges from
the node to its children. -/
theorem concerns_of_mem_diagramAll (parent next : Nat) (nodes : List Node) :
    ∀ statement ∈ diagramAll parent next nodes,
      statement.Concerns
        (fun other => other = parent ∨ next ≤ other ∧ other < next + sizeAll nodes)
        (fun other => next ≤ other ∧ other < next + sizeAll nodes) := by
  match nodes with
  | [] =>
      intro _ h
      cases h
  | node :: rest =>
      have hsize : 0 < node.size := node.size_pos
      rw [diagramAll, List.forall_mem_append, List.forall_mem_cons, sizeAll]
      refine ⟨?_, ?_, ?_⟩
      · intro statement hstatement
        exact (concerns_of_mem_diagram next node statement hstatement).imp (by omega) (by omega)
      · exact Statement.concerns_edge (by omega) (by omega)
      · intro statement hstatement
        exact (concerns_of_mem_diagramAll parent _ rest statement hstatement).imp
          (by omega) (by omega)

end

mutual

/-- All that is drawn for a tree is nodes and edges. -/
theorem exists_subject_of_mem_diagram (number : Nat) (node : Node) :
    ∀ statement ∈ node.diagram number, ∃ subject, statement.subject? = some subject := by
  match node with
  | ⟨kind, name, token?, type?, children⟩ =>
      rw [diagram, List.forall_mem_cons]
      exact ⟨⟨number, rfl⟩, exists_subject_of_mem_diagramAll number (number + 1) children⟩

theorem exists_subject_of_mem_diagramAll (parent next : Nat) (nodes : List Node) :
    ∀ statement ∈ diagramAll parent next nodes, ∃ subject, statement.subject? = some subject := by
  match nodes with
  | [] =>
      intro _ h
      cases h
  | node :: rest =>
      rw [diagramAll, List.forall_mem_append, List.forall_mem_cons]
      exact ⟨exists_subject_of_mem_diagram next node, ⟨parent, rfl⟩,
        exists_subject_of_mem_diagramAll parent _ rest⟩

end

/-- The statements of a child stand together, with the edge to it after them. All others are about
other nodes. -/
theorem exists_child_split
    (number : Nat)
    (h : node.children[index]? = some child)
    (hnext : number + sizeAll (node.children.take index) + 1 = next) :
    ∃ before after,
      node.diagram number =
          node.drawn number :: before ++ child.diagram next ++ .edge number next :: after ∧
        ∀ statement ∈ before ++ after, statement.Avoids next (next + child.size) := by
  subst hnext
  refine ⟨diagramAll number (number + 1) (node.children.take index),
    diagramAll number (number + sizeAll (node.children.take index) + 1 + child.size)
      (node.children.drop (index + 1)), ?_, ?_⟩
  · rw [diagram_eq, (children_eq h).1, diagramAll_append, diagramAll, ← (children_eq h).1,
      Nat.add_right_comm, List.cons_append, List.cons_append, List.append_assoc]
  · rw [List.forall_mem_append]
    constructor <;> intro statement hstatement
    · exact (concerns_of_mem_diagramAll _ _ _ statement hstatement).imp (by omega) (by omega)
    · exact (concerns_of_mem_diagramAll _ _ _ statement hstatement).imp (by omega) (by omega)

/-- The statements of the tree at an address stand together. Those before and after them are about
other nodes, except that one may lead to the root of that tree. -/
theorem exists_diagram_split (h : tree.at? address = some node) (number : Nat) :
    ∃ before after,
      tree.diagram number = before ++ node.diagram (number + tree.numberAt address) ++ after ∧
        ∀ statement ∈ before ++ after,
          statement.Surrounds (number + tree.numberAt address)
            (number + tree.numberAt address + node.size) := by
  induction address generalizing tree number with
  | nil =>
      cases h
      exact ⟨[], [], by simp [numberAt], by simp⟩
  | cons index rest ih =>
      obtain ⟨child, hchild, hbelow⟩ := Option.bind_eq_some_iff.mp h
      obtain ⟨left, right, hchildsplit, haround⟩ := exists_child_split number hchild rfl
      obtain ⟨before, after, hsplit, hothers⟩ :=
        ih hbelow (number + sizeAll (tree.children.take index) + 1)
      have hnumber : number + tree.numberAt (index :: rest) =
          number + sizeAll (tree.children.take index) + 1 + child.numberAt rest := by
        rw [numberAt, hchild, Option.map_some, Option.getD_some]
        omega
      have hfits : child.numberAt rest + node.size ≤ child.size := numberAt_add_size_le hbelow
      rw [List.forall_mem_append] at haround hothers
      rw [hnumber]
      refine ⟨tree.drawn number :: left ++ before,
        after ++ .edge number (number + sizeAll (tree.children.take index) + 1) :: right, ?_, ?_⟩
      · rw [hchildsplit, hsplit]
        simp only [List.append_assoc, List.cons_append]
      · simp only [List.forall_mem_append, List.forall_mem_cons]
        refine ⟨⟨⟨?_, ?_⟩, hothers.1⟩, hothers.2, ?_, ?_⟩
        · exact Statement.concerns_node _ (by omega)
        · intro statement hstatement
          exact (haround.1 statement hstatement).imp (by omega) (by omega)
        · exact Statement.concerns_edge (by omega) (by omega)
        · intro statement hstatement
          exact (haround.2 statement hstatement).imp (by omega) (by omega)

/-- The edges from a node lead to its children in their order. -/
theorem getElem?_targets_diagramAll (h : parent < next) (nodes : List Node) (index : Nat) :
    ((diagramAll parent next nodes).filterMap (Statement.targetFrom? parent))[index]? =
      nodes[index]?.map fun _ => next + sizeAll (nodes.take index) := by
  induction nodes generalizing next index with
  | nil =>
      rfl
  | cons node rest ih =>
      have hedge : Statement.targetFrom? parent (.edge parent next) = some next :=
        Statement.targetFrom?_eq_some_iff.mpr rfl
      rw [diagramAll, List.filterMap_append, List.filterMap_cons_some hedge,
        Statement.filterMap_targetFrom?_eq_nil (concerns_of_mem_diagram next node) (by omega),
        List.nil_append]
      cases index with
      | zero =>
          rfl
      | succ index =>
          rw [List.getElem?_cons_succ, List.getElem?_cons_succ, ih (by omega), List.take_succ_cons,
            sizeAll, Nat.add_assoc]

end Statements

end Node

section Drawing

variable {tree node : Node} {address : List Nat}

/-- The statements before the first node are about no nodes. -/
theorem of_mem_diagramHead (title : String) :
    ∀ statement ∈ diagramHead title,
      statement.node? = none ∧ statement.Concerns (fun _ => False) (fun _ => False) := by
  have hall : ∀ statement ∈ diagramHead title,
      statement.node? = none ∧ statement.subject? = none ∧ statement.target? = none := by
    rw [diagramHead, List.forall_mem_append]
    split <;> simp [Statement.node?, Statement.subject?, Statement.target?]
  intro statement hstatement
  obtain ⟨hnode, hsubject, htarget⟩ := hall statement hstatement
  exact ⟨hnode, by simp [hsubject], by simp [htarget]⟩

theorem node?_derivationStatements (title : String) (tree : Node) :
    (derivationStatements title (some tree)).filterMap Statement.node? =
      tree.walk.mapIdx fun number node => (number, some node.caption) := by
  have hhead : (diagramHead title).filterMap Statement.node? = [] :=
    List.filterMap_eq_nil_iff.mpr fun statement h => (of_mem_diagramHead title statement h).1
  have hdrawn (number : Nat) (node : Node) :
      (node.drawn number).node? = some (number, some node.caption) := rfl
  rw [derivationStatements, List.filterMap_append, hhead, List.nil_append, Option.map_some,
    Option.getD_some, Node.filterMap_diagram hdrawn (fun _ _ => rfl)]
  simp only [Nat.zero_add]

theorem length_edges_derivationStatements (title : String) (tree : Node) :
    ((derivationStatements title (some tree)).filterMap Statement.target?).length + 1 =
      tree.walk.length := by
  have hhead : (diagramHead title).filterMap Statement.target? = [] :=
    List.filterMap_eq_nil_iff.mpr fun statement h =>
      Option.eq_none_iff_forall_not_mem.mpr (of_mem_diagramHead title statement h).2.target
  rw [derivationStatements, List.filterMap_append, hhead, List.nil_append, Option.map_some,
    Option.getD_some, Node.length_edges_diagram, Node.length_walk]

/-- The statements of the tree at an address stand together among all statements. -/
theorem exists_derivationStatements_split (title : String) (h : tree.at? address = some node) :
    ∃ before after,
      derivationStatements title (some tree) =
          before ++ node.diagram (tree.numberAt address) ++ after ∧
        ∀ statement ∈ before ++ after,
          statement.Surrounds (tree.numberAt address) (tree.numberAt address + node.size) := by
  obtain ⟨before, after, hsplit, hothers⟩ := Node.exists_diagram_split h 0
  simp only [Nat.zero_add] at hsplit hothers
  refine ⟨diagramHead title ++ before, after, ?_, ?_⟩
  · rw [derivationStatements, Option.map_some, Option.getD_some, hsplit]
    simp only [List.append_assoc]
  · rw [List.append_assoc, List.forall_mem_append]
    refine ⟨?_, hothers⟩
    intro statement hstatement
    exact (of_mem_diagramHead title statement hstatement).2.imp nofun nofun

/-- The edges from a node are those of its own statements. -/
theorem getElem?_targets_of_at? (title : String) (h : tree.at? address = some node) (index : Nat) :
    ((derivationStatements title (some tree)).filterMap
        (Statement.targetFrom? (tree.numberAt address)))[index]? =
      node.children[index]?.map fun _ =>
        tree.numberAt address + 1 + Node.sizeAll (node.children.take index) := by
  obtain ⟨before, after, hsplit, hothers⟩ := exists_derivationStatements_split title h
  have hpos : 0 < node.size := node.size_pos
  rw [List.forall_mem_append] at hothers
  rw [hsplit, List.filterMap_append, List.filterMap_append,
    Statement.filterMap_targetFrom?_eq_nil hothers.1 (by omega),
    Statement.filterMap_targetFrom?_eq_nil hothers.2 (by omega), List.nil_append, List.append_nil,
    Node.diagram_eq, List.filterMap_cons_none rfl,
    Node.getElem?_targets_diagramAll (Nat.lt_succ_self _)]

theorem getElem?_targets_iff (title : String) (tree : Node) (parent index child : Nat) :
    ((derivationStatements title (some tree)).filterMap
        (Statement.targetFrom? parent))[index]? = some child ↔
      ∃ address, tree.addresses[parent]? = some address ∧
        tree.addresses[child]? = some (address ++ [index]) := by
  cases hparent : tree.addresses[parent]? with
  | none =>
      have hall : ∀ statement ∈ derivationStatements title (some tree),
          statement.Concerns (fun other => other < tree.size) (fun _ => True) := by
        rw [derivationStatements, List.forall_mem_append]
        constructor
        · intro statement hstatement
          exact (of_mem_diagramHead title statement hstatement).2.imp nofun nofun
        · intro statement hstatement
          exact (tree.concerns_of_mem_diagram 0 statement hstatement).imp (by omega) (by simp)
      rw [List.getElem?_eq_none_iff, Node.length_addresses] at hparent
      rw [Statement.filterMap_targetFrom?_eq_nil hall (Nat.not_lt.mpr hparent)]
      simp
  | some address =>
      obtain ⟨⟨node, hnode⟩, rfl⟩ := Node.getElem?_addresses_iff.mp hparent
      rw [getElem?_targets_of_at? title hnode]
      simp only [Option.some.injEq, exists_eq_left', Node.getElem?_addresses_child_iff hnode,
        Option.map_eq_some_iff, Nat.add_right_comm _ 1, eq_comm (a := child)]

theorem edge_mem_derivationStatements_iff
    (title : String)
    (tree : Node)
    (parent child : Nat) :
    .edge parent child ∈ derivationStatements title (some tree) ↔ tree.IsChild parent child := by
  have hmem : .edge parent child ∈ derivationStatements title (some tree) ↔
      child ∈ (derivationStatements title (some tree)).filterMap
        (Statement.targetFrom? parent) := by
    simp only [List.mem_filterMap, Statement.targetFrom?_eq_some_iff, exists_eq_right]
  rw [hmem, List.mem_iff_getElem?]
  simp only [getElem?_targets_iff]
  exact exists_comm

/-- An edge follows on the statements of its child, which no other statement is about. -/
theorem exists_edge_split (title : String) {parent child : Nat} (h : tree.IsChild parent child) :
    ∃ before inside after,
      derivationStatements title (some tree) =
          before ++ inside ++ .edge parent child :: after ∧
        (∃ attributes, .node parent attributes ∈ before) ∧
        (∃ attributes, .node child attributes ∈ inside) ∧
        (∀ statement ∈ inside, ∀ number, statement.Mentions number →
          tree.IsBelow child number) ∧
        ∀ statement ∈ before ++ after, ∀ number, statement.Mentions number →
          ¬ tree.IsBelow child number := by
  obtain ⟨address, index, hparent, hchild⟩ := h
  obtain ⟨⟨node, hnode⟩, rfl⟩ := Node.getElem?_addresses_iff.mp hparent
  obtain ⟨⟨below, hbelow⟩, rfl⟩ := Node.getElem?_addresses_iff.mp hchild
  have hindex : node.children[index]? = some below := by
    rwa [Node.at?_append, hnode, Option.bind_some, Node.at?_singleton] at hbelow
  have hnumber : tree.numberAt (address ++ [index]) =
      tree.numberAt address + Node.sizeAll (node.children.take index) + 1 := by
    rw [Node.numberAt_append hnode, Node.numberAt_singleton hindex, Nat.add_assoc]
  have hfits : node.numberAt [index] + below.size ≤ node.size :=
    Node.numberAt_add_size_le (by rw [Node.at?_singleton, hindex])
  rw [Node.numberAt_singleton hindex] at hfits
  obtain ⟨left, right, hchildsplit, haround⟩ := Node.exists_child_split _ hindex hnumber.symm
  obtain ⟨before, after, hsplit, hothers⟩ := exists_derivationStatements_split title hnode
  rw [List.forall_mem_append] at haround hothers
  simp only [Node.isBelow_iff hbelow]
  refine ⟨before ++ node.drawn (tree.numberAt address) :: left,
    below.diagram (tree.numberAt (address ++ [index])), right ++ after, ?_,
    ⟨_, List.mem_append_right _ List.mem_cons_self⟩,
    below.exists_mem_diagram _, ?_, ?_⟩
  · rw [hsplit, hchildsplit]
    simp only [List.append_assoc, List.cons_append]
  · intro statement hstatement number hmentions
    have hinside := below.concerns_of_mem_diagram _ statement hstatement
    exact (hinside.imp (fun _ h => h) (by omega)).of_mentions hmentions
  · intro statement hstatement number hmentions
    have houtside : statement.Avoids (tree.numberAt (address ++ [index]))
        (tree.numberAt (address ++ [index]) + below.size) := by
      simp only [List.mem_append, List.mem_cons] at hstatement
      rcases hstatement with (h | rfl | h) | h | h
      · exact (hothers.1 statement h).imp (by omega) (by omega)
      · exact Statement.concerns_node _ (by omega)
      · exact haround.1 statement h
      · exact haround.2 statement h
      · exact (hothers.2 statement h).imp (by omega) (by omega)
    have := houtside.of_mentions hmentions
    omega

/-- Different nodes have different names. -/
theorem nodeName_injective : Function.Injective Dot.nodeName := by
  intro first second h
  rw [Dot.nodeName, Dot.nodeName, String.append_right_inj, Nat.toString_eq_ofList_toDigits,
    Nat.toString_eq_ofList_toDigits, String.ofList_inj] at h
  calc first
      = Nat.ofDigitChars 10 (Nat.toDigits 10 first) 0 := Nat.ofDigitChars_ten_toDigits.symm
    _ = Nat.ofDigitChars 10 (Nat.toDigits 10 second) 0 := by rw [h]
    _ = second := Nat.ofDigitChars_ten_toDigits

/-- The statements before the first node as they are written. -/
theorem render_of_mem_diagramHead
    {title : String}
    {statement : Statement}
    (h : statement ∈ diagramHead title) :
    statement.render ∈
      ["graph [rankdir=TB]", "node [fontname=Helvetica fontsize=10]",
        "label=" ++ Dot.identifier title ++ " labelloc=t"] := by
  have hdirection : Statement.render (.defaults "graph" [("rankdir", "TB")]) =
      "graph [rankdir=TB]" := by
    decide
  have hfont : Statement.render (.defaults "node" [("fontname", "Helvetica"), ("fontsize", "10")]) =
      "node [fontname=Helvetica fontsize=10]" := by
    decide
  have htitle : Statement.render (.graph [("label", title), ("labelloc", "t")]) =
      "label=" ++ Dot.identifier title ++ " labelloc=t" := by
    have htop : Dot.identifier "t" = "t" := by
      decide
    rw [Statement.render, Dot.attributeList]
    simp only [List.map_cons, List.map_nil, String.intercalate_cons_cons,
      String.intercalate_singleton, htop]
    apply String.toList_injective
    simp
  have hcases : statement = .defaults "graph" [("rankdir", "TB")] ∨
      statement = .defaults "node" [("fontname", "Helvetica"), ("fontsize", "10")] ∨
        statement = .graph [("label", title), ("labelloc", "t")] := by
    rw [diagramHead, List.mem_append, List.mem_pair, or_assoc] at h
    refine h.imp_right (Or.imp_right fun htitled => ?_)
    split at htitled
    · cases htitled
    · exact List.mem_singleton.mp htitled
  rw [← hdirection, ← hfont, ← htitle]
  obtain rfl | rfl | rfl := hcases <;> simp

/-- The statement of a node as it is written. -/
theorem Node.render_drawn (number : Nat) (node : Node) :
    (node.drawn number).render =
      "n" ++ toString number ++ " [label=" ++ Dot.identifier node.caption ++ " fillcolor=" ++
        Dot.identifier node.colour ++ " shape=" ++ node.shape ++ " style=filled]" := by
  have hshape : Dot.identifier node.shape = node.shape := by
    rw [shape]
    cases node.kind <;> decide
  have hfilled : Dot.identifier "filled" = "filled" := by
    decide
  rw [drawn, Statement.render, Dot.nodeName, Dot.attributeList]
  simp only [List.map_cons, List.map_nil, String.intercalate_cons_cons,
    String.intercalate_singleton, hshape, hfilled]
  apply String.toList_injective
  simp

theorem writesTree_derivationDiagram (title : String) (tree : Node) :
    WritesTree (derivationDiagram title (some tree)) (derivationStatements title (some tree)) title
      tree where
  lines := rfl
  nodes := by
    have hhead : (diagramHead title).filterMap Statement.nodeText? = [] := by
      rw [diagramHead, List.filterMap_append]
      split <;> rfl
    have hdrawn (number : Nat) (node : Node) :
        (node.drawn number).nodeText? = some (node.drawn number).render := rfl
    rw [derivationStatements, List.filterMap_append, hhead, List.nil_append, Option.map_some,
      Option.getD_some, Node.filterMap_diagram hdrawn (fun _ _ => rfl)]
    simp only [Nat.zero_add, Node.render_drawn]
    rfl
  edges parent child := by
    rw [Statement.render, Dot.nodeName, Dot.nodeName]
    apply String.toList_injective
    simp
  others := by
    rw [derivationStatements, List.forall_mem_append]
    constructor
    · exact fun statement hstatement _ => render_of_mem_diagramHead hstatement
    · intro statement hstatement hnone
      obtain ⟨number, hnumber⟩ := tree.exists_subject_of_mem_diagram 0 statement hstatement
      rw [hnone] at hnumber
      cases hnumber

/-- However it is titled, the diagram of a tree shows the tree: it has the nodes in the order of a
walk and with their captions, edges from every node to its children in their order, and each edge
right after all that is below it. Its text says that and no more. -/
theorem diagram_draws_tree (title : String) (tree : Node) :
    DrawsTree (derivationStatements title (some tree)) tree ∧
      WritesTree (derivationDiagram title (some tree)) (derivationStatements title (some tree))
        title tree ∧
      tree.addresses.map tree.at? = tree.walk.map some ∧
      Function.Injective Dot.nodeName := by
  refine ⟨?_, writesTree_derivationDiagram title tree, tree.map_at?_addresses, nodeName_injective⟩
  exact {
    nodes := node?_derivationStatements title tree
    edges := length_edges_derivationStatements title tree
    edge_iff := edge_mem_derivationStatements_iff title tree
    order := getElem?_targets_iff title tree
    edge_after := fun _ _ h => exists_edge_split title h }

end Drawing

end SimpleC
