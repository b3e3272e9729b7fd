import SimpleC.Proofs.DerivationTree.Basic

/-!
# Truncated derivation trees

What a tree looks like when its construction from left to right was broken off: only
the nodes on its rightmost path may lack children, and what they have begins a
right-hand side of their rules.
-/

namespace SimpleC

/-- The node occurs in the tree at a place that is not on the path from the root along the
last children. -/
inductive Node.OffRightmost : Node → Node → Prop
  | earlier {tree child last node : Node} {left : List Node}
      (hchildren : tree.children = left ++ [last])
      (hchild : child ∈ left)
      (hnode : node ∈ child.walk) :
      OffRightmost tree node
  | within {tree last node : Node} {left : List Node}
      (hchildren : tree.children = left ++ [last])
      (hnode : OffRightmost last node) :
      OffRightmost tree node

/-- A node of a tree is off the rightmost path only if it is below the root. -/
theorem Node.OffRightmost.mem_walk
    {tree node : Node}
    (h : tree.OffRightmost node) :
    node ∈ tree.children.flatMap Node.walk := by
  induction h with
  | earlier hchildren hchild hnode =>
      rw [hchildren, List.flatMap_append, List.mem_append]
      exact .inl (List.mem_flatMap.mpr ⟨_, hchild, hnode⟩)
  | within hchildren _ ih =>
      rw [hchildren, List.flatMap_append, List.mem_append]
      refine .inr ?_
      rw [List.flatMap_singleton, Node.walk_eq]
      exact List.mem_cons_of_mem _ ih

namespace Grammar

/-- The children of the node begin a right-hand side of the rule that it is named after. -/
def IsBegun (node : Node) : Prop :=
  ∃ production body front,
    node.name = production.name ∧ Rule production body ∧ front <+: body ∧
      List.Forall₂ Fits front node.children

/-- The tree is a derivation of the tokens that was broken off from left to right. -/
structure IsTruncated (tree : Node) (tokens : List Token) : Prop where
  root : Fits (.nonterminal .program) tree
  begun : ∀ node ∈ tree.walk, node.kind = .production → IsBegun node
  complete : ∀ node, tree.OffRightmost node → node.kind = .production → IsComplete node
  leaves : tree.leaves = tokens

/-- The trees are derivations of the first constituents, and the last of them may be
truncated. -/
inductive Truncated : List Constituent → List Node → Prop
  | stopped (body : List Constituent) :
      Truncated body []
  | terminal {wanted : Expectation} {token : Token}
      {rest : List Constituent} {nodes : List Node}
      (haccepts : wanted.accepts token = true)
      (hrest : Truncated rest nodes) :
      Truncated (.terminal wanted :: rest) (.leaf token :: nodes)
  | nonterminal {production : Production} {body rest : List Constituent}
      {type? : Option ValueType} {children nodes : List Node}
      (hrule : Rule production body)
      (hbody : Spans body children)
      (hrest : Truncated rest nodes) :
      Truncated (.nonterminal production :: rest)
        (.inner production.name type? children :: nodes)
  | last {production : Production} {body : List Constituent} {type? : Option ValueType}
      {children : List Node}
      (hrule : Rule production body)
      (hbody : Truncated body children)
      (rest : List Constituent) :
      Truncated (.nonterminal production :: rest) [.inner production.name type? children]

section Truncated

variable {left right body : List Constituent} {front back nodes : List Node}

theorem Spans.append_truncated (hleft : Spans left front) (hright : Truncated right back) :
    Truncated (left ++ right) (front ++ back) := by
  induction hleft with
  | nil =>
      exact hright
  | terminal haccepts _ ih =>
      exact .terminal haccepts ih
  | nonterminal hrule hbody _ _ ih =>
      exact .nonterminal hrule hbody ih

/-- What is complete was begun. -/
theorem IsComplete.isBegun {node : Node} (h : IsComplete node) : IsBegun node := by
  obtain ⟨production, body, hname, hrule, hfits⟩ := h
  exact ⟨production, body, body, hname, hrule, List.prefix_rfl, hfits⟩

/-- Truncated trees fit the constituents that they begin. -/
theorem Truncated.fits (h : Truncated body nodes) :
    ∃ front, front <+: body ∧ List.Forall₂ Fits front nodes := by
  induction h with
  | stopped body =>
      exact ⟨[], List.nil_prefix, .nil⟩
  | terminal haccepts _ ih =>
      obtain ⟨front, hprefix, hfits⟩ := ih
      exact ⟨_ :: front, (List.prefix_cons_inj _).mpr hprefix, .cons (.terminal haccepts) hfits⟩
  | nonterminal _ _ _ ih =>
      obtain ⟨front, hprefix, hfits⟩ := ih
      exact ⟨_ :: front, (List.prefix_cons_inj _).mpr hprefix,
        .cons (.nonterminal _ _ _) hfits⟩
  | @last production _ _ _ _ _ rest _ =>
      exact ⟨[.nonterminal production], ⟨rest, rfl⟩, .cons (.nonterminal _ _ _) .nil⟩

/-- In truncated trees the children of every node begin a right-hand side. -/
theorem Truncated.begun (h : Truncated body nodes) :
    ∀ node ∈ nodes.flatMap Node.walk, node.kind = .production → IsBegun node := by
  induction h with
  | stopped body =>
      simp
  | terminal haccepts _ ih =>
      simp only [List.flatMap_cons, Node.walk_leaf, List.cons_append, List.nil_append,
        List.forall_mem_cons]
      refine ⟨?_, ih⟩
      intro hkind
      cases hkind
  | @nonterminal production body _ type? children _ hrule hbody _ ih =>
      simp only [List.flatMap_cons, Node.walk_inner, List.cons_append, List.forall_mem_cons,
        List.forall_mem_append]
      have hroot : IsComplete (.inner production.name type? children) :=
        ⟨production, body, rfl, hrule, hbody.fits⟩
      refine ⟨fun _ => hroot.isBegun, ?_, ih⟩
      intro node hnode hkind
      exact (hbody.complete node hnode hkind).isBegun
  | @last production body type? children hrule hbody _ ih =>
      obtain ⟨front, hprefix, hfits⟩ := hbody.fits
      simp only [List.flatMap_cons, List.flatMap_nil, List.append_nil, Node.walk_inner,
        List.forall_mem_cons]
      exact ⟨fun _ => ⟨production, body, front, rfl, hrule, hprefix, hfits⟩, ih⟩

/-- A node that is complete in all its parts is complete at all of its nodes. -/
theorem Spans.complete_inner
    {production : Production}
    {type? : Option ValueType}
    (hrule : Rule production body)
    (hbody : Spans body nodes) :
    ∀ node ∈ (Node.inner production.name type? nodes).walk, node.kind = .production →
      IsComplete node := by
  have hspans : Spans [.nonterminal production] [.inner production.name type? nodes] :=
    .nonterminal hrule hbody .nil
  simpa using hspans.complete

/-- In truncated trees only the nodes on the rightmost path may lack children. -/
theorem Truncated.complete (h : Truncated body nodes) :
    ∀ {earlier last}, nodes = earlier ++ [last] →
      (∀ node ∈ earlier.flatMap Node.walk, node.kind = .production → IsComplete node) ∧
        ∀ node, last.OffRightmost node → node.kind = .production → IsComplete node := by
  induction h with
  | stopped body =>
      intro earlier last hnodes
      simp at hnodes
  | @terminal wanted token rest nodes haccepts _ ih =>
      intro earlier last hnodes
      cases earlier with
      | nil =>
          obtain ⟨rfl, rfl⟩ := List.cons.inj hnodes
          refine ⟨by simp, ?_⟩
          intro node hnode
          cases hnode.mem_walk
      | cons first earlier =>
          obtain ⟨rfl, hrest⟩ := List.cons.inj hnodes
          obtain ⟨hearlier, hlast⟩ := ih hrest
          refine ⟨?_, hlast⟩
          simp only [List.flatMap_cons, Node.walk_leaf, List.cons_append, List.nil_append,
            List.forall_mem_cons]
          refine ⟨?_, hearlier⟩
          intro hkind
          cases hkind
  | @nonterminal production body rest type? children nodes hrule hbody _ ih =>
      intro earlier last hnodes
      cases earlier with
      | nil =>
          obtain ⟨rfl, rfl⟩ := List.cons.inj hnodes
          refine ⟨by simp, ?_⟩
          intro node hnode
          exact hbody.complete node hnode.mem_walk
      | cons first earlier =>
          obtain ⟨rfl, hrest⟩ := List.cons.inj hnodes
          obtain ⟨hearlier, hlast⟩ := ih hrest
          refine ⟨?_, hlast⟩
          rw [List.flatMap_cons, List.forall_mem_append]
          exact ⟨Spans.complete_inner hrule hbody, hearlier⟩
  | @last production body type? children hrule hbody rest ih =>
      intro earlier last hnodes
      have hsingle : earlier = [] ∧ last = .inner production.name type? children := by
        cases earlier with
        | nil =>
            exact ⟨rfl, (List.cons.inj hnodes).1.symm⟩
        | cons first earlier =>
            simp at hnodes
      obtain ⟨rfl, rfl⟩ := hsingle
      refine ⟨by simp, ?_⟩
      intro node hnode
      cases hnode with
      | earlier hchildren hchild hnode =>
          exact (ih hchildren).1 node (List.mem_flatMap.mpr ⟨_, hchild, hnode⟩)
      | within hchildren hnode =>
          exact (ih hchildren).2 node hnode

/-- A truncated tree of a program is a truncated derivation of its leaves. -/
theorem Truncated.isTruncated
    {type? : Option ValueType}
    (h : Truncated [.nonterminal .program] [.inner Production.program.name type? nodes]) :
    IsTruncated (.inner Production.program.name type? nodes)
      (Node.inner Production.program.name type? nodes).leaves where
  root := .nonterminal .program type? nodes
  begun := by simpa using h.begun
  complete := (h.complete (List.nil_append _).symm).2
  leaves := rfl

end Truncated

end Grammar

end SimpleC
