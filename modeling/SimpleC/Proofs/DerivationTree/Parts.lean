import SimpleC.Proofs.DerivationTree.Failed
import SimpleC.Proofs.DerivationTree.Recorded

/-!
# The parts of recorded trees

Whole or broken off, a recorded tree is made of parts that the grammar calls for: each of its
nodes is what a right-hand side has at some place, but for the root, which is a program. So
the leaves are tokens that the grammar names, and what else is known of right-hand sides holds
of the nodes of all recorded trees.
-/

namespace SimpleC

namespace Grammar

/-- The grammar calls for the constituent: it is the program, or part of a right-hand side. -/
inductive Called : Constituent → Prop
  | program :
      Called (.nonterminal .program)
  | part {production : Production} {body : List Constituent} {constituent : Constituent}
      (hrule : Rule production body)
      (hmem : constituent ∈ body) :
      Called constituent

/-- The node is what the grammar calls for at some place. -/
def IsPart (node : Node) : Prop :=
  ∃ constituent, Called constituent ∧ Fits constituent node

theorem isPart_of_fits
    {body : List Constituent}
    {children : List Node}
    (hfits : List.Forall₂ Fits body children)
    (hcalled : ∀ constituent ∈ body, Called constituent) :
    ∀ child ∈ children, IsPart child := by
  induction hfits with
  | nil =>
      exact List.forall_mem_nil _
  | cons hfirst _ ih =>
      rw [List.forall_mem_cons] at hcalled ⊢
      exact ⟨⟨_, hcalled.1, hfirst⟩, ih hcalled.2⟩

/-- The children of a node that has begun are what its right-hand side calls for. -/
theorem IsBegun.isPart {node : Node} (h : IsBegun node) : ∀ child ∈ node.children, IsPart child := by
  obtain ⟨production, body, front, _, hrule, hprefix, hfits⟩ := h
  exact isPart_of_fits hfits fun constituent hmem => .part hrule (List.IsPrefix.subset hprefix hmem)

/-- A tree is made of parts if its root is one and its productions have begun. -/
theorem isPart_of_begun (tree : Node) :
    IsPart tree → (∀ node ∈ tree.walk, node.kind = .production → IsBegun node) →
      ∀ node ∈ tree.walk, IsPart node := by
  induction tree using Node.induction with
  | h tree ih =>
      intro hroot hbegun
      rw [Node.walk_eq, List.forall_mem_cons] at hbegun
      rw [Node.walk_eq, List.forall_mem_cons, List.forall_mem_flatMap]
      refine ⟨hroot, ?_⟩
      obtain ⟨constituent, _, hfits⟩ := hroot
      cases hfits with
      | terminal =>
          simp [Node.leaf]
      | nonterminal production type? children =>
          intro child hchild
          have hchildren := (hbegun.1 rfl).isPart
          refine ih child hchild (hchildren child hchild) ?_
          exact fun node hnode => hbegun.2 node (List.mem_flatMap.mpr ⟨child, hchild, hnode⟩)

theorem IsTruncated.isPart {tree : Node} {tokens : List Token} (h : IsTruncated tree tokens) :
    ∀ node ∈ tree.walk, IsPart node :=
  isPart_of_begun tree ⟨_, .program, h.root⟩ h.begun

theorem IsDerivation.isPart {tree : Node} {tokens : List Token} (h : IsDerivation tree tokens) :
    ∀ node ∈ tree.walk, IsPart node := by
  refine isPart_of_begun tree ⟨_, .program, h.root⟩ ?_
  exact fun node hnode hkind => (h.complete node hnode hkind).isBegun

end Grammar

/-- The run has recorded a tree, which is made of what the grammar calls for. -/
def Run.RecordsParts (run : Run) : Prop :=
  ∃ tree, run.tree? = some tree ∧ ∀ node ∈ tree.walk, Grammar.IsPart node

/-- Every run that records has recorded such a tree. -/
theorem recognize_recordsParts
    (declare checkTypes : Bool)
    (symbols : SymbolTable)
    (tokens : List Token) :
    (recognize ⟨declare, checkTypes, true⟩ symbols tokens).RecordsParts := by
  cases hsuccess : (recognize ⟨declare, checkTypes, true⟩ symbols tokens).isSuccess with
  | false =>
      obtain ⟨tree, htree, htruncated⟩ := recordsTruncated_of_failure rfl hsuccess
      exact ⟨tree, htree, htruncated.isPart⟩
  | true =>
      obtain ⟨program, symbols?, hnearest, _, htree⟩ := exists_program_of_tree hsuccess
      exact ⟨_, htree, (program.isDerivation_node hnearest).isPart⟩

/-- What holds of all runs on the tokens, and does not depend on what went on before them, holds
of the staged check. -/
theorem checkStaged_of_recognize
    {holds : Run → Prop}
    {record : Bool}
    {tokens : List Token}
    (hruns : ∀ declare checkTypes symbols,
      holds (recognize ⟨declare, checkTypes, record⟩ symbols tokens))
    (hpast : ∀ run earlier, holds run → holds (run.precededBy earlier)) :
    holds (checkStaged record tokens) := by
  cases hparsed : (parse record tokens).isSuccess with
  | false =>
      rw [checkStaged_of_not_parsed hparsed]
      exact hruns _ _ _
  | true =>
      cases hbuilt : (buildSymbols record tokens).isSuccess with
      | false =>
          rw [checkStaged_of_not_built hparsed hbuilt]
          exact hpast _ _ (hruns _ _ _)
      | true =>
          rw [checkStaged_of_built hparsed hbuilt]
          exact hpast _ _ (hruns _ _ _)

theorem checkStaged_recordsParts (tokens : List Token) : (checkStaged true tokens).RecordsParts :=
  checkStaged_of_recognize
    (fun declare checkTypes symbols => recognize_recordsParts declare checkTypes symbols tokens)
    fun _ _ h => h

end SimpleC
