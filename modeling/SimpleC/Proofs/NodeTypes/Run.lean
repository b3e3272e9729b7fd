import SimpleC.Proofs.DerivationTree.Recorded
import SimpleC.Proofs.NodeTypes.Moves

/-!
# Types in the tree of a run

When types are checked, the types in the tree of a run are the ones of the static semantics
under the symbol table that the run ends with, whether it fails or not. A run that ends
well has computed all of them, and has found a variable that can hold the value of each
assignment. When types are not checked, the tree has none.
-/

namespace SimpleC

/-- What is met is ruled to be right under the table at the end. -/
theorem Obligation.allRuled_of_met
    {declares : Bool}
    {obligations : List Obligation}
    {findings after : Findings}
    (h : meetAll declares true obligations findings = .ok () after) :
    AllRuled after.symbols obligations := by
  cases declares with
  | true =>
      obtain ⟨_, warnings, _, hrulings⟩ := passes_of_met h
      exact allRuled_of_rulings (hrulings after.symbols (.refl _))
  | false =>
      obtain ⟨warnings, hrulings, rfl⟩ := meetAll_rulings.mp h
      exact allRuled_of_rulings hrulings

section Trees

variable {declare checkTypes : Bool} {symbols : SymbolTable} {tokens : List Token}

/-- The types in the tree of a run are under the table at the end, if they are checked. -/
theorem exists_tree_typedUnder :
    ∃ tree, (recognize ⟨declare, checkTypes, true⟩ symbols tokens).tree? = some tree ∧
      tree.Everywhere (Node.TypedUnder (Switches.typesUnder ⟨declare, checkTypes, true⟩
        (recognize ⟨declare, checkTypes, true⟩ symbols tokens).symbols)) := by
  have hrecord : (⟨declare, checkTypes, true⟩ : Switches).record = true := rfl
  obtain ⟨after, tree, hends, htyped⟩ :=
    exists_recorded (State.RecordsTyped.recording hrecord) symbols tokens
  refine ⟨tree, hends.tree?_of_records htyped.toRecords, ?_⟩
  rw [hends.symbols_eq]
  exact htyped.typed tree List.mem_cons_self

/-- The nodes in the tree of a run that ends well are complete. -/
theorem complete_of_isSuccess
    {tree : Node}
    (htree : (recognize ⟨declare, true, true⟩ symbols tokens).tree? = some tree)
    (h : (recognize ⟨declare, true, true⟩ symbols tokens).isSuccess = true) :
    tree.Everywhere
      (Node.Complete (recognize ⟨declare, true, true⟩ symbols tokens).symbols) := by
  obtain ⟨program, hnearest, rfl⟩ := exists_program_of_isSuccess h
  have hagrees := recognize_agrees ⟨declare, true, true⟩ symbols program hnearest
  obtain ⟨after, hmet⟩ := (recognize_isSuccess_iff _ symbols program hnearest).mp h
  rw [hmet] at hagrees
  obtain ⟨_, hsymbols, _, hrecorded⟩ := hagrees
  have hnode : tree = program.node (some after.symbols) :=
    Option.some.inj (htree.symm.trans hrecorded)
  rw [hnode, hsymbols]
  exact Program.complete_node (Obligation.allRuled_of_met hmet)

end Trees

/-- When types are checked, every type in the tree follows from what is below it and the last
symbol table, and none is missing if the run ends well; otherwise the tree has no types. -/
theorem types_in_tree
    (declare : Bool)
    (symbols : SymbolTable)
    (tokens : List Token) :
    (∃ tree, (recognize ⟨declare, true, true⟩ symbols tokens).tree? = some tree ∧
      (∀ node ∈ tree.walk,
        node.Justified (recognize ⟨declare, true, true⟩ symbols tokens).symbols) ∧
      ((recognize ⟨declare, true, true⟩ symbols tokens).isSuccess = true →
        ∀ node ∈ tree.walk,
          node.Complete (recognize ⟨declare, true, true⟩ symbols tokens).symbols)) ∧
    ∃ tree, (recognize ⟨declare, false, true⟩ symbols tokens).tree? = some tree ∧
      ∀ node ∈ tree.walk, node.type? = none := by
  constructor
  · obtain ⟨tree, htree, htyped⟩ :
        ∃ tree, (recognize ⟨declare, true, true⟩ symbols tokens).tree? = some tree ∧ _ :=
      exists_tree_typedUnder
    exact ⟨tree, htree, htyped, complete_of_isSuccess htree⟩
  · obtain ⟨tree, htree, htyped⟩ :
        ∃ tree, (recognize ⟨declare, false, true⟩ symbols tokens).tree? = some tree ∧ _ :=
      exists_tree_typedUnder
    exact ⟨tree, htree, htyped⟩

/-- A program that computes a type for each kind of values, and gives an integer to a real
variable. -/
def typesOfAllKinds : List Token :=
  programOf [.bare "int", ⟨.identifier, "x"⟩, .bare ";",
    .bare "real", ⟨.identifier, "y"⟩, .bare ";",
    ⟨.identifier, "x"⟩, .bare "=", ⟨.intLiteral, "1"⟩, .bare ";",
    ⟨.identifier, "y"⟩, .bare "=", ⟨.identifier, "x"⟩, .bare "+", ⟨.intLiteral, "2"⟩, .bare ";",
    .bare "if", .bare "(", .bare "true", .bare "!=", .bare "false", .bare ")",
    .bare "cout", .bare "<<", ⟨.strLiteral, "done"⟩, .bare ";"]

theorem types_in_tree_typesOfAllKinds :
    (check true typesOfAllKinds).isSuccess = true ∧
      ∃ tree, (check true typesOfAllKinds).tree? = some tree ∧
        (∀ node ∈ tree.walk, node.Justified (check true typesOfAllKinds).symbols) ∧
          ∀ node ∈ tree.walk, node.Complete (check true typesOfAllKinds).symbols := by
  have haccepted : (check true typesOfAllKinds).isSuccess = true := by decide +kernel
  obtain ⟨tree, htree, hjustified, hcomplete⟩ := (types_in_tree true .empty typesOfAllKinds).1
  exact ⟨haccepted, tree, htree, hjustified, hcomplete haccepted⟩

end SimpleC
