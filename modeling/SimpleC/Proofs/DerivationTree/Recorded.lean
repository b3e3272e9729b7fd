import SimpleC.Proofs.DerivationTree.Unique
import SimpleC.Proofs.StagedCheck

/-!
# The derivation that is recorded

A run that ends well and records what it reads has recorded the derivation of its
tokens: whatever is switched on besides, the tree is a derivation in which every
`else` is at the nearest conditional, and up to types there is no other one.
-/

namespace SimpleC

open Grammar

/-- The run has recorded a derivation of the tokens, which has no other up to types. -/
def Run.RecordsOnlyDerivation (run : Run) (tokens : List Token) : Prop :=
  ∃ tree, run.tree? = some tree ∧ IsDerivation tree tokens ∧
    ∀ other, IsDerivation other tokens → other.eraseTypes = tree.eraseTypes

/-- A run that ends well has recorded the tree of a program with its tokens. -/
theorem exists_program_of_tree
    {declare checkTypes : Bool}
    {symbols : SymbolTable}
    {tokens : List Token}
    (h : (recognize ⟨declare, checkTypes, true⟩ symbols tokens).isSuccess = true) :
    ∃ (program : Program) (symbols? : Option SymbolTable),
      program.NearestElse ∧ program.tokens = tokens ∧
        (recognize ⟨declare, checkTypes, true⟩ symbols tokens).tree? =
          some (program.node symbols?) := by
  obtain ⟨program, hnearest, rfl⟩ := exists_program_of_isSuccess h
  have hagrees := recognize_agrees ⟨declare, checkTypes, true⟩ symbols program hnearest
  obtain ⟨findings, hmet⟩ := (recognize_isSuccess_iff _ symbols program hnearest).mp h
  rw [hmet] at hagrees
  obtain ⟨_, _, _, htree⟩ := hagrees
  exact ⟨program, _, hnearest, rfl, htree⟩

theorem Run.recordsOnlyDerivation_of_node
    {run : Run}
    {program : Program}
    {symbols? : Option SymbolTable}
    (hnearest : program.NearestElse)
    (htree : run.tree? = some (program.node symbols?)) :
    run.RecordsOnlyDerivation program.tokens := by
  have hderivation : IsDerivation (program.node symbols?) program.tokens :=
    program.isDerivation_node hnearest
  refine ⟨_, htree, hderivation, ?_⟩
  intro other hother
  exact hother.eraseTypes_eq hderivation

/-- The tree of a run that ends well is a derivation of its tokens in which every `else` is
at the nearest conditional, and the only one up to types; the same holds of the staged
check. -/
theorem recorded_tree_is_only_derivation (tokens : List Token) :
    (∀ declare checkTypes symbols,
      (recognize ⟨declare, checkTypes, true⟩ symbols tokens).isSuccess = true →
        (recognize ⟨declare, checkTypes, true⟩ symbols tokens).RecordsOnlyDerivation tokens) ∧
      ((checkStaged true tokens).isSuccess = true →
        (checkStaged true tokens).RecordsOnlyDerivation tokens) := by
  constructor
  · intro declare checkTypes symbols haccepted
    obtain ⟨program, _, hnearest, rfl, htree⟩ := exists_program_of_tree haccepted
    exact Run.recordsOnlyDerivation_of_node hnearest htree
  · intro haccepted
    -- the tree of the staged check is the one of its last run
    obtain ⟨hparsed, hbuilt, htyped⟩ := runs_of_checkStaged haccepted
    obtain ⟨program, _, hnearest, rfl, htree⟩ := exists_program_of_tree htyped
    rw [checkStaged_of_built hparsed hbuilt]
    exact Run.recordsOnlyDerivation_of_node hnearest htree

/-- A program in which an `else` could belong to either of two conditionals. -/
def twoConditionals : List Token :=
  programOf [.bare "if", .bare "(", .bare "true", .bare ")",
    .bare "if", .bare "(", .bare "false", .bare ")", .bare ";", .bare "else", .bare ";"]

theorem recorded_tree_twoConditionals :
    ((check true twoConditionals).isSuccess = true ∧
      (check true twoConditionals).RecordsOnlyDerivation twoConditionals) ∧
      (checkStaged true twoConditionals).isSuccess = true ∧
        (checkStaged true twoConditionals).RecordsOnlyDerivation twoConditionals := by
  have hchecked : (check true twoConditionals).isSuccess = true := by decide +kernel
  have hstaged : (checkStaged true twoConditionals).isSuccess = true := by decide +kernel
  exact ⟨⟨hchecked, (recorded_tree_is_only_derivation twoConditionals).1 true true .empty hchecked⟩,
    hstaged, (recorded_tree_is_only_derivation twoConditionals).2 hstaged⟩

end SimpleC
