import SimpleC.Proofs.Course.Run
import SimpleC.Proofs.DerivationTree.Moves
import SimpleC.Proofs.StagedCheck

/-!
# The tree of a run that fails

A run that fails and records what it reads has recorded a derivation that was broken
off from left to right, whatever it failed at. Its leaves are the tokens up to the
position of the run.
-/

namespace SimpleC

open Grammar

/-- The run has recorded a truncated derivation of the tokens that it has consumed. -/
def Run.RecordsTruncated (run : Run) (tokens : List Token) : Prop :=
  ∃ tree, run.tree? = some tree ∧ IsTruncated tree (tokens.take run.position)

/-- On a whole input that is refused a part of a program is recorded. -/
theorem WholeCourse.exists_phraseRecorded
    {switches : Switches}
    {tokens : List Token}
    {moves : List Move}
    {state after : State}
    {stop : Stop}
    (hrecord : switches.record = true)
    (h : WholeCourse tokens moves)
    (hended : Move.performAll switches moves state = .error stop after) :
    ∃ rest?, PhraseRecorded .program (Move.tokens moves) rest? state (.error stop after) := by
  cases h with
  | accepted hcourse | stopped hcourse =>
      have hphrase := (hcourse.itemsRecorded hrecord (state.enter .program)).phrase hrecord
      rw [Move.performAll_singleton] at hended
      rw [hended] at hphrase
      rw [Move.tokens_within, Move.tokens_nil, List.append_nil]
      exact ⟨_, hphrase⟩
  | @trailing moves token rest hcourse =>
      have hphrase := (hcourse.itemsRecorded hrecord (state.enter .program)).phrase hrecord
      rw [Move.tokens_within, Move.tokens_stop, Move.tokens_nil, List.append_nil]
      rw [Move.performAll] at hended
      cases hprogram : Move.perform switches (.within .program moves) state with
      | error violation middle =>
          rw [hprogram] at hphrase
          rw [bind_of_error hprogram] at hended
          cases hended
          exact ⟨_, hphrase⟩
      | ok _ middle =>
          rw [hprogram] at hphrase
          rw [bind_of_ok hprogram, Move.performAll_stop] at hended
          cases hended
          -- the program is whole, and refused for what follows it
          cases hphrase with
          | @ok _ _ nodes _ hrecords hspans hleaves =>
              have htruncated := hspans.append_truncated (.stopped [])
              have hprefix : nodes.flatMap Node.leaves <+: Move.tokens moves :=
                ⟨[], by rw [List.append_nil, hleaves]⟩
              exact ⟨some (token :: rest), .error hrecords htruncated hprefix⟩

/-- The one node that was recorded before an early end is the tree of the run. -/
theorem Run.tree?_of_error
    {tokens : List Token}
    {symbols : SymbolTable}
    {stop : Stop}
    {after : State}
    {tree : Node}
    (h : (State.start tokens symbols).Records after [tree]) :
    (Run.ofResult (.error stop after)).tree? = some tree := by
  have hkept : (Run.noteStop after stop).children = after.children := by
    cases stop with
    | violation | fault =>
        rfl
  have hchildren : after.children.toList = [tree] := h.children
  show (Run.noteStop after stop).children[0]? = _
  rw [hkept, ← Array.getElem?_toList, hchildren]
  rfl

/-- A program that is recorded from the start on is a truncated derivation of what was
consumed. -/
theorem PhraseRecorded.recordsTruncated
    {tokens read : List Token}
    {symbols : SymbolTable}
    {rest? : Option (List Token)}
    {stop : Stop}
    {after : State}
    (hread : read <+: tokens)
    (h : PhraseRecorded .program read rest? (.start tokens symbols) (.error stop after)) :
    (Run.ofResult (.error stop after)).RecordsTruncated tokens := by
  have hkept : (Run.noteStop after stop).cursor = after.cursor := by
    cases stop with
    | violation | fault =>
        rfl
  cases h with
  | @error _ _ type? nodes hrecords htruncated hleaves =>
      refine ⟨_, Run.tree?_of_error hrecords, ?_⟩
      have hposition : after.cursor.position = (nodes.flatMap Node.leaves).length := by
        rw [hrecords.position]
        simp [State.start, Cursor.start]
      show IsTruncated _ (tokens.take (Run.noteStop after stop).cursor.position)
      rw [hkept, hposition, ← List.prefix_iff_eq_take.mp (hleaves.trans hread),
        ← Node.leaves_inner Production.program.name type?]
      exact htruncated.isTruncated

/-- A run that fails has recorded a truncated derivation. -/
theorem recordsTruncated_of_failure
    {switches : Switches}
    {symbols : SymbolTable}
    {tokens : List Token}
    (hrecord : switches.record = true)
    (h : (recognize switches symbols tokens).isSuccess = false) :
    (recognize switches symbols tokens).RecordsTruncated tokens := by
  obtain ⟨moves, hcourse, hruns⟩ := exists_moves tokens
  rw [(hruns switches symbols).1] at h ⊢
  cases hended : Move.performAll switches moves (.start tokens symbols) with
  | ok _ after =>
      rw [hended] at h
      cases h
  | error stop after =>
      obtain ⟨rest?, hphrase⟩ := hcourse.exists_phraseRecorded hrecord hended
      exact hphrase.recordsTruncated hcourse.tokens_prefix

/-- The tree of a run that fails is a derivation of exactly the consumed tokens that was
broken off from left to right; the same holds of the staged check. -/
theorem failed_tree_is_truncated (tokens : List Token) :
    (∀ declare checkTypes symbols,
      (recognize ⟨declare, checkTypes, true⟩ symbols tokens).isSuccess = false →
        (recognize ⟨declare, checkTypes, true⟩ symbols tokens).RecordsTruncated tokens) ∧
      ((checkStaged true tokens).isSuccess = false →
        (checkStaged true tokens).RecordsTruncated tokens) := by
  constructor
  · intro declare checkTypes symbols hfailed
    exact recordsTruncated_of_failure rfl hfailed
  · intro hfailed
    -- the tree of the staged check is the one of the run that fails
    cases hparsed : (parse true tokens).isSuccess with
    | false =>
        rw [checkStaged_of_not_parsed hparsed]
        exact recordsTruncated_of_failure rfl hparsed
    | true =>
        cases hbuilt : (buildSymbols true tokens).isSuccess with
        | false =>
            rw [checkStaged_of_not_built hparsed hbuilt]
            exact recordsTruncated_of_failure rfl hbuilt
        | true =>
            rw [checkStaged_of_built hparsed hbuilt] at hfailed ⊢
            exact recordsTruncated_of_failure rfl hfailed

/-- A program that asks for a variable inside a condition and does not declare it. -/
def undeclaredCondition : List Token :=
  programOf [.bare "cout", .bare "<<", .bare "endl", .bare ";",
    .bare "if", .bare "(", ⟨.identifier, "x"⟩, .bare ")", .bare ";"]

theorem failed_tree_undeclaredCondition :
    ((check true undeclaredCondition).isSuccess = false ∧
      (check true undeclaredCondition).position = 12 ∧
        (check true undeclaredCondition).RecordsTruncated undeclaredCondition) ∧
      (checkStaged true undeclaredCondition).isSuccess = false ∧
        (checkStaged true undeclaredCondition).RecordsTruncated undeclaredCondition := by
  have hchecked : (check true undeclaredCondition).isSuccess = false := by decide +kernel
  have hposition : (check true undeclaredCondition).position = 12 := by decide +kernel
  have hstaged : (checkStaged true undeclaredCondition).isSuccess = false := by decide +kernel
  exact ⟨⟨hchecked, hposition,
      (failed_tree_is_truncated undeclaredCondition).1 true true .empty hchecked⟩,
    hstaged, (failed_tree_is_truncated undeclaredCondition).2 hstaged⟩

end SimpleC
