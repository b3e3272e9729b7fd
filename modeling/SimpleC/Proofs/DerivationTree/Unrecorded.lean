import SimpleC.Proofs.Course.Twin
import SimpleC.Proofs.DerivationTree.Recording

/-!
# Runs that record nothing

A run that records no derivation goes through the same states as one that does, but for
the recorded nodes. So it ends alike, and what it leaves out is the tree alone, which a run
that records has in every case.
-/

namespace SimpleC

/-- The state without the recorded nodes. -/
def State.unrecorded (state : State) : State :=
  { state with children := #[] }

/-- The run without its tree. -/
def Run.unrecorded (run : Run) : Run :=
  { run with tree? := none }

section Unrecorded

variable {declare checkTypes : Bool} {symbols : SymbolTable} {tokens : List Token}

/-- Every change of a state does the same to the state without the recorded nodes. -/
theorem Move.keeps_unrecorded (declare checkTypes : Bool) :
    Move.Keeps ⟨declare, checkTypes, true⟩ ⟨declare, checkTypes, false⟩
      fun state twin => twin = state.unrecorded where
  declare := rfl
  checkTypes := rfl
  symbols := by
    rintro state _ rfl
    rfl
  read := by
    rintro state _ token rfl
    rfl
  learn := by
    rintro state _ symbols warnings rfl
    rfl
  enter := by
    rintro state _ production rfl
    rfl
  leave := by
    rintro state _ after _ production type? rfl rfl
    rfl

/-- A run that ends without recorded nodes has no tree, and otherwise ends alike. -/
theorem Run.ofResult_unrecorded
    {ended twinEnded : EStateM.Result Stop State Unit}
    (h : State.EndTwins (fun state twin => twin = state.unrecorded) ended twinEnded) :
    ofResult twinEnded = (ofResult ended).unrecorded := by
  cases h with
  | ok htwins =>
      subst htwins
      rfl
  | @error stop state _ htwins =>
      subst htwins
      cases stop with
      | violation | fault =>
          rfl

theorem recognize_unrecorded :
    recognize ⟨declare, checkTypes, false⟩ symbols tokens =
      (recognize ⟨declare, checkTypes, true⟩ symbols tokens).unrecorded := by
  obtain ⟨moves, _, hruns⟩ := exists_moves tokens
  rw [(hruns _ symbols).1, (hruns _ symbols).1]
  exact Run.ofResult_unrecorded
    ((Move.keeps_unrecorded declare checkTypes).perform_moves moves rfl)

end Unrecorded

/-- Recording changes the tree alone: the run that records nothing is the run that records,
without the tree, which is always there. -/
theorem recording_adds_only_tree
    (declare checkTypes : Bool)
    (symbols : SymbolTable)
    (tokens : List Token) :
    recognize ⟨declare, checkTypes, false⟩ symbols tokens =
        { recognize ⟨declare, checkTypes, true⟩ symbols tokens with tree? := none } ∧
      (recognize ⟨declare, checkTypes, true⟩ symbols tokens).tree?.isSome = true := by
  have hrecord : (⟨declare, checkTypes, true⟩ : Switches).record = true := rfl
  obtain ⟨tree, htree⟩ := exists_recorded_tree hrecord symbols tokens
  exact ⟨recognize_unrecorded, Option.isSome_of_eq_some htree⟩

end SimpleC
