import SimpleC.Proofs.StagedCheck

/-!
# Runs with the same findings

Two runs find the same if they agree on all that is reported of them but the tree: the verdict,
the position, the symbol table and the warnings. If all runs on two lists of tokens do, then so
do the staged checks, which go on from one pass to the next by what the earlier one has found.
-/

namespace SimpleC

namespace Run

/-- The runs end with the same verdict at the same position, with the same variables and the
same warnings. -/
structure SameFindings (run other : Run) : Prop where
  verdict : run.verdict = other.verdict
  position : run.position = other.position
  symbols : run.symbols = other.symbols
  warnings : run.warnings = other.warnings

variable {run other third : Run}

/-- A program is accepted if the verdict on it says so. -/
theorem isSuccess_verdict (run : Run) : run.verdict.isSuccess = run.isSuccess := by
  rw [verdict, isSuccess]
  rcases run.stop? with _ | _ | _ <;> rfl

namespace SameFindings

theorem symm (h : run.SameFindings other) : other.SameFindings run :=
  ⟨h.verdict.symm, h.position.symm, h.symbols.symm, h.warnings.symm⟩

theorem trans (h : run.SameFindings other) (hother : other.SameFindings third) :
    run.SameFindings third :=
  ⟨h.verdict.trans hother.verdict, h.position.trans hother.position,
    h.symbols.trans hother.symbols, h.warnings.trans hother.warnings⟩

theorem isSuccess_eq (h : run.SameFindings other) : run.isSuccess = other.isSuccess := by
  rw [← isSuccess_verdict, ← isSuccess_verdict, h.verdict]

/-- What went on in earlier runs is not among the findings. -/
theorem precededBy (h : run.SameFindings other) (earlier past : List Event) :
    (run.precededBy earlier).SameFindings (other.precededBy past) :=
  ⟨h.verdict, h.position, h.symbols, h.warnings⟩

end SameFindings

end Run

/-- Staged checks find the same if all runs do. -/
theorem checkStaged_sameFindings
    {record record' : Bool}
    {tokens others : List Token}
    (h : ∀ declare checkTypes symbols,
      (recognize ⟨declare, checkTypes, record⟩ symbols tokens).SameFindings
        (recognize ⟨declare, checkTypes, record'⟩ symbols others)) :
    (checkStaged record tokens).SameFindings (checkStaged record' others) := by
  have hparse : (parse record tokens).SameFindings (parse record' others) :=
    h false false .empty
  have hbuild : (buildSymbols record tokens).SameFindings (buildSymbols record' others) :=
    h true false .empty
  have htypes : ∀ symbols,
      (typecheck record symbols tokens).SameFindings (typecheck record' symbols others) :=
    h false true
  cases hparsed : (parse record tokens).isSuccess with
  | false =>
      have hparsed' := hparse.isSuccess_eq.symm.trans hparsed
      rw [checkStaged_of_not_parsed hparsed, checkStaged_of_not_parsed hparsed']
      exact hparse
  | true =>
      have hparsed' := hparse.isSuccess_eq.symm.trans hparsed
      cases hbuilt : (buildSymbols record tokens).isSuccess with
      | false =>
          have hbuilt' := hbuild.isSuccess_eq.symm.trans hbuilt
          rw [checkStaged_of_not_built hparsed hbuilt, checkStaged_of_not_built hparsed' hbuilt']
          exact hbuild.precededBy _ _
      | true =>
          have hbuilt' := hbuild.isSuccess_eq.symm.trans hbuilt
          rw [checkStaged_of_built hparsed hbuilt, checkStaged_of_built hparsed' hbuilt',
            hbuild.symbols]
          exact (htypes _).precededBy _ _

end SimpleC
