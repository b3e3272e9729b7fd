import SimpleC.Proofs.Course.Extension
import SimpleC.Proofs.Renaming.Steps

/-!
# Runs under other names

A run does not look into names and literals. Under other names, and with other texts of the
literals, it ends in the same way, at the same place and with the same warnings; only the
variables that it declares or reports go by their new names. So no identifier and no literal
is ever taken for a word, however it is spelled.
-/

namespace SimpleC

section Relations

variable
    (rename : String → String)
    (names : Set String)

/-- Verdicts that correspond to each other: success stays success, and a failure stays in its
phase. Its message is the same about types and names the same variable by its new name; about
the grammar it names a corresponding token. -/
inductive Verdict.Renames : Verdict → Verdict → Prop
  | success :
      Renames .success .success
  | grammar {violation other : Violation}
      (hphase : violation.phase = .grammar)
      (hviolation : violation.Renames rename names other) :
      Renames (.failure .grammar violation.message) (.failure .grammar other.message)
  | redefinition (name : String) :
      Renames (.failure .redefinition (Violation.redefined name).message)
        (.failure .redefinition (Violation.redefined (rename name)).message)
  | undefined (name : String) :
      Renames (.failure .undefined (Violation.undefined name).message)
        (.failure .undefined (Violation.undefined (rename name)).message)
  | type (message : String) :
      Renames (.failure .type message) (.failure .type message)

/-- Runs that correspond to each other. -/
structure Run.Renames (run other : Run) : Prop where
  verdict : run.verdict.Renames rename names other.verdict
  position : other.position = run.position
  warnings : other.warnings = run.warnings
  symbols : run.symbols.Renames rename names other.symbols

end Relations

variable
    {rename : String → String}
    {names : Set String}

/-- Corresponding violations are reported by corresponding verdicts. -/
theorem Violation.Renames.verdict
    {violation other : Violation}
    (h : violation.Renames rename names other) :
    (Verdict.ofStop (.violation violation)).Renames rename names
      (.ofStop (.violation other)) := by
  cases h with
  | endOfInput =>
      exact .grammar rfl .endOfInput
  | unexpected wanted hfound =>
      exact .grammar rfl (.unexpected wanted hfound)
  | notAValue hfound =>
      exact .grammar rfl (.notAValue hfound)
  | notAStatement hfound =>
      exact .grammar rfl (.notAStatement hfound)
  | trailing hfound =>
      exact .grammar rfl (.trailing hfound)
  | redefined name =>
      exact .redefinition name
  | undefined name =>
      exact .undefined name
  | type hphase =>
      rw [Verdict.ofStop, hphase]
      exact .type _

/-- Runs that end as corresponding outcomes say correspond to each other. -/
theorem Outcome.Renames.run
    {outcome outcome' : Outcome}
    {run other : Run}
    (h : outcome.Renames rename names outcome')
    (htells : outcome.Tells run)
    (htells' : outcome'.Tells other) :
    run.Renames rename names other := by
  have hviolation := h.violation
  constructor
  · rw [Run.verdict, Run.verdict, htells.stop, htells'.stop]
    generalize outcome.violation? = violation?, outcome'.violation? = other? at hviolation
    cases hviolation with
    | none =>
        exact .success
    | some hrenames =>
        exact hrenames.verdict
  · rw [htells.position, htells'.position, h.consumed]
  · rw [htells.warnings, htells'.warnings, h.warnings]
  · rw [htells.symbols, htells'.symbols]
    exact h.symbols

end SimpleC
