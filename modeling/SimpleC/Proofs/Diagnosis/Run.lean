import SimpleC.Proofs.Course.Run
import SimpleC.Proofs.Diagnosis.Basic

/-!
# The diagnoses of a run

However a run fails, its message is a diagnosis: it names what is found at the place where
the run ends, with the types that hold under its last symbol table. In particular no run
ends at a place at which the recognizer would contradict itself.
-/

namespace SimpleC

/-- The violation at which steps in their place end is a diagnosis. -/
theorem Step.InPlace.diagnoses
    {switches : Switches}
    {past steps : List Step}
    {ahead : List Token}
    {start findings : Findings}
    {violation : Violation}
    (h : InPlace past ahead steps)
    (hpast : Passes switches past start findings)
    (hviolation : (outcome switches steps findings).violation? = some violation) :
    violation.Diagnoses (outcome switches steps findings).findings.symbols
      (tokens past ++ ahead.take (outcome switches steps findings).consumed)
      (ahead.drop (outcome switches steps findings).consumed) := by
  induction h generalizing findings with
  | done =>
      cases hviolation
  | @read past rest ahead token _ ih =>
      have hread : Passes switches [.read token] findings findings :=
        (passes_read token).mpr (passes_nil.mpr rfl)
      simpa [outcome] using ih (passes_append.mpr ⟨_, hpast, hread⟩) hviolation
  | stop hstops =>
      cases hviolation
      exact .grammar hstops
  | @check past earlier own rest ahead production demand hpasteq hmarks hopening _ ih =>
      simp only [outcome] at hviolation ⊢
      cases hanswer : demand.answer switches findings.symbols with
      | ok found =>
          obtain ⟨symbols, warnings⟩ := found
          rw [hanswer] at hviolation
          have hchecked : Passes switches [.check demand] findings
              ⟨symbols, findings.warnings ++ warnings⟩ :=
            (passes_check demand).mpr ⟨symbols, warnings, hanswer, passes_nil.mpr rfl⟩
          simpa using ih (passes_append.mpr ⟨_, hpast, hchecked⟩) hviolation
      | error other =>
          rw [hanswer] at hviolation
          cases hviolation
          subst hpasteq
          obtain ⟨middle, _, hown⟩ := passes_append.mp hpast
          simpa using hmarks.diagnoses hopening hown hanswer

section Runs

variable
    {switches : Switches}
    {symbols : SymbolTable}
    {tokens : List Token}
    {violation : Violation}

/-- A run that ends early ends at a violation. -/
theorem exists_violation_of_stop
    {stop : Stop}
    (h : (recognize switches symbols tokens).stop? = some stop) :
    ∃ violation, stop = .violation violation := by
  obtain ⟨moves, _, hruns⟩ := exists_moves tokens
  rw [(hruns switches symbols).2.stop] at h
  obtain ⟨violation, _, rfl⟩ := Option.map_eq_some_iff.mp h
  exact ⟨violation, rfl⟩

/-- The violation at which a run ends is a diagnosis. -/
theorem diagnoses_of_stop
    (h : (recognize switches symbols tokens).stop? = some (.violation violation)) :
    violation.Diagnoses (recognize switches symbols tokens).symbols
      (tokens.take (recognize switches symbols tokens).position)
      (tokens.drop (recognize switches symbols tokens).position) := by
  obtain ⟨moves, hcourse, hruns⟩ := exists_moves tokens
  have htells := (hruns switches symbols).2
  rw [htells.stop] at h
  rw [htells.symbols, htells.position]
  have hviolation : (Step.outcome switches (Move.stepsAll moves) ⟨symbols, []⟩).violation? =
      some violation := by
    simpa using h
  exact hcourse.inPlace.diagnoses (Step.passes_nil.mpr rfl) hviolation

end Runs

/-- No value is diagnosed to have no type: what is read as a value is one. -/
theorem Violation.Diagnoses.ne_untypedToken
    {symbols : SymbolTable}
    {consumed ahead : List Token}
    {violation : Violation}
    (h : violation.Diagnoses symbols consumed ahead)
    (found : Token) :
    violation ≠ .untypedToken found := by
  rintro rfl
  cases h with
  | grammar hstops =>
      cases hstops

/-- No operator is diagnosed to be unknown: what is read as an operator is one. -/
theorem Violation.Diagnoses.ne_unknownOperator
    {symbols : SymbolTable}
    {consumed ahead : List Token}
    {violation : Violation}
    (h : violation.Diagnoses symbols consumed ahead)
    (spelling : String) :
    violation ≠ .unknownOperator spelling := by
  rintro rfl
  cases h with
  | grammar hstops =>
      cases hstops

/-- A run ends well or at a violation of one of the phases: never at a place at which the
recognizer would rely on a spelling, a type or a bound that is not there, nor at a value
without a type or an operator that there is not. -/
theorem runs_end_in_success_or_failure
    (switches : Switches)
    (symbols : SymbolTable)
    (tokens : List Token) :
    ((recognize switches symbols tokens).verdict = .success ∨
        ∃ phase message, (recognize switches symbols tokens).verdict = .failure phase message) ∧
      (∀ reason, (recognize switches symbols tokens).stop? ≠ some (.fault reason)) ∧
      (∀ found, (recognize switches symbols tokens).stop? ≠
        some (.violation (.untypedToken found))) ∧
      (∀ spelling, (recognize switches symbols tokens).stop? ≠
        some (.violation (.unknownOperator spelling))) := by
  refine ⟨?_, ?_, ?_, ?_⟩
  · unfold Run.verdict
    cases hstop : (recognize switches symbols tokens).stop? with
    | none =>
        exact .inl rfl
    | some stop =>
        obtain ⟨violation, rfl⟩ := exists_violation_of_stop hstop
        exact .inr ⟨violation.phase, violation.message, rfl⟩
  · intro reason hstop
    obtain ⟨_, hviolation⟩ := exists_violation_of_stop hstop
    cases hviolation
  · intro found hstop
    exact (diagnoses_of_stop hstop).ne_untypedToken found rfl
  · intro spelling hstop
    exact (diagnoses_of_stop hstop).ne_unknownOperator spelling rfl

end SimpleC
