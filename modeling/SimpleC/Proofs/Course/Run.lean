import SimpleC.Proofs.Course.Recognition
import SimpleC.Run

/-!
# Runs as outcomes of steps

The steps of a run are told by the tokens alone. Its violation, its position, its
symbol table and its warnings are what comes of these steps under the switches, from
the given symbol table on.
-/

namespace SimpleC

/-- The run has ended as the outcome says. -/
structure Outcome.Tells (outcome : Outcome) (run : Run) : Prop where
  stop : run.stop? = outcome.violation?.map .violation
  position : run.position = outcome.consumed
  symbols : run.symbols = outcome.findings.symbols
  warnings : run.warnings = outcome.findings.warnings

/-- A run fails at a violation with this phase and message. -/
theorem Run.exists_violation_of_verdict
    {run : Run}
    {phase : Phase}
    {message : String}
    (h : run.verdict = .failure phase message) :
    ∃ violation : Violation, run.stop? = some (.violation violation) ∧
      violation.phase = phase ∧ violation.message = message := by
  unfold verdict at h
  cases hstop : run.stop? with
  | none =>
      rw [hstop] at h
      cases h
  | some stop =>
      rw [hstop] at h
      cases stop with
      | violation violation =>
          cases h
          exact ⟨violation, rfl, rfl, rfl⟩
      | fault reason =>
          cases h

/-- What a program that starts before the first token amounts to. -/
theorem Outcome.Describes.tells
    {outcome : Outcome}
    {tokens : List Token}
    {symbols : SymbolTable}
    {ended : EStateM.Result Stop State Unit}
    (h : outcome.Describes (.start tokens symbols) ended) :
    outcome.Tells (.ofResult ended) := by
  cases h with
  | ok hposition =>
      exact ⟨rfl, hposition.trans (Nat.zero_add _), rfl, rfl⟩
  | error hposition =>
      exact ⟨rfl, hposition.trans (Nat.zero_add _), rfl, rfl⟩

/-- A run performs moves that do not depend on the switches or on the symbol table. -/
theorem exists_moves (tokens : List Token) :
    ∃ moves, WholeCourse tokens moves ∧
      ∀ switches symbols,
        recognize switches symbols tokens =
            .ofResult (Move.performAll switches moves (.start tokens symbols)) ∧
          (Step.outcome switches (Move.stepsAll moves) ⟨symbols, []⟩).Tells
            (recognize switches symbols tokens) := by
  obtain ⟨moves, hcourse, hperformed⟩ := Recognizer.exists_wholeCourse tokens
  refine ⟨moves, hcourse, ?_⟩
  intro switches symbols
  have hrun : recognize switches symbols tokens =
      .ofResult (Move.performAll switches moves (.start tokens symbols)) := by
    rw [recognize, hperformed]
  refine ⟨hrun, ?_⟩
  rw [hrun]
  exact (Move.describes_performAll moves (.start tokens symbols)).tells

/-- The tokens before the position of a run are those that its steps consume. -/
theorem WholeCourse.take_position
    {tokens : List Token}
    {moves : List Move}
    {switches : Switches}
    {findings : Findings}
    {run : Run}
    (h : WholeCourse tokens moves)
    (htells : (Step.outcome switches (Move.stepsAll moves) findings).Tells run) :
    tokens.take run.position =
      (Move.tokens moves).take
        (Step.outcome switches (Move.stepsAll moves) findings).consumed := by
  obtain ⟨rest, rfl⟩ := h.tokens_prefix
  rw [htells.position]
  exact List.take_append_of_le_length (Step.consumed_le _ _ _)

end SimpleC
