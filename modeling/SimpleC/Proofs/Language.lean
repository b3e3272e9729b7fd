import SimpleC.Proofs.Phrase.Derivation
import SimpleC.Proofs.Recognizer.ProgramReadings
import SimpleC.Proofs.Recognizer.Statements

/-!
# The language of the recognizer

The grammar is ambiguous, and the recognizer looks at one token at a time and
never goes back. Still it accepts every list of tokens that the grammar derives,
and no other. Soundness reads a program off the steps that ended well. For
completeness, a derivation is regrouped so that every `else` belongs to the
nearest conditional that is open, which changes no token; and that program is
read to its end.
-/

namespace SimpleC

/-- When all checks are switched off, no obligation is due. -/
theorem Switches.checks_of_off
    {switches : Switches}
    (hdeclare : switches.declare = false)
    (htypes : switches.checkTypes = false)
    (obligations : List Obligation) :
    switches.checks obligations = pure () := by
  induction obligations with
  | nil =>
      rfl
  | cons obligation rest ih =>
      have hdue : obligation.isDue switches.declare switches.checkTypes = false := by
        rw [hdeclare, htypes]
        unfold Obligation.isDue
        split <;> rfl
      rw [Switches.checks_cons, ih, Switches.check, Obligation.meet, hdue]
      rfl

/-- Parsing accepts exactly the programs in which every `else` belongs to the nearest
open conditional. -/
theorem parse_isSuccess_iff_exists_program (record : Bool) (tokens : List Token) :
    (parse record tokens).isSuccess = true ↔
      ∃ phrase : Program, phrase.NearestElse ∧ phrase.tokens = tokens := by
  constructor
  · intro haccepted
    exact exists_program_of_isSuccess haccepted
  · rintro ⟨phrase, hnearest, rfl⟩
    have hmet : (⟨false, false, record⟩ : Switches).checks phrase.obligations ⟨.empty, []⟩ =
        .ok () ⟨.empty, []⟩ := by
      rw [Switches.checks_of_off rfl rfl]
      rfl
    exact (recognize_isSuccess_iff _ _ phrase hnearest).mpr ⟨_, hmet⟩

/-- Parsing accepts a list of tokens if and only if the grammar derives it. -/
theorem parse_isSuccess_iff_derivable (record : Bool) (tokens : List Token) :
    (parse record tokens).isSuccess = true ↔ Grammar.Derivable tokens := by
  rw [parse_isSuccess_iff_exists_program, Grammar.derivable_iff_exists_nearestElse]

end SimpleC
