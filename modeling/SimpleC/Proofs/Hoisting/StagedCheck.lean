import SimpleC.Proofs.Hoisting.Basic
import SimpleC.Proofs.StagedCheck

/-!
# The staged check of a hoisted program

The staged check gives the answer that the check at once gives on the hoisted
program, also where it rejects. Both meet the same obligations in the same order:
first all declarations, then everything else under the table that is complete by
then.
-/

namespace SimpleC

namespace Obligation

/-- Only the obligations that are due matter. -/
theorem meetAll_filter (declares checksTypes : Bool) (obligations : List Obligation) :
    meetAll true true (obligations.filter (isDue declares checksTypes)) =
      meetAll declares checksTypes obligations := by
  induction obligations with
  | nil =>
      rfl
  | cons obligation rest ih =>
      cases hdue : obligation.isDue declares checksTypes with
      | true =>
          have hmeet : obligation.meet true true = obligation.meet declares checksTypes := by
            rw [meet, meet, hdue]
            unfold isDue
            split <;> rfl
          rw [List.filter_cons_of_pos hdue, meetAll, meetAll, hmeet, ih]
      | false =>
          have hskip : obligation.meet declares checksTypes = pure () := by
            rw [meet, hdue]
            rfl
          rw [List.filter_cons_of_neg (by simp [hdue]), ih, meetAll, hskip, pure_bind]

/-- The declarations first and then the others: two passes in a row. -/
theorem meetAll_hoisted (program : Program) :
    meetAll true true program.hoisted.obligations =
      (do
        meetAll true false program.obligations
        meetAll false true program.obligations) := by
  have hdeclares : isDue true false = isDeclaration := by
    funext obligation
    simp [isDue]
  have htypes : isDue false true = fun obligation => !obligation.isDeclaration := by
    funext obligation
    simp [isDue]
  rw [program.obligations_hoisted, meetAll_append, ← meetAll_filter true false,
    ← meetAll_filter false true, hdeclares, htypes]

end Obligation

/-- Runs that agree with one outcome have the same verdict, variables and warnings. -/
theorem Run.Agrees.same
    {run other : Run}
    {switches switches' : Switches}
    {phrase phrase' : Program}
    {ended : EStateM.Result Violation Findings Unit}
    (h : run.Agrees switches phrase ended)
    (hother : other.Agrees switches' phrase' ended) :
    run.verdict = other.verdict ∧ run.symbols = other.symbols ∧
      run.warnings = other.warnings := by
  cases ended with
  | ok _ findings =>
      obtain ⟨hstop, hsymbols, hwarnings, _⟩ := h
      obtain ⟨hstop', hsymbols', hwarnings', _⟩ := hother
      exact ⟨by rw [Run.verdict, Run.verdict, hstop, hstop'], hsymbols.trans hsymbols'.symm,
        hwarnings.trans hwarnings'.symm⟩
  | error violation findings =>
      obtain ⟨hstop, hsymbols, hwarnings⟩ := h
      obtain ⟨hstop', hsymbols', hwarnings'⟩ := hother
      exact ⟨by rw [Run.verdict, Run.verdict, hstop, hstop'], hsymbols.trans hsymbols'.symm,
        hwarnings.trans hwarnings'.symm⟩

/-- On every program that is parsed, the staged check finds what the check at once finds on
the hoisted program: the same verdict, the same variables and the same warnings. -/
theorem checkStaged_eq_check_hoist
    {record : Bool}
    {tokens : List Token}
    (hparsed : (parse record tokens).isSuccess = true) :
    (parse record (hoist tokens)).isSuccess = true ∧
      (checkStaged record tokens).verdict = (check record (hoist tokens)).verdict ∧
        (checkStaged record tokens).symbols = (check record (hoist tokens)).symbols ∧
          (checkStaged record tokens).warnings = (check record (hoist tokens)).warnings := by
  obtain ⟨phrase, hnearest, rfl⟩ := exists_program_of_isSuccess hparsed
  have hhoisted := phrase.nearestElse_hoisted hnearest
  rw [← phrase.tokens_hoisted]
  refine ⟨(parse_isSuccess_iff_exists_program _ _).mpr ⟨phrase.hoisted, hhoisted, rfl⟩, ?_⟩
  have hcheck := recognize_agrees ⟨true, true, record⟩ .empty phrase.hoisted hhoisted
  have hbuild := recognize_agrees ⟨true, false, record⟩ .empty phrase hnearest
  unfold Switches.checks at hcheck hbuild
  rw [Obligation.meetAll_hoisted] at hcheck
  cases hdeclared : Obligation.meetAll true false phrase.obligations ⟨.empty, []⟩ with
  | error violation findings =>
      -- a declaration fails in both, before any type is checked
      rw [bind_of_error hdeclared] at hcheck
      rw [hdeclared] at hbuild
      have hfails : (buildSymbols record phrase.tokens).isSuccess = false := by
        rw [Run.isSuccess, buildSymbols, hbuild.1]
        rfl
      rw [checkStaged_of_not_built hparsed hfails]
      exact hbuild.same hcheck
  | ok answer findings =>
      rw [bind_of_ok hdeclared] at hcheck
      obtain ⟨symbols, hsymbols, rfl⟩ := Obligation.meetAll_declarations.mp hdeclared
      obtain ⟨hbuilt, htable⟩ := buildSymbols_of_declared record hnearest hsymbols
      have htypes := recognize_agrees ⟨false, true, record⟩ symbols phrase hnearest
      rw [checkStaged_of_built hparsed hbuilt, htable]
      exact htypes.same hcheck

/-- A program that uses variables before the branches in which they are declared. -/
def usedBeforeBranches : List Token :=
  programOf [⟨.identifier, "x"⟩, .bare "=", ⟨.intLiteral, "1"⟩, .bare ";",
    .bare "if", .bare "(", ⟨.identifier, "x"⟩, .bare "<", ⟨.identifier, "y"⟩, .bare ")",
    .bare "int", ⟨.identifier, "y"⟩, .bare ";", .bare "else",
    .bare "int", ⟨.identifier, "x"⟩, .bare ";"]

/-- A program that is rejected for late declarations is accepted once it is hoisted. -/
theorem check_hoist_usedBeforeBranches :
    (parse false usedBeforeBranches).isSuccess = true ∧
      (check false usedBeforeBranches).isSuccess = false ∧
        (check false (hoist usedBeforeBranches)).verdict = .success ∧
          (check false (hoist usedBeforeBranches)).symbols.names = ["y", "x"] := by
  have hparsed : (parse false usedBeforeBranches).isSuccess = true := by decide +kernel
  have hrejected : (check false usedBeforeBranches).isSuccess = false := by decide +kernel
  have hstaged : (checkStaged false usedBeforeBranches).verdict = .success := by decide +kernel
  have hnames : (checkStaged false usedBeforeBranches).symbols.names = ["y", "x"] := by
    decide +kernel
  obtain ⟨_, hverdict, hsymbols, _⟩ := checkStaged_eq_check_hoist hparsed
  rw [hverdict] at hstaged
  rw [hsymbols] at hnames
  exact ⟨hparsed, hrejected, hstaged, hnames⟩

end SimpleC
