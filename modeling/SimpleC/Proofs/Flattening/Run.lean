import SimpleC.Proofs.Flattening.Basic
import SimpleC.Proofs.Hoisting.StagedCheck

/-!
# Runs on flattened programs

All variables share one scope, so that branches mean nothing to declarations: a flattened
program declares the same variables, or fails at the same declaration. And since no check
depends on a condition, a program that is accepted is still accepted once its conditions
are gone.
-/

namespace SimpleC

namespace Obligation

/-- Obligations that are not due need not be kept. -/
theorem meetAll_filter_of_due
    {declares checksTypes : Bool}
    {keep : Obligation → Bool}
    (hkeep : ∀ obligation : Obligation,
      obligation.isDue declares checksTypes = true → keep obligation = true)
    (obligations : List Obligation) :
    meetAll declares checksTypes (obligations.filter keep) =
      meetAll declares checksTypes obligations := by
  have hsame : (obligations.filter keep).filter (isDue declares checksTypes) =
      obligations.filter (isDue declares checksTypes) := by
    rw [List.filter_filter]
    refine List.filter_congr fun obligation _ => ?_
    cases hdue : obligation.isDue declares checksTypes with
    | false =>
        rfl
    | true =>
        rw [hkeep obligation hdue]
        rfl
  rw [← meetAll_filter, hsame, meetAll_filter]

/-- What is met is still met when obligations other than declarations are left out, and the
same variables are declared. -/
theorem exists_met_filter
    {keep : Obligation → Bool}
    (hkeep : ∀ obligation : Obligation,
      obligation.isDeclaration = true → keep obligation = true)
    {after : Findings}
    {obligations : List Obligation} :
    ∀ {findings : Findings} (warnings : List Warning),
      meetAll true true obligations findings = .ok () after →
        ∃ left, meetAll true true (obligations.filter keep)
          { findings with warnings := warnings } = .ok () { after with warnings := left } := by
  induction obligations with
  | nil =>
      intro findings warnings hmet
      cases hmet
      exact ⟨warnings, rfl⟩
  | cons obligation rest ih =>
      intro findings warnings hmet
      obtain ⟨middle, hcheck, hrest⟩ := meetAll_cons_eq_ok.mp hmet
      cases hkind : obligation.isDeclaration with
      | true =>
          obtain ⟨type, name, rfl⟩ := exists_eq_declaration hkind
          obtain ⟨extended, hdeclare, rfl⟩ := Checking.declare_eq_ok.mp hcheck
          obtain ⟨left, hleft⟩ := ih warnings hrest
          rw [List.filter_cons_of_pos (hkeep _ rfl)]
          exact ⟨left, meetAll_cons_eq_ok.mpr
            ⟨_, Checking.declare_eq_ok.mpr ⟨extended, hdeclare, rfl⟩, hleft⟩⟩
      | false =>
          obtain ⟨first, hruling, rfl⟩ := (check_eq_ok_iff hkind).mp hcheck
          cases hkept : keep obligation with
          | false =>
              obtain ⟨left, hleft⟩ := ih warnings hrest
              rw [List.filter_cons_of_neg (by simp [hkept])]
              exact ⟨left, hleft⟩
          | true =>
              -- the ruling depends on the variables alone
              obtain ⟨left, hleft⟩ := ih (warnings ++ first) hrest
              rw [List.filter_cons_of_pos hkept]
              exact ⟨left, meetAll_cons_eq_ok.mpr
                ⟨_, (check_eq_ok_iff hkind).mpr ⟨first, hruling, rfl⟩, hleft⟩⟩

/-- A declaration is no condition. -/
theorem isCondition_of_isDeclaration
    {obligation : Obligation}
    (h : obligation.isDeclaration = true) :
    (!obligation.isCondition) = true := by
  obtain ⟨type, name, rfl⟩ := exists_eq_declaration h
  rfl

end Obligation

section Runs

variable {record : Bool} {phrase : Program}

/-- The table builder ends alike on the flattened program. -/
theorem buildSymbols_flattened (hnearest : phrase.NearestElse) :
    (buildSymbols record phrase.flattened.tokens).verdict =
        (buildSymbols record phrase.tokens).verdict ∧
      (buildSymbols record phrase.flattened.tokens).symbols =
        (buildSymbols record phrase.tokens).symbols := by
  have hagrees := recognize_agrees ⟨true, false, record⟩ .empty phrase hnearest
  have hflat := recognize_agrees ⟨true, false, record⟩ .empty phrase.flattened
    phrase.nearestElse_flattened
  have hdue : ∀ obligation : Obligation,
      obligation.isDue true false = true → (!obligation.isCondition) = true := by
    intro obligation hdue
    cases obligation with
    | condition =>
        cases hdue
    | declaration | input | output | assignment =>
        rfl
  unfold Switches.checks at hflat hagrees
  rw [phrase.obligations_flattened, Obligation.meetAll_filter_of_due hdue] at hflat
  obtain ⟨hverdict, hsymbols, _⟩ := hflat.same hagrees
  exact ⟨hverdict, hsymbols⟩

/-- The check accepts the flattened program if it accepts the program, with the same
variables. -/
theorem check_flattened
    (hnearest : phrase.NearestElse)
    (haccepted : (check record phrase.tokens).isSuccess = true) :
    (check record phrase.flattened.tokens).isSuccess = true ∧
      (check record phrase.flattened.tokens).symbols = (check record phrase.tokens).symbols := by
  obtain ⟨after, hmet⟩ := (recognize_isSuccess_iff ⟨true, true, record⟩ .empty phrase
    hnearest).mp haccepted
  obtain ⟨warnings, hflat⟩ :=
    Obligation.exists_met_filter (fun _ => Obligation.isCondition_of_isDeclaration) [] hmet
  rw [← phrase.obligations_flattened] at hflat
  obtain ⟨hsuccess, hsymbols, _⟩ := check_of_met record phrase.nearestElse_flattened hflat
  obtain ⟨_, hsymbols', _⟩ := check_of_met record hnearest hmet
  exact ⟨hsuccess, hsymbols.trans hsymbols'.symm⟩

end Runs

/-- Flattening a program that is parsed leaves one that is parsed, that declares the same
variables or fails alike, and that is accepted with the same variables if the program is. -/
theorem flatten_keeps_declarations
    {record : Bool}
    {tokens : List Token}
    (hparsed : (parse record tokens).isSuccess = true) :
    (parse record (flatten tokens)).isSuccess = true ∧
      (buildSymbols record (flatten tokens)).verdict = (buildSymbols record tokens).verdict ∧
        (buildSymbols record (flatten tokens)).symbols = (buildSymbols record tokens).symbols ∧
          ((check record tokens).isSuccess = true →
            (check record (flatten tokens)).isSuccess = true ∧
              (check record (flatten tokens)).symbols = (check record tokens).symbols) := by
  obtain ⟨phrase, hnearest, rfl⟩ := exists_program_of_isSuccess hparsed
  rw [← phrase.tokens_flattened]
  have hflat : (parse record phrase.flattened.tokens).isSuccess = true :=
    (parse_isSuccess_iff_exists_program _ _).mpr
      ⟨phrase.flattened, phrase.nearestElse_flattened, rfl⟩
  obtain ⟨hverdict, hsymbols⟩ := buildSymbols_flattened hnearest
  exact ⟨hflat, hverdict, hsymbols, check_flattened hnearest⟩

/-- A program that declares variables in the branches of a conditional inside of another
one, and uses them after it. -/
def declaredInBranches : List Token :=
  programOf [.bare "if", .bare "(", .bare "true", .bare ")",
    .bare "if", .bare "(", ⟨.intLiteral, "1"⟩, .bare "<", ⟨.intLiteral, "2"⟩, .bare ")",
    .bare "int", ⟨.identifier, "x"⟩, .bare ";",
    .bare "else", .bare "real", ⟨.identifier, "y"⟩, .bare ";",
    ⟨.identifier, "y"⟩, .bare "=", ⟨.identifier, "x"⟩, .bare ";"]

/-- The conditionals are gone, and the variables are still declared before they are used. -/
theorem flatten_declaredInBranches :
    (parse false declaredInBranches).isSuccess = true ∧
      flatten declaredInBranches =
        programOf [.bare "int", ⟨.identifier, "x"⟩, .bare ";",
          .bare "real", ⟨.identifier, "y"⟩, .bare ";",
          ⟨.identifier, "y"⟩, .bare "=", ⟨.identifier, "x"⟩, .bare ";"] ∧
        (buildSymbols false (flatten declaredInBranches)).symbols.names = ["x", "y"] ∧
          (check false declaredInBranches).isSuccess = true ∧
            (check false (flatten declaredInBranches)).isSuccess = true ∧
              (check false (flatten declaredInBranches)).symbols.names = ["x", "y"] := by
  have hparsed : (parse false declaredInBranches).isSuccess = true := by decide +kernel
  have hchecked : (check false declaredInBranches).isSuccess = true := by decide +kernel
  have hbuilt : (buildSymbols false declaredInBranches).symbols.names = ["x", "y"] := by
    decide +kernel
  have hnames : (check false declaredInBranches).symbols.names = ["x", "y"] := by
    decide +kernel
  obtain ⟨_, _, hsymbols, haccepted⟩ := flatten_keeps_declarations hparsed
  obtain ⟨hflat, hsame⟩ := haccepted hchecked
  rw [← hsymbols] at hbuilt
  rw [← hsame] at hnames
  exact ⟨hparsed, by decide +kernel, hbuilt, hchecked, hflat, hnames⟩

end SimpleC
