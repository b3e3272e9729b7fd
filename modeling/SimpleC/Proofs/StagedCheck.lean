import SimpleC.Proofs.Checking.Passes
import SimpleC.Proofs.Language

/-!
# The staged check

The staged check runs the recognizer three times: for the grammar alone, for the
declarations, and for the types under the table that the declarations make up.
It differs from the check at once in one point: types are checked under a table
that is complete from the start. So it accepts what the check at once accepts,
with the same outcome; and where it accepts more, a variable is used before its
declaration.
-/

namespace SimpleC

variable {record : Bool} {tokens : List Token}

/-- When the grammar is violated, the staged check ends there. -/
theorem checkStaged_of_not_parsed (hparsed : (parse record tokens).isSuccess = false) :
    checkStaged record tokens = parse record tokens := by
  simp [checkStaged, hparsed]

/-- When the first two runs end well, the staged check ends as the third one. -/
theorem checkStaged_of_built
    (hparsed : (parse record tokens).isSuccess = true)
    (hbuilt : (buildSymbols record tokens).isSuccess = true) :
    checkStaged record tokens =
      (typecheck record (buildSymbols record tokens).symbols tokens).precededBy
        ((parse record tokens).trace ++ (buildSymbols record tokens).trace) := by
  simp [checkStaged, hparsed, hbuilt]

/-- When a declaration fails, the staged check ends there. -/
theorem checkStaged_of_not_built
    (hparsed : (parse record tokens).isSuccess = true)
    (hbuilt : (buildSymbols record tokens).isSuccess = false) :
    checkStaged record tokens =
      (buildSymbols record tokens).precededBy (parse record tokens).trace := by
  simp [checkStaged, hparsed, hbuilt]

/-- A list of tokens that the staged check accepts is accepted by each of its runs. -/
theorem runs_of_checkStaged (h : (checkStaged record tokens).isSuccess = true) :
    (parse record tokens).isSuccess = true ∧
      (buildSymbols record tokens).isSuccess = true ∧
        (typecheck record (buildSymbols record tokens).symbols tokens).isSuccess = true := by
  cases hparsed : (parse record tokens).isSuccess with
  | false =>
      rw [checkStaged_of_not_parsed hparsed, hparsed] at h
      cases h
  | true =>
      cases hbuilt : (buildSymbols record tokens).isSuccess with
      | false =>
          rw [checkStaged_of_not_built hparsed hbuilt] at h
          have hfails : (buildSymbols record tokens).isSuccess = true := h
          rw [hbuilt] at hfails
          cases hfails
      | true =>
          rw [checkStaged_of_built hparsed hbuilt] at h
          exact ⟨rfl, rfl, h⟩

section Passes

variable (record) {phrase : Program} {symbols : SymbolTable} {warnings : List Warning}

/-- The table builder makes exactly the declarations of a program. -/
theorem buildSymbols_of_declared
    (hnearest : phrase.NearestElse)
    (hdeclared : SymbolTable.empty.declareAll (Obligation.declarations phrase.obligations) =
      .ok symbols) :
    (buildSymbols record phrase.tokens).isSuccess = true ∧
      (buildSymbols record phrase.tokens).symbols = symbols := by
  have hagrees := recognize_agrees ⟨true, false, record⟩ .empty phrase hnearest
  have hmet : (⟨true, false, record⟩ : Switches).checks phrase.obligations ⟨.empty, []⟩ =
      .ok () ⟨symbols, []⟩ :=
    Obligation.meetAll_declarations.mpr ⟨symbols, hdeclared, rfl⟩
  rw [hmet] at hagrees
  obtain ⟨hstop, hsymbols, _, _⟩ := hagrees
  exact ⟨by rw [Run.isSuccess, buildSymbols, hstop]; rfl, hsymbols⟩

/-- A program whose obligations are met in two passes is accepted by the staged check. -/
theorem checkStaged_of_passes
    (hnearest : phrase.NearestElse)
    (hdeclared : SymbolTable.empty.declareAll (Obligation.declarations phrase.obligations) =
      .ok symbols)
    (hrulings : Obligation.rulings symbols phrase.obligations = .ok warnings) :
    (checkStaged record phrase.tokens).isSuccess = true ∧
      (checkStaged record phrase.tokens).symbols = symbols ∧
        (checkStaged record phrase.tokens).warnings = warnings ∧
          (checkStaged record phrase.tokens).tree? =
            if record then some (phrase.node (some symbols)) else none := by
  have hparsed := (parse_isSuccess_iff_exists_program record phrase.tokens).mpr
    ⟨phrase, hnearest, rfl⟩
  obtain ⟨hbuilt, hsymbols⟩ := buildSymbols_of_declared record hnearest hdeclared
  have hagrees := recognize_agrees ⟨false, true, record⟩ symbols phrase hnearest
  have hmet : (⟨false, true, record⟩ : Switches).checks phrase.obligations ⟨symbols, []⟩ =
      .ok () ⟨symbols, warnings⟩ :=
    Obligation.meetAll_rulings.mpr ⟨warnings, hrulings, rfl⟩
  rw [hmet] at hagrees
  obtain ⟨hstop, hfinal, hwarnings, htree⟩ := hagrees
  rw [checkStaged_of_built hparsed hbuilt, hsymbols]
  refine ⟨?_, hfinal, hwarnings, htree⟩
  show (recognize ⟨false, true, record⟩ symbols phrase.tokens).stop?.isNone = true
  rw [hstop]
  rfl

/-- A program that the staged check accepts meets its obligations in two passes. -/
theorem passes_of_checkStaged
    (hnearest : phrase.NearestElse)
    (h : (checkStaged record phrase.tokens).isSuccess = true) :
    ∃ symbols warnings,
      SymbolTable.empty.declareAll (Obligation.declarations phrase.obligations) = .ok symbols ∧
        Obligation.rulings symbols phrase.obligations = .ok warnings := by
  obtain ⟨hparsed, hbuilt, htyped⟩ := runs_of_checkStaged h
  obtain ⟨ended, hbuild⟩ := (recognize_isSuccess_iff ⟨true, false, record⟩ .empty phrase
    hnearest).mp hbuilt
  obtain ⟨symbols, hdeclared, rfl⟩ := Obligation.meetAll_declarations.mp hbuild
  obtain ⟨_, hsymbols⟩ := buildSymbols_of_declared record hnearest hdeclared
  rw [hsymbols] at htyped
  obtain ⟨ended, htypes⟩ := (recognize_isSuccess_iff ⟨false, true, record⟩ symbols phrase
    hnearest).mp htyped
  obtain ⟨warnings, hrulings, _⟩ := Obligation.meetAll_rulings.mp htypes
  exact ⟨symbols, warnings, hdeclared, hrulings⟩

/-- What the check at once finds in a program whose obligations are met. -/
theorem check_of_met
    (hnearest : phrase.NearestElse)
    (hmet : Obligation.meetAll true true phrase.obligations ⟨.empty, []⟩ =
      .ok () ⟨symbols, warnings⟩) :
    (check record phrase.tokens).isSuccess = true ∧
      (check record phrase.tokens).symbols = symbols ∧
        (check record phrase.tokens).warnings = warnings ∧
          (check record phrase.tokens).tree? =
            if record then some (phrase.node (some symbols)) else none := by
  have hagrees := recognize_agrees ⟨true, true, record⟩ .empty phrase hnearest
  rw [show (⟨true, true, record⟩ : Switches).checks phrase.obligations ⟨.empty, []⟩ = _
    from hmet] at hagrees
  obtain ⟨hstop, hsymbols, hwarnings, htree⟩ := hagrees
  refine ⟨?_, hsymbols, hwarnings, htree⟩
  rw [Run.isSuccess, check, hstop]
  rfl

end Passes

/-- The two checks compared. What the check at once accepts is accepted by the staged one,
with the same variables, the same warnings and the same derivation. What the staged one
accepts is accepted by the check at once with the same variables and warnings, or rejected
since a variable is used that is declared, but not before. -/
theorem checkStaged_agrees_unless_undefined (record : Bool) (tokens : List Token) :
    ((check record tokens).isSuccess = true →
      (checkStaged record tokens).isSuccess = true ∧
        (checkStaged record tokens).symbols = (check record tokens).symbols ∧
          (checkStaged record tokens).warnings = (check record tokens).warnings ∧
            (checkStaged record tokens).tree? = (check record tokens).tree?) ∧
      ((checkStaged record tokens).isSuccess = true →
        ((check record tokens).isSuccess = true ∧
          (check record tokens).symbols = (checkStaged record tokens).symbols ∧
            (check record tokens).warnings = (checkStaged record tokens).warnings) ∨
        ∃ name ∈ (checkStaged record tokens).symbols.names,
          (check record tokens).stop? = some (.violation (.undefined name))) := by
  constructor
  · intro haccepted
    obtain ⟨phrase, hnearest, rfl⟩ := exists_program_of_isSuccess haccepted
    obtain ⟨⟨symbols, warnings⟩, hmet⟩ :=
      (recognize_isSuccess_iff _ _ phrase hnearest).mp haccepted
    obtain ⟨hdeclared, found, hfound, hrulings⟩ := Obligation.passes_of_met hmet
    obtain ⟨_, hsymbols, hwarnings, htree⟩ := check_of_met record hnearest hmet
    obtain ⟨hstaged, hsymbols', hwarnings', htree'⟩ :=
      checkStaged_of_passes record hnearest hdeclared (hrulings symbols (.refl symbols))
    have hsame : warnings = found := hfound
    exact ⟨hstaged, hsymbols'.trans hsymbols.symm,
      by rw [hwarnings', hwarnings, hsame], htree'.trans htree.symm⟩
  · intro hstaged
    obtain ⟨hparsed, _, _⟩ := runs_of_checkStaged hstaged
    obtain ⟨phrase, hnearest, rfl⟩ := exists_program_of_isSuccess hparsed
    obtain ⟨symbols, warnings, hdeclared, hrulings⟩ :=
      passes_of_checkStaged record hnearest hstaged
    obtain ⟨_, hsymbols, hwarnings, _⟩ :=
      checkStaged_of_passes record hnearest hdeclared hrulings
    rw [hsymbols, hwarnings]
    rcases Obligation.met_of_passes ⟨.empty, []⟩ hdeclared hrulings with hmet | ⟨name, hname, after, hmet⟩
    · obtain ⟨hcheck, hsymbols', hwarnings', _⟩ := check_of_met record hnearest hmet
      exact .inl ⟨hcheck, hsymbols', hwarnings'⟩
    · have hagrees := recognize_agrees ⟨true, true, record⟩ .empty phrase hnearest
      rw [show (⟨true, true, record⟩ : Switches).checks phrase.obligations ⟨.empty, []⟩ = _
        from hmet] at hagrees
      exact .inr ⟨name, hname, hagrees.1⟩

/-- A program that assigns to a variable after its declaration. -/
def declaredFirst : List Token :=
  programOf [.bare "int", ⟨.identifier, "x"⟩, .bare ";",
    ⟨.identifier, "x"⟩, .bare "=", ⟨.intLiteral, "1"⟩, .bare ";"]

/-- A program that assigns to a variable before its declaration. -/
def usedFirst : List Token :=
  programOf [⟨.identifier, "x"⟩, .bare "=", ⟨.intLiteral, "1"⟩, .bare ";",
    .bare "int", ⟨.identifier, "x"⟩, .bare ";"]

/-- Both cases of the comparison occur. -/
theorem checkStaged_agrees_on_examples :
    ((check true declaredFirst).isSuccess = true ∧
      (checkStaged true declaredFirst).isSuccess = true ∧
        (checkStaged true declaredFirst).tree? = (check true declaredFirst).tree?) ∧
      (checkStaged true usedFirst).isSuccess = true ∧
        ∃ name ∈ (checkStaged true usedFirst).symbols.names,
          (check true usedFirst).stop? = some (.violation (.undefined name)) := by
  constructor
  · have haccepted : (check true declaredFirst).isSuccess = true := by decide
    obtain ⟨hstaged, _, _, htree⟩ :=
      (checkStaged_agrees_unless_undefined true declaredFirst).1 haccepted
    exact ⟨haccepted, hstaged, htree⟩
  · have hstaged : (checkStaged true usedFirst).isSuccess = true := by decide
    rcases (checkStaged_agrees_unless_undefined true usedFirst).2 hstaged with
      ⟨haccepted, _⟩ | hundefined
    · exact absurd haccepted (by decide)
    · exact ⟨hstaged, hundefined⟩

end SimpleC
