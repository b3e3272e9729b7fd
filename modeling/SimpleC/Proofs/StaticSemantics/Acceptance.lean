import SimpleC.Proofs.Language
import SimpleC.Proofs.StaticSemantics.Typing

/-!
# Acceptance of well-typed programs

The check at once accepts exactly the well-typed programs. The obligations of a
statement are met exactly if the statement is well typed in the environment that
the declarations before it make up, and meeting them leaves the environment that
the rules call for.
-/

namespace SimpleC

/-- The environment that the declarations so far make up. -/
def Findings.environment (findings : Findings) : Environment :=
  findings.symbols.environment

namespace Obligation

variable {findings after : Findings}

/-- A declaration binds a name that was not bound. -/
theorem environment_of_declaration
    {type : ValueType}
    {name : String}
    (h : (declaration type name).check findings = .ok () after) :
    findings.environment name = none ∧
      after.environment = findings.environment.bind name type := by
  obtain ⟨extended, hdeclare, rfl⟩ := Checking.declare_eq_ok.mp h
  have hnew := (SymbolTable.entries_of_declare hdeclare).1
  exact ⟨SymbolTable.environment_eq_none_iff.mpr hnew,
    SymbolTable.environment_of_declare hdeclare⟩

/-- Only declarations change the environment. -/
theorem environment_of_check
    {obligation : Obligation}
    (hkind : obligation.isDeclaration = false)
    (h : obligation.check findings = .ok () after) :
    (∃ warnings, obligation.ruling findings.symbols = .ok warnings) ∧
      after.environment = findings.environment := by
  obtain ⟨warnings, hruling, rfl⟩ := (check_eq_ok_iff hkind).mp h
  exact ⟨⟨warnings, hruling⟩, rfl⟩

theorem ruling_input_eq_ok_iff {name : String} :
    (∃ warnings, (input name).ruling findings.symbols = .ok warnings) ↔
      ∃ type, findings.environment name = some type := by
  simp only [Findings.environment, SymbolTable.environment_eq_some_iff, ruling]
  cases findings.symbols.lookup name with
  | ok symbol =>
      simp [Except.map]
  | error violation =>
      simp [Except.map]

theorem ruling_output_eq_ok_iff {value : Operand} :
    (∃ warnings, (output value).ruling findings.symbols = .ok warnings) ↔
      ∃ type, value.HasType findings.environment type := by
  simp only [Findings.environment, ← Operand.typing_eq_ok_iff, ruling]
  cases value.typing findings.symbols with
  | ok type =>
      simp [Except.map]
  | error violation =>
      simp [Except.map]

theorem ruling_assignment_eq_ok_iff {name : String} {value : Expression} :
    (∃ warnings, (assignment name value).ruling findings.symbols = .ok warnings) ↔
      ∃ target type, findings.environment name = some target ∧
        value.HasType findings.environment type ∧
          (type = target ∨ target = .real ∧ type = .int) := by
  constructor
  · rintro ⟨warnings, h⟩
    obtain ⟨symbol, hlookup, hvalue⟩ := except_bind_eq_ok.mp h
    obtain ⟨type, htype, hrule⟩ := Expression.ruling_eq_ok_iff.mp ⟨warnings, hvalue⟩
    exact ⟨symbol.type, type, SymbolTable.environment_eq_some_iff.mpr ⟨symbol, hlookup, rfl⟩,
      htype, TypeRules.assignment_eq_ok_iff.mp hrule⟩
  · rintro ⟨target, type, hbound, htype, hfits⟩
    obtain ⟨symbol, hlookup, rfl⟩ := SymbolTable.environment_eq_some_iff.mp hbound
    obtain ⟨warnings, hvalue⟩ := Expression.ruling_eq_ok_iff.mpr
      ⟨type, htype, TypeRules.assignment_eq_ok_iff.mpr hfits⟩
    exact ⟨warnings, except_bind_eq_ok.mpr ⟨symbol, hlookup, hvalue⟩⟩

theorem ruling_condition_eq_ok_iff {phrase : Expression} :
    (∃ warnings, (condition phrase).ruling findings.symbols = .ok warnings) ↔
      phrase.HasType findings.environment .bool := by
  unfold ruling
  rw [Expression.ruling_eq_ok_iff]
  simp only [TypeRules.condition_eq_ok_iff, exists_eq_right, Findings.environment]

end Obligation

/-- A statement whose obligations are met is well typed. -/
theorem Statement.wellTyped_of_met (statement : Statement) :
    ∀ {findings after : Findings},
      Obligation.meetAll true true statement.obligations findings = .ok () after →
        statement.WellTyped findings.environment after.environment := by
  induction statement with
  | empty semicolon =>
      intro findings after h
      cases h
      exact .empty
  | declaration declarator name semicolon =>
      intro findings after h
      obtain ⟨middle, hcheck, hnil⟩ := Obligation.meetAll_cons_eq_ok.mp h
      cases hnil
      obtain ⟨hnew, hafter⟩ := Obligation.environment_of_declaration hcheck
      rw [hafter]
      exact .declaration hnew
  | input word arrows name semicolon =>
      intro findings after h
      obtain ⟨middle, hcheck, hnil⟩ := Obligation.meetAll_cons_eq_ok.mp h
      cases hnil
      obtain ⟨hruling, hafter⟩ := Obligation.environment_of_check rfl hcheck
      obtain ⟨type, hbound⟩ := Obligation.ruling_input_eq_ok_iff.mp hruling
      rw [hafter]
      exact .input hbound
  | output word arrows printed semicolon =>
      intro findings after h
      cases printed with
      | endOfLine word =>
          cases h
          exact .output .endOfLine
      | value operand =>
          obtain ⟨middle, hcheck, hnil⟩ := Obligation.meetAll_cons_eq_ok.mp h
          cases hnil
          obtain ⟨hruling, hafter⟩ := Obligation.environment_of_check rfl hcheck
          obtain ⟨type, htype⟩ := Obligation.ruling_output_eq_ok_iff.mp hruling
          rw [hafter]
          exact .output (.value htype)
  | assignment name equals value semicolon =>
      intro findings after h
      obtain ⟨middle, hcheck, hnil⟩ := Obligation.meetAll_cons_eq_ok.mp h
      cases hnil
      obtain ⟨hruling, hafter⟩ := Obligation.environment_of_check rfl hcheck
      obtain ⟨target, type, hbound, hvalue, hfits⟩ :=
        Obligation.ruling_assignment_eq_ok_iff.mp hruling
      rw [hafter]
      exact .assignment hbound hvalue hfits
  | conditional guard thenPart ih =>
      intro findings after h
      obtain ⟨middle, hcheck, hthen⟩ := Obligation.meetAll_cons_eq_ok.mp h
      obtain ⟨hruling, hmiddle⟩ := Obligation.environment_of_check rfl hcheck
      refine .conditional (Obligation.ruling_condition_eq_ok_iff.mp hruling) ?_
      rw [← hmiddle]
      exact ih hthen
  | alternative guard thenPart word elsePart ihthen ihelse =>
      intro findings after h
      obtain ⟨middle, hcheck, h⟩ := Obligation.meetAll_cons_eq_ok.mp h
      obtain ⟨between, hthen, helse⟩ := Obligation.meetAll_append_eq_ok.mp h
      obtain ⟨hruling, hmiddle⟩ := Obligation.environment_of_check rfl hcheck
      refine .alternative (Obligation.ruling_condition_eq_ok_iff.mp hruling) ?_ (ihelse helse)
      rw [← hmiddle]
      exact ihthen hthen

/-- The obligation of a phrase that obeys its rule is met, whatever else was found. -/
theorem Obligation.met_of_ruling
    {obligation : Obligation}
    (hkind : obligation.isDeclaration = false)
    {findings : Findings}
    (hruling : ∃ warnings, obligation.ruling findings.symbols = .ok warnings) :
    ∃ after, obligation.check findings = .ok () after ∧
      after.environment = findings.environment := by
  obtain ⟨warnings, hruling⟩ := hruling
  exact ⟨_, (check_eq_ok_iff hkind).mpr ⟨warnings, hruling, rfl⟩, rfl⟩

/-- A declaration of a name that is not bound is met. -/
theorem Obligation.met_of_new
    {findings : Findings}
    {name : String}
    (type : ValueType)
    (hnew : findings.environment name = none) :
    ∃ after, (declaration type name).check findings = .ok () after ∧
      after.environment = findings.environment.bind name type := by
  have hname := SymbolTable.environment_eq_none_iff.mp hnew
  obtain ⟨extended, hdeclare⟩ := SymbolTable.exists_declare_of_notMem hname type
  exact ⟨_, Checking.declare_eq_ok.mpr ⟨extended, hdeclare, rfl⟩,
    SymbolTable.environment_of_declare hdeclare⟩

/-- The obligations of a well-typed statement are met. -/
theorem Statement.WellTyped.met
    {statement : Statement}
    {environment environment' : Environment}
    (h : statement.WellTyped environment environment') :
    ∀ findings : Findings, findings.environment = environment →
      ∃ after, Obligation.meetAll true true statement.obligations findings = .ok () after ∧
        after.environment = environment' := by
  induction h with
  | empty =>
      intro findings hfindings
      exact ⟨findings, rfl, hfindings⟩
  | @declaration environment declarator name semicolon hnew =>
      rintro findings rfl
      obtain ⟨after, hcheck, hafter⟩ := Obligation.met_of_new declarator.type hnew
      exact ⟨after, Obligation.meetAll_cons_eq_ok.mpr ⟨after, hcheck, rfl⟩, hafter⟩
  | input hbound =>
      rintro findings rfl
      obtain ⟨after, hcheck, hafter⟩ := Obligation.met_of_ruling rfl
        (Obligation.ruling_input_eq_ok_iff.mpr ⟨_, hbound⟩)
      exact ⟨after, Obligation.meetAll_cons_eq_ok.mpr ⟨after, hcheck, rfl⟩, hafter⟩
  | output hprinted =>
      rintro findings rfl
      cases hprinted with
      | endOfLine =>
          exact ⟨findings, rfl, rfl⟩
      | value hvalue =>
          obtain ⟨after, hcheck, hafter⟩ := Obligation.met_of_ruling rfl
            (Obligation.ruling_output_eq_ok_iff.mpr ⟨_, hvalue⟩)
          exact ⟨after, Obligation.meetAll_cons_eq_ok.mpr ⟨after, hcheck, rfl⟩, hafter⟩
  | assignment hbound hvalue hfits =>
      rintro findings rfl
      obtain ⟨after, hcheck, hafter⟩ := Obligation.met_of_ruling rfl
        (Obligation.ruling_assignment_eq_ok_iff.mpr ⟨_, _, hbound, hvalue, hfits⟩)
      exact ⟨after, Obligation.meetAll_cons_eq_ok.mpr ⟨after, hcheck, rfl⟩, hafter⟩
  | conditional hcondition hthen ih =>
      rintro findings rfl
      obtain ⟨middle, hcheck, hmiddle⟩ := Obligation.met_of_ruling rfl
        (Obligation.ruling_condition_eq_ok_iff.mpr hcondition)
      obtain ⟨after, hmet, hafter⟩ := ih middle hmiddle
      exact ⟨after, Obligation.meetAll_cons_eq_ok.mpr ⟨middle, hcheck, hmet⟩, hafter⟩
  | alternative hcondition hthen helse ihthen ihelse =>
      rintro findings rfl
      obtain ⟨middle, hcheck, hmiddle⟩ := Obligation.met_of_ruling rfl
        (Obligation.ruling_condition_eq_ok_iff.mpr hcondition)
      obtain ⟨between, hmetThen, hbetween⟩ := ihthen middle hmiddle
      obtain ⟨after, hmetElse, hafter⟩ := ihelse between hbetween
      exact ⟨after, Obligation.meetAll_cons_eq_ok.mpr ⟨middle, hcheck,
        Obligation.meetAll_append_eq_ok.mpr ⟨between, hmetThen, hmetElse⟩⟩, hafter⟩

/-- Statements in a row are well typed exactly if their obligations are met. -/
theorem Statement.allWellTyped_iff
    {statements : List Statement}
    {environment : Environment} :
    ∀ {findings : Findings},
      Statement.AllWellTyped findings.environment statements environment ↔
        ∃ after, Obligation.meetAll true true
            (statements.flatMap Statement.obligations) findings = .ok () after ∧
          after.environment = environment := by
  induction statements with
  | nil =>
      intro findings
      constructor
      · rintro ⟨⟩
        exact ⟨findings, rfl, rfl⟩
      · rintro ⟨after, hnil, rfl⟩
        cases hnil
        exact .nil
  | cons statement further ih =>
      intro findings
      rw [List.flatMap_cons]
      constructor
      · intro h
        cases h with
        | cons hstatement hfurther =>
            obtain ⟨middle, hmet, rfl⟩ := hstatement.met findings rfl
            obtain ⟨after, hmetAll, hafter⟩ := ih.mp hfurther
            exact ⟨after, Obligation.meetAll_append_eq_ok.mpr ⟨middle, hmet, hmetAll⟩, hafter⟩
      · rintro ⟨after, hmet, hafter⟩
        obtain ⟨middle, hstatement, hfurther⟩ := Obligation.meetAll_append_eq_ok.mp hmet
        exact .cons (statement.wellTyped_of_met hstatement) (ih.mpr ⟨after, hfurther, hafter⟩)

/-- A program is well typed exactly if its obligations are met from the empty table on. -/
theorem Program.wellTyped_iff (program : Program) :
    program.WellTyped ↔
      ∃ after, Obligation.meetAll true true program.obligations ⟨.empty, []⟩ = .ok () after := by
  have hempty : (⟨.empty, []⟩ : Findings).environment = Environment.empty := rfl
  unfold WellTyped
  rw [← hempty]
  simp only [Statement.allWellTyped_iff]
  constructor
  · rintro ⟨_, after, hmet, _⟩
    exact ⟨after, hmet⟩
  · rintro ⟨after, hmet⟩
    exact ⟨_, after, hmet, rfl⟩

/-- The check at once accepts a list of tokens if and only if the grammar derives it and
the program that it is, read with every `else` at the nearest open conditional, is
well typed. -/
theorem check_isSuccess_iff_wellTyped (record : Bool) (tokens : List Token) :
    (check record tokens).isSuccess = true ↔
      Grammar.Derivable tokens ∧
        ∃ program : Program,
          program.NearestElse ∧ program.tokens = tokens ∧ program.WellTyped := by
  constructor
  · intro haccepted
    obtain ⟨program, hnearest, rfl⟩ := exists_program_of_isSuccess haccepted
    have hmet := (recognize_isSuccess_iff _ _ program hnearest).mp haccepted
    exact ⟨program.derivable, program, hnearest, rfl, program.wellTyped_iff.mpr hmet⟩
  · rintro ⟨_, program, hnearest, rfl, htyped⟩
    exact (recognize_isSuccess_iff _ _ program hnearest).mpr (program.wellTyped_iff.mp htyped)

end SimpleC
