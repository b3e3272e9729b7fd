import SimpleC.Proofs.Declarations.Run
import SimpleC.Proofs.Diagnosis.Run
import SimpleC.Proofs.Weakening.Moves

/-!
# Runs from a larger symbol table

Further variables in the first symbol table can only make a variable known that was missing.
Unless it fails for this reason, a run does the same from the larger table on and adds the
same variables to it, as long as the tokens do not declare one of the further variables. In
particular the order of the table and variables that do not occur have no influence.
-/

namespace SimpleC

section Declarations

variable
    {past steps : List Step}
    {ahead : List Token}
    {type : ValueType}
    {name : String}

theorem Declarator.declaredBy?_eq
    (declarator : Declarator)
    (name : Identifier)
    (semicolon : Word ";") :
    declaredBy? declarator.word.token name.token semicolon.token =
      some ⟨name.token.text, declarator.type⟩ := by
  refine declaredBy?_eq_some ?_ name.accepted semicolon.accepted
  rw [Token.declarator?_of_isSpelled declarator.word.accepted]
  exact ValueType.ofDeclarator?_eq_some_iff.mpr ⟨declarator.numeric, rfl⟩

/-- A variable that steps in their place declare is one that their tokens declare. -/
theorem Step.InPlace.mem_declaredIn
    (h : InPlace past ahead steps)
    (hmem : .check (.declaration type name) ∈ steps) :
    (⟨name, type⟩ : Symbol) ∈ declaredIn (tokens past ++ ahead) := by
  induction h with
  | done =>
      cases hmem
  | read _ ih =>
      simpa using ih (by simpa using hmem)
  | stop =>
      cases List.mem_singleton.mp hmem
  | check hpast hmarks _ _ ih =>
      rcases List.mem_cons.mp hmem with hhere | hlater
      · cases hhere
        cases hmarks with
        | declaration declarator name semicolon =>
            subst hpast
            simpa using mem_declaredIn_of_declaredBy? (declarator.declaredBy?_eq name semicolon) _
      · simpa using ih hlater

end Declarations

/-- The other run does the same from the larger table on: it adds the same variables, and but
for the symbol tables the runs are equal. -/
def Run.SameFrom (symbols larger : SymbolTable) (run other : Run) : Prop :=
  ∃ extended, symbols.GrownAlike larger run.symbols extended ∧
    other = { run with symbols := extended }

/-- What programs amount to that end alike. -/
theorem State.EndAlike.run
    {symbols larger : SymbolTable}
    {ended twinEnded : EStateM.Result Stop State Unit}
    (h : EndAlike symbols larger ended twinEnded) :
    (Run.ofResult ended).SameFrom symbols larger (.ofResult twinEnded) ∨
      ∃ name, name ∈ larger.names ∧ name ∉ symbols.names ∧
        (Run.ofResult ended).stop? = some (.violation (.undefined name)) := by
  cases h with
  | ok hgrown =>
      obtain ⟨table, rfl, htable⟩ := hgrown
      exact .inl ⟨table, htable, rfl⟩
  | error stop hgrown =>
      obtain ⟨table, rfl, htable⟩ := hgrown
      cases stop with
      | violation | fault =>
          exact .inl ⟨table, htable, rfl⟩
  | undefined hbound hnew =>
      exact .inr ⟨_, hbound, hnew, rfl⟩

section Runs

variable
    {switches : Switches}
    {symbols larger : SymbolTable}
    {tokens : List Token}

/-- A run from a larger table does the same, or the run misses one of the further variables. -/
theorem sameFrom_or_undefined
    (switches : Switches)
    (hwithin : symbols.Within larger)
    (hdeclared : switches.declare = true →
      ∀ symbol ∈ declaredIn tokens, symbol.name ∈ larger.names → symbol.name ∈ symbols.names) :
    (recognize switches symbols tokens).SameFrom symbols larger
        (recognize switches larger tokens) ∨
      ∃ name, name ∈ larger.names ∧ name ∉ symbols.names ∧
        (recognize switches symbols tokens).stop? = some (.violation (.undefined name)) := by
  obtain ⟨moves, hcourse, hruns⟩ := exists_moves tokens
  rw [(hruns switches symbols).1, (hruns switches larger).1]
  refine (hcourse.endAlike hwithin ?_ ⟨larger, rfl, .refl symbols larger⟩).run
  intro hdeclare type name hmem
  exact hdeclared hdeclare ⟨name, type⟩ (hcourse.inPlace.mem_declaredIn hmem)

/-- A variable that a run misses occurs among its tokens. -/
theorem exists_identifier_of_undefined
    {name : String}
    (h : (recognize switches symbols tokens).stop? = some (.violation (.undefined name))) :
    ∃ token ∈ tokens, token.kind = .identifier ∧ token.text = name := by
  have hdiagnoses := diagnoses_of_stop h
  generalize hconsumed : tokens.take _ = consumed at hdiagnoses
  cases hdiagnoses with
  | grammar hstops =>
      cases hstops
  | @undefined earlier _ identifier =>
      have hmem : identifier.token ∈ tokens.take (recognize switches symbols tokens).position := by
        rw [hconsumed]
        simp
      exact ⟨identifier.token, List.mem_of_mem_take hmem, identifier.kind_token, rfl⟩

/-- The variables of the table that occur among the tokens. -/
def SymbolTable.occurring (table : SymbolTable) (tokens : List Token) : SymbolTable where
  entries := table.entries.filter fun symbol => ⟨.identifier, symbol.name⟩ ∈ tokens
  names_nodup := table.names_nodup.sublist (List.filter_sublist.map Symbol.name)

/-- The type checker leaves its table as it is. -/
theorem symbols_typecheck (record : Bool) (symbols : SymbolTable) (tokens : List Token) :
    (typecheck record symbols tokens).symbols = symbols := by
  obtain ⟨moves, _, hruns⟩ := exists_moves tokens
  rw [typecheck, (hruns ⟨false, true, record⟩ symbols).2.symbols]
  exact Step.symbols_of_no_declare rfl _ _

/-- The type checker does the same if its table has further variables that do not occur. -/
theorem typecheck_of_within
    (record : Bool)
    (hwithin : symbols.Within larger)
    (hoccur : ∀ token ∈ tokens, token.kind = .identifier →
      token.text ∈ larger.names → token.text ∈ symbols.names) :
    typecheck record larger tokens =
      { typecheck record symbols tokens with symbols := larger } := by
  rcases sameFrom_or_undefined ⟨false, true, record⟩ hwithin nofun with
    ⟨extended, _, hsame⟩ | ⟨name, hbound, hnew, hstop⟩
  · have hlarger := symbols_typecheck record larger tokens
    rw [typecheck, hsame] at hlarger
    rw [typecheck, hsame, ← hlarger, typecheck]
  · obtain ⟨token, htoken, hkind, rfl⟩ := exists_identifier_of_undefined hstop
    exact absurd (hoccur token htoken hkind hbound) hnew

theorem SymbolTable.occurring_within (table : SymbolTable) (tokens : List Token) :
    (table.occurring tokens).Within table :=
  List.filter_subset_self _

theorem SymbolTable.mem_names_occurring
    {token : Token}
    (htoken : token ∈ tokens)
    (hkind : token.kind = .identifier)
    (hname : token.text ∈ symbols.names) :
    token.text ∈ (symbols.occurring tokens).names := by
  obtain ⟨symbol, hsymbol, htext⟩ := List.mem_map.mp hname
  have hsame : token = ⟨.identifier, symbol.name⟩ := by
    rw [htext, ← hkind]
  refine List.mem_map.mpr ⟨symbol, List.mem_filter.mpr ⟨hsymbol, ?_⟩, htext⟩
  rw [← hsame]
  exact decide_eq_true htoken

/-- The type checker does the same under tables that agree on the names that occur. -/
theorem typecheck_of_agree
    (record : Bool)
    {other : SymbolTable}
    (hagree : ∀ token ∈ tokens, token.kind = .identifier →
      other.find? token.text = symbols.find? token.text) :
    typecheck record other tokens = { typecheck record symbols tokens with symbols := other } := by
  have hother : (symbols.occurring tokens).Within other := by
    intro symbol hsymbol
    obtain ⟨hmem, hoccurs⟩ := List.mem_filter.mp hsymbol
    have hfind := hagree _ (of_decide_eq_true hoccurs) rfl
    rw [SymbolTable.find?_eq_some_iff.mpr ⟨hmem, rfl⟩] at hfind
    exact (SymbolTable.find?_eq_some_iff.mp hfind).1
  rw [typecheck_of_within record (symbols.occurring_within tokens) ?_,
    typecheck_of_within record hother ?_]
  · intro token htoken hkind hname
    refine SymbolTable.mem_names_occurring htoken hkind ?_
    by_contra hnew
    rw [← SymbolTable.find?_eq_none_iff, ← hagree token htoken hkind,
      SymbolTable.find?_eq_none_iff] at hnew
    exact hnew hname
  · intro token htoken hkind hname
    exact SymbolTable.mem_names_occurring htoken hkind hname

end Runs

/-- A run that does not end at a variable that is not declared is the same from any larger
symbol table on and adds the same variables to it, if the tokens do not declare one of the
variables that only the larger table has. The type checker does the same under tables that
agree on the names that occur, whatever their order is and whatever else they have. -/
theorem larger_tables_change_missing_variables_only
    (switches : Switches)
    (symbols : SymbolTable)
    (tokens : List Token) :
    (∀ larger, symbols.Within larger →
      (switches.declare = true → ∀ symbol ∈ declaredIn tokens,
        symbol.name ∈ larger.names → symbol.name ∈ symbols.names) →
      (∀ message, (recognize switches symbols tokens).verdict ≠ .failure .undefined message) →
        (recognize switches symbols tokens).SameFrom symbols larger
          (recognize switches larger tokens)) ∧
      ∀ record other,
        (∀ token ∈ tokens, token.kind = .identifier →
          other.find? token.text = symbols.find? token.text) →
        typecheck record other tokens =
          { typecheck record symbols tokens with symbols := other } := by
  constructor
  · intro larger hwithin hdeclared hverdict
    rcases sameFrom_or_undefined switches hwithin hdeclared with hsame | ⟨name, _, _, hstop⟩
    · exact hsame
    · exact absurd (by rw [Run.verdict, hstop]; rfl) (hverdict (Violation.undefined name).message)
  · intro record other hagree
    exact typecheck_of_agree record hagree

/-- The symbol table with one integer variable. -/
def oneVariable : SymbolTable :=
  ⟨[⟨"x", .int⟩], by simp⟩

/-- The symbol table with one more variable, in front. -/
def twoVariables : SymbolTable :=
  ⟨[⟨"y", .real⟩, ⟨"x", .int⟩], by simp⟩

/-- A program that declares a third variable. -/
def usesOneVariable : List Token :=
  programOf [.bare "real", ⟨.identifier, "z"⟩, .bare ";",
    ⟨.identifier, "z"⟩, .bare "=", ⟨.identifier, "x"⟩, .bare ";"]

/-- A variable that does not occur may be added. -/
theorem larger_tables_change_missing_variables_only_on_example :
    (recognize ⟨true, true, true⟩ oneVariable usesOneVariable).SameFrom oneVariable twoVariables
        (recognize ⟨true, true, true⟩ twoVariables usesOneVariable) ∧
      typecheck true twoVariables usesOneVariable =
        { typecheck true oneVariable usesOneVariable with symbols := twoVariables } := by
  have hsuccess :
      (recognize ⟨true, true, true⟩ oneVariable usesOneVariable).verdict = .success := by
    decide +kernel
  have hwithin : oneVariable.Within twoVariables :=
    List.subset_cons_self _ _
  have hdeclared : ∀ symbol ∈ declaredIn usesOneVariable,
      symbol.name ∈ twoVariables.names → symbol.name ∈ oneVariable.names := by
    decide +kernel
  constructor
  · refine (larger_tables_change_missing_variables_only ⟨true, true, true⟩ oneVariable
      usesOneVariable).1 twoVariables hwithin (fun _ => hdeclared) ?_
    intro message hverdict
    cases hsuccess.symm.trans hverdict
  · refine (larger_tables_change_missing_variables_only ⟨false, true, true⟩ oneVariable
      usesOneVariable).2 true twoVariables ?_
    decide +kernel

end SimpleC
