import SimpleC.Proofs.Checking.Rulings

/-!
# Passes over the obligations

Declarations and types may be checked in passes of their own. The first pass
builds the table of all declarations, in the order of the text; the second one
asks for the ruling about everything else under one table that is complete from
the start. This module compares them with the pass that does both at once, in
which every phrase is checked under the declarations before it.
-/

namespace SimpleC

namespace Obligation

/-- The variable of a declaration. -/
def declared? : Obligation → Option Symbol
  | declaration type name => some ⟨name, type⟩
  | input .. | output .. | assignment .. | condition .. => none

/-- The declared variables in the order of the text. -/
def declarations (obligations : List Obligation) : List Symbol :=
  obligations.filterMap declared?

/-- The rulings about all obligations under one table: the warnings, or the first
violation. -/
def rulings (symbols : SymbolTable) : List Obligation → Except Violation (List Warning)
  | [] => .ok []
  | obligation :: rest => do
      let first ← obligation.ruling symbols
      let further ← rulings symbols rest
      return first ++ further

end Obligation

namespace SymbolTable

theorem declareAll_cons (table : SymbolTable) (symbol : Symbol) (rest : List Symbol) :
    table.declareAll (symbol :: rest) =
      (table.declare symbol.name symbol.type >>= fun extended => extended.declareAll rest) :=
  List.foldlM_cons

theorem within_of_declareAll
    {symbols : List Symbol} :
    ∀ {table extended : SymbolTable},
      table.declareAll symbols = .ok extended → table.Within extended := by
  induction symbols with
  | nil =>
      intro table extended h
      cases h
      exact .refl _
  | cons symbol rest ih =>
      intro table extended h
      rw [declareAll_cons] at h
      obtain ⟨middle, hdeclare, hrest⟩ := except_bind_eq_ok.mp h
      exact (within_of_declare hdeclare).trans (ih hrest)

end SymbolTable

namespace Obligation

variable {after : Findings}

theorem exists_eq_declaration
    {obligation : Obligation}
    (hkind : obligation.isDeclaration = true) :
    ∃ type name, obligation = declaration type name := by
  cases obligation with
  | declaration type name =>
      exact ⟨type, name, rfl⟩
  | input | output | assignment | condition =>
      cases hkind

theorem declarations_cons (type : ValueType) (name : String) (rest : List Obligation) :
    declarations (declaration type name :: rest) = ⟨name, type⟩ :: declarations rest :=
  rfl

theorem declarations_cons_of_types
    {obligation : Obligation}
    (hkind : obligation.isDeclaration = false)
    (rest : List Obligation) :
    declarations (obligation :: rest) = declarations rest := by
  cases obligation with
  | declaration type name =>
      cases hkind
  | input | output | assignment | condition =>
      rfl

theorem rulings_cons_eq_ok
    {symbols : SymbolTable}
    {obligation : Obligation}
    {rest : List Obligation}
    {warnings : List Warning} :
    rulings symbols (obligation :: rest) = .ok warnings ↔
      ∃ first further, obligation.ruling symbols = .ok first ∧
        rulings symbols rest = .ok further ∧ warnings = first ++ further := by
  rw [rulings]
  simp only [except_bind_eq_ok]
  constructor
  · rintro ⟨first, hfirst, further, hfurther, hpure⟩
    cases hpure
    exact ⟨first, further, hfirst, hfurther, rfl⟩
  · rintro ⟨first, further, hfirst, hfurther, rfl⟩
    exact ⟨first, hfirst, further, hfurther, rfl⟩

/-- Nothing but the name of a declaration is checked, so that it needs no ruling. -/
theorem rulings_declaration
    (symbols : SymbolTable)
    (type : ValueType)
    (name : String)
    (rest : List Obligation) :
    rulings symbols (declaration type name :: rest) = rulings symbols rest := by
  rw [rulings]
  cases rulings symbols rest with
  | ok warnings =>
      rfl
  | error violation =>
      rfl

/-- Without type checks, exactly the declarations are made. -/
theorem meetAll_declarations
    {obligations : List Obligation} :
    ∀ {findings : Findings},
      meetAll true false obligations findings = .ok () after ↔
        ∃ symbols, findings.symbols.declareAll (declarations obligations) = .ok symbols ∧
          after = { findings with symbols := symbols } := by
  induction obligations with
  | nil =>
      intro findings
      constructor
      · intro h
        cases h
        exact ⟨after.symbols, rfl, rfl⟩
      · rintro ⟨symbols, h, rfl⟩
        cases h
        rfl
  | cons obligation rest ih =>
      intro findings
      cases hkind : obligation.isDeclaration with
      | true =>
          obtain ⟨type, name, rfl⟩ := exists_eq_declaration hkind
          show (Checking.declare name type >>= fun _ => meetAll true false rest) findings = _ ↔ _
          simp only [bind_eq_ok, declarations_cons, SymbolTable.declareAll_cons,
            except_bind_eq_ok]
          constructor
          · rintro ⟨_, middle, hcheck, hrest⟩
            obtain ⟨extended, hdeclare, rfl⟩ := Checking.declare_eq_ok.mp hcheck
            obtain ⟨symbols, hsymbols, rfl⟩ := ih.mp hrest
            exact ⟨symbols, ⟨extended, hdeclare, hsymbols⟩, rfl⟩
          · rintro ⟨symbols, ⟨extended, hdeclare, hsymbols⟩, rfl⟩
            exact ⟨(), _, Checking.declare_eq_ok.mpr ⟨extended, hdeclare, rfl⟩,
              ih.mpr ⟨symbols, hsymbols, rfl⟩⟩
      | false =>
          have hskip : obligation.meet true false = pure () := by
            simp [meet, isDue, hkind]
          rw [meetAll, hskip, pure_bind, declarations_cons_of_types hkind]
          exact ih

/-- Without declarations, the obligations are ruled under the table at the start. -/
theorem meetAll_rulings
    {obligations : List Obligation} :
    ∀ {findings : Findings},
      meetAll false true obligations findings = .ok () after ↔
        ∃ warnings, rulings findings.symbols obligations = .ok warnings ∧
          after = { findings with warnings := findings.warnings ++ warnings } := by
  induction obligations with
  | nil =>
      intro findings
      constructor
      · intro h
        cases h
        exact ⟨[], rfl, by simp⟩
      · rintro ⟨warnings, h, rfl⟩
        cases h
        simp only [List.append_nil]
        rfl
  | cons obligation rest ih =>
      intro findings
      cases hkind : obligation.isDeclaration with
      | true =>
          obtain ⟨type, name, rfl⟩ := exists_eq_declaration hkind
          rw [rulings_declaration]
          exact ih
      | false =>
          have hmeet : obligation.meet false true = obligation.check := by
            simp [meet, isDue, hkind]
          rw [meetAll, hmeet, bind_eq_ok]
          simp only [rulings_cons_eq_ok]
          constructor
          · rintro ⟨_, middle, hcheck, hrest⟩
            obtain ⟨first, hfirst, rfl⟩ := (check_eq_ok_iff hkind).mp hcheck
            obtain ⟨further, hfurther, rfl⟩ := ih.mp hrest
            exact ⟨first ++ further, ⟨first, further, hfirst, hfurther, rfl⟩, by simp⟩
          · rintro ⟨_, ⟨first, further, hfirst, hfurther, rfl⟩, rfl⟩
            refine ⟨(), _, (check_eq_ok_iff hkind).mpr ⟨first, hfirst, rfl⟩, ih.mpr ?_⟩
            exact ⟨further, hfurther, by simp⟩

/-- What is met at once is met in two passes: the first one declares the same variables,
and the second one gives the same warnings under every table with all of them. -/
theorem passes_of_met
    {obligations : List Obligation} :
    ∀ {findings : Findings},
      meetAll true true obligations findings = .ok () after →
        findings.symbols.declareAll (declarations obligations) = .ok after.symbols ∧
          ∃ warnings, after.warnings = findings.warnings ++ warnings ∧
            ∀ larger, after.symbols.Within larger →
              rulings larger obligations = .ok warnings := by
  induction obligations with
  | nil =>
      intro findings h
      cases h
      exact ⟨rfl, [], by simp, fun _ _ => rfl⟩
  | cons obligation rest ih =>
      intro findings h
      obtain ⟨middle, hcheck, hrest⟩ := meetAll_cons_eq_ok.mp h
      obtain ⟨hdeclared, further, hwarnings, hrulings⟩ := ih hrest
      cases hkind : obligation.isDeclaration with
      | true =>
          obtain ⟨type, name, rfl⟩ := exists_eq_declaration hkind
          obtain ⟨extended, hdeclare, rfl⟩ := Checking.declare_eq_ok.mp hcheck
          refine ⟨?_, further, hwarnings, ?_⟩
          · rw [declarations_cons, SymbolTable.declareAll_cons]
            exact except_bind_eq_ok.mpr ⟨extended, hdeclare, hdeclared⟩
          · intro larger hlarger
            rw [rulings_declaration]
            exact hrulings larger hlarger
      | false =>
          obtain ⟨first, hruling, rfl⟩ := (check_eq_ok_iff hkind).mp hcheck
          refine ⟨?_, first ++ further, ?_, ?_⟩
          · rw [declarations_cons_of_types hkind]
            exact hdeclared
          · rw [hwarnings, List.append_assoc]
          · intro larger hlarger
            -- variables that are declared later do not change the ruling
            have hwithin : findings.symbols.Within larger :=
              (SymbolTable.within_of_declareAll hdeclared).trans hlarger
            have hlater := (obligation.ruling_of_within hwithin).eq_ok hruling
            exact rulings_cons_eq_ok.mpr ⟨first, further, hlater, hrulings larger hlarger, rfl⟩

/-- What is met in two passes is met at once, unless a phrase uses a variable before its
declaration. -/
theorem met_of_passes
    {obligations : List Obligation}
    {symbols : SymbolTable} :
    ∀ (findings : Findings) {warnings : List Warning},
      findings.symbols.declareAll (declarations obligations) = .ok symbols →
        rulings symbols obligations = .ok warnings →
          meetAll true true obligations findings =
              .ok () ⟨symbols, findings.warnings ++ warnings⟩ ∨
            ∃ name ∈ symbols.names, ∃ after,
              meetAll true true obligations findings = .error (.undefined name) after := by
  induction obligations with
  | nil =>
      intro findings warnings hdeclared hrulings
      cases hdeclared
      cases hrulings
      rw [List.append_nil]
      exact .inl rfl
  | cons obligation rest ih =>
      intro findings warnings hdeclared hrulings
      cases hkind : obligation.isDeclaration with
      | true =>
          obtain ⟨type, name, rfl⟩ := exists_eq_declaration hkind
          rw [declarations_cons, SymbolTable.declareAll_cons] at hdeclared
          obtain ⟨extended, hdeclare, hdeclared⟩ := except_bind_eq_ok.mp hdeclared
          rw [rulings_declaration] at hrulings
          have hcheck := Checking.declare_eq_ok.mpr ⟨extended, hdeclare, rfl⟩
          have hfirst : meetAll true true (declaration type name :: rest) findings =
              meetAll true true rest { findings with symbols := extended } := bind_of_ok hcheck
          rw [hfirst]
          exact ih _ hdeclared hrulings
      | false =>
          obtain ⟨first, further, hruling, hfurther, rfl⟩ := rulings_cons_eq_ok.mp hrulings
          rw [declarations_cons_of_types hkind] at hdeclared
          have hmeet : obligation.meet true true = obligation.check := by
            simp [meet, isDue, hkind]
          have hwithin := SymbolTable.within_of_declareAll hdeclared
          have hfollows := obligation.follows_ruling hkind findings
          rw [meetAll, hmeet]
          rcases obligation.ruling_of_within hwithin with hsame | ⟨name, hname, hundefined⟩
          · rw [hsame, hruling] at hfollows
            rw [bind_of_ok hfollows, ← List.append_assoc]
            exact ih _ hdeclared hfurther
          · rw [hundefined] at hfollows
            obtain ⟨after, hcheck⟩ := hfollows
            exact .inr ⟨name, hname, after, bind_of_error hcheck⟩

end Obligation

end SimpleC
