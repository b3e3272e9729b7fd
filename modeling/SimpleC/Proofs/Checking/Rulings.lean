import SimpleC.Proofs.Checking.Steps

/-!
# Rulings and larger symbol tables

Apart from declarations, an obligation leaves the symbol table as it is, and the
table alone decides about it: its ruling is the list of warnings that the phrase
deserves, or the violation that it is.

When more variables are declared, phrases keep their types and obligations their
rulings, unless a variable was missing that only the larger table has.
-/

namespace SimpleC

/-- What a rule says about an expression: the warnings about it, or a violation. -/
def Expression.ruling
    (symbols : SymbolTable)
    (rule : ValueType → Except Violation Unit)
    (phrase : Expression) :
    Except Violation (List Warning) := do
  let typing ← phrase.typing symbols
  rule typing.type
  return typing.warnings

/-- The ruling about an obligation. Nothing but a declaration changes the symbol
table, so that the ruling about one is left to that table. -/
def Obligation.ruling (symbols : SymbolTable) : Obligation → Except Violation (List Warning)
  | declaration .. => .ok []
  | input name => (symbols.lookup name).map fun _ => []
  | output value => (value.typing symbols).map fun _ => []
  | assignment name value => do
      let target ← symbols.lookup name
      value.ruling symbols (TypeRules.assignment target.type)
  | condition phrase => phrase.ruling symbols TypeRules.condition

/-- The check ends as it is ruled: well, with further warnings, or with a violation. -/
def Checking.Follows
    (check : Checking Unit)
    (findings : Findings) :
    Except Violation (List Warning) → Prop
  | .ok warnings =>
      check findings = .ok () { findings with warnings := findings.warnings ++ warnings }
  | .error violation => ∃ after, check findings = .error violation after

/-- A check without warnings follows what it obeys. -/
theorem Checking.follows_obey
    {α : Type}
    (answer : Except Violation α)
    (findings : Findings) :
    (discard (Checking.obey answer)).Follows findings (answer.map fun _ => []) := by
  cases answer with
  | ok answer =>
      show EStateM.Result.ok () findings = .ok () _
      simp
  | error violation =>
      exact ⟨findings, rfl⟩

/-- The warnings about an expression are given before the rule is applied. -/
theorem Checking.follows_expression
    (phrase : Expression)
    (rule : ValueType → Except Violation Unit)
    (findings : Findings) :
    (do
      let type ← Checking.expression phrase
      Checking.obey (rule type)).Follows findings (phrase.ruling findings.symbols rule) := by
  unfold Expression.ruling
  cases htyping : phrase.typing findings.symbols with
  | error violation =>
      refine ⟨findings, bind_of_error ?_⟩
      show (Checking.obey (phrase.typing findings.symbols) >>= _) findings = _
      rw [htyping]
      rfl
  | ok typing =>
      have hcheck := Checking.expression_eq_ok.mpr ⟨typing.warnings, htyping, rfl⟩
      show Follows _ findings (rule typing.type >>= fun _ => pure typing.warnings)
      cases hrule : rule typing.type with
      | error violation =>
          refine ⟨{ findings with warnings := findings.warnings ++ typing.warnings }, ?_⟩
          rw [bind_of_ok hcheck, hrule]
          rfl
      | ok answer =>
          refine (bind_of_ok hcheck).trans ?_
          rw [hrule]
          rfl

/-- The check of an obligation follows the ruling about it. -/
theorem Obligation.follows_ruling
    {obligation : Obligation}
    (hkind : obligation.isDeclaration = false)
    (findings : Findings) :
    obligation.check.Follows findings (obligation.ruling findings.symbols) := by
  cases obligation with
  | declaration type name =>
      cases hkind
  | input name =>
      exact Checking.follows_obey (findings.symbols.lookup name) findings
  | output value =>
      exact Checking.follows_obey (value.typing findings.symbols) findings
  | assignment name value =>
      show Checking.Follows _ findings (findings.symbols.lookup name >>= fun target =>
        value.ruling findings.symbols (TypeRules.assignment target.type))
      cases hlookup : findings.symbols.lookup name with
      | error violation =>
          refine ⟨findings, bind_of_error ?_⟩
          show Checking.obey (findings.symbols.lookup name) findings = _
          rw [hlookup]
          rfl
      | ok target =>
          have hcheck := Checking.lookup_eq_ok.mpr ⟨hlookup, rfl⟩
          have hfollows :=
            Checking.follows_expression value (TypeRules.assignment target.type) findings
          unfold Checking.Follows at hfollows ⊢
          rw [check, bind_of_ok hcheck]
          exact hfollows
  | condition phrase =>
      exact Checking.follows_expression phrase TypeRules.condition findings

/-- The check of an obligation ends well exactly if the ruling about it is no violation. -/
theorem Obligation.check_eq_ok_iff
    {obligation : Obligation}
    (hkind : obligation.isDeclaration = false)
    {findings after : Findings} :
    obligation.check findings = .ok () after ↔
      ∃ warnings, obligation.ruling findings.symbols = .ok warnings ∧
        after = { findings with warnings := findings.warnings ++ warnings } := by
  have hfollows := follows_ruling hkind findings
  cases hruling : obligation.ruling findings.symbols with
  | ok warnings =>
      rw [hruling] at hfollows
      rw [show obligation.check findings = _ from hfollows]
      simp [eq_comm]
  | error violation =>
      rw [hruling] at hfollows
      obtain ⟨ended, hended⟩ := hfollows
      rw [hended]
      simp

section Within

variable {table larger : SymbolTable}

theorem Operand.typing_of_within (hwithin : table.Within larger) (value : Operand) :
    larger.SameUnlessUndefined (value.typing table) (value.typing larger) :=
  hwithin.value value.token

theorem Expression.typing_of_within (hwithin : table.Within larger) (phrase : Expression) :
    larger.SameUnlessUndefined (phrase.typing table) (phrase.typing larger) := by
  cases phrase with
  | single value =>
      exact (value.typing_of_within hwithin).bind fun _ => .refl _
  | binary left sign right =>
      refine (left.typing_of_within hwithin).bind fun _ => ?_
      exact (right.typing_of_within hwithin).bind fun _ => .refl _

/-- An obligation has the same ruling under a larger table. -/
theorem Obligation.ruling_of_within (hwithin : table.Within larger) (obligation : Obligation) :
    larger.SameUnlessUndefined (obligation.ruling table) (obligation.ruling larger) := by
  cases obligation with
  | declaration type name =>
      exact .refl _
  | input name =>
      exact (hwithin.lookup name).map _
  | output value =>
      exact (value.typing_of_within hwithin).map _
  | assignment name value =>
      refine (hwithin.lookup name).bind fun _ => ?_
      exact (value.typing_of_within hwithin).bind fun _ => .refl _
  | condition phrase =>
      exact (phrase.typing_of_within hwithin).bind fun _ => .refl _

end Within

end SimpleC
