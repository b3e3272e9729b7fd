import SimpleC.Proofs.Checking.Basic
import SimpleC.Proofs.EarlyEnd

/-!
# What the checks have found

Inversion of the checks: when they end well, what they answer, and what they add
to the findings. Only a declaration adds to the symbol table, and only an
expression gives warnings.
-/

namespace SimpleC

namespace Checking

variable {α : Type} {findings after : Findings}

/-- A check that obeys a rule ends well exactly if the rule answers. -/
theorem obey_eq_ok
    {result : Except Violation α}
    {answer : α} :
    obey result findings = .ok answer after ↔ result = .ok answer ∧ after = findings := by
  cases result with
  | ok value =>
      constructor
      · intro h
        cases h
        exact ⟨rfl, rfl⟩
      · rintro ⟨h, rfl⟩
        cases h
        rfl
  | error violation =>
      constructor
      · intro h
        cases h
      · rintro ⟨h, _⟩
        cases h

/-- A declaration ends well exactly if its name is new, and adds its variable. -/
theorem declare_eq_ok
    {name : String}
    {type : ValueType} :
    declare name type findings = .ok () after ↔
      ∃ extended, findings.symbols.declare name type = .ok extended ∧
        after = { findings with symbols := extended } := by
  show (obey (findings.symbols.declare name type) >>= fun symbols =>
    modify fun findings => { findings with symbols := symbols }) findings = _ ↔ _
  rw [bind_eq_ok]
  constructor
  · rintro ⟨extended, middle, hobey, hmodify⟩
    obtain ⟨hdeclare, rfl⟩ := obey_eq_ok.mp hobey
    cases hmodify
    exact ⟨extended, hdeclare, rfl⟩
  · rintro ⟨extended, hdeclare, rfl⟩
    exact ⟨extended, findings, obey_eq_ok.mpr ⟨hdeclare, rfl⟩, rfl⟩

theorem lookup_eq_ok
    {name : String}
    {symbol : Symbol} :
    lookup name findings = .ok symbol after ↔
      findings.symbols.lookup name = .ok symbol ∧ after = findings :=
  obey_eq_ok

theorem operand_eq_ok
    {value : Operand}
    {type : ValueType} :
    operand value findings = .ok type after ↔
      value.typing findings.symbols = .ok type ∧ after = findings :=
  obey_eq_ok

/-- The check of an expression ends well exactly if it has a type, and adds the
warnings about it. -/
theorem expression_eq_ok
    {phrase : Expression}
    {type : ValueType} :
    expression phrase findings = .ok type after ↔
      ∃ warnings, phrase.typing findings.symbols = .ok ⟨type, warnings⟩ ∧
        after = { findings with warnings := findings.warnings ++ warnings } := by
  show (obey (phrase.typing findings.symbols) >>= fun typing => do
    warn typing.warnings
    return typing.type) findings = _ ↔ _
  rw [bind_eq_ok]
  constructor
  · rintro ⟨⟨found, warnings⟩, middle, hobey, hwarn⟩
    obtain ⟨htyping, rfl⟩ := obey_eq_ok.mp hobey
    cases hwarn
    exact ⟨warnings, htyping, rfl⟩
  · rintro ⟨warnings, htyping, rfl⟩
    exact ⟨⟨type, warnings⟩, findings, obey_eq_ok.mpr ⟨htyping, rfl⟩, rfl⟩

end Checking

namespace Obligation

variable {findings after : Findings}

theorem meetAll_cons_eq_ok {obligation : Obligation} {rest : List Obligation} :
    meetAll true true (obligation :: rest) findings = .ok () after ↔
      ∃ middle, obligation.check findings = .ok () middle ∧
        meetAll true true rest middle = .ok () after := by
  have hmeet : obligation.meet true true = obligation.check := by
    unfold meet isDue
    split <;> rfl
  rw [meetAll, hmeet, bind_eq_ok]
  constructor
  · rintro ⟨_, middle, hfirst, hrest⟩
    exact ⟨middle, hfirst, hrest⟩
  · rintro ⟨middle, hfirst, hrest⟩
    exact ⟨(), middle, hfirst, hrest⟩

theorem meetAll_append_eq_ok {left right : List Obligation} :
    meetAll true true (left ++ right) findings = .ok () after ↔
      ∃ middle, meetAll true true left findings = .ok () middle ∧
        meetAll true true right middle = .ok () after := by
  rw [meetAll_append, bind_eq_ok]
  constructor
  · rintro ⟨_, middle, hleft, hright⟩
    exact ⟨middle, hleft, hright⟩
  · rintro ⟨middle, hleft, hright⟩
    exact ⟨(), middle, hleft, hright⟩

end Obligation

end SimpleC
