import SimpleC.Proofs.Recognizer.ValueReadings

/-!
# Steps

What a recognition does, with all decisions about the tokens taken: it consumes
tokens, asks the symbol table and the type rules about what it has read, and may
stop at a token that the grammar does not allow. Steps do not depend on the
switches or on the symbol table. These decide only what comes of the steps: what
is asked may be ignored, or be the end.
-/

namespace SimpleC

/-- What is asked of the symbol table or the type rules. -/
inductive Demand where
  /-- The name of a declaration is new. -/
  | declaration (type : ValueType) (name : String)
  /-- A variable that is read or assigned to is declared. -/
  | lookup (name : String)
  /-- A value has a type. -/
  | value (operand : Operand)
  /-- The operator is defined on the types of the values. -/
  | operation (left : Operand) (sign : Sign) (right : Operand)
  /-- The variable can hold the value. -/
  | assignment (name : String) (phrase : Expression)
  /-- The condition is a truth value. -/
  | condition (phrase : Expression)

namespace Demand

/-- The ruling about a demand that leaves the symbol table as it is. -/
def ruling (symbols : SymbolTable) : Demand → Except Violation (List Warning)
  | declaration .. => .ok []
  | lookup name => (symbols.lookup name).map fun _ => []
  | value operand => (operand.typing symbols).map fun _ => []
  | operation left sign right => do
      let typing ← (Expression.binary left sign right).typing symbols
      return typing.warnings
  | assignment name phrase => do
      let target ← symbols.lookup name
      let typing ← phrase.typing symbols
      TypeRules.assignment target.type typing.type
      return []
  | condition phrase => do
      let typing ← phrase.typing symbols
      TypeRules.condition typing.type
      return []

/-- What the symbol table is once the demand is met, and the warnings about it. What the
switches turn off is met. -/
def answer (switches : Switches) (symbols : SymbolTable) :
    Demand → Except Violation (SymbolTable × List Warning)
  | declaration type name =>
      if switches.declare then do
        let extended ← symbols.declare name type
        return (extended, [])
      else
        .ok (symbols, [])
  | demand =>
      if switches.checkTypes then do
        let warnings ← demand.ruling symbols
        return (symbols, warnings)
      else
        .ok (symbols, [])

/-- Whether the demand is the one of a declaration. -/
def isDeclaration : Demand → Bool
  | declaration .. => true
  | lookup _ | value _ | operation .. | assignment .. | condition _ => false

section Answer

variable
    {switches : Switches}
    {symbols extended : SymbolTable}
    {warnings : List Warning}
    {demand : Demand}
    {violation : Violation}

theorem answer_of_types
    (hkind : demand.isDeclaration = false)
    (htypes : switches.checkTypes = true) :
    demand.answer switches symbols =
      (demand.ruling symbols).map fun warnings => (symbols, warnings) := by
  cases demand with
  | declaration type name =>
      cases hkind
  | lookup | value | operation | assignment | condition =>
      simp only [answer, htypes, if_true]
      rfl

theorem answer_of_no_types
    (hkind : demand.isDeclaration = false)
    (htypes : switches.checkTypes = false) :
    demand.answer switches symbols = .ok (symbols, []) := by
  cases demand with
  | declaration type name =>
      cases hkind
  | lookup | value | operation | assignment | condition =>
      simp only [answer, htypes, Bool.false_eq_true, if_false]

theorem answer_value
    (htypes : switches.checkTypes = true)
    (operand : Operand) :
    (value operand).answer switches symbols =
      (operand.typing symbols).map fun _ => (symbols, []) := by
  rw [answer_of_types rfl htypes, ruling]
  cases operand.typing symbols with
  | error | ok =>
      rfl

theorem answer_operation
    {left right : Operand}
    {leftType rightType : ValueType}
    (htypes : switches.checkTypes = true)
    (hleft : left.typing symbols = .ok leftType)
    (hright : right.typing symbols = .ok rightType)
    (sign : Sign) :
    (operation left sign right).answer switches symbols =
      (TypeRules.operation leftType sign.operator rightType).map fun typing =>
        (symbols, typing.warnings) := by
  rw [answer_of_types rfl htypes, ruling, Expression.typing, hleft, hright]
  show Except.map _ (TypeRules.operation leftType sign.operator rightType >>= _) = _
  cases TypeRules.operation leftType sign.operator rightType with
  | error | ok =>
      rfl

theorem answer_declaration (type : ValueType) (name : String) :
    (declaration type name).answer switches symbols =
      if switches.declare then
        (symbols.declare name type).map fun extended => (extended, [])
      else
        .ok (symbols, []) :=
  rfl

theorem eq_declaration (hkind : demand.isDeclaration = true) :
    ∃ type name, demand = .declaration type name := by
  cases demand with
  | declaration type name =>
      exact ⟨type, name, rfl⟩
  | lookup | value | operation | assignment | condition =>
      cases hkind

/-- Only a declaration changes the symbol table. -/
theorem symbols_of_answer
    (hkind : demand.isDeclaration = false)
    (h : demand.answer switches symbols = .ok (extended, warnings)) :
    extended = symbols := by
  cases htypes : switches.checkTypes with
  | false =>
      rw [answer_of_no_types hkind htypes] at h
      cases h
      rfl
  | true =>
      rw [answer_of_types hkind htypes] at h
      obtain ⟨_, _, hfound⟩ := except_map_eq_ok.mp h
      cases hfound
      rfl

/-- Declarations that are not made change nothing. -/
theorem symbols_of_answer_of_no_declare
    (hdeclare : switches.declare = false)
    (h : demand.answer switches symbols = .ok (extended, warnings)) :
    extended = symbols := by
  cases hkind : demand.isDeclaration with
  | false =>
      exact symbols_of_answer hkind h
  | true =>
      obtain ⟨type, name, rfl⟩ := eq_declaration hkind
      rw [answer_declaration, hdeclare] at h
      cases h
      rfl

/-- A declaration adds its variable. -/
theorem declare_of_answer
    {type : ValueType}
    {name : String}
    (hdeclare : switches.declare = true)
    (h : (declaration type name).answer switches symbols = .ok (extended, warnings)) :
    symbols.declare name type = .ok extended := by
  rw [answer_declaration, if_pos hdeclare] at h
  obtain ⟨_, hadded, hfound⟩ := except_map_eq_ok.mp h
  cases hfound
  exact hadded

/-- A demand adds to the symbol table at most. -/
theorem entries_of_answer (h : demand.answer switches symbols = .ok (extended, warnings)) :
    symbols.entries <+: extended.entries := by
  cases hkind : demand.isDeclaration with
  | false =>
      cases symbols_of_answer hkind h
      exact List.prefix_rfl
  | true =>
      obtain ⟨type, name, rfl⟩ := eq_declaration hkind
      cases hdeclare : switches.declare with
      | false =>
          cases symbols_of_answer_of_no_declare hdeclare h
          exact List.prefix_rfl
      | true =>
          have hadded := declare_of_answer hdeclare h
          exact ⟨_, (SymbolTable.entries_of_declare hadded).2.symm⟩

end Answer

end Demand

/-- One step of a recognition. -/
inductive Step where
  | read (token : Token)
  | check (demand : Demand)
  | stop (violation : Violation)

namespace Step

/-- The token that is consumed, if one is. -/
def token? : Step → Option Token
  | read token => some token
  | check _ | stop _ => none

/-- The tokens that steps consume. -/
def tokens (steps : List Step) : List Token :=
  steps.filterMap token?

@[simp] theorem tokens_nil : tokens [] = [] :=
  rfl

@[simp] theorem tokens_read (token : Token) (rest : List Step) :
    tokens (read token :: rest) = token :: tokens rest :=
  rfl

@[simp] theorem tokens_check (demand : Demand) (rest : List Step) :
    tokens (check demand :: rest) = tokens rest :=
  rfl

@[simp] theorem tokens_stop (violation : Violation) (rest : List Step) :
    tokens (stop violation :: rest) = tokens rest :=
  rfl

@[simp] theorem tokens_append (left right : List Step) :
    tokens (left ++ right) = tokens left ++ tokens right :=
  List.filterMap_append

@[simp] theorem tokens_map_read (consumed : List Token) :
    tokens (consumed.map read) = consumed := by
  induction consumed with
  | nil =>
      rfl
  | cons token rest ih =>
      rw [List.map_cons, tokens_read, ih]

end Step

/-- What comes of steps: the violation at which they end, if they do, the number of tokens
that they consume, and what is found. -/
structure Outcome where
  violation? : Option Violation
  consumed : Nat
  findings : Findings

namespace Step

/-- What comes of the steps, from the first to the last. -/
def outcome (switches : Switches) : List Step → Findings → Outcome
  | [], findings => ⟨none, 0, findings⟩
  | read _ :: rest, findings =>
      let later := outcome switches rest findings
      ⟨later.violation?, later.consumed + 1, later.findings⟩
  | check demand :: rest, findings =>
      match demand.answer switches findings.symbols with
      | .ok (symbols, warnings) => outcome switches rest ⟨symbols, findings.warnings ++ warnings⟩
      | .error violation => ⟨some violation, 0, findings⟩
  | stop violation :: _, findings => ⟨some violation, 0, findings⟩

variable {switches : Switches} {findings : Findings} {left right : List Step}

/-- Nothing but tokens is consumed before what follows. -/
theorem outcome_map_read_append (consumed : List Token) :
    outcome switches (consumed.map read ++ right) findings =
      ⟨(outcome switches right findings).violation?,
        consumed.length + (outcome switches right findings).consumed,
        (outcome switches right findings).findings⟩ := by
  induction consumed with
  | nil =>
      simp
  | cons token rest ih =>
      rw [List.map_cons, List.cons_append, outcome, ih]
      simp only [List.length_cons, Outcome.mk.injEq, true_and, and_true]
      omega

/-- Steps that end early end alike whatever follows them. -/
theorem outcome_append_of_violation
    {violation : Violation}
    (h : (outcome switches left findings).violation? = some violation) :
    outcome switches (left ++ right) findings = outcome switches left findings := by
  induction left generalizing findings with
  | nil =>
      cases h
  | cons step rest ih =>
      cases step with
      | read token =>
          simp only [List.cons_append, outcome] at h ⊢
          rw [ih h]
      | check demand =>
          simp only [List.cons_append, outcome] at h ⊢
          cases hanswer : demand.answer switches findings.symbols with
          | ok =>
              rw [hanswer] at h
              exact ih h
          | error =>
              rfl
      | stop =>
          rfl

/-- Steps that do not end early are followed by the next ones. -/
theorem outcome_append_of_none
    (h : (outcome switches left findings).violation? = none) :
    outcome switches (left ++ right) findings =
      ⟨(outcome switches right (outcome switches left findings).findings).violation?,
        (outcome switches left findings).consumed +
          (outcome switches right (outcome switches left findings).findings).consumed,
        (outcome switches right (outcome switches left findings).findings).findings⟩ := by
  induction left generalizing findings with
  | nil =>
      simp [outcome]
  | cons step rest ih =>
      cases step with
      | read token =>
          simp only [List.cons_append, outcome] at h ⊢
          rw [ih h]
          simp only [Outcome.mk.injEq, true_and, and_true]
          omega
      | check demand =>
          simp only [List.cons_append, outcome] at h ⊢
          cases hanswer : demand.answer switches findings.symbols with
          | ok =>
              rw [hanswer] at h
              exact ih h
          | error =>
              rw [hanswer] at h
              cases h
      | stop =>
          cases h

/-- Steps that do not end early consume all their tokens. -/
theorem consumed_of_none
    (h : (outcome switches left findings).violation? = none) :
    (outcome switches left findings).consumed = (tokens left).length := by
  induction left generalizing findings with
  | nil =>
      rfl
  | cons step rest ih =>
      cases step with
      | read token =>
          exact congrArg Nat.succ (ih h)
      | check demand =>
          simp only [outcome] at h ⊢
          cases hanswer : demand.answer switches findings.symbols with
          | ok =>
              rw [hanswer] at h
              exact ih h
          | error =>
              rw [hanswer] at h
              cases h
      | stop =>
          cases h

theorem consumed_le (switches : Switches) (steps : List Step) (findings : Findings) :
    (outcome switches steps findings).consumed ≤ (tokens steps).length := by
  induction steps generalizing findings with
  | nil =>
      exact Nat.le_refl _
  | cons step rest ih =>
      cases step with
      | read token =>
          exact Nat.succ_le_succ (ih findings)
      | check demand =>
          simp only [outcome, tokens_check]
          cases demand.answer switches findings.symbols with
          | ok =>
              exact ih _
          | error =>
              exact Nat.zero_le _
      | stop =>
          exact Nat.zero_le _

end Step

end SimpleC
