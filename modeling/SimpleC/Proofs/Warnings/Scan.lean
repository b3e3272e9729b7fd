import SimpleC.Proofs.Course.Expressions
import SimpleC.Proofs.Switches

/-!
# Equalities of reals in a list of tokens

Three tokens in a row compare a real if the one in the middle is the sign of equality and
the others are values with types, one of them real. Steps are counted if they give as many
warnings as there are such tokens among those that they consume. The types are those of
the last symbol table: tables only grow, so that they are the ones that the values had when
they were compared; and where steps end at a value without a type, it has none until the end.
-/

namespace SimpleC

/-- The type of a value: literals have the type of their kind, truth values are spelled out, and
a variable has the type that it is declared with. -/
def Token.typeUnder? (symbols : SymbolTable) (token : Token) : Option ValueType :=
  match token.kind with
  | .identifier => (symbols.find? token.text).map Symbol.type
  | .intLiteral => some .int
  | .realLiteral => some .real
  | .strLiteral => some .str
  | .keyword | .operator | .punctuation | .endMarker =>
      if token.text = "true" ∨ token.text = "false" then some .bool else none

/-- Whether three tokens compare values for equality of which one is real. -/
def isRealEquality (symbols : SymbolTable) (left sign right : Token) : Bool :=
  match left.typeUnder? symbols, right.typeUnder? symbols with
  | some leftType, some rightType =>
      sign.isSpelled "==" = true ∧ (leftType = .real ∨ rightType = .real)
  | _, _ => false

/-- How many three tokens in a row compare values for equality of which one is real. -/
def realEqualitiesIn (symbols : SymbolTable) : List Token → Nat
  | left :: sign :: right :: rest =>
      (isRealEquality symbols left sign right).toNat +
        realEqualitiesIn symbols (sign :: right :: rest)
  | _ => 0

section Scan

variable
    {symbols : SymbolTable}
    {token : Token}
    {rest left right : List Token}

/-- The types are those that the rules tell. -/
theorem TypeRules.value_eq_ok_iff {type : ValueType} :
    value symbols token = .ok type ↔ token.typeUnder? symbols = some type := by
  unfold value Token.typeUnder?
  cases token.kind with
  | identifier =>
      unfold SymbolTable.lookup
      cases symbols.find? token.text with
      | none | some =>
          simp [Except.map]
  | intLiteral | realLiteral | strLiteral =>
      simp
  | keyword | operator | punctuation | endMarker =>
      simp only [boolSpellings, List.mem_cons, List.not_mem_nil, or_false]
      split <;> simp

/-- The tokens do not begin with a sign of equality. -/
def BeginsWithoutEquality (tokens : List Token) : Prop :=
  ∀ token ∈ tokens.head?, token.isSpelled "==" = false

/-- The tokens do not end with a sign of equality. -/
def EndsWithoutEquality (tokens : List Token) : Prop :=
  ∀ token ∈ tokens.getLast?, token.isSpelled "==" = false

theorem beginsWithoutEquality_nil : BeginsWithoutEquality [] := by
  intro token htoken
  cases htoken

theorem endsWithoutEquality_nil : EndsWithoutEquality [] := by
  intro token htoken
  cases htoken

theorem BeginsWithoutEquality.append
    (hleft : BeginsWithoutEquality left)
    (hright : BeginsWithoutEquality right) :
    BeginsWithoutEquality (left ++ right) := by
  cases left with
  | nil =>
      exact hright
  | cons token rest =>
      exact hleft

theorem EndsWithoutEquality.append
    (hleft : EndsWithoutEquality left)
    (hright : EndsWithoutEquality right) :
    EndsWithoutEquality (left ++ right) := by
  intro token htoken
  rw [List.getLast?_append, Option.mem_def, Option.or_eq_some_iff] at htoken
  rcases htoken with htoken | ⟨_, htoken⟩
  · exact hright token htoken
  · exact hleft token htoken

theorem BeginsWithoutEquality.take
    {tokens : List Token}
    (h : BeginsWithoutEquality tokens)
    (count : Nat) :
    BeginsWithoutEquality (tokens.take count) := by
  intro token htoken
  rw [List.head?_take] at htoken
  split at htoken
  · cases htoken
  · exact h token htoken

theorem isRealEquality_of_other
    {left sign right : Token}
    (hsign : sign.isSpelled "==" = false) :
    isRealEquality symbols left sign right = false := by
  unfold isRealEquality
  split
  · simp [hsign]
  · rfl

/-- A token before others that do not begin with a sign of equality is compared with none. -/
theorem realEqualitiesIn_cons (hrest : BeginsWithoutEquality rest) :
    realEqualitiesIn symbols (token :: rest) = realEqualitiesIn symbols rest := by
  cases rest with
  | nil =>
      rfl
  | cons sign rest =>
      cases rest with
      | nil =>
          rfl
      | cons right rest =>
          have hsign : isRealEquality symbols token sign right = false :=
            isRealEquality_of_other (hrest sign rfl)
          rw [realEqualitiesIn, hsign]
          exact Nat.zero_add _

/-- No equality lies across a place without a sign of equality on either side. -/
theorem realEqualitiesIn_append
    (hleft : EndsWithoutEquality left)
    (hright : BeginsWithoutEquality right) :
    realEqualitiesIn symbols (left ++ right) =
      realEqualitiesIn symbols left + realEqualitiesIn symbols right := by
  induction left with
  | nil =>
      exact (Nat.zero_add _).symm
  | cons token left ih =>
      cases left with
      | nil =>
          rw [List.cons_append, List.nil_append, realEqualitiesIn_cons hright]
          exact (Nat.zero_add _).symm
      | cons sign left =>
          have ih := ih (by simpa [EndsWithoutEquality] using hleft)
          cases left with
          | nil =>
              have hsign : BeginsWithoutEquality ([sign] ++ right) := by
                simpa [BeginsWithoutEquality, EndsWithoutEquality] using hleft
              rw [List.cons_append, realEqualitiesIn_cons hsign, ih]
              rfl
          | cons other left =>
              simp only [List.cons_append] at ih ⊢
              rw [realEqualitiesIn, ih, realEqualitiesIn, Nat.add_assoc]

/-- Less than three tokens compare nothing. -/
theorem realEqualitiesIn_of_length {tokens : List Token} (hlength : tokens.length ≤ 2) :
    realEqualitiesIn symbols tokens = 0 := by
  cases tokens with
  | nil =>
      rfl
  | cons left tokens =>
      cases tokens with
      | nil =>
          rfl
      | cons sign tokens =>
          cases tokens with
          | nil =>
              rfl
          | cons right tokens =>
              simp only [List.length_cons] at hlength
              omega

end Scan

section Equality

variable
    {symbols : SymbolTable}
    {left right : Operand}
    {sign : Sign}
    {leftType rightType : ValueType}

theorem Sign.isSpelled_equality_iff (sign : Sign) :
    sign.word.token.isSpelled "==" = true ↔ sign.operator = .equal := by
  rw [Word.isSpelled_token]
  cases sign.operator <;> decide

theorem isRealEquality_of_typing
    (hleft : left.typing symbols = .ok leftType)
    (hright : right.typing symbols = .ok rightType) :
    isRealEquality symbols left.token sign.word.token right.token =
      decide (sign.operator = .equal ∧ (leftType = .real ∨ rightType = .real)) := by
  unfold isRealEquality
  rw [TypeRules.value_eq_ok_iff.mp hleft, TypeRules.value_eq_ok_iff.mp hright]
  simp only [sign.isSpelled_equality_iff]

/-- A value without a type is not compared. -/
theorem isRealEquality_of_error
    {violation : Violation}
    (hright : right.typing symbols = .error violation)
    (left sign : Token) :
    isRealEquality symbols left sign right.token = false := by
  have hnone : right.token.typeUnder? symbols = none := by
    cases htype : right.token.typeUnder? symbols with
    | none =>
        rfl
    | some type =>
        cases hright.symm.trans (TypeRules.value_eq_ok_iff.mpr htype)
  unfold isRealEquality
  rw [hnone]
  split <;> simp_all

/-- The rule for operators gives a warning exactly at an equality of which one value is real. -/
theorem TypeRules.warnings_of_operation
    {operator : Operator}
    {typing : BinaryTyping}
    (h : operation leftType operator rightType = .ok typing) :
    typing.warnings =
      List.replicate (decide (operator = .equal ∧ (leftType = .real ∨ rightType = .real))).toNat
        .realEquality := by
  unfold operation at h
  split_ifs at h with harithmetic hnumeric hequality hsame
  · cases h
    have hother : operator ≠ .equal := by
      rintro rfl
      cases harithmetic
    simp [hother]
  · cases h
    rw [decide_eq_true hequality]
    rfl
  · cases h
    rw [decide_eq_false hequality]
    rfl

/-- Where types do not go together, there is no such equality. -/
theorem TypeRules.not_real_of_operation
    {operator : Operator}
    {violation : Violation}
    (h : operation leftType operator rightType = .error violation) :
    ¬(operator = .equal ∧ (leftType = .real ∨ rightType = .real)) := by
  unfold operation at h
  split_ifs at h with harithmetic hnumeric hequality hsame
  · rintro ⟨rfl, _⟩
    cases harithmetic
  · exact hequality

end Equality

/-- The table is the last one after steps: it is larger at most, and the same where they end
early. -/
structure Outcome.EndsUnder (outcome : Outcome) (last : SymbolTable) : Prop where
  within : outcome.findings.symbols.Within last
  same : outcome.violation? ≠ none → last = outcome.findings.symbols

/-- When types are checked, the steps give a warning for each equality of reals that they
consume. -/
def Step.Counted (steps : List Step) : Prop :=
  ∀ (switches : Switches) (findings : Findings) (last : SymbolTable),
    switches.checkTypes = true → (outcome switches steps findings).EndsUnder last →
      (outcome switches steps findings).findings.warnings =
        findings.warnings ++
          List.replicate
            (realEqualitiesIn last
              ((tokens steps).take (outcome switches steps findings).consumed))
            .realEquality

/-- Whether the demand is about an operator. -/
def Demand.isOperation : Demand → Bool
  | operation .. => true
  | declaration .. | lookup _ | value _ | assignment .. | condition _ => false

section Answers

variable
    {switches : Switches}
    {symbols extended : SymbolTable}
    {warnings : List Warning}
    {demand : Demand}

/-- There are warnings about operators only. -/
theorem Demand.warnings_of_ruling
    (hkind : demand.isOperation = false)
    (h : demand.ruling symbols = .ok warnings) :
    warnings = [] := by
  cases demand with
  | operation left sign right =>
      cases hkind
  | declaration type name =>
      cases h
      rfl
  | lookup | value =>
      obtain ⟨_, _, rfl⟩ := except_map_eq_ok.mp h
      rfl
  | assignment name phrase =>
      obtain ⟨_, _, h⟩ := except_bind_eq_ok.mp h
      obtain ⟨_, _, h⟩ := except_bind_eq_ok.mp h
      obtain ⟨_, _, h⟩ := except_bind_eq_ok.mp h
      cases h
      rfl
  | condition phrase =>
      obtain ⟨_, _, h⟩ := except_bind_eq_ok.mp h
      obtain ⟨_, _, h⟩ := except_bind_eq_ok.mp h
      cases h
      rfl

/-- Without types there are no warnings at all. -/
theorem Demand.warnings_of_answer
    (hsilent : switches.checkTypes = true → demand.isOperation = false)
    (h : demand.answer switches symbols = .ok (extended, warnings)) :
    warnings = [] := by
  cases hdeclaration : demand.isDeclaration with
  | true =>
      obtain ⟨type, name, rfl⟩ := eq_declaration hdeclaration
      rw [answer_declaration] at h
      split at h
      · obtain ⟨_, _, hfound⟩ := except_map_eq_ok.mp h
        cases hfound
        rfl
      · cases h
        rfl
  | false =>
      cases htypes : switches.checkTypes with
      | false =>
          rw [answer_of_no_types hdeclaration htypes] at h
          cases h
          rfl
      | true =>
          rw [answer_of_types hdeclaration htypes] at h
          obtain ⟨_, hruling, hfound⟩ := except_map_eq_ok.mp h
          cases hfound
          exact warnings_of_ruling (hsilent htypes) hruling

end Answers

namespace Step

variable {steps left right : List Step}

/-- Whether the step is not about an operator. -/
def isSilent : Step → Bool
  | check demand => !demand.isOperation
  | read _ | stop _ => true

/-- Steps that are not about operators give no warnings, and without types no steps do. -/
theorem warnings_of_silent
    {switches : Switches}
    (hsilent : switches.checkTypes = true → ∀ step ∈ steps, step.isSilent = true)
    (findings : Findings) :
    (outcome switches steps findings).findings.warnings = findings.warnings := by
  induction steps generalizing findings with
  | nil =>
      rfl
  | cons step rest ih =>
      simp only [List.forall_mem_cons] at hsilent
      have ih := ih fun htypes => (hsilent htypes).2
      cases step with
      | read token =>
          exact ih findings
      | stop violation =>
          rfl
      | check demand =>
          simp only [outcome]
          cases hanswer : demand.answer switches findings.symbols with
          | error violation =>
              rfl
          | ok found =>
              obtain ⟨extended, warnings⟩ := found
              have hkind : switches.checkTypes = true → demand.isOperation = false :=
                fun htypes => by simpa [isSilent] using (hsilent htypes).1
              cases Demand.warnings_of_answer hkind hanswer
              exact (ih _).trans (List.append_nil _)

/-- Steps that are not about operators are counted if they consume less than three tokens. -/
theorem counted_of_silent
    (hsilent : ∀ step ∈ steps, step.isSilent = true)
    (hlength : (tokens steps).length ≤ 2) :
    Counted steps := by
  intro switches findings last _ _
  rw [warnings_of_silent fun _ => hsilent, realEqualitiesIn_of_length]
  · exact (List.append_nil _).symm
  · exact Nat.le_trans (List.length_take_le' _ _) hlength

/-- Counted steps in a row are counted, if no equality lies across the place where they meet. -/
theorem Counted.append
    (hleft : Counted left)
    (hends : EndsWithoutEquality (tokens left))
    (hbegins : BeginsWithoutEquality (tokens right))
    (hright : Counted right) :
    Counted (left ++ right) := by
  intro switches findings last htypes hlast
  cases hviolation : (outcome switches left findings).violation? with
  | some violation =>
      rw [outcome_append_of_violation hviolation] at hlast ⊢
      rw [tokens_append, List.take_append_of_le_length (consumed_le switches left findings)]
      exact hleft switches findings last htypes hlast
  | none =>
      have hconsumed := consumed_of_none hviolation
      rw [outcome_append_of_none hviolation] at hlast ⊢
      have hgrown : (outcome switches left findings).findings.symbols.Within _ :=
        (entries_prefix_outcome right switches
          (outcome switches left findings).findings).subset
      have hfirst := hleft switches findings last htypes
        ⟨hgrown.trans hlast.within, fun hsome => absurd hviolation hsome⟩
      have hsecond := hright switches (outcome switches left findings).findings last htypes
        ⟨hlast.within, hlast.same⟩
      have hbegins := hbegins.take
        (outcome switches right (outcome switches left findings).findings).consumed
      rw [hconsumed, List.take_length] at hfirst
      rw [hsecond, hfirst, tokens_append]
      simp only
      rw [hconsumed, List.take_length_add_append, realEqualitiesIn_append hends hbegins,
        List.replicate_add, List.append_assoc]

section Values

variable
    {switches : Switches}
    {findings : Findings}
    {value : Operand}
    {rest : List Step}

/-- After a value with a type the steps go on. -/
theorem outcome_value_of_ok
    {type : ValueType}
    (htypes : switches.checkTypes = true)
    (htyping : value.typing findings.symbols = .ok type) :
    outcome switches (value.steps ++ rest) findings =
      ⟨(outcome switches rest findings).violation?,
        (outcome switches rest findings).consumed + 1,
        (outcome switches rest findings).findings⟩ := by
  simp [Operand.steps, outcome, Demand.answer_value htypes, htyping, Except.map]

/-- The steps end at a value without a type. -/
theorem outcome_value_of_error
    {violation : Violation}
    (htypes : switches.checkTypes = true)
    (htyping : value.typing findings.symbols = .error violation) :
    outcome switches (value.steps ++ rest) findings = ⟨some violation, 1, findings⟩ := by
  simp [Operand.steps, outcome, Demand.answer_value htypes, htyping, Except.map]

end Values

/-- An expression with an operator is counted: the operator is asked about only after both values
have got their types, and it gives a warning exactly if it compares a real for equality. -/
theorem counted_binary (left right : Operand) (sign : Sign) :
    Counted (left.steps ++ .read sign.word.token ::
      (right.steps ++ [.check (.operation left sign right)])) := by
  intro switches findings last htypes hlast
  have htokens : tokens (left.steps ++ .read sign.word.token ::
      (right.steps ++ [.check (.operation left sign right)])) =
        [left.token, sign.word.token, right.token] := by simp
  rw [htokens]
  cases hleft : left.typing findings.symbols with
  | error violation =>
      rw [outcome_value_of_error htypes hleft]
      exact (List.append_nil _).symm
  | ok leftType =>
      rw [outcome_value_of_ok htypes hleft] at hlast ⊢
      simp only [outcome] at hlast ⊢
      cases hright : right.typing findings.symbols with
      | error violation =>
          rw [outcome_value_of_error htypes hright] at hlast ⊢
          cases hlast.same (Option.some_ne_none _)
          have hnone := isRealEquality_of_error hright left.token sign.word.token
          simp [realEqualitiesIn, hnone]
      | ok rightType =>
          rw [outcome_value_of_ok htypes hright] at hlast ⊢
          simp only [outcome, Demand.answer_operation htypes hleft hright] at hlast ⊢
          cases hoperation : TypeRules.operation leftType sign.operator rightType with
          | error violation =>
              rw [hoperation] at hlast
              cases hlast.same (Option.some_ne_none _)
              have hnone := TypeRules.not_real_of_operation hoperation
              simp [Except.map, realEqualitiesIn, isRealEquality_of_typing hleft hright, hnone]
          | ok typing =>
              rw [hoperation] at hlast
              have hleftLast := (left.typing_of_within hlast.within).eq_ok hleft
              have hrightLast := (right.typing_of_within hlast.within).eq_ok hright
              have hwarnings := TypeRules.warnings_of_operation hoperation
              rw [← isRealEquality_of_typing hleftLast hrightLast] at hwarnings
              simp [Except.map, realEqualitiesIn, hwarnings]

end Step

end SimpleC
