import SimpleC.Proofs.Phrase.Form
import SimpleC.Proofs.Phrase.NearestElse
import SimpleC.Proofs.Recognizer.ValueReadings

/-!
# Reading statements

A statement is read up to its end, and all that is done on the way is to meet
its obligations. Conditionals are the reason for an induction: their branches
are statements, and what follows a branch decides whether it is read to its end.
-/

namespace SimpleC

namespace Switches

/-- Checks the obligations that are due under the switches. -/
def checks (switches : Switches) (obligations : List Obligation) : Checking Unit :=
  Obligation.meetAll switches.declare switches.checkTypes obligations

/-- Checks one obligation, if it is due under the switches. -/
def check (switches : Switches) (obligation : Obligation) : Checking Unit :=
  obligation.meet switches.declare switches.checkTypes

variable (switches : Switches)

theorem checks_single (obligation : Obligation) :
    switches.checks [obligation] = switches.check obligation := by
  simp [checks, check, Obligation.meetAll]

theorem checks_cons (obligation : Obligation) (rest : List Obligation) :
    switches.checks (obligation :: rest) =
      (do switches.check obligation; switches.checks rest) :=
  rfl

theorem checks_append (left right : List Obligation) :
    switches.checks (left ++ right) = (do switches.checks left; switches.checks right) :=
  Obligation.meetAll_append _ _ left right

theorem check_declaration (type : ValueType) (name : String) :
    switches.check (.declaration type name) =
      if switches.declare then Checking.declare name type else pure () :=
  rfl

theorem check_of_types {obligation : Obligation} (h : obligation.isDeclaration = false) :
    switches.check obligation = if switches.checkTypes then obligation.check else pure () := by
  simp [check, Obligation.meet, Obligation.isDue, h]

theorem discard_typing_lookup (name : String) :
    discard (switches.typing (Symbol.type <$> Checking.lookup name)) =
      switches.check (.input name) := by
  rw [check_of_types _ rfl, discard_eq_bind]
  unfold typing
  split
  · simp [Obligation.check, discard_eq_bind]
  · rfl

theorem discard_typing_operand (value : Operand) :
    discard (switches.typing (Checking.operand value)) = switches.check (.output value) := by
  rw [check_of_types _ rfl, discard_eq_bind]
  unfold typing
  split
  · simp [Obligation.check, discard_eq_bind]
  · rfl

theorem typing_assignment (name : String) (value : Expression) :
    (do
      let target? ← switches.typing (Symbol.type <$> Checking.lookup name)
      let value? ← switches.typing (Checking.expression value)
      Checking.assignment? target? value?) =
      switches.check (.assignment name value) := by
  rw [check_of_types _ rfl]
  unfold typing
  split
  · simp [Obligation.check, Checking.assignment?]
  · rfl

theorem typing_condition (phrase : Expression) :
    (do
      let type? ← switches.typing (Checking.expression phrase)
      Checking.condition? type?) =
      switches.check (.condition phrase) := by
  rw [check_of_types _ rfl]
  unfold typing
  split
  · simp [Obligation.check, Checking.condition?]
  · rfl

end Switches

namespace Recognizer

variable {switches : Switches} {rest : List Token}

theorem reads_emptyStatement (semicolon : Word ";") :
    Reads switches (semicolon.token :: rest) rest (fun _ _ => True)
      (fun _ => [Production.empty.node [.leaf semicolon.token]])
      (emptyStatement switches) (pure ()) :=
  Reads.plain .empty (.expect semicolon)

theorem reads_addVariable (declarator : Declarator) (name : String) :
    Reads switches rest rest (fun _ _ => True) (fun _ => [])
      (addVariable switches declarator.type.name name)
      (switches.check (.declaration declarator.type name)) := by
  rw [Switches.check_declaration]
  unfold addVariable
  split
  · have htype : ValueType.ofDeclarator? declarator.type.name = some declarator.type :=
      ValueType.ofDeclarator?_eq_some_iff.mpr ⟨declarator.numeric, rfl⟩
    rw [htype]
    exact Reads.declare name declarator.type
  · exact .pure trivial

/-- The variable is declared once the declaration is read. -/
theorem reads_declaration (declarator : Declarator) (name : Identifier) (semicolon : Word ";") :
    Reads switches (declarator.word.token :: name.token :: semicolon.token :: rest) rest
      (fun _ _ => True)
      (fun _ => [Production.declaration.node
        [.leaf declarator.word.token, .leaf name.token, .leaf semicolon.token]])
      (declaration switches)
      (switches.checks [.declaration declarator.type name.token.text]) := by
  rw [Switches.checks_single]
  refine Reads.plain .declaration ?_
  refine Reads.nextSpelling_bind declarator.word.spelling?_token ?_
  refine Reads.expect_bind declarator.word ?_
  refine Reads.identifier_bind name ?_
  refine Reads.expect_bind semicolon ?_
  exact reads_addVariable declarator name.token.text

/-- The target of an input is looked up before the end of the statement. -/
theorem reads_input
    (word : Word "cin")
    (arrows : Word ">>")
    (name : Identifier)
    (semicolon : Word ";") :
    Reads switches
      (word.token :: arrows.token :: name.token :: semicolon.token :: rest) rest
      (fun _ _ => True)
      (fun _ => [Production.input.node
        [.leaf word.token, .leaf arrows.token, .leaf name.token, .leaf semicolon.token]])
      (input switches) (switches.checks [.input name.token.text]) := by
  rw [Switches.checks_single, ← Switches.discard_typing_lookup]
  refine Reads.plain .input ?_
  refine Reads.expect_bind word ?_
  refine Reads.expect_bind arrows ?_
  refine Reads.identifier_bind name ?_
  exact (reads_variableType name.token.text).discard.bind_read
    fun _ _ => .expect semicolon

theorem reads_outputValue (printed : Printed) :
    Reads switches (printed.token :: rest) rest (fun _ _ => True)
      (fun symbols => [printed.node (switches.typesUnder symbols)])
      (outputValue switches) (switches.checks printed.obligations) := by
  cases printed with
  | endOfLine word =>
      refine Reads.plain .outputValue ?_
      refine Reads.peek_bind ?_
      rw [Printed.token, word.isSpelled_token]
      exact Reads.expect word
  | value operand =>
      have hoperand := operand.isSpelled_eq_false (show "endl" ∉ boolSpellings by decide)
      refine Reads.plain .outputValue ?_
      refine Reads.peek_bind ?_
      rw [Printed.token, hoperand, Printed.obligations, Switches.checks_single,
        ← Switches.discard_typing_operand]
      exact (reads_value operand).discard

/-- What is put out is checked before the end of the statement. -/
theorem reads_output
    (word : Word "cout")
    (arrows : Word "<<")
    (printed : Printed)
    (semicolon : Word ";") :
    Reads switches
      (word.token :: arrows.token :: printed.token :: semicolon.token :: rest) rest
      (fun _ _ => True)
      (fun symbols => [Production.output.node
        [.leaf word.token, .leaf arrows.token, printed.node (switches.typesUnder symbols),
          .leaf semicolon.token]])
      (output switches) (switches.checks printed.obligations) := by
  refine Reads.plain .output ?_
  refine Reads.expect_bind word ?_
  refine Reads.expect_bind arrows ?_
  exact (reads_outputValue printed).bind_read fun _ _ => .expect semicolon

/-- The target of an assignment is looked up before the value is read. -/
theorem reads_assignment
    (name : Identifier)
    (equals : Word "=")
    (value : Expression)
    (semicolon : Word ";") :
    Reads switches
      (name.token :: equals.token :: (value.tokens ++ semicolon.token :: rest)) rest
      (fun _ _ => True)
      (fun symbols => [Production.assignment.node
        [.leaf name.token, .leaf equals.token, value.node (switches.typesUnder symbols),
          .leaf semicolon.token]])
      (assignment switches) (switches.checks [.assignment name.token.text value]) := by
  rw [Switches.checks_single, ← Switches.typing_assignment]
  refine Reads.plain .assignment ?_
  refine Reads.identifier_bind name ?_
  refine (reads_variableType name.token.text).check_bind ?_
  intro target? target htarget
  refine Reads.expect_bind equals ?_
  refine Reads.bind (reads_expression value (semicolon.isOperator_token.trans rfl)) ?_
  intro value? type htype
  exact (reads_checkAssignment htarget htype).bind_read fun _ _ => .expect semicolon

theorem reads_condition
    (phrase : Expression)
    {token : Token}
    {tail : List Token}
    (hoperator : token.isOperator = false) :
    Reads switches (phrase.tokens ++ token :: tail) (token :: tail) (fun _ _ => True)
      (fun symbols => [phrase.conditionNode (switches.typesUnder symbols)])
      (discard (condition switches)) (switches.check (.condition phrase)) := by
  have hread : Reads switches (phrase.tokens ++ token :: tail) (token :: tail)
      switches.Known (fun symbols => [phrase.conditionNode (switches.typesUnder symbols)])
      (condition switches)
      (do
        let type? ← switches.typing (Checking.expression phrase)
        Checking.condition? type?
        return type?) := by
    refine Reads.producing ?_ ?_
    · refine (reads_expression phrase hoperator).bind_check ?_
      intro type? type htype
      refine (reads_checkCondition htype).check_bind ?_
      intro _ _ _
      exact .pure htype
    · intro answer result findings after hcheck hknown symbols hsymbols
      obtain ⟨type?, middle, htyping, hcheck⟩ := bind_eq_ok.mp hcheck
      obtain ⟨_, _, hcondition, hpure⟩ := bind_eq_ok.mp hcheck
      cases hpure
      cases Checking.condition?_eq_ok hcondition
      exact Switches.type_of_typing (fun symbols? => phrase.type? symbols?) rfl
        (fun type htype => phrase.type?_of_check htype hsymbols) htyping hknown
  have hcheck : switches.check (.condition phrase) =
      discard (do
        let type? ← switches.typing (Checking.expression phrase)
        Checking.condition? type?
        return type?) := by
    rw [← Switches.typing_condition, discard_eq_bind]
    simp
  rw [hcheck]
  exact hread.discard

/-- The step reads the statement up to its end and meets its obligations. -/
def ReadsThrough
    (switches : Switches)
    (step : Recognizer Unit)
    (statement : Statement)
    (rest : List Token) : Prop :=
  Reads switches (statement.tokens ++ rest) rest (fun _ _ => True)
    (fun symbols => [statement.node (switches.typesUnder symbols)])
    step (switches.checks statement.obligations)

section Conditional

variable {step : Recognizer Unit} {guard : Guard} {thenPart : Statement}

/-- The head of a conditional is read before its branches. -/
theorem reads_guard
    {middle : List Token}
    {next : Recognizer Unit}
    {nodes : SymbolTable → List Node}
    {check : Checking Unit}
    (hnext : Reads switches middle rest (fun _ _ => True) nodes next check) :
    Reads switches (guard.tokens ++ middle) rest (fun _ _ => True)
      (fun symbols => guard.nodes (switches.typesUnder symbols) ++ nodes symbols)
      (do
        expect switches "if"
        expect switches "("
        discard (condition switches)
        expect switches ")"
        next)
      (do
        switches.check (.condition guard.condition)
        check) := by
  obtain ⟨opening, left, phrase, right⟩ := guard
  simp only [Guard.tokens, List.cons_append, List.append_assoc, List.nil_append]
  have hright := Reads.expect_bind right hnext
  have hcondition := (reads_condition phrase (right.isOperator_token.trans rfl)).bind
    fun _ _ _ => hright
  exact Reads.expect_bind opening (Reads.expect_bind left hcondition)

/-- A branch that no `else` follows is the whole rest of the conditional. -/
theorem reads_conditional
    (hthen : ReadsThrough switches step thenPart rest)
    (hrest : ∃ token tail, rest = token :: tail ∧ token.isSpelled "else" = false) :
    Reads switches (guard.tokens ++ (thenPart.tokens ++ rest)) rest (fun _ _ => True)
      (fun symbols => [Production.conditional.node
        (guard.nodes (switches.typesUnder symbols) ++
          [Production.thenPart.node [thenPart.node (switches.typesUnder symbols)],
            Production.elsePart.node []])])
      (conditional switches step)
      (switches.checks (.condition guard.condition :: thenPart.obligations)) := by
  obtain ⟨token, tail, rfl, hword⟩ := hrest
  refine Reads.plain .conditional (reads_guard ?_)
  refine (Reads.plain .thenPart hthen).bind_read fun _ _ => Reads.plain .elsePart ?_
  refine Reads.peek_bind ?_
  rw [hword]
  exact .pure trivial

/-- A branch that an `else` follows is read before the other one. -/
theorem reads_alternative
    {word : Word "else"}
    {elsePart : Statement}
    (hthen : ReadsThrough switches step thenPart (word.token :: (elsePart.tokens ++ rest)))
    (helse : ReadsThrough switches step elsePart rest) :
    Reads switches
      (guard.tokens ++ (thenPart.tokens ++ word.token :: (elsePart.tokens ++ rest))) rest
      (fun _ _ => True)
      (fun symbols => [Production.conditional.node
        (guard.nodes (switches.typesUnder symbols) ++
          [Production.thenPart.node [thenPart.node (switches.typesUnder symbols)],
            Production.elsePart.node
              [.leaf word.token, elsePart.node (switches.typesUnder symbols)]])])
      (conditional switches step)
      (switches.checks
        (.condition guard.condition :: (thenPart.obligations ++ elsePart.obligations))) := by
  rw [Switches.checks_cons, Switches.checks_append]
  refine Reads.plain .conditional (reads_guard ?_)
  refine (Reads.plain .thenPart hthen).bind fun _ _ _ => Reads.plain .elsePart ?_
  refine Reads.peek_bind ?_
  rw [word.isSpelled_token]
  exact Reads.expect_bind word helse

end Conditional

/-- The step for the statements of a form. -/
def ofForm (switches : Switches) (step : Recognizer Unit) : StatementForm → Recognizer Unit
  | .empty => emptyStatement switches
  | .declaration => declaration switches
  | .input => input switches
  | .output => output switches
  | .assignment => assignment switches
  | .conditional => conditional switches step

theorem reads_statementOf
    {step : Recognizer Unit}
    {statement : Statement}
    {node : SymbolTable → Node}
    (hread : Reads switches (statement.tokens ++ rest) rest (fun _ _ => True)
      (fun symbols => [node symbols])
      (ofForm switches step statement.form) (switches.checks statement.obligations))
    (hnode : ∀ symbols, statement.node (switches.typesUnder symbols) =
      Production.statement.node [node symbols]) :
    ReadsThrough switches (statementOf switches step) statement rest := by
  obtain ⟨tail, htokens⟩ := statement.exists_tokens_eq
  unfold ReadsThrough
  simp only [hnode, htokens, List.cons_append] at hread ⊢
  refine Reads.plain .statement ?_
  refine Reads.peek_bind ?_
  rw [statement.ofToken?_first]
  cases hform : statement.form <;> simpa only [hform, ofForm] using hread

/-- A statement is read to its end, if it has no more tokens than the bound, and its
`else`s and what follows it leave no other reading. -/
theorem reads_statement (switches : Switches) (depth : Nat) :
    ∀ (statement : Statement) (rest : List Token),
      statement.tokens.length ≤ depth → statement.NearestElse → statement.MayPrecede rest →
        ReadsThrough switches (Recognizer.statement switches depth) statement rest := by
  induction depth with
  | zero =>
      intro statement rest hdepth
      obtain ⟨tail, htokens⟩ := statement.exists_tokens_eq
      simp [htokens] at hdepth
  | succ depth ih =>
      intro statement rest hdepth hnearest hrest
      show ReadsThrough switches
        (statementOf switches (Recognizer.statement switches depth)) statement rest
      cases statement with
      | empty semicolon =>
          exact reads_statementOf (reads_emptyStatement semicolon) fun _ => rfl
      | declaration declarator name semicolon =>
          exact reads_statementOf (reads_declaration declarator name semicolon) fun _ => rfl
      | input word arrows name semicolon =>
          exact reads_statementOf (reads_input word arrows name semicolon) fun _ => rfl
      | output word arrows printed semicolon =>
          exact reads_statementOf (reads_output word arrows printed semicolon) fun _ => rfl
      | assignment name equals value semicolon =>
          refine reads_statementOf ?_ fun _ => rfl
          simp only [Statement.tokens, List.cons_append, List.append_assoc, List.nil_append]
          exact reads_assignment name equals value semicolon
      | conditional guard thenPart =>
          have hlength : thenPart.tokens.length ≤ depth := by
            simp only [Statement.tokens, Guard.tokens, List.length_append, List.length_cons]
              at hdepth
            omega
          have hthen := ih thenPart rest hlength hnearest fun _ => hrest rfl
          refine reads_statementOf ?_ fun _ => rfl
          rw [Statement.tokens, List.append_assoc]
          exact reads_conditional hthen (hrest rfl)
      | alternative guard thenPart word elsePart =>
          obtain ⟨hclosed, hthenNearest, helseNearest⟩ := hnearest
          simp only [Statement.tokens, Guard.tokens, List.length_append, List.length_cons]
            at hdepth
          have hthen := ih thenPart (word.token :: (elsePart.tokens ++ rest)) (by omega)
            hthenNearest (fun hopen => by simp [hclosed] at hopen)
          have helse := ih elsePart rest (by omega) helseNearest hrest
          refine reads_statementOf ?_ fun _ => rfl
          simp only [Statement.tokens, List.append_assoc, List.cons_append]
          exact reads_alternative hthen helse

end Recognizer

end SimpleC
