import SimpleC.Proofs.Course.Step
import SimpleC.Proofs.Recognizer.Steps

/-!
# Moves

The steps of a recognition, grouped by the productions that are entered and left.
Performing moves does to the tokens, the symbol table and the warnings what comes
of their steps; besides, it records the nodes of the productions.
-/

namespace SimpleC

/-- One move of a recognition. -/
inductive Move where
  | step (step : Step)
  /-- The moves between entering and leaving a production. -/
  | within (production : Production) (moves : List Move)

namespace State

/-- The state after the next token, which is the given one. -/
def read (state : State) (switches : Switches) (token : Token) : State :=
  { state with cursor := ⟨state.cursor.position + 1, state.cursor.ahead.tail⟩ }.append switches
    (.leaf token)

/-- The state with another symbol table and further warnings. -/
def learn (state : State) (symbols : SymbolTable) (warnings : List Warning) : State :=
  { state with
    symbols := symbols
    warnings := state.warnings ++ warnings.toArray
    trace := state.trace ++ (warnings.map Event.warned).toArray }

section Views

variable
    (state : State)
    (switches : Switches)
    (token : Token)
    (symbols : SymbolTable)
    (warnings : List Warning)

@[simp] theorem cursor_read :
    (state.read switches token).cursor =
      ⟨state.cursor.position + 1, state.cursor.ahead.tail⟩ := by
  simp [read]

@[simp] theorem findings_read : (state.read switches token).findings = state.findings := by
  rw [read, findings_append]
  rfl

@[simp] theorem findings_learn :
    (state.learn symbols warnings).findings =
      ⟨symbols, state.findings.warnings ++ warnings⟩ := by
  simp [learn, findings]

@[simp] theorem children_learn : (state.learn symbols warnings).children = state.children :=
  rfl

/-- To learn nothing changes nothing. -/
theorem learn_nothing : state.learn state.symbols [] = state := by
  simp [learn]

end Views

end State

section Producing

variable
    {α : Type}
    {switches : Switches}
    {production : Production}
    {typeOf : α → Option ValueType}
    {step : Recognizer α}
    {state after : State}

theorem Recognizer.producing_of_ok
    {answer : α}
    (h : step (state.enter production) = .ok answer after) :
    producing switches production typeOf step state =
      .ok answer (after.leave switches production (typeOf answer) state.children) := by
  unfold producing
  simp only [h]

theorem Recognizer.producing_of_error
    {stop : Stop}
    (h : step (state.enter production) = .error stop after) :
    producing switches production typeOf step state =
      .error stop (after.leave switches production none state.children) := by
  unfold producing
  simp only [h]

end Producing

/-- Performs a step. -/
def Step.perform (switches : Switches) : Step → Recognizer Unit
  | read token => modify fun state => state.read switches token
  | check demand => do
      let (symbols, warnings) ← Recognizer.obey (demand.answer switches (← get).symbols)
      modify fun state => state.learn symbols warnings
  | stop violation => Recognizer.violate violation

/-- The value that the token is, if it is one. -/
def Operand.ofToken? (token : Token) : Option Operand :=
  if h : token.valueExpectation?.isSome = true then some ⟨token, h⟩ else none

/-- The operator that the token is, if it is one. -/
def Sign.ofToken? (token : Token) : Option Sign :=
  match h : token.spelling?.bind Operator.ofSpelling? with
  | some operator =>
      some ⟨operator, token, by
        obtain ⟨spelling, hspelling, hoperator⟩ := Option.bind_eq_some_iff.mp h
        rw [Operator.ofSpelling?_eq_some_iff] at hoperator
        simp [Expectation.accepts, Token.isSpelled, hspelling, hoperator]⟩
  | none => none

/-- The expression that the tokens are, if they are one. -/
def Expression.ofTokens? : List Token → Option Expression
  | [token] => do
      return .single (← Operand.ofToken? token)
  | [left, sign, right] => do
      return .binary (← Operand.ofToken? left) (← Sign.ofToken? sign) (← Operand.ofToken? right)
  | _ => none

/-- The type of a phrase with the given tokens, if its production has types. -/
def Production.type? (symbols? : Option SymbolTable) (tokens : List Token) :
    Production → Option ValueType
  | .value | .expression | .condition =>
      (Expression.ofTokens? tokens).bind fun phrase => phrase.type? symbols?
  | _ => none

namespace Move

mutual

/-- The steps of a move, without the productions. -/
def steps : Move → List Step
  | step single => [single]
  | within _ moves => stepsAll moves

/-- The steps of moves, without the productions. -/
def stepsAll : List Move → List Step
  | [] => []
  | move :: rest => steps move ++ stepsAll rest

end

/-- The tokens that moves consume. -/
def tokens (moves : List Move) : List Token :=
  Step.tokens (stepsAll moves)

mutual

/-- Performs a move. -/
def perform (switches : Switches) : Move → Recognizer Unit
  | step single => single.perform switches
  | within production moves =>
      discard (Recognizer.typed switches production do
        performAll switches moves
        return production.type? (switches.typesUnder (← get).symbols) (tokens moves))

/-- Performs moves, from the first to the last. -/
def performAll (switches : Switches) : List Move → Recognizer Unit
  | [] => pure ()
  | move :: rest => do
      perform switches move
      performAll switches rest

end

@[simp] theorem stepsAll_nil : stepsAll [] = [] :=
  rfl

@[simp] theorem stepsAll_step (single : Step) (rest : List Move) :
    stepsAll (step single :: rest) = single :: stepsAll rest :=
  rfl

@[simp] theorem stepsAll_within (production : Production) (moves rest : List Move) :
    stepsAll (within production moves :: rest) = stepsAll moves ++ stepsAll rest :=
  rfl

@[simp] theorem stepsAll_append (left right : List Move) :
    stepsAll (left ++ right) = stepsAll left ++ stepsAll right := by
  induction left with
  | nil =>
      rfl
  | cons move rest ih =>
      rw [List.cons_append, stepsAll, stepsAll, ih, List.append_assoc]

theorem stepsAll_map_read (consumed : List Token) :
    stepsAll (consumed.map (step ∘ .read)) = consumed.map .read := by
  induction consumed with
  | nil =>
      rfl
  | cons token rest ih =>
      rw [List.map_cons, List.map_cons, Function.comp_apply, stepsAll_step, ih]

@[simp] theorem tokens_nil : tokens [] = [] :=
  rfl

@[simp] theorem tokens_read (token : Token) (rest : List Move) :
    tokens (step (.read token) :: rest) = token :: tokens rest :=
  rfl

@[simp] theorem tokens_check (demand : Demand) (rest : List Move) :
    tokens (step (.check demand) :: rest) = tokens rest :=
  rfl

@[simp] theorem tokens_stop (violation : Violation) (rest : List Move) :
    tokens (step (.stop violation) :: rest) = tokens rest :=
  rfl

@[simp] theorem tokens_within (production : Production) (moves rest : List Move) :
    tokens (within production moves :: rest) = tokens moves ++ tokens rest := by
  simp [tokens]

@[simp] theorem tokens_append (left right : List Move) :
    tokens (left ++ right) = tokens left ++ tokens right := by
  simp [tokens]

end Move

/-- A program that started in a state has ended as the outcome says. -/
inductive Outcome.Describes (state : State) :
    Outcome → EStateM.Result Stop State Unit → Prop
  | ok {after : State} {consumed : Nat}
      (hposition : after.cursor.position = state.cursor.position + consumed) :
      Describes state ⟨none, consumed, after.findings⟩ (.ok () after)
  | error {violation : Violation} {after : State} {consumed : Nat}
      (hposition : after.cursor.position = state.cursor.position + consumed) :
      Describes state ⟨some violation, consumed, after.findings⟩
        (.error (.violation violation) after)

section Performing

variable {switches : Switches} {state : State}

theorem Step.perform_check (demand : Demand) :
    (check demand).perform switches state =
      match demand.answer switches state.symbols with
      | .ok (symbols, warnings) => .ok () (state.learn symbols warnings)
      | .error violation => .error (.violation violation) state := by
  show (Recognizer.obey (demand.answer switches state.symbols) >>= _) state = _
  cases demand.answer switches state.symbols with
  | ok | error =>
      rfl

theorem Step.describes_perform (single : Step) :
    (outcome switches [single] state.findings).Describes state
      (single.perform switches state) := by
  cases single with
  | read token =>
      show Outcome.Describes state ⟨none, 1, state.findings⟩ (.ok () (state.read switches token))
      rw [← State.findings_read state switches token]
      exact .ok (by simp)
  | check demand =>
      rw [perform_check, outcome, State.symbols_findings]
      cases demand.answer switches state.symbols with
      | ok found =>
          obtain ⟨symbols, warnings⟩ := found
          simp only [outcome]
          rw [← State.findings_learn]
          exact .ok rfl
      | error violation =>
          exact .error rfl
  | stop violation =>
      exact .error rfl

/-- What comes of two programs in a row. -/
theorem Outcome.Describes.bind
    {first second : List Step}
    {step next : Recognizer Unit}
    (hstep : (Step.outcome switches first state.findings).Describes state (step state))
    (hnext : ∀ state : State,
      (Step.outcome switches second state.findings).Describes state (next state)) :
    (Step.outcome switches (first ++ second) state.findings).Describes state
      ((step >>= fun _ => next) state) := by
  generalize houtcome : Step.outcome switches first state.findings = outcome,
    hended : step state = ended at hstep
  cases hstep with
  | error hposition =>
      rw [Step.outcome_append_of_violation (by rw [houtcome]), houtcome, bind_of_error hended]
      exact .error hposition
  | @ok after consumed hposition =>
      rw [Step.outcome_append_of_none (by rw [houtcome]), houtcome, bind_of_ok hended]
      have hsecond := hnext after
      generalize Step.outcome switches second after.findings = outcome, next after = ended
        at hsecond ⊢
      cases hsecond with
      | ok hafter =>
          exact .ok (by rw [hafter, hposition, Nat.add_assoc])
      | error hafter =>
          exact .error (by rw [hafter, hposition, Nat.add_assoc])

section Within

variable {production : Production} {moves : List Move} {after : State}

theorem Move.perform_within_of_ok
    (h : performAll switches moves (state.enter production) = .ok () after) :
    perform switches (.within production moves) state =
      .ok () (after.leave switches production
        (production.type? (switches.typesUnder after.symbols) (tokens moves))
        state.children) := by
  rw [perform, Recognizer.typed, discard_eq_bind]
  exact bind_of_ok (Recognizer.producing_of_ok (bind_of_ok h))

theorem Move.perform_within_of_error
    {stop : Stop}
    (h : performAll switches moves (state.enter production) = .error stop after) :
    perform switches (.within production moves) state =
      .error stop (after.leave switches production none state.children) := by
  rw [perform, Recognizer.typed, discard_eq_bind]
  exact bind_of_error (Recognizer.producing_of_error (bind_of_error h))

/-- A production adds nothing to what comes of the moves inside it. -/
theorem Outcome.Describes.within
    {outcome : Outcome}
    (h : outcome.Describes (state.enter production)
      (Move.performAll switches moves (state.enter production))) :
    outcome.Describes state (Move.perform switches (.within production moves) state) := by
  generalize hended : Move.performAll switches moves (state.enter production) = ended at h
  cases h with
  | @ok after consumed hposition =>
      rw [Move.perform_within_of_ok hended, ← State.findings_leave after switches production
        (production.type? (switches.typesUnder after.symbols) (Move.tokens moves))]
      exact .ok (by simpa using hposition)
  | @error violation after consumed hposition =>
      rw [Move.perform_within_of_error hended,
        ← State.findings_leave after switches production none]
      exact .error (by simpa using hposition)

end Within

mutual

/-- What comes of performing a move is what comes of its steps. -/
theorem Move.describes_perform (move : Move) (state : State) :
    (Step.outcome switches move.steps state.findings).Describes state
      (move.perform switches state) := by
  cases move with
  | step single =>
      exact single.describes_perform
  | within production moves =>
      exact (describes_performAll moves (state.enter production)).within

/-- What comes of performing moves is what comes of their steps. -/
theorem Move.describes_performAll (moves : List Move) (state : State) :
    (Step.outcome switches (stepsAll moves) state.findings).Describes state
      (performAll switches moves state) := by
  cases moves with
  | nil =>
      exact .ok rfl
  | cons move rest =>
      exact (describes_perform move state).bind (describes_performAll rest)

end

end Performing

end SimpleC
