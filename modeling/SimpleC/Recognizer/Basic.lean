import SimpleC.Recognizer.State

/-!
# Steps of the recognizer

The recognizer is a program with state and an early end. This module holds its
steps: looking at the next token and consuming it, asking the rules and the
symbol table, and entering a production.
-/

namespace SimpleC

/-- A step of the recognizer. Its state is kept when it ends early. -/
abbrev Recognizer := EStateM Stop State

namespace Recognizer

variable {α : Type}

/-- Ends with a violation. -/
def violate (violation : Violation) : Recognizer α :=
  throw (.violation violation)

/-- Ends with a fault. -/
def fault (fault : Fault) : Recognizer α :=
  throw (.fault fault)

/-- Goes on with what a rule answers; its violation ends the recognition. -/
def obey : Except Violation α → Recognizer α
  | .ok answer => pure answer
  | .error violation => violate violation

/-- The next token. -/
def peek : Recognizer Token := do
  obey (← get).cursor.peek

/-- Consumes the next token, which becomes a leaf of the derivation. -/
def consume (switches : Switches) (wanted : Expectation) : Recognizer Token := do
  let (token, cursor) ← obey ((← get).cursor.consume wanted)
  modify (fun state => { state with cursor := cursor }.append switches (.leaf token))
  return token

/-- Consumes the bare token of the given spelling. -/
def expect (switches : Switches) (spelling : String) : Recognizer Unit :=
  discard (consume switches (.spelled spelling))

/-- Consumes an identifier and returns its name. -/
def identifier (switches : Switches) : Recognizer String :=
  return (← consume switches (.ofKind .identifier)).text

/-- The spelling of the next token, which is known to be bare. -/
def nextSpelling : Recognizer String := do
  match (← peek).spelling? with
  | some spelling => return spelling
  | none => fault .missingSpelling

/-- A type that is known to have been computed. -/
def known : Option ValueType → Recognizer ValueType
  | some type => pure type
  | none => fault .missingType

/-- Adds a variable to the symbol table. -/
def declare (name : String) (type : ValueType) : Recognizer Unit := do
  let symbols ← obey ((← get).symbols.declare name type)
  modify (fun state => { state with symbols := symbols })

/-- The declared variable of the given name. -/
def lookup (name : String) : Recognizer Symbol := do
  obey ((← get).symbols.lookup name)

/-- Gives a warning. -/
def warn (warning : Warning) : Recognizer Unit :=
  modify (fun state =>
    { state with warnings := state.warnings.push warning }.note (.warned warning))

/-- Enters a production for the time of a step. However the step ends, the node of
the production is closed; if it ends well, the node has the type of its answer. -/
def producing (switches : Switches) (production : Production)
    (typeOf : α → Option ValueType) (step : Recognizer α) : Recognizer α :=
  fun state =>
    let around := state.children
    match step (state.enter production) with
    | .ok answer after => .ok answer (after.leave switches production (typeOf answer) around)
    | .error stop after => .error stop (after.leave switches production none around)

/-- Enters a production whose node has no type. -/
def plain (switches : Switches) (production : Production) (step : Recognizer α) :
    Recognizer α :=
  producing switches production (fun _ => none) step

/-- Enters a production whose node has the type that its step computes. -/
def typed (switches : Switches) (production : Production)
    (step : Recognizer (Option ValueType)) : Recognizer (Option ValueType) :=
  producing switches production id step

end Recognizer

end SimpleC
