import SimpleC.Cursor.Basic
import SimpleC.Derivation.Node
import SimpleC.Recognizer.Production
import SimpleC.TypeRules

/-!
# The state of a recognition

The recognizer moves a cursor over the tokens, adds declared variables to a
symbol table, collects warnings, keeps a trace of what it does and, when asked
to, the nodes of the derivation. Its state outlives a violation: what was found
before it is part of the answer.
-/

namespace SimpleC

/-- What a recognition does besides checking the grammar. -/
structure Switches where
  /-- Add declared variables to the table. -/
  declare : Bool
  /-- Look up variables and apply the type rules. -/
  checkTypes : Bool
  /-- Record the derivation. -/
  record : Bool
  deriving DecidableEq, Inhabited

/-- The ways in which the recognizer could contradict itself. None of them
happens: they mark the places at which it relies on what it did before. -/
inductive Fault where
  /-- The bound on the number of statements was too small. -/
  | outOfFuel
  /-- A bare token was relied on where the next one is not bare. -/
  | missingSpelling
  /-- A type was relied on that was not computed. -/
  | missingType
  /-- A declaration begins with a word that names no type. -/
  | notDeclarable
  deriving DecidableEq, Inhabited

/-- Why a recognition ends early. -/
inductive Stop where
  | violation (violation : Violation)
  | fault (fault : Fault)
  deriving DecidableEq

/-- What the trace of a recognition reports. -/
inductive Event where
  /-- A production was entered with the cursor at a position. -/
  | entered (production : Production) (position : Nat)
  /-- A warning was given. -/
  | warned (warning : Warning)
  /-- A violation was met with the cursor at a position. -/
  | stopped (position : Nat) (violation : Violation)
  deriving DecidableEq

/-- How much an event matters. -/
inductive Level where
  | debug
  | warning
  deriving DecidableEq, Inhabited

/-- The name of a level. -/
def Level.name : Level → String
  | debug => "DEBUG"
  | warning => "WARNING"

namespace Event

/-- Only warnings are of general interest. -/
def level : Event → Level
  | entered .. | stopped .. => .debug
  | warned .. => .warning

/-- The text of an event. -/
def text : Event → String
  | entered production position =>
      production.name ++ " at token " ++ toString position
  | warned warning => warning.text
  | stopped position violation =>
      "stopped at token " ++ toString position ++ ": " ++ violation.message

end Event

/-- What a recognition has found so far. -/
structure State where
  cursor : Cursor
  symbols : SymbolTable
  warnings : Array Warning
  trace : Array Event
  /-- The nodes of the innermost open production. -/
  children : Array Node
  deriving Inhabited

namespace State

/-- The state before the first token. -/
def start (tokens : List Token) (symbols : SymbolTable) : State :=
  ⟨.start tokens, symbols, #[], #[], #[]⟩

/-- Adds an event to the trace. -/
def note (state : State) (event : Event) : State :=
  { state with trace := state.trace.push event }

/-- Adds a node to the innermost open production, if the derivation is recorded. -/
def append (state : State) (switches : Switches) (node : Node) : State :=
  if switches.record then { state with children := state.children.push node } else state

/-- Opens a production: its node has no children yet. -/
def enter (state : State) (production : Production) : State :=
  { state.note (.entered production state.cursor.position) with children := #[] }

/-- Closes a production: its node joins the nodes of the one around it. -/
def leave (state : State) (switches : Switches) (production : Production)
    (type? : Option ValueType) (around : Array Node) : State :=
  { state with children := around }.append switches
    (.inner production.name type? state.children.toList)

section Views

variable
    (state : State)
    (switches : Switches)
    (production : Production)
    (type? : Option ValueType)
    (around : Array Node)
    (node : Node)
    (event : Event)

/-- An event joins the end of the trace. -/
@[simp] theorem toList_trace_note :
    (state.note event).trace.toList = state.trace.toList ++ [event] := by
  simp [note]

/-- Recording a node does not move the cursor. -/
@[simp] theorem cursor_append : (state.append switches node).cursor = state.cursor := by
  unfold append
  split <;> rfl

/-- Recording a node declares nothing. -/
@[simp] theorem symbols_append : (state.append switches node).symbols = state.symbols := by
  unfold append
  split <;> rfl

/-- Recording a node gives no warning. -/
@[simp] theorem warnings_append : (state.append switches node).warnings = state.warnings := by
  unfold append
  split <;> rfl

/-- Recording a node leaves no trace. -/
@[simp] theorem trace_append : (state.append switches node).trace = state.trace := by
  unfold append
  split <;> rfl

/-- Closing a production does not move the cursor. -/
@[simp] theorem cursor_leave :
    (state.leave switches production type? around).cursor = state.cursor := by
  simp [leave]

/-- Closing a production declares nothing. -/
@[simp] theorem symbols_leave :
    (state.leave switches production type? around).symbols = state.symbols := by
  simp [leave]

/-- Closing a production gives no warning. -/
@[simp] theorem warnings_leave :
    (state.leave switches production type? around).warnings = state.warnings := by
  simp [leave]

/-- Closing a production leaves no trace. -/
@[simp] theorem trace_leave :
    (state.leave switches production type? around).trace = state.trace := by
  simp [leave]

end Views

end State

end SimpleC
