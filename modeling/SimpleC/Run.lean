import SimpleC.Recognizer.Grammar
import SimpleC.Verdict

/-!
# Runs

A run recognizes a list of tokens as a program, starting from a symbol table.
The passes are the runs with particular switches: the check does everything at
once; parsing applies the grammar alone, the table builder adds declarations,
and the type checker applies the type rules against a given table. The staged
check chains the three passes and ends at the first failure.
-/

namespace SimpleC

/-- The outcome of a run. -/
structure Run where
  /-- Why the run ended early, if it did. -/
  stop? : Option Stop
  /-- How many tokens were consumed. -/
  position : Nat
  symbols : SymbolTable
  warnings : List Warning
  trace : List Event
  tree? : Option Node
  deriving Inhabited

namespace Run

/-- The outcome that an early end, if there was one, and a final state amount to. -/
def ofState (stop? : Option Stop) (state : State) : Run :=
  { stop? := stop?
    position := state.cursor.position
    symbols := state.symbols
    warnings := state.warnings.toList
    trace := state.trace.toList
    tree? := state.children[0]? }

/-- The final state, with the violation that led to it in the trace. -/
def noteStop (state : State) : Stop → State
  | .violation violation => state.note (.stopped state.cursor.position violation)
  | .fault _ => state

/-- The outcome of a recognition. -/
def ofResult : EStateM.Result Stop State Unit → Run
  | .ok _ state => ofState none state
  | .error stop state => ofState (some stop) (noteStop state stop)

/-- Whether the program is accepted. -/
def isSuccess (run : Run) : Bool :=
  run.stop?.isNone

/-- The verdict on the program. -/
def verdict (run : Run) : Verdict :=
  match run.stop? with
  | none => .success
  | some stop => .ofStop stop

/-- The outcome as it is reported. -/
def report (run : Run) : Report :=
  { verdict := run.verdict
    symbols := run.symbols
    warnings := run.warnings.map Warning.text
    tree? := run.tree? }

/-- The run with the events of earlier ones before its own. -/
def precededBy (run : Run) (earlier : List Event) : Run :=
  { run with trace := earlier ++ run.trace }

end Run

/-- Recognizes tokens as a program, from the given symbol table on. -/
def recognize (switches : Switches) (symbols : SymbolTable) (tokens : List Token) : Run :=
  .ofResult (Recognizer.wholeInput switches (tokens.length + 1) (.start tokens symbols))

/-- Applies the grammar, the declarations and the type rules at once. -/
def check (record : Bool) (tokens : List Token) : Run :=
  recognize ⟨true, true, record⟩ .empty tokens

/-- Applies the grammar alone. -/
def parse (record : Bool) (tokens : List Token) : Run :=
  recognize ⟨false, false, record⟩ .empty tokens

/-- Applies the grammar and collects the declarations. -/
def buildSymbols (record : Bool) (tokens : List Token) : Run :=
  recognize ⟨true, false, record⟩ .empty tokens

/-- Applies the grammar and the type rules, all variables of the given table being
known from the start. -/
def typecheck (record : Bool) (symbols : SymbolTable) (tokens : List Token) : Run :=
  recognize ⟨false, true, record⟩ symbols tokens

/-- Parses, collects the declarations and checks the types, in this order. The
first pass that fails decides. -/
def checkStaged (record : Bool) (tokens : List Token) : Run :=
  let parsed := parse record tokens
  if parsed.isSuccess then
    let built := buildSymbols record tokens
    if built.isSuccess then
      (typecheck record built.symbols tokens).precededBy (parsed.trace ++ built.trace)
    else
      built.precededBy parsed.trace
  else
    parsed

end SimpleC
