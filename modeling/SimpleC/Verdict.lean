import SimpleC.Recognizer.State

/-!
# Verdicts

A program is accepted, or it is rejected for its first violation.
-/

namespace SimpleC

/-- The answer to whether a program obeys the rules. -/
inductive Verdict where
  | success
  | failure (phase : Phase) (message : String)
  | fault (fault : Fault)
  deriving DecidableEq, Inhabited

namespace Verdict

/-- Whether the program is accepted. -/
def isSuccess : Verdict → Bool
  | success => true
  | failure .. | fault .. => false

/-- The verdict on one line. -/
def render : Verdict → String
  | success => "success"
  | failure phase message => phase.heading ++ ": " ++ message
  | fault _ => "internal_error"

/-- The verdict after an early end. -/
def ofStop : Stop → Verdict
  | .violation violation => failure violation.phase violation.message
  | .fault reason => fault reason

end Verdict

/-- The verdict on a program and what was found on the way to it. -/
structure Report where
  verdict : Verdict
  symbols : SymbolTable
  warnings : List String
  tree? : Option Node
  deriving Inhabited

end SimpleC
