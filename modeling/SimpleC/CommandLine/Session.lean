import SimpleC.CommandLine.Drawing
import SimpleC.CommandLine.Usage
import SimpleC.Derivation.Json
import SimpleC.Derivation.Outline
import SimpleC.Json.Document
import SimpleC.Run
import SimpleC.Token.Item

/-!
# Sessions

One call of the program: it reads the tokens, checks them, shows and writes what
is asked for, and ends with the verdict. What is shown or written, or fails to be,
has no influence on the verdict. A path that holds the null character is not
provided for, except for the path of a drawing: it ends the call at once.
-/

namespace SimpleC.CommandLine

/-- The exit code of a call: zero for an accepted program. -/
def exitCode (verdict : Verdict) : Nat :=
  if verdict.isSuccess then 0 else 1

/-- The run that the options ask for. -/
def runOf (options : Options) (tokens : List Token) : Run :=
  if options.staged then
    checkStaged options.needsTree tokens
  else
    check options.needsTree tokens

/-- The lines of the log: every event if that is asked for, else warnings alone. -/
def logLines (verbose : Bool) (trace : List Event) : List String :=
  (trace.filter (fun event => verbose || event.level = .warning)).map
    (fun event => event.level.name ++ ": " ++ event.text)

/-- A report as a JSON value. -/
def reportJson (report : Report) : Json :=
  .object
    [("result", .text report.verdict.render),
      ("symbols", report.symbols.toJson),
      ("warnings", .array (report.warnings.map Json.text)),
      ("tree", derivationJson report.tree?)]

/-- What is shown before anything is written: the tokens, the derivation and the
symbols, as far as they are asked for. -/
def shownLines (options : Options) (tokens : List Token) (report : Report) : List String :=
  (if options.printTokens then
    [tokenListing tokens defaultListingLimit] else []) ++
  (if options.printTree then
    ["\nDerivation:", derivationOutline 0 report.tree?] else []) ++
  (if options.printSymbols then
    ["\nSymbols:", report.symbols.listing] else [])

namespace Host

variable {m : Type → Type} [Monad m]

/-- Writes a line to the standard output. -/
def printLine (host : Host m) (line : String) : m Unit :=
  host.print (line ++ "\n")

/-- Writes a report as JSON and tells whether that succeeded, unless the path is no
path at all. The answer is whether the call can go on. -/
def dump (host : Host m) (path : String) (report : Report) : m Bool := do
  match ← host.writeText path (reportJson report).render with
  | .ok () =>
      host.printLine ("Wrote derivation JSON to " ++ path)
      return true
  | .error (.refused error) =>
      host.printLine ("Failed to write derivation JSON to " ++ path ++ ": " ++ error.message)
      return true
  | .error .nullCharacter => return false

/-- Writes a report as JSON if that is asked for. -/
def dumpTo (host : Host m) (path? : Option String) (report : Report) : m Bool :=
  match path? with
  | some path => host.dump path report
  | none => return true

/-- Draws a derivation and tells whether that succeeded. -/
def drawReport (host : Host m) (path : String) (format? : Option String) (report : Report) :
    m Unit := do
  match ← host.draw path format? report.verdict.render report.tree? with
  | .ok picture => host.printLine ("Wrote derivation visualization to " ++ picture)
  | .error error =>
      host.printLine
        ("Failed to render derivation visualization to " ++ path ++ ": " ++ error.message)

/-- Writes the log of a run, and shows what is asked for. -/
def announce (host : Host m) (options : Options) (tokens : List Token) (run : Run) : m Unit := do
  (logLines options.verbose run.trace).forM (fun line => host.report (line ++ "\n"))
  (shownLines options tokens run.report).forM host.printLine

/-- Writes the files that are asked for. The answer is whether the call can go on. -/
def writeFiles (host : Host m) (options : Options) (report : Report) : m Bool := do
  if ← host.dumpTo options.dumpTree? report then
    options.vizTree?.forM (fun path => host.drawReport path options.vizFormat? report)
    return true
  else
    return false

/-- Ends a call that cannot go on, with the exit code of a failure. -/
def breakOff (host : Host m) : m Nat := do
  host.report (AccessError.nullCharacter.message ++ "\n")
  return 1

/-- Checks tokens, shows and writes what is asked for, and prints the verdict. -/
def process (host : Host m) (options : Options) (tokens : List Token) : m Nat := do
  let run := runOf options tokens
  host.announce options tokens run
  if ← host.writeFiles options run.report then
    host.printLine run.verdict.render
    return exitCode run.verdict
  else
    host.breakOff

/-- Reads the tokens from the file that is asked for, or else from the standard input,
and checks them. -/
def perform (host : Host m) (options : Options) : m Nat := do
  match options.file? with
  | none => host.process options (readTokens (← host.readInput))
  | some path =>
      match ← host.readText path with
      | .ok text => host.process options (readTokens text)
      | .error (.refused error) =>
          host.printLine ("Failed to read file " ++ path ++ ": " ++ error.message)
          return 1
      | .error .nullCharacter => host.breakOff

/-- One call of the program with the given arguments; the answer is its exit
code. -/
def session (host : Host m) (arguments : List String) : m Nat := do
  match Request.ofArguments host.argumentRules arguments with
  | .ok .help =>
      host.print help
      return 0
  | .ok (.run options) => host.perform options
  | .error misuse =>
      host.report (misuseReport misuse)
      return 2

end Host

end SimpleC.CommandLine
