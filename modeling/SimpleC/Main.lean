import SimpleC.CommandLine.Session

/-!
# The program

A session in the surroundings of a process: its files, its standard input and
its two outputs.
-/

namespace SimpleC.CommandLine

/-- The number of an error of the system, which may be reported with its sign
reversed. -/
def systemNumber (code : UInt32) : Nat :=
  if code < 0x80000000 then code.toNat else (0 - code).toNat

/-- The fault with the given number; one without a name of its own has the given
text. -/
def FileFault.ofNumber (number : Nat) (text : String) : FileFault :=
  let named := [.notFound, .alreadyExists, .notADirectory, .isADirectory, .nameTooLong]
  (named.find? (fun fault => fault.number = number)).getD (.other number text)

/-- The fault that an error of the system amounts to. -/
def FileFault.ofSystem : IO.Error → FileFault
  | .noFileOrDirectory .. => .notFound
  | .alreadyExists .. => .alreadyExists
  | .inappropriateType _ code text => .ofNumber (systemNumber code) text
  | .invalidArgument _ code text => .ofNumber (systemNumber code) text
  | .permissionDenied _ code text => .ofNumber (systemNumber code) text
  | error => .other 0 (toString error)

/-- Carries out an operation on the file of the given path. What fails for another
reason than that the system refuses it, such as reading a file that is no text, is
not dealt with. -/
def attempt {α : Type} (path : String) (operation : IO α) : IO (Except FileError α) := do
  try
    return .ok (← operation)
  catch
    | .userError text => throw (.userError text)
    | error => return .error ⟨.ofSystem error, path⟩

/-- What stands at a path of the file system. -/
def kindOfPath (path : String) : IO (Option FileKind) := do
  try
    if ← (← IO.FS.realPath path).isDir then
      return some .directory
    else
      return some .file
  catch _ =>
    return none

/-- The surroundings of a process. Making pictures is left out. -/
def processHost : Host IO where
  argumentRules := .late
  kindOf := kindOfPath
  readFile path := attempt path (IO.FS.readFile path)
  writeFile path content := attempt path (IO.FS.writeFile path content)
  makeDirectory path := attempt path (IO.FS.createDir path)
  makePicture _ _ := return .error noPictureProgram
  readInput := do (← IO.getStdin).readToEnd
  print text := IO.print text
  report text := IO.eprint text

end SimpleC.CommandLine

/-- Runs one session; its answer is the exit code of the process. -/
def main (arguments : List String) : IO UInt32 := do
  return (← SimpleC.CommandLine.processHost.session arguments).toUInt32
