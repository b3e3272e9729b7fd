import SimpleC.CommandLine.Arguments
import SimpleC.Text.Lines

/-!
# The surroundings of the program

The program sees the world through a few operations: reading and writing files,
making directories and pictures, its input and its two outputs.

A path that holds the null character does not get as far as the world. Apart from
such paths, an operation on files fails only if the world refuses it.
-/

namespace SimpleC.CommandLine

/-- The reasons for which the world refuses an operation on files. -/
inductive FileFault where
  | notFound
  | alreadyExists
  | notADirectory
  | isADirectory
  | nameTooLong
  | other (number : Nat) (text : String)
  deriving DecidableEq

namespace FileFault

/-- The number under which a reason is known. -/
def number : FileFault → Nat
  | notFound => 2
  | alreadyExists => 17
  | notADirectory => 20
  | isADirectory => 21
  | nameTooLong => 36
  | other number _ => number

/-- The reason in words. -/
def text : FileFault → String
  | notFound => "No such file or directory"
  | alreadyExists => "File exists"
  | notADirectory => "Not a directory"
  | isADirectory => "Is a directory"
  | nameTooLong => "File name too long"
  | other _ text => text

end FileFault

/-- A refused operation on the file of the given path. -/
structure FileError where
  fault : FileFault
  path : String
  deriving DecidableEq

/-- The message gives the number, the words and the path. -/
def FileError.message (error : FileError) : String :=
  "[Errno " ++ toString error.fault.number ++ "] " ++ error.fault.text ++ ": " ++
    Text.quote error.path

/-- The reasons for which an operation on files fails. -/
inductive AccessError where
  | refused (error : FileError)
  /-- The path holds the null character, which no path can. -/
  | nullCharacter
  deriving DecidableEq

/-- The message that tells why an operation on files has failed. -/
def AccessError.message : AccessError → String
  | refused error => error.message
  | nullCharacter => "embedded null byte"

/-- What stands at a path. -/
inductive FileKind where
  | file
  | directory
  deriving DecidableEq

/-- The operations through which the program sees the world. -/
structure Host (m : Type → Type) where
  /-- The rules by which arguments are read. -/
  argumentRules : ArgumentRules
  /-- What stands at a path, if anything does. -/
  kindOf : String → m (Option FileKind)
  /-- The text of a file, with its lines ended as they are in the file. -/
  readFile : String → m (Except FileError String)
  /-- Makes a file with the given text, in place of an earlier one. -/
  writeFile : String → String → m (Except FileError Unit)
  /-- Makes a directory inside one that exists. -/
  makeDirectory : String → m (Except FileError Unit)
  /-- Makes a picture from the DOT text in the file of the given path, in the given
  format, and removes that file. The answer is the path of the picture, or the message
  that tells why there is none. -/
  makePicture : String → String → m (Except String String)
  /-- The whole of the standard input, as it comes. -/
  readInput : m String
  /-- Writes to the standard output. -/
  print : String → m Unit
  /-- Writes to the output for errors. -/
  report : String → m Unit

/-- The message of surroundings in which there is no program for pictures. -/
def noPictureProgram : String :=
  "failed to execute PosixPath(\x27dot\x27), make sure the Graphviz executables are on " ++
    "your systems\x27 PATH"

/-- Cuts a path after its last slash; the first part loses the slashes at its end
unless it has nothing else. -/
def splitPath (path : String) : String × String :=
  let name := (path.toList.reverse.takeWhile (· ≠ '/')).reverse
  let parent := path.toList.take (path.toList.length - name.length)
  let trimmed := (parent.reverse.dropWhile (· = '/')).reverse
  (String.ofList (if trimmed.isEmpty then parent else trimmed), String.ofList name)

/-- The part of a path before its last slash. -/
def parentPath (path : String) : String :=
  (splitPath path).1

/-- The last directory that a path speaks of and its name in the one around it. -/
def splitDirectory (path : String) : String × String :=
  let (parent, name) := splitPath path
  if name.isEmpty then splitPath parent else (parent, name)

/-- Whether a path holds the null character. -/
def holdsNull (path : String) : Bool :=
  path.toList.contains '\x00'

namespace Host

variable {m : Type → Type} [Monad m]

/-- Carries out an operation on the file of a path, unless it is no path at all. -/
def access {α : Type} (path : String) (operation : m (Except FileError α)) :
    m (Except AccessError α) := do
  if holdsNull path then
    return .error .nullCharacter
  else
    match ← operation with
    | .ok answer => return .ok answer
    | .error error => return .error (.refused error)

/-- The text of a file, in which line feeds end the lines. -/
def readText (host : Host m) (path : String) : m (Except AccessError String) := do
  match ← access path (host.readFile path) with
  | .ok text => return .ok (Text.normalizeLineEnds text)
  | .error error => return .error error

/-- Makes a file with the given text, in place of an earlier one. -/
def writeText (host : Host m) (path content : String) : m (Except AccessError Unit) :=
  access path (host.writeFile path content)

/-- What stands at a path. Nothing stands at what is no path at all. -/
def standing (host : Host m) (path : String) : m (Option FileKind) :=
  if holdsNull path then return none else host.kindOf path

/-- Makes a directory unless it exists. -/
def ensureDirectory (host : Host m) (path : String) : m (Except AccessError Unit) := do
  match ← access path (host.makeDirectory path) with
  | .ok () => return .ok ()
  | .error error =>
      if (← host.standing path) = some .directory then
        return .ok ()
      else
        return .error error

/-- Makes a directory and all that are needed around it; the bound limits how far
outwards this goes. A directory around it that appears in the meantime is no
obstacle. -/
def ensureDirectories (host : Host m) (bound : Nat) (path : String) :
    m (Except AccessError Unit) := do
  match bound with
  | 0 => host.ensureDirectory path
  | bound + 1 =>
      let (parent, name) := splitDirectory path
      if parent.isEmpty || name.isEmpty || (← host.standing parent).isSome then
        host.ensureDirectory path
      else
        match ← host.ensureDirectories bound parent with
        | .ok () =>
            if name = "." then return .ok () else host.ensureDirectory path
        | .error (.refused error) =>
            if error.fault = .alreadyExists then
              if name = "." then return .ok () else host.ensureDirectory path
            else
              return .error (.refused error)
        | .error .nullCharacter => return .error .nullCharacter

/-- Makes the directories around the file of the given path. -/
def ensureParents (host : Host m) (path : String) : m (Except AccessError Unit) :=
  let parent := parentPath path
  if parent.isEmpty then
    return .ok ()
  else
    host.ensureDirectories parent.toList.length parent

end Host

end SimpleC.CommandLine
