import SimpleC.CommandLine.Host
import SimpleC.Text.Lines

/-!
# File trees

A world in memory that the program can run in: a tree of directories and files,
an input that is there from the start, and outputs that are collected. Its input
comes as from a stream that ends all lines with line feeds, and its arguments are
read by the early rules. No program for pictures is in it.
-/

namespace SimpleC.CommandLine

/-- The names of the directories from the outermost to a place in the tree. -/
abbrev Route := List String

/-- What a directory holds under one name. -/
inductive Entry where
  | file (content : String)
  | directory (entries : List (String × Entry))
  deriving Inhabited

/-- A tree of directories and files is what its outermost directory holds. The names
stand in the order in which they were taken. -/
abbrev FileTree := List (String × Entry)

/-- Where a path leads to. -/
inductive Place where
  | directory (route : Route)
  | file (route : Route) (content : String)
  /-- A name that is free in a directory that exists. -/
  | vacant (route : Route)
  /-- A name in a directory that exists, longer than the name of any file. -/
  | unnamable
  deriving DecidableEq

namespace FileTree

/-- The tree without files. -/
def empty : FileTree :=
  []

/-- What the directory of the given name holds. -/
def inside (tree : FileTree) (name : String) : FileTree :=
  match tree.lookup name with
  | some (.directory entries) => entries
  | some (.file _) | none => []

/-- The tree with an entry under a name, in place of an earlier one. -/
def put (entry : Entry) (name : String) : FileTree → FileTree
  | [] => [(name, entry)]
  | (other, earlier) :: rest =>
      if other = name then
        (name, entry) :: rest
      else
        (other, earlier) :: put entry name rest

/-- The tree with a directory at a place, and all directories around it. -/
def withDirectory (tree : FileTree) : Route → FileTree
  | [] => tree
  | name :: rest => tree.put (.directory (withDirectory (tree.inside name) rest)) name

/-- The tree with a file at a place, in place of an earlier one, and all directories
around it. -/
def withFile (content : String) (tree : FileTree) : Route → FileTree
  | [] => tree
  | [name] => tree.put (.file content) name
  | name :: rest => tree.put (.directory (withFile content (tree.inside name) rest)) name

/-- The text of the file at a place. -/
def content? (tree : FileTree) : Route → Option String
  | [] => none
  | name :: rest =>
      match tree.lookup name with
      | some (.directory entries) => content? entries rest
      | some (.file content) => if rest.isEmpty then some content else none
      | none => none

mutual

/-- The files of an entry that stands at a place. -/
def filesOf (route : Route) (entry : Entry) : List (Route × String) :=
  match entry with
  | .file content => [(route, content)]
  | .directory entries => filesBelow route entries

/-- The files below a place that holds the given entries. -/
def filesBelow (route : Route) (entries : List (String × Entry)) : List (Route × String) :=
  match entries with
  | [] => []
  | (name, entry) :: rest => filesOf (route ++ [name]) entry ++ filesBelow route rest

end

/-- The files of a tree, each with its place. -/
def files (tree : FileTree) : List (Route × String) :=
  filesBelow [] tree

/-- The names along a path. -/
def pathNames (path : String) : List String :=
  ((Text.splitOn '/' path.toList).filter (fun name => !name.isEmpty)).map String.ofList

/-- Whether a path can lead to a directory alone. -/
def namesDirectory (path : String) : Bool :=
  path.toList.getLast? = some '/'

/-- The greatest length of a name, in bytes. -/
def nameLimit : Nat := 255

/-- The greatest length of a path, in bytes. -/
def pathLimit : Nat := 4095

/-- The place that lies behind the given names, the innermost first. -/
def routeBehind (around : List (String × FileTree)) : Route :=
  (around.map Prod.fst).reverse

/-- Follows names from a directory. All but the last have to be directories. The
directories on the way to it are at hand from the innermost to the outermost, each
with the name that was followed there. -/
def follow (mustBeDirectory : Bool) (around : List (String × FileTree)) (here : FileTree) :
    List String → Except FileFault Place
  | [] => .ok (.directory (routeBehind around))
  | name :: rest =>
      if name = "." then
        follow mustBeDirectory around here rest
      else if name = ".." then
        match around with
        | [] => follow mustBeDirectory [] here rest
        | (_, outer) :: around => follow mustBeDirectory around outer rest
      else if nameLimit < name.utf8ByteSize then
        if rest.isEmpty then .ok .unnamable else .error .nameTooLong
      else
        let around := (name, here) :: around
        match here.lookup name with
        | some (.directory entries) => follow mustBeDirectory around entries rest
        | some (.file content) =>
            if rest.isEmpty && !mustBeDirectory then
              .ok (.file (routeBehind around) content)
            else
              .error .notADirectory
        | none =>
            if rest.isEmpty then .ok (.vacant (routeBehind around)) else .error .notFound

/-- Where a path leads to. -/
def resolve (tree : FileTree) (mustBeDirectory : Bool) (path : String) :
    Except FileFault Place :=
  if pathLimit < path.utf8ByteSize then
    .error .nameTooLong
  else
    follow mustBeDirectory [] tree (pathNames path)

/-- Where a path leads to that may name a directory by a slash at its end. -/
def locate (tree : FileTree) (path : String) : Except FileFault Place :=
  tree.resolve (namesDirectory path) path

/-- What stands at a path. -/
def kindOf (tree : FileTree) (path : String) : Option FileKind :=
  match tree.locate path with
  | .ok (.directory _) => some .directory
  | .ok (.file ..) => some .file
  | .ok (.vacant _) | .ok .unnamable | .error _ => none

/-- Reads the file at a path. -/
def read (tree : FileTree) (path : String) : Except FileError String :=
  match tree.locate path with
  | .ok (.file _ content) => .ok content
  | .ok (.directory _) => .error ⟨.isADirectory, path⟩
  | .ok (.vacant _) => .error ⟨.notFound, path⟩
  | .ok .unnamable => .error ⟨.nameTooLong, path⟩
  | .error fault => .error ⟨fault, path⟩

/-- Writes a file at a path. A path that names a directory is refused as one, even
where there is none. -/
def write (tree : FileTree) (path content : String) : Except FileError FileTree :=
  match tree.resolve false path with
  | .error fault => .error ⟨fault, path⟩
  | .ok place =>
      if namesDirectory path then
        .error ⟨.isADirectory, path⟩
      else
        match place with
        | .directory _ => .error ⟨.isADirectory, path⟩
        | .file route _ | .vacant route => .ok (tree.withFile content route)
        | .unnamable => .error ⟨.nameTooLong, path⟩

/-- Makes a directory at a path. -/
def makeDirectory (tree : FileTree) (path : String) : Except FileError FileTree :=
  match tree.locate path with
  | .ok (.vacant route) => .ok (tree.withDirectory route)
  | .ok (.directory _) | .ok (.file ..) => .error ⟨.alreadyExists, path⟩
  | .ok .unnamable => .error ⟨.nameTooLong, path⟩
  | .error fault => .error ⟨fault, path⟩

/-- A place as it is written in a path. -/
def routePath (route : Route) : String :=
  String.intercalate "/" route

end FileTree

/-- A world in memory. -/
structure World where
  files : FileTree
  input : String
  output : String
  errors : String
  deriving Inhabited

namespace World

/-- Applies a change to the files. A change that fails leaves them as they are. -/
def change (operation : FileTree → Except FileError FileTree) :
    StateM World (Except FileError Unit) := do
  let world ← get
  match operation world.files with
  | .ok files =>
      set { world with files := files }
      return .ok ()
  | .error error => return .error error

/-- The operations on a world in memory. -/
def host : Host (StateM World) where
  argumentRules := .early
  kindOf path := return (← get).files.kindOf path
  readFile path := return (← get).files.read path
  writeFile path content := change (fun files => files.write path content)
  makeDirectory path := change (fun files => files.makeDirectory path)
  makePicture _ _ := return .error noPictureProgram
  readInput := return Text.normalizeLineEnds (← get).input
  print text := modify (fun world => { world with output := world.output ++ text })
  report text := modify (fun world => { world with errors := world.errors ++ text })

end World

end SimpleC.CommandLine
