/-!
# Options of the command line

The settings that can be given on the command line, the names they go by, and
the options that result from them.
-/

namespace SimpleC.CommandLine

/-- What can be asked for on the command line. -/
inductive Setting where
  | help
  | file
  | staged
  | printTokens
  | printTree
  | printSymbols
  | dumpTree
  | vizTree
  | vizFormat
  | verbose
  deriving DecidableEq, Inhabited

namespace Setting

/-- Every setting, in the order in which they are listed. -/
def all : List Setting :=
  [help, file, staged, printTokens, printTree, printSymbols, dumpTree, vizTree, vizFormat,
    verbose]

/-- The names of a setting, each a word after two hyphens or a letter after one. -/
def names : Setting → List String
  | help => ["-h", "--help"]
  | file => ["--file", "-f"]
  | staged => ["--staged"]
  | printTokens => ["--print-tokens"]
  | printTree => ["--print-tree"]
  | printSymbols => ["--print-symbols"]
  | dumpTree => ["--dump-tree"]
  | vizTree => ["--viz-tree"]
  | vizFormat => ["--viz-format"]
  | verbose => ["--verbose", "-v"]

/-- Whether a setting comes with a value; the others are switched on. -/
def takesValue : Setting → Bool
  | file | dumpTree | vizTree | vizFormat => true
  | help | staged | printTokens | printTree | printSymbols | verbose => false

/-- Each name with its setting, in the order in which they are listed. -/
def allNames : List (String × Setting) :=
  all.flatMap (fun setting => setting.names.map (fun name => (name, setting)))

/-- The setting of the given name. -/
def ofName? (name : String) : Option Setting :=
  (allNames.find? (fun entry => entry.1 = name)).map Prod.snd

/-- How messages refer to a setting. -/
def describe (setting : Setting) : String :=
  String.intercalate "/" setting.names

end Setting

/-- The options of one call of the program. -/
structure Options where
  file? : Option String
  staged : Bool
  printTokens : Bool
  printTree : Bool
  printSymbols : Bool
  dumpTree? : Option String
  vizTree? : Option String
  /-- The format of the drawing; `none` when the option was given without one. -/
  vizFormat? : Option String
  verbose : Bool
  deriving DecidableEq, Inhabited

namespace Options

/-- The options when nothing is asked for. -/
def default : Options :=
  { file? := none
    staged := false
    printTokens := false
    printTree := false
    printSymbols := false
    dumpTree? := none
    vizTree? := none
    vizFormat? := some "svg"
    verbose := false }

/-- A path that was given; the empty one counts as not given. -/
def givenPath (path? : Option String) : Option String :=
  path?.filter (fun path => !path.isEmpty)

/-- The options with one more setting switched on. -/
def switchOn (options : Options) : Setting → Options
  | .staged => { options with staged := true }
  | .printTokens => { options with printTokens := true }
  | .printTree => { options with printTree := true }
  | .printSymbols => { options with printSymbols := true }
  | .verbose => { options with verbose := true }
  | .help | .file | .dumpTree | .vizTree | .vizFormat => options

/-- The options with the value of one more setting, or with none, in place of what
the setting had before. -/
def assign (options : Options) (value? : Option String) : Setting → Options
  | .file => { options with file? := givenPath value? }
  | .dumpTree => { options with dumpTree? := givenPath value? }
  | .vizTree => { options with vizTree? := givenPath value? }
  | .vizFormat => { options with vizFormat? := value? }
  | .help | .staged | .printTokens | .printTree | .printSymbols | .verbose => options

/-- Whether the derivation is needed for what is asked for. -/
def needsTree (options : Options) : Bool :=
  options.printTree || options.dumpTree?.isSome || options.vizTree?.isSome

end Options

end SimpleC.CommandLine
