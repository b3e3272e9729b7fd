import SimpleC.CommandLine.Options
import SimpleC.Text.CodeRanges
import SimpleC.Text.Quoted

/-!
# Arguments of the command line

An argument is read as an option by itself: under one of its names, under the
beginning of a long name that no other long name shares, with a value after an
equals sign, or as letters in a row after one hyphen. A value may also be the
next argument, unless that one looks like an option. Everything else is not
recognized, but this is complained about only after all options were read.

What may be attached to an option depends on the surroundings, which read their
command lines by one of two sets of rules.
-/

namespace SimpleC.CommandLine

/-- The rules for what is attached to options. -/
inductive ArgumentRules where
  /-- Two hyphens that are attached as a value stand for no value. An equals sign among
  letters is one of them, and a letter that is no short name is a misuse. -/
  | early
  /-- A value is what is attached. An equals sign among letters sets a value apart, and
  letters from one on that is no short name are not recognized. -/
  | late
  deriving DecidableEq

/-- What is attached to an option, and whether an equals sign sets it apart. -/
structure Attachment where
  apart : Bool
  text : List Char
  deriving DecidableEq

/-- What a single argument looks like. -/
inductive Argument where
  /-- No option. -/
  | plain
  /-- The mark after which nothing is an option. -/
  | separator
  /-- An option of no known name. -/
  | unknown
  /-- An option under its full name, perhaps with a value attached. -/
  | option (setting : Setting) (name : String) (attached? : Option Attachment)
  deriving DecidableEq

/-- Misuses of the command line. -/
inductive Misuse where
  | ambiguous (argument : String) (names : List String)
  | missingValue (setting : Setting)
  | unwantedValue (setting : Setting) (value : String)
  | unrecognized (arguments : List String)
  deriving DecidableEq

/-- The message that reports a misuse. -/
def Misuse.message : Misuse → String
  | ambiguous argument names =>
      "ambiguous option: " ++ argument ++ " could match " ++ String.intercalate ", " names
  | missingValue setting =>
      "argument " ++ setting.describe ++ ": expected one argument"
  | unwantedValue setting value =>
      "argument " ++ setting.describe ++ ": ignored explicit argument " ++ Text.quote value
  | unrecognized arguments =>
      "unrecognized arguments: " ++ String.intercalate " " arguments

namespace Argument

/-- Cuts an argument at its first equals sign. -/
def cutAtEquals : List Char → List Char × Option (List Char)
  | [] => ([], none)
  | c :: rest =>
      if c = '=' then
        ([], some rest)
      else
        let (name, value?) := cutAtEquals rest
        (c :: name, value?)

/-- A number with a minus sign, which is a value and not an option. A line feed
at its end is no obstacle. -/
def isNegativeNumber (argument : List Char) : Bool :=
  let body := if argument.getLast? = some '\n' then argument.dropLast else argument
  match body with
  | '-' :: digits =>
      match digits.dropWhile Text.isDecimalDigit with
      | [] => !digits.isEmpty
      | '.' :: fraction => !fraction.isEmpty && fraction.all Text.isDecimalDigit
      | _ => false
  | _ => false

/-- The options whose names the argument may abbreviate, in the order of listing.
After two hyphens it is the beginning of a long name; after one it is a short
name with a value attached. -/
def candidates (argument : List Char) : List (Setting × String × Option Attachment) :=
  match argument with
  | '-' :: '-' :: _ =>
      let (name, value?) := cutAtEquals argument
      Setting.allNames.filterMap (fun entry =>
        if name.isPrefixOf entry.1.toList then
          some (entry.2, entry.1, value?.map (Attachment.mk true))
        else
          none)
  | '-' :: letter :: value =>
      Setting.allNames.filterMap (fun entry =>
        if entry.1.toList = ['-', letter] then
          some (entry.2, entry.1, some ⟨false, value⟩)
        else
          none)
  | _ => []

/-- Reads an argument that begins with a hyphen and is no option's full name. -/
def ofAbbreviation (argument : String) : Except Misuse Argument :=
  match candidates argument.toList with
  | [(setting, name, attached?)] => .ok (option setting name attached?)
  | [] =>
      if isNegativeNumber argument.toList || argument.toList.contains ' ' then
        .ok plain
      else
        .ok unknown
  | several => .error (.ambiguous argument (several.map (fun candidate => candidate.2.1)))

/-- Reads an argument before the separator. -/
def ofString (argument : String) : Except Misuse Argument :=
  match argument.toList with
  | '-' :: _ :: _ =>
      match Setting.ofName? argument with
      | some setting => .ok (option setting argument none)
      | none =>
          let (name, value?) := cutAtEquals argument.toList
          match value?, Setting.ofName? (String.ofList name) with
          | some value, some setting =>
              .ok (option setting (String.ofList name) (some ⟨true, value⟩))
          | _, _ => ofAbbreviation argument
  | _ => .ok plain

/-- Reads all arguments; after the separator none is an option. -/
def ofStrings : List String → Except Misuse (List (String × Argument))
  | [] => .ok []
  | argument :: rest =>
      if argument = "--" then
        .ok ((argument, separator) :: rest.map (fun other => (other, plain)))
      else do
        let read ← ofString argument
        return (argument, read) :: (← ofStrings rest)

end Argument

/-- What an argument that is an option asks for: settings to switch on, and then
perhaps letters that are not recognized, a setting with what is attached to it as its
value, or a setting whose value is the next argument. -/
inductive Demand where
  | switches (settings : List Setting) (leftover? : Option String)
  | valued (settings : List Setting) (setting : Setting) (value? : Option String)
  | awaiting (settings : List Setting) (setting : Setting)
  deriving DecidableEq

namespace Demand

/-- The demand with one more setting to switch on before the others. -/
def after (setting : Setting) : Demand → Demand
  | switches settings leftover? => switches (setting :: settings) leftover?
  | valued settings other value? => valued (setting :: settings) other value?
  | awaiting settings other => awaiting (setting :: settings) other

/-- The demand of a setting that stands alone. -/
def ofSetting (setting : Setting) : Demand :=
  if setting.takesValue then awaiting [] setting else switches [setting] none

/-- The value that attached characters stand for, if they stand for one. -/
def attachedValue (rules : ArgumentRules) (text : List Char) : Option String :=
  if rules = .early ∧ text = ['-', '-'] then none else some (String.ofList text)

/-- The demand of a setting under its short name with characters attached. They are
its value if it takes one; otherwise the first of them is the short name of the
next setting, to which the others are attached. -/
def ofLetters (rules : ArgumentRules) (setting : Setting) (apart : Bool) (text : List Char) :
    Except Misuse Demand :=
  if setting.takesValue then
    .ok (valued [] setting (attachedValue rules text))
  else
    match text with
    | [] => .error (.unwantedValue setting "")
    | letter :: rest =>
        if rules = .late ∧ (apart ∨ letter = '-') then
          .error (.unwantedValue setting (String.ofList (letter :: rest)))
        else
          match Setting.ofName? (String.ofList ['-', letter]), rules, rest with
          | none, .early, _ => .error (.unwantedValue setting (String.ofList (letter :: rest)))
          | none, .late, _ => .ok (switches [setting] (some (String.ofList ('-' :: letter :: rest))))
          | some next, _, [] => .ok ((ofSetting next).after setting)
          | some next, .late, '=' :: value => (ofLetters .late next true value).map (after setting)
          | some next, rules, rest => (ofLetters rules next false rest).map (after setting)

/-- The demand of an option under the given name. What is attached to a long name
can only be a value. -/
def ofOption (rules : ArgumentRules) (setting : Setting) (name : String)
    (attached? : Option Attachment) : Except Misuse Demand :=
  match attached? with
  | none => .ok (ofSetting setting)
  | some attached =>
      if setting.takesValue then
        .ok (valued [] setting (attachedValue rules attached.text))
      else if name.toList.length = 2 then
        ofLetters rules setting attached.apart attached.text
      else
        .error (.unwantedValue setting (String.ofList attached.text))

end Demand

/-- What a call of the program asks for. -/
inductive Request where
  | help
  | run (options : Options)
  deriving DecidableEq

/-- What is known while the arguments are read: the options so far, and what was
not recognized. -/
structure Reading where
  options : Options
  unrecognized : List String

namespace Reading

/-- Nothing was read. -/
def start : Reading :=
  ⟨.default, []⟩

/-- Switches settings on; the answer is `none` when help is among them. -/
def switchOn (reading : Reading) (settings : List Setting) : Option Reading :=
  if .help ∈ settings then
    none
  else
    some { reading with options := settings.foldl Options.switchOn reading.options }

/-- Gives a setting its value, if there is one. -/
def assign (reading : Reading) (setting : Setting) (value? : Option String) : Reading :=
  { reading with options := reading.options.assign value? setting }

/-- Sets an argument aside as not recognized. -/
def setAside (reading : Reading) (argument : String) : Reading :=
  { reading with unrecognized := reading.unrecognized ++ [argument] }

/-- What the call asks for when all arguments were read. -/
def finish (reading : Reading) : Except Misuse Request :=
  if reading.unrecognized.isEmpty then
    .ok (.run reading.options)
  else
    .error (.unrecognized reading.unrecognized)

/-- Reads the arguments in order. -/
def go (rules : ArgumentRules) (reading : Reading) (arguments : List (String × Argument)) :
    Except Misuse Request :=
  match arguments with
  | [] => reading.finish
  | (argument, .plain) :: rest => go rules (reading.setAside argument) rest
  | (argument, .separator) :: rest => go rules (reading.setAside argument) rest
  | (argument, .unknown) :: rest => go rules (reading.setAside argument) rest
  | (_, .option setting name attached?) :: rest =>
      match Demand.ofOption rules setting name attached? with
      | .error misuse => .error misuse
      | .ok (.switches settings leftover?) =>
          match reading.switchOn settings with
          | some reading => go rules (leftover?.elim reading reading.setAside) rest
          | none => .ok .help
      | .ok (.valued settings setting value?) =>
          match reading.switchOn settings with
          | some reading => go rules (reading.assign setting value?) rest
          | none => .ok .help
      | .ok (.awaiting settings setting) =>
          match rest with
          | (value, .plain) :: rest =>
              match reading.switchOn settings with
              | some reading => go rules (reading.assign setting (some value)) rest
              | none => .ok .help
          | _ => .error (.missingValue setting)

end Reading

/-- What the arguments of a call ask for. Every argument is read by itself before
any is obeyed. -/
def Request.ofArguments (rules : ArgumentRules) (arguments : List String) :
    Except Misuse Request := do
  Reading.start.go rules (← Argument.ofStrings arguments)

end SimpleC.CommandLine
