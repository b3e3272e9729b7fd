import SimpleC.Text.Quoted

/-!
# JSON documents

The values that reports are made of are texts, lists, and objects whose members
keep their order; there may also be no value.

A JSON value is written with one item or member on a line and two blanks for
each level. Only ASCII is used: every other character is escaped by its code
units of sixteen bits, so that a character of a higher plane takes two escapes.
-/

namespace SimpleC

/-- A JSON value without numbers and truth values. -/
inductive Json where
  | null
  | text (content : String)
  | array (items : List Json)
  | object (members : List (String × Json))
  deriving Inhabited

namespace Json

/-- An escape of one code unit. -/
def escapeUnit (unit : Nat) : List Char :=
  Text.backslash :: 'u' :: Text.hexDigits 4 unit

/-- The code units of a code point: one below the limit of the basic plane, and
a high and a low surrogate above it. -/
def codeUnits (code : Nat) : List Nat :=
  if code < 0x10000 then
    [code]
  else
    [0xd800 + (code - 0x10000) / 0x400, 0xdc00 + (code - 0x10000) % 0x400]

/-- One character as it stands in a JSON string. -/
def escapeChar (c : Char) : List Char :=
  if c = Text.doubleQuote ∨ c = Text.backslash then
    [Text.backslash, c]
  else if c = '\n' then
    [Text.backslash, 'n']
  else if c = '\r' then
    [Text.backslash, 'r']
  else if c = '\t' then
    [Text.backslash, 't']
  else if c = '\x0c' then
    [Text.backslash, 'f']
  else if c = '\x08' then
    [Text.backslash, 'b']
  else if ' ' ≤ c ∧ c ≤ '~' then
    [c]
  else
    (codeUnits c.toNat).flatMap escapeUnit

/-- A JSON string. -/
def quoted (content : String) : String :=
  String.ofList
    (Text.doubleQuote :: content.toList.flatMap escapeChar ++ [Text.doubleQuote])

/-- The beginning of a line at the given level. -/
def newLine (level : Nat) : String :=
  "\n" ++ String.ofList (List.replicate (2 * level) ' ')

mutual

/-- A value whose closing bracket, if it has one, stands at the given level. -/
def document (level : Nat) (json : Json) : String :=
  match json with
  | null => "null"
  | text content => quoted content
  | array [] => "[]"
  | array (first :: rest) =>
      "[" ++ newLine (level + 1) ++ document (level + 1) first ++
        documentItems (level + 1) rest ++ newLine level ++ "]"
  | object [] => "\x7b\x7d"
  | object ((key, first) :: rest) =>
      "\x7b" ++ newLine (level + 1) ++ quoted key ++ ": " ++ document (level + 1) first ++
        documentMembers (level + 1) rest ++ newLine level ++ "\x7d"

/-- The items after the first one. -/
def documentItems (level : Nat) (items : List Json) : String :=
  match items with
  | [] => ""
  | item :: rest => "," ++ newLine level ++ document level item ++ documentItems level rest

/-- The members after the first one. -/
def documentMembers (level : Nat) (members : List (String × Json)) : String :=
  match members with
  | [] => ""
  | (key, value) :: rest =>
      "," ++ newLine level ++ quoted key ++ ": " ++ document level value ++
        documentMembers level rest

end

/-- The document of a value. -/
def render (json : Json) : String :=
  document 0 json

end Json

end SimpleC
