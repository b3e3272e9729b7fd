import SimpleC.Text.Quoted

/-!
# Identifiers of the DOT language

Attribute values in a DOT text are identifiers: words, numerals, markup between
angle brackets, or any text between double quotes. A value is written as it is
where the language allows it and between quotes otherwise. Inside quotes only
the quote is escaped: backslashes are kept, since labels may use them for
escapes of their own.
-/

namespace SimpleC.Dot

/-- A text without the line feed at its end, if it has one. -/
def dropFinalLineFeed (text : List Char) : List Char :=
  if text.getLast? = some '\n' then text.dropLast else text

/-- Text between angle brackets, which is taken for markup. -/
def isMarkup (text : List Char) : Bool :=
  2 ≤ text.length && text.head? = some '<' && text.getLast? = some '>'

/-- A letter, or the low line that counts as one. -/
def isLetter (c : Char) : Bool :=
  c.isAlpha || c = '_'

/-- A word of letters and digits that begins with a letter. -/
def isWord (text : List Char) : Bool :=
  match text with
  | [] => false
  | first :: rest => isLetter first && rest.all (fun c => isLetter c || c.isDigit)

/-- Digits with at most one point among them and at least one digit. -/
def isUnsignedNumeral (text : List Char) : Bool :=
  let whole := text.takeWhile Char.isDigit
  match text.dropWhile Char.isDigit with
  | [] => !whole.isEmpty
  | c :: fraction =>
      c = '.' && fraction.all Char.isDigit && !(whole.isEmpty && fraction.isEmpty)

/-- An unsigned numeral, perhaps after a minus sign. -/
def isNumeral (text : List Char) : Bool :=
  match text with
  | '-' :: rest => isUnsignedNumeral rest
  | _ => isUnsignedNumeral text

/-- The words that the language keeps for itself, in any mixture of cases. -/
def reserved : List String :=
  ["node", "edge", "graph", "digraph", "subgraph", "strict"]

/-- Whether a text is one of the reserved words. -/
def isReserved (text : List Char) : Bool :=
  reserved.contains (String.ofList (text.map Char.toLower))

/-- Whether a text can stand for itself. A line feed at its end is no obstacle. -/
def isPlain (text : List Char) : Bool :=
  let body := dropFinalLineFeed text
  isMarkup body || ((isWord body || isNumeral body) && !isReserved text)

/-- A text with every double quote escaped. Backslashes that stand before a quote
come in pairs, of which a last odd one already escapes the quote; the count of
those just met is kept until the next character tells what they are. -/
def escapeQuotes (held : Nat) (text : List Char) : List Char :=
  match text with
  | [] => List.replicate held Text.backslash
  | c :: rest =>
      if c = Text.backslash then
        escapeQuotes (held + 1) rest
      else if c = Text.doubleQuote then
        List.replicate (2 * (held / 2) + 1) Text.backslash ++ c :: escapeQuotes 0 rest
      else
        List.replicate held Text.backslash ++ c :: escapeQuotes 0 rest

/-- A text between double quotes. -/
def quoted (text : List Char) : List Char :=
  Text.doubleQuote :: escapeQuotes 0 text ++ [Text.doubleQuote]

/-- The identifier that stands for a text. -/
def identifier (text : String) : String :=
  if isPlain text.toList then text else String.ofList (quoted text.toList)

end SimpleC.Dot
