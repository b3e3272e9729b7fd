import SimpleC.Text.Printable

/-!
# Quoted texts

A text is shown on one line between two quotation marks. Single quotes are
preferred; double quotes serve a text that holds a single quote and no double
one. The mark in use, the backslash and every character without a printed form
are escaped. Escapes name a character by a hexadecimal numeral of a fixed width,
with lower-case digits and leading zeros.
-/

namespace SimpleC.Text

/-- The last `width` hexadecimal digits of a number, the highest first. -/
def hexDigits : Nat → Nat → List Char
  | 0, _ => []
  | width + 1, n => hexDigits width (n / 16) ++ [Nat.digitChar (n % 16)]

/-- The preferred quotation mark. -/
def singleQuote : Char := '\x27'

/-- The quotation mark that takes the place of a single quote. -/
def doubleQuote : Char := '\x22'

/-- The character that opens an escape. -/
def backslash : Char := '\x5c'

/-- The mark that encloses a text with the fewest escapes, single quotes first. -/
def quotationMark (text : List Char) : Char :=
  if singleQuote ∈ text ∧ doubleQuote ∉ text then doubleQuote else singleQuote

/-- An escape that names a code point: two, four or eight digits, whichever
are the fewest that hold it. -/
def escapeCode (code : Nat) : List Char :=
  if code < 0x100 then
    backslash :: 'x' :: hexDigits 2 code
  else if code < 0x10000 then
    backslash :: 'u' :: hexDigits 4 code
  else
    backslash :: 'U' :: hexDigits 8 code

/-- One character as it stands between two marks. -/
def quoteChar (mark c : Char) : List Char :=
  if c = mark ∨ c = backslash then
    [backslash, c]
  else if c = '\n' then
    [backslash, 'n']
  else if c = '\r' then
    [backslash, 'r']
  else if c = '\t' then
    [backslash, 't']
  else if isPrintable c then
    [c]
  else
    escapeCode c.toNat

/-- A text between quotation marks. -/
def quote (text : String) : String :=
  let mark := quotationMark text.toList
  String.ofList (mark :: text.toList.flatMap (quoteChar mark) ++ [mark])

end SimpleC.Text
