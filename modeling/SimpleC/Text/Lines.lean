import SimpleC.Text.CodeRanges

/-!
# Lines of a text

A text falls into the pieces between the places where a separator stands. Its
lines are such pieces: a line feed ends a line, carriage returns that stand
before it are no part of the line, and blank lines carry nothing.
-/

namespace SimpleC.Text

/-- The pieces of a text between its separators. There is always one piece more
than there are separators. -/
def splitOn (separator : Char) : List Char → List (List Char)
  | [] => [[]]
  | c :: rest =>
      if c = separator then
        [] :: splitOn separator rest
      else
        match splitOn separator rest with
        | [] => [[c]]
        | piece :: pieces => (c :: piece) :: pieces

/-- A list without its longest ending all of whose members satisfy a test. -/
def dropEnding {α : Type} (test : α → Bool) (items : List α) : List α :=
  (items.reverse.dropWhile test).reverse

/-- A character that only marks the end of a line. -/
def isLineEnd (c : Char) : Bool :=
  c = '\r' || c = '\n'

/-- The lines of a text that are not blank, without the marks that end them. -/
def significantLines (text : List Char) : List (List Char) :=
  ((splitOn '\n' text).map (dropEnding isLineEnd)).filter (fun line => !isBlank line)

/-- Characters in which every line ends with a line feed alone, whatever mark it
ended with before: a line feed, a carriage return, or both. -/
def endLines : List Char → List Char
  | [] => []
  | '\r' :: '\n' :: rest => '\n' :: endLines rest
  | c :: rest => (if c = '\r' then '\n' else c) :: endLines rest

/-- A text from outside with all its lines ended by line feeds alone. -/
def normalizeLineEnds (text : String) : String :=
  String.ofList (endLines text.toList)

end SimpleC.Text
