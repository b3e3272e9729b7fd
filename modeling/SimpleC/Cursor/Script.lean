import SimpleC.Cursor.Basic

/-!
# Scripts for cursors

A script is a list of operations on a cursor. Each is answered in turn; one that
fails leaves the cursor where it is, and the script goes on.
-/

namespace SimpleC.Cursor

/-- What can be asked of a cursor. -/
inductive Operation where
  | peek
  | atEnd
  | accepts (wanted : Expectation)
  | consume (wanted : Expectation)
  deriving DecidableEq

/-- What a cursor answers. -/
inductive Answer where
  | token (token : Token)
  | truth (value : Bool)
  | violation (violation : Violation)
  deriving DecidableEq

/-- The answer to one operation and the cursor after it. -/
def perform (cursor : Cursor) : Operation → Answer × Cursor
  | .peek =>
      match cursor.peek with
      | .ok token => (.token token, cursor)
      | .error violation => (.violation violation, cursor)
  | .atEnd => (.truth cursor.atEnd, cursor)
  | .accepts wanted => (.truth (cursor.accepts wanted), cursor)
  | .consume wanted =>
      match cursor.consume wanted with
      | .ok (token, moved) => (.token token, moved)
      | .error violation => (.violation violation, cursor)

/-- The answers to a script, each with the cursor after it. -/
def performAll (cursor : Cursor) : List Operation → List (Answer × Cursor)
  | [] => []
  | operation :: rest =>
      let (answer, after) := cursor.perform operation
      (answer, after) :: after.performAll rest

end SimpleC.Cursor
