import SimpleC.Violation

/-!
# Cursors

A cursor stands between the tokens that were consumed and those that lie
ahead. It shows the next token and moves over it, never back.
-/

namespace SimpleC

/-- A place in a list of tokens: how many were consumed, and the rest. -/
structure Cursor where
  position : Nat
  ahead : List Token
  deriving DecidableEq, Inhabited

namespace Cursor

/-- The cursor before the first token. -/
def start (tokens : List Token) : Cursor :=
  ⟨0, tokens⟩

/-- Whether every token was consumed. -/
def atEnd (cursor : Cursor) : Bool :=
  cursor.ahead.isEmpty

/-- The next token, which has to exist. -/
def peek (cursor : Cursor) : Except Violation Token :=
  match cursor.ahead with
  | [] => .error .endOfInput
  | token :: _ => .ok token

/-- Whether the next token exists and is what is expected. -/
def accepts (cursor : Cursor) (wanted : Expectation) : Bool :=
  match cursor.ahead with
  | [] => false
  | token :: _ => wanted.accepts token

/-- Moves over the next token, which has to be what is expected. -/
def consume (cursor : Cursor) (wanted : Expectation) : Except Violation (Token × Cursor) :=
  match cursor.ahead with
  | [] => .error .endOfInput
  | token :: rest =>
      if wanted.accepts token then
        .ok (token, ⟨cursor.position + 1, rest⟩)
      else
        .error (.unexpected wanted token)

end Cursor

end SimpleC
