/-!
# Tokens

A program reaches the checker as a list of tokens. A token is a kind and a
text. The four payload kinds (identifiers and the literals) are told apart by
their kind and may hold any text; a token of any other kind is bare and stands
for its own spelling, so that the kind of a bare token carries no information
beyond that it is bare.
-/

namespace SimpleC

/-- The categories of tokens. The first four carry a payload. -/
inductive TokenKind where
  | identifier
  | intLiteral
  | realLiteral
  | strLiteral
  | keyword
  | operator
  | punctuation
  | endMarker
  deriving DecidableEq, Inhabited

namespace TokenKind

/-- Every kind, payload kinds first. -/
def all : List TokenKind :=
  [identifier, intLiteral, realLiteral, strLiteral, keyword, operator, punctuation, endMarker]

/-- Whether tokens of the kind carry a payload. -/
def hasPayload : TokenKind → Bool
  | identifier | intLiteral | realLiteral | strLiteral => true
  | keyword | operator | punctuation | endMarker => false

/-- The name of a kind, which is also the tag of a payload token. -/
def name : TokenKind → String
  | identifier => "identifier"
  | intLiteral => "int_literal"
  | realLiteral => "real_literal"
  | strLiteral => "str_literal"
  | keyword => "keyword"
  | operator => "operator"
  | punctuation => "punctuation"
  | endMarker => "eof"

/-- The kinds that carry a payload. -/
def payloadKinds : List TokenKind :=
  all.filter hasPayload

/-- No kind is missing from the list of all. -/
theorem mem_all (kind : TokenKind) : kind ∈ all := by
  cases kind <;> simp [all]

/-- Different kinds have different names. -/
theorem name_injective {left right : TokenKind} (h : left.name = right.name) :
    left = right := by
  cases left <;> cases right <;> simp_all [name]

end TokenKind

/-- A token of the program under check. -/
structure Token where
  kind : TokenKind
  text : String
  deriving DecidableEq, Inhabited

namespace Token

/-- The spelling of a bare token; a payload token has none. -/
def spelling? (token : Token) : Option String :=
  if token.kind.hasPayload then none else some token.text

/-- Whether this is the bare token with the given spelling. -/
def isSpelled (token : Token) (spelling : String) : Bool :=
  token.spelling? == some spelling

/-- Payload tokens are never taken for a bare token. -/
theorem isSpelled_eq_true_iff (token : Token) (spelling : String) :
    token.isSpelled spelling = true ↔
      token.kind.hasPayload = false ∧ token.text = spelling := by
  unfold isSpelled spelling?
  split <;> simp_all

end Token

end SimpleC
