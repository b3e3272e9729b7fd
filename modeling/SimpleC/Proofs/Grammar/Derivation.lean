import SimpleC.Recognizer.Production

/-!
# Derivations of the grammar

The grammar as a set of rules, apart from any way to recognize it, and the lists
of tokens that can be derived from it. A bare token matches by its spelling,
whatever its kind, and a payload token matches by its kind, whatever its text.

The `else` of a conditional statement is optional, so that the grammar is
ambiguous: nothing here says to which conditional an `else` belongs.
-/

namespace SimpleC

namespace Grammar

/-- What a right-hand side is made of. -/
inductive Constituent where
  | terminal (wanted : Expectation)
  | nonterminal (production : Production)
  deriving DecidableEq

/-- The bare token of the given spelling, as part of a right-hand side. -/
abbrev bare (spelling : String) : Constituent :=
  .terminal (.spelled spelling)

/-- A payload token of the given kind, as part of a right-hand side. -/
abbrev payload (kind : TokenKind) : Constituent :=
  .terminal (.ofKind kind)

/-- What a value may be: an identifier, a literal or a truth value. -/
def valueTerminals : List Constituent :=
  [payload .identifier, payload .intLiteral, payload .realLiteral, payload .strLiteral,
    bare "true", bare "false"]

/-- What may stand between two values. -/
def operatorTerminals : List Constituent :=
  [bare "+", bare "-", bare "*", bare "/", bare "^",
    bare "<", bare "<=", bare ">", bare ">=", bare "==", bare "!="]

/-- The right-hand sides of each production. -/
inductive Rule : Production → List Constituent → Prop
  | program :
      Rule .program
        [bare "void", bare "main", bare "(", bare ")", bare "\x7b",
          .nonterminal .statements, bare "\x7d", bare "$"]
  /-- A statement and any number of further ones. -/
  | statements (further : Nat) :
      Rule .statements (List.replicate (further + 1) (.nonterminal .statement))
  | statement {form : Production}
      (hform : form ∈
        [Production.empty, .declaration, .input, .output, .assignment, .conditional]) :
      Rule .statement [.nonterminal form]
  | empty :
      Rule .empty [bare ";"]
  | declaration {word : Constituent} (hword : word ∈ [bare "int", bare "real"]) :
      Rule .declaration [word, payload .identifier, bare ";"]
  | input :
      Rule .input [bare "cin", bare ">>", payload .identifier, bare ";"]
  | output :
      Rule .output [bare "cout", bare "<<", .nonterminal .outputValue, bare ";"]
  | printedValue :
      Rule .outputValue [.nonterminal .value]
  | endOfLine :
      Rule .outputValue [bare "endl"]
  | assignment :
      Rule .assignment [payload .identifier, bare "=", .nonterminal .expression, bare ";"]
  | conditional :
      Rule .conditional
        [bare "if", bare "(", .nonterminal .condition, bare ")",
          .nonterminal .thenPart, .nonterminal .elsePart]
  | condition :
      Rule .condition [.nonterminal .expression]
  | thenPart :
      Rule .thenPart [.nonterminal .statement]
  | otherwise :
      Rule .elsePart [bare "else", .nonterminal .statement]
  | noElse :
      Rule .elsePart []
  | binary :
      Rule .expression [.nonterminal .value, .nonterminal .operator, .nonterminal .value]
  | single :
      Rule .expression [.nonterminal .value]
  | value {word : Constituent} (hword : word ∈ valueTerminals) :
      Rule .value [word]
  | operator {word : Constituent} (hword : word ∈ operatorTerminals) :
      Rule .operator [word]

/-- The lists of tokens that can be derived from a list of constituents. -/
inductive Derives : List Constituent → List Token → Prop
  | nil :
      Derives [] []
  | terminal {wanted : Expectation} {token : Token}
      {rest : List Constituent} {tokens : List Token}
      (haccepts : wanted.accepts token = true)
      (hrest : Derives rest tokens) :
      Derives (.terminal wanted :: rest) (token :: tokens)
  | nonterminal {production : Production} {body rest : List Constituent}
      {part tokens : List Token}
      (hrule : Rule production body)
      (hbody : Derives body part)
      (hrest : Derives rest tokens) :
      Derives (.nonterminal production :: rest) (part ++ tokens)

/-- The lists of tokens that the grammar derives: its language. -/
def Derivable (tokens : List Token) : Prop :=
  Derives [.nonterminal .program] tokens

/-- Applying a rule derives what its right-hand side derives. -/
theorem Derives.ofRule
    {production : Production}
    {body : List Constituent}
    {tokens : List Token}
    (hrule : Rule production body)
    (hbody : Derives body tokens) :
    Derives [.nonterminal production] tokens := by
  simpa using Derives.nonterminal hrule hbody Derives.nil

/-- A derived token may stand for its terminal alone. -/
theorem Derives.ofTerminal
    {wanted : Expectation}
    {token : Token}
    (haccepts : wanted.accepts token = true) :
    Derives [.terminal wanted] [token] :=
  .terminal haccepts .nil

/-- Derivations of consecutive constituents are put side by side. -/
theorem Derives.append
    {left right : List Constituent}
    {front back : List Token}
    (hleft : Derives left front)
    (hright : Derives right back) :
    Derives (left ++ right) (front ++ back) := by
  induction hleft with
  | nil =>
      simpa using hright
  | terminal haccepts _ ih =>
      exact .terminal haccepts ih
  | nonterminal hrule hbody _ _ ih =>
      rw [List.append_assoc]
      exact .nonterminal hrule hbody ih

end Grammar

end SimpleC
