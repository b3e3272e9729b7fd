import SimpleC.Recognizer.Production

/-!
# Phrases of a program

The structure of a program with all its tokens. A phrase holds each token
together with the evidence that the grammar admits it at its place, so that
every phrase has a list of tokens that the grammar derives, and none of the
later arguments has to speak of ill-formed phrases.

An `if` without an `else` and an `if` with one are statements of their own. To
which `if` an `else` belongs is a property of a phrase and not of its tokens.
-/

namespace SimpleC

/-- A token that meets an expectation. -/
structure Terminal (wanted : Expectation) where
  token : Token
  accepted : wanted.accepts token = true

/-- A bare token of the given spelling. -/
abbrev Word (spelling : String) := Terminal (.spelled spelling)

/-- A token that names a variable. -/
abbrev Identifier := Terminal (.ofKind .identifier)

/-- A value: an identifier, a literal or a truth value. -/
structure Operand where
  token : Token
  isValue : token.valueExpectation?.isSome = true

/-- An operator as it stands between two values. -/
structure Sign where
  operator : Operator
  word : Word operator.spelling

/-- The word that opens a declaration, and the type that it names. -/
structure Declarator where
  type : ValueType
  numeric : type.isNumeric = true
  word : Word type.name

/-- One value, or two with an operator between them. -/
inductive Expression where
  | single (value : Operand)
  | binary (left : Operand) (sign : Sign) (right : Operand)

/-- What is put out: the end of a line, or a value. -/
inductive Printed where
  | endOfLine (word : Word "endl")
  | value (value : Operand)

/-- The head of a conditional statement. -/
structure Guard where
  opening : Word "if"
  left : Word "("
  condition : Expression
  right : Word ")"

/-- A statement. -/
inductive Statement where
  | empty (semicolon : Word ";")
  | declaration (declarator : Declarator) (name : Identifier) (semicolon : Word ";")
  | input (word : Word "cin") (arrows : Word ">>") (name : Identifier)
      (semicolon : Word ";")
  | output (word : Word "cout") (arrows : Word "<<") (printed : Printed)
      (semicolon : Word ";")
  | assignment (name : Identifier) (equals : Word "=") (value : Expression)
      (semicolon : Word ";")
  /-- An `if` without an `else`. -/
  | conditional (guard : Guard) (thenPart : Statement)
  /-- An `if` with an `else`. -/
  | alternative (guard : Guard) (thenPart : Statement) (word : Word "else")
      (elsePart : Statement)

/-- A whole program. -/
structure Program where
  void : Word "void"
  main : Word "main"
  left : Word "("
  right : Word ")"
  opening : Word "\x7b"
  first : Statement
  further : List Statement
  closing : Word "\x7d"
  stop : Word "$"

/-- The bare token of a spelling is the word of that spelling. -/
def Word.ofSpelling (spelling : String) : Word spelling :=
  ⟨.bare spelling, by simp [Expectation.accepts, Token.isSpelled_eq_true_iff, Token.bare]⟩

/-- The tokens of a program with the given ones between its braces. -/
def programOf (body : List Token) : List Token :=
  ["void", "main", "(", ")", "\x7b"].map Token.bare ++ (body ++ ["\x7d", "$"].map Token.bare)

/-- The tokens of an expression. -/
def Expression.tokens : Expression → List Token
  | single value => [value.token]
  | binary left sign right => [left.token, sign.word.token, right.token]

/-- The one token that is put out. -/
def Printed.token : Printed → Token
  | endOfLine word => word.token
  | value operand => operand.token

/-- The tokens of the head of a conditional statement. -/
def Guard.tokens (guard : Guard) : List Token :=
  guard.opening.token :: guard.left.token :: (guard.condition.tokens ++ [guard.right.token])

/-- The tokens of a statement. -/
def Statement.tokens : Statement → List Token
  | empty semicolon => [semicolon.token]
  | declaration declarator name semicolon =>
      [declarator.word.token, name.token, semicolon.token]
  | input word arrows name semicolon =>
      [word.token, arrows.token, name.token, semicolon.token]
  | output word arrows printed semicolon =>
      [word.token, arrows.token, printed.token, semicolon.token]
  | assignment name equals value semicolon =>
      name.token :: equals.token :: (value.tokens ++ [semicolon.token])
  | conditional guard thenPart => guard.tokens ++ thenPart.tokens
  | alternative guard thenPart word elsePart =>
      guard.tokens ++ (thenPart.tokens ++ word.token :: elsePart.tokens)

namespace Program

/-- The statements of a program, of which there is at least one. -/
def statements (program : Program) : List Statement :=
  program.first :: program.further

/-- The tokens between the braces. -/
def body (program : Program) : List Token :=
  program.statements.flatMap Statement.tokens

/-- The tokens of a program. -/
def tokens (program : Program) : List Token :=
  program.void.token :: program.main.token :: program.left.token :: program.right.token ::
    program.opening.token :: (program.body ++ [program.closing.token, program.stop.token])

end Program

section Spelling

variable {spelling : String}

/-- A word is a bare token with its spelling. -/
@[simp] theorem Word.spelling?_token (word : Word spelling) :
    word.token.spelling? = some spelling := by
  have haccepted := word.accepted
  simpa [Expectation.accepts, Token.isSpelled] using haccepted

/-- A word has the spelling that it is meant to have and no other. -/
@[simp] theorem Word.isSpelled_token (word : Word spelling) (other : String) :
    word.token.isSpelled other = (spelling == other) := by
  simp [Token.isSpelled]

theorem Word.isOperator_token (word : Word spelling) :
    word.token.isOperator = (Operator.ofSpelling? spelling).isSome := by
  simp [Token.isOperator]

theorem Sign.isOperator_token (sign : Sign) : sign.word.token.isOperator = true := by
  rw [Word.isOperator_token, Operator.ofSpelling?_eq_some_iff.mpr rfl, Option.isSome_some]

/-- An identifier is a token of the kind of identifiers. -/
@[simp] theorem Identifier.kind_token (name : Identifier) :
    name.token.kind = .identifier := by
  have haccepted := name.accepted
  simpa [Expectation.accepts] using haccepted

end Spelling

section Value

variable {token : Token} {wanted : Expectation}

/-- A value is a token with a text of its own or a truth value. -/
theorem Token.eq_of_valueExpectation? (h : token.valueExpectation? = some wanted) :
    (token.kind.hasPayload = true ∧ token.spelling? = none ∧ wanted = .ofKind token.kind) ∨
      ∃ spelling ∈ boolSpellings,
        token.spelling? = some spelling ∧ wanted = .spelled spelling := by
  unfold valueExpectation? at h
  split at h
  · rename_i hspelling
    cases h
    have hpayload : token.kind.hasPayload = true := by
      unfold spelling? at hspelling
      split at hspelling
      · assumption
      · cases hspelling
    exact .inl ⟨hpayload, hspelling, rfl⟩
  · rename_i spelling hspelling
    split at h
    · rename_i hbool
      cases h
      exact .inr ⟨spelling, hbool, hspelling, rfl⟩
    · cases h

/-- What holds of the payload kinds and of the spellings of truth values holds of whatever is
expected of a value. -/
theorem Token.of_valueExpectation?
    {holds : Expectation → Bool}
    (hkind : ∀ kind : TokenKind, kind.hasPayload = true → holds (.ofKind kind) = true)
    (hbool : ∀ spelling ∈ boolSpellings, holds (.spelled spelling) = true)
    (h : token.valueExpectation? = some wanted) :
    holds wanted = true := by
  rcases eq_of_valueExpectation? h with ⟨hpayload, _, rfl⟩ | ⟨spelling, hmem, _, rfl⟩
  · exact hkind _ hpayload
  · exact hbool spelling hmem

/-- A token that is seen to begin a value is one. -/
theorem Token.accepts_of_valueExpectation? (h : token.valueExpectation? = some wanted) :
    wanted.accepts token = true := by
  rcases eq_of_valueExpectation? h with ⟨_, _, rfl⟩ | ⟨spelling, _, hspelling, rfl⟩
  · simp [Expectation.accepts]
  · simpa [Expectation.accepts, isSpelled] using hspelling

/-- The only bare values are the truth values. -/
theorem Operand.isSpelled_eq_false
    (value : Operand)
    {spelling : String}
    (hspelling : spelling ∉ boolSpellings) :
    value.token.isSpelled spelling = false := by
  obtain ⟨wanted, hwanted⟩ := Option.isSome_iff_exists.mp value.isValue
  rcases Token.eq_of_valueExpectation? hwanted with ⟨_, hnone, _⟩ | ⟨found, hbool, hfound, _⟩
  · simp [Token.isSpelled, hnone]
  · have hne : found ≠ spelling := by
      rintro rfl
      exact hspelling hbool
    simpa [Token.isSpelled, hfound] using hne

end Value

end SimpleC
