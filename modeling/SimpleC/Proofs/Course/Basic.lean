import SimpleC.Proofs.Course.Move

/-!
# Courses

The grammar as it is recognized: for each production the items of its right-hand
side, in which the next token decides where there is a choice, and marks at which
something is asked. The course of a recognition is the list of its moves on given
tokens. It is told by the tokens alone, and ends with the tokens that are left
over or at a token that the grammar does not allow.
-/

namespace SimpleC

/-- The places of the grammar at which the next token decides. -/
inductive Choice where
  /-- Whether one more statement follows. -/
  | further
  /-- The form of a statement. -/
  | form
  /-- The word of a declaration. -/
  | declarator
  /-- Whether the end of a line or a value is put out. -/
  | printed
  /-- Whether there is an `else`. -/
  | otherwise
  /-- Whether an expression has a second value. -/
  | operation
  /-- What to expect of a value. -/
  | operand
  /-- The operator of an expression. -/
  | sign
  deriving DecidableEq

/-- What a right-hand side is made of when it is recognized. -/
inductive Item where
  | token (wanted : Expectation)
  | phrase (production : Production)
  /-- Something is asked about what was read. -/
  | check
  | choice (choice : Choice)
  deriving DecidableEq

/-- The production of the statements of a form. -/
def StatementForm.production : StatementForm → Production
  | empty => .empty
  | declaration => .declaration
  | input => .input
  | output => .output
  | assignment => .assignment
  | conditional => .conditional

/-- The item for the bare token of a spelling. -/
abbrev Item.word (spelling : String) : Item :=
  .token (.spelled spelling)

/-- The item for an identifier. -/
abbrev Item.identifier : Item :=
  .token (.ofKind .identifier)

/-- The items that the next token decides for, or why it is refused. The words of
declarations and operators are never refused: their productions are entered only where
the next token is such a word. -/
def Choice.items (choice : Choice) (token : Token) : Except Violation (List Item) :=
  match choice with
  | further =>
      if (StatementForm.ofToken? token).isSome then
        .ok [.phrase .statement, .choice .further]
      else
        .ok []
  | form =>
      match StatementForm.ofToken? token with
      | some begun => .ok [.phrase begun.production]
      | none => .error (.notAStatement token)
  | declarator =>
      match token.spelling?.bind ValueType.ofDeclarator? with
      | some type => .ok [.word type.name]
      | none => .error (.notAStatement token)
  | printed =>
      if token.isSpelled "endl" then .ok [.word "endl"] else .ok [.phrase .value]
  | otherwise =>
      if token.isSpelled "else" then .ok [.word "else", .phrase .statement] else .ok []
  | operation =>
      if token.isOperator then .ok [.phrase .operator, .phrase .value, .check] else .ok []
  | operand =>
      match token.valueExpectation? with
      | some wanted => .ok [.token wanted, .check]
      | none => .error (.notAValue token)
  | sign =>
      match token.spelling?.bind Operator.ofSpelling? with
      | some operator => .ok [.word operator.spelling]
      | none => .error (.notAValue token)

namespace Production

/-- The items of the right-hand side of a production. -/
def items : Production → List Item
  | program =>
      [.word "void", .word "main", .word "(", .word ")", .word "\x7b", .phrase .statements,
        .word "\x7d", .word "$"]
  | statements => [.phrase .statement, .choice .further]
  | statement => [.choice .form]
  | empty => [.word ";"]
  | declaration => [.choice .declarator, .identifier, .word ";", .check]
  | input => [.word "cin", .word ">>", .identifier, .check, .word ";"]
  | output => [.word "cout", .word "<<", .phrase .outputValue, .word ";"]
  | outputValue => [.choice .printed]
  | assignment =>
      [.identifier, .check, .word "=", .phrase .expression, .check, .word ";"]
  | conditional =>
      [.word "if", .word "(", .phrase .condition, .word ")", .phrase .thenPart,
        .phrase .elsePart]
  | condition => [.phrase .expression, .check]
  | thenPart => [.phrase .statement]
  | elsePart => [.choice .otherwise]
  | expression => [.phrase .value, .choice .operation]
  | value => [.choice .operand]
  | operator => [.choice .sign]

/-- What is asked at a mark of the production, after it has read the given tokens. -/
def demand? : Production → List Token → Option Demand
  | declaration, [word, name, _] => do
      let type ← word.spelling?.bind ValueType.ofDeclarator?
      return .declaration type name.text
  | input, [_, _, name] => some (.lookup name.text)
  | assignment, [name] => some (.lookup name.text)
  | assignment, name :: _ :: tokens => do
      return .assignment name.text (← Expression.ofTokens? tokens)
  | condition, tokens => do
      return .condition (← Expression.ofTokens? tokens)
  | expression, [left, sign, right] => do
      return .operation (← Operand.ofToken? left) (← Sign.ofToken? sign)
        (← Operand.ofToken? right)
  | value, [token] => do
      return .value (← Operand.ofToken? token)
  | _, _ => none

/-- The moves at a mark of the production. -/
def checks (production : Production) (read : List Token) : List Move :=
  (production.demand? read).toList.map fun demand => .step (.check demand)

end Production

/-- `Course production read items ahead moves rest?`: a production that has read some
tokens goes on with these items. On the tokens ahead it makes the moves, which leave over
the rest, or stop if there is none. -/
inductive Course :
    Production → List Token → List Item → List Token → List Move → Option (List Token) → Prop
  | done {production : Production} {read ahead : List Token} :
      Course production read [] ahead [] (some ahead)
  | token {production : Production} {read ahead : List Token} {items : List Item}
      {moves : List Move} {rest? : Option (List Token)} {wanted : Expectation} {token : Token}
      (haccepts : wanted.accepts token = true)
      (hrest : Course production (read ++ [token]) items ahead moves rest?) :
      Course production read (.token wanted :: items) (token :: ahead)
        (.step (.read token) :: moves) rest?
  | unexpected {production : Production} {read ahead : List Token} {items : List Item}
      {wanted : Expectation} {token : Token}
      (haccepts : wanted.accepts token = false) :
      Course production read (.token wanted :: items) (token :: ahead)
        [.step (.stop (.unexpected wanted token))] none
  | missing {production : Production} {read : List Token} {items : List Item}
      {wanted : Expectation} :
      Course production read (.token wanted :: items) [] [.step (.stop .endOfInput)] none
  | check {production : Production} {read ahead : List Token} {items : List Item}
      {moves : List Move} {rest? : Option (List Token)}
      (hrest : Course production read items ahead moves rest?) :
      Course production read (.check :: items) ahead (production.checks read ++ moves) rest?
  | choice {production : Production} {read ahead : List Token} {items more : List Item}
      {moves : List Move} {rest? : Option (List Token)} {choice : Choice} {token : Token}
      (hmore : choice.items token = .ok more)
      (hrest : Course production read (more ++ items) (token :: ahead) moves rest?) :
      Course production read (.choice choice :: items) (token :: ahead) moves rest?
  | refused {production : Production} {read ahead : List Token} {items : List Item}
      {choice : Choice} {token : Token} {violation : Violation}
      (hmore : choice.items token = .error violation) :
      Course production read (.choice choice :: items) (token :: ahead)
        [.step (.stop violation)] none
  | undecided {production : Production} {read : List Token} {items : List Item}
      {choice : Choice} :
      Course production read (.choice choice :: items) [] [.step (.stop .endOfInput)] none
  | phrase {production inner : Production} {read ahead middle : List Token}
      {items : List Item} {moves further : List Move} {rest? : Option (List Token)}
      (hinner : Course inner [] inner.items ahead moves (some middle))
      (hrest : Course production (read ++ Move.tokens moves) items middle further rest?) :
      Course production read (.phrase inner :: items) ahead (.within inner moves :: further)
        rest?
  | broken {production inner : Production} {read ahead : List Token} {items : List Item}
      {moves : List Move}
      (hinner : Course inner [] inner.items ahead moves none) :
      Course production read (.phrase inner :: items) ahead [.within inner moves] none

/-- The moves on a whole input: after a program nothing may be left over. -/
inductive WholeCourse (tokens : List Token) : List Move → Prop
  | accepted {moves : List Move}
      (hcourse : Course .program [] Production.program.items tokens moves (some [])) :
      WholeCourse tokens [.within .program moves]
  | trailing {moves : List Move} {token : Token} {rest : List Token}
      (hcourse : Course .program [] Production.program.items tokens moves
        (some (token :: rest))) :
      WholeCourse tokens [.within .program moves, .step (.stop (.trailing token))]
  | stopped {moves : List Move}
      (hcourse : Course .program [] Production.program.items tokens moves none) :
      WholeCourse tokens [.within .program moves]

/-- What is done after a program: nothing may be left over. -/
def Move.afterProgram : Option (List Token) → List Move
  | some (token :: _) => [.step (.stop (.trailing token))]
  | some [] | none => []

@[simp] theorem Move.tokens_afterProgram (rest? : Option (List Token)) :
    tokens (afterProgram rest?) = [] := by
  cases rest? with
  | none =>
      rfl
  | some rest =>
      cases rest <;> rfl

/-- The moves on a whole input are those of a program and what is done after it. -/
theorem wholeCourse_iff
    {tokens : List Token}
    {moves : List Move} :
    WholeCourse tokens moves ↔
      ∃ inner rest?, Course .program [] Production.program.items tokens inner rest? ∧
        moves = .within .program inner :: Move.afterProgram rest? := by
  constructor
  · intro h
    cases h with
    | accepted hcourse | trailing hcourse | stopped hcourse =>
        exact ⟨_, _, hcourse, rfl⟩
  · rintro ⟨inner, rest?, hcourse, rfl⟩
    cases rest? with
    | none =>
        exact .stopped hcourse
    | some rest =>
        cases rest with
        | nil =>
            exact .accepted hcourse
        | cons token rest =>
            exact .trailing hcourse

/-- Nothing is consumed at a mark. -/
@[simp] theorem Production.tokens_checks (production : Production) (read : List Token) :
    Move.tokens (production.checks read) = [] := by
  unfold checks
  cases production.demand? read with
  | none | some =>
      rfl

/-- The moves consume the tokens up to those that are left over. -/
theorem Course.ahead_eq
    {production : Production}
    {read ahead rest : List Token}
    {items : List Item}
    {moves : List Move}
    {rest? : Option (List Token)}
    (h : Course production read items ahead moves rest?)
    (hrest : rest? = some rest) :
    ahead = Move.tokens moves ++ rest := by
  induction h generalizing rest with
  | done =>
      cases hrest
      rfl
  | token _ _ ih =>
      simp [ih hrest]
  | check _ ih =>
      simpa using ih hrest
  | choice _ _ ih =>
      exact ih hrest
  | phrase _ _ ihinner ih =>
      rw [ihinner rfl, ih hrest]
      simp
  | unexpected | missing | refused | undecided | broken =>
      cases hrest

/-- The moves consume tokens from the first one ahead on. -/
theorem Course.tokens_prefix
    {production : Production}
    {read ahead : List Token}
    {items : List Item}
    {moves : List Move}
    {rest? : Option (List Token)}
    (h : Course production read items ahead moves rest?) :
    Move.tokens moves <+: ahead := by
  induction h with
  | done | unexpected | missing | refused | undecided =>
      exact List.nil_prefix
  | token _ _ ih =>
      exact (List.prefix_cons_inj _).mpr ih
  | check _ ih =>
      simpa using ih
  | choice _ _ ih =>
      exact ih
  | phrase hinner _ _ ih =>
      rw [hinner.ahead_eq rfl, Move.tokens_within]
      exact (List.prefix_append_right_inj _).mpr ih
  | broken _ ih =>
      simpa using ih

theorem WholeCourse.tokens_prefix
    {tokens : List Token}
    {moves : List Move}
    (h : WholeCourse tokens moves) :
    Move.tokens moves <+: tokens := by
  cases h with
  | accepted hcourse | trailing hcourse | stopped hcourse =>
      simpa using hcourse.tokens_prefix

section Progress

variable
    {production : Production}
    {read ahead rest : List Token}
    {items : List Item}
    {moves : List Move}

theorem Course.length_le (h : Course production read items ahead moves (some rest)) :
    rest.length ≤ ahead.length := by
  have hlength := congrArg List.length (h.ahead_eq rfl)
  rw [List.length_append] at hlength
  omega

/-- What begins with a token consumes one. -/
theorem Course.length_lt_of_token
    {wanted : Expectation}
    (h : Course production read (.token wanted :: items) ahead moves (some rest)) :
    rest.length < ahead.length := by
  cases h with
  | token haccepts hrest =>
      have hle := hrest.length_le
      rw [List.length_cons]
      omega

/-- A statement consumes a token. -/
theorem Course.length_lt_of_statement
    (h : Course .statement [] Production.statement.items ahead moves (some rest)) :
    rest.length < ahead.length := by
  have hchoice : Course .statement [] [.choice .form] ahead moves (some rest) := h
  cases hchoice with
  | @choice _ _ _ _ more _ _ _ token hmore hcourse =>
      cases hform : StatementForm.ofToken? token with
      | none =>
          simp [Choice.items, hform] at hmore
      | some form =>
          simp only [Choice.items, hform, Except.ok.injEq] at hmore
          subst hmore
          cases hcourse with
          | phrase hinner hrest =>
              have hle := hrest.length_le
              suffices hlt : ∀ {middle moves},
                  Course form.production [] form.production.items (token :: _) moves
                    (some middle) → middle.length < (token :: _).length from
                Nat.lt_of_le_of_lt hle (hlt hinner)
              intro middle moves hinner
              cases form with
              | empty | input | output | assignment | conditional =>
                  exact hinner.length_lt_of_token
              | declaration =>
                  have hword : Course .declaration []
                      [.choice .declarator, .identifier, .word ";", .check] (token :: _) moves
                        (some middle) := hinner
                  cases hword with
                  | choice hmore hcourse =>
                      cases htype : token.spelling?.bind ValueType.ofDeclarator? with
                      | none =>
                          simp [Choice.items, htype] at hmore
                      | some type =>
                          simp only [Choice.items, htype, Except.ok.injEq] at hmore
                          subst hmore
                          exact hcourse.length_lt_of_token

end Progress

end SimpleC
