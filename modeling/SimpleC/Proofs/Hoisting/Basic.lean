import SimpleC.Proofs.Checking.Basic
import SimpleC.Proofs.Phrase.NearestElse
import SimpleC.Proofs.Phrase.Spelling

/-!
# Hoisting declarations

Hoisting moves all declarations of a program to its beginning, in the order of
the text, and leaves an empty statement where each of them was. It is defined on
the tokens, by a scan that knows nothing of the grammar, and on phrases, by
recursion on the statements. The two agree, since outside of a declaration no
token of a program names a type.
-/

namespace SimpleC

namespace Token

/-- Whether the token opens a declaration. -/
def isDeclarator (token : Token) : Bool :=
  token.isSpelled "int" || token.isSpelled "real"

/-- Whether three tokens are a declaration. -/
def areDeclaration (word name semicolon : Token) : Bool :=
  word.isDeclarator && name.kind == .identifier && semicolon.isSpelled ";"

end Token

/-- The declarations among the tokens, in order. -/
def declarationTokens : List Token → List Token
  | word :: name :: semicolon :: rest =>
      if Token.areDeclaration word name semicolon then
        word :: name :: semicolon :: declarationTokens rest
      else
        declarationTokens (name :: semicolon :: rest)
  | _ => []

/-- The tokens with a lone semicolon in the place of every declaration. -/
def emptiedTokens : List Token → List Token
  | word :: name :: semicolon :: rest =>
      if Token.areDeclaration word name semicolon then
        .bare ";" :: emptiedTokens rest
      else
        word :: emptiedTokens (name :: semicolon :: rest)
  | tokens => tokens

/-- The tokens between the braces of a program. -/
def bodyTokens (tokens : List Token) : List Token :=
  (tokens.drop 5).take (tokens.length - 7)

/-- Moves all declarations to the beginning of a program. -/
def hoist (tokens : List Token) : List Token :=
  programOf (declarationTokens (bodyTokens tokens) ++ emptiedTokens (bodyTokens tokens))

section Scan

variable {token : Token}

theorem declarationTokens_cons
    (htoken : token.isDeclarator = false)
    (rest : List Token) :
    declarationTokens (token :: rest) = declarationTokens rest := by
  match rest with
  | [] | [_] =>
      rfl
  | name :: semicolon :: rest =>
      simp [declarationTokens, Token.areDeclaration, htoken]

theorem emptiedTokens_cons
    (htoken : token.isDeclarator = false)
    (rest : List Token) :
    emptiedTokens (token :: rest) = token :: emptiedTokens rest := by
  match rest with
  | [] | [_] =>
      rfl
  | name :: semicolon :: rest =>
      simp [emptiedTokens, Token.areDeclaration, htoken]

/-- Tokens that open no declaration are passed over. -/
theorem declarationTokens_append
    {front : List Token}
    (hfront : ∀ token ∈ front, token.isDeclarator = false)
    (rest : List Token) :
    declarationTokens (front ++ rest) = declarationTokens rest := by
  induction front with
  | nil =>
      rfl
  | cons token front ih =>
      rw [List.forall_mem_cons] at hfront
      rw [List.cons_append, declarationTokens_cons hfront.1, ih hfront.2]

/-- Tokens that open no declaration are kept. -/
theorem emptiedTokens_append
    {front : List Token}
    (hfront : ∀ token ∈ front, token.isDeclarator = false)
    (rest : List Token) :
    emptiedTokens (front ++ rest) = front ++ emptiedTokens rest := by
  induction front with
  | nil =>
      rfl
  | cons token front ih =>
      rw [List.forall_mem_cons] at hfront
      rw [List.cons_append, emptiedTokens_cons hfront.1, ih hfront.2, List.cons_append]

end Scan

section Plain

@[simp] theorem Word.isDeclarator_token {spelling : String} (word : Word spelling) :
    word.token.isDeclarator = (spelling == "int" || spelling == "real") := by
  rw [Token.isDeclarator, word.isSpelled_token, word.isSpelled_token]

theorem Expression.isDeclarator_of_mem
    (phrase : Expression) :
    ∀ token ∈ phrase.tokens, token.isDeclarator = false := by
  intro token hmem
  rw [Token.isDeclarator, phrase.isSpelled_of_mem (by decide) (by decide) token hmem,
    phrase.isSpelled_of_mem (by decide) (by decide) token hmem, Bool.or_false]

theorem Guard.isDeclarator_of_mem (guard : Guard) :
    ∀ token ∈ guard.tokens, token.isDeclarator = false := by
  obtain ⟨opening, left, phrase, right⟩ := guard
  have hphrase := phrase.isDeclarator_of_mem
  have hopening : opening.token.isDeclarator = false := opening.isDeclarator_token
  have hleft : left.token.isDeclarator = false := left.isDeclarator_token
  have hright : right.token.isDeclarator = false := right.isDeclarator_token
  simp only [tokens, List.forall_mem_cons, List.forall_mem_append]
  exact ⟨hopening, hleft, hphrase, hright, List.forall_mem_nil _⟩

/-- The three tokens of a declaration are seen to be one. -/
theorem Declarator.areDeclaration
    (declarator : Declarator)
    (name : Identifier)
    (semicolon : Word ";") :
    Token.areDeclaration declarator.word.token name.token semicolon.token = true := by
  obtain ⟨type, hnumeric, word⟩ := declarator
  have hword : word.token.isDeclarator = true := by
    rw [word.isDeclarator_token]
    cases type with
    | int | real =>
        rfl
    | str | bool =>
        cases hnumeric
  simp [Token.areDeclaration, hword]

end Plain

namespace Statement

/-- The declarations in a statement, in the order of the text. -/
def declarations : Statement → List Statement
  | declaration declarator name semicolon => [declaration declarator name semicolon]
  | conditional _ thenPart => thenPart.declarations
  | alternative _ thenPart _ elsePart => thenPart.declarations ++ elsePart.declarations
  | empty .. | input .. | output .. | assignment .. => []

/-- The statement with an empty one in the place of every declaration. -/
def emptied : Statement → Statement
  | declaration .. => empty (.ofSpelling ";")
  | conditional guard thenPart => conditional guard thenPart.emptied
  | alternative guard thenPart word elsePart =>
      alternative guard thenPart.emptied word elsePart.emptied
  | statement => statement

/-- A statement without branches that is no declaration names no type. -/
theorem isDeclarator_of_mem
    {statement : Statement}
    (hdeclaration : statement.form ≠ .declaration)
    (hconditional : statement.form ≠ .conditional) :
    ∀ token ∈ statement.tokens, token.isDeclarator = false := by
  intro token hmem
  have hint := isSpelled_of_mem hconditional (fun h => absurd h hdeclaration)
    (show "int" ∉ statementSpellings by decide) (by decide) token hmem
  have hreal := isSpelled_of_mem hconditional (fun h => absurd h hdeclaration)
    (show "real" ∉ statementSpellings by decide) (by decide) token hmem
  rw [Token.isDeclarator, hint, hreal, Bool.or_false]

/-- The scan finds the declarations of a statement. -/
theorem declarationTokens_tokens (statement : Statement) :
    ∀ rest, declarationTokens (statement.tokens ++ rest) =
      statement.declarations.flatMap tokens ++ declarationTokens rest := by
  induction statement with
  | declaration declarator name semicolon =>
      intro rest
      simp [tokens, declarations, declarationTokens, declarator.areDeclaration]
  | conditional guard thenPart ih =>
      intro rest
      rw [tokens, List.append_assoc, declarationTokens_append guard.isDeclarator_of_mem, ih]
      rfl
  | alternative guard thenPart word elsePart ihthen ihelse =>
      intro rest
      have hword : word.token.isDeclarator = false := word.isDeclarator_token
      rw [tokens, List.append_assoc, declarationTokens_append guard.isDeclarator_of_mem,
        List.append_assoc, ihthen, List.cons_append, declarationTokens_cons hword, ihelse,
        declarations, List.flatMap_append, List.append_assoc]
  | empty | input | output | assignment =>
      intro rest
      refine declarationTokens_append (isDeclarator_of_mem ?_ ?_) rest
      · simp [form]
      · simp [form]

/-- The scan empties the declarations of a statement. -/
theorem emptiedTokens_tokens (statement : Statement) :
    ∀ rest, emptiedTokens (statement.tokens ++ rest) =
      statement.emptied.tokens ++ emptiedTokens rest := by
  induction statement with
  | declaration declarator name semicolon =>
      intro rest
      simp [tokens, emptied, emptiedTokens, declarator.areDeclaration, Word.ofSpelling]
  | conditional guard thenPart ih =>
      intro rest
      rw [tokens, List.append_assoc, emptiedTokens_append guard.isDeclarator_of_mem, ih,
        emptied, tokens, List.append_assoc]
  | alternative guard thenPart word elsePart ihthen ihelse =>
      intro rest
      have hword : word.token.isDeclarator = false := word.isDeclarator_token
      rw [tokens, List.append_assoc, emptiedTokens_append guard.isDeclarator_of_mem,
        List.append_assoc, ihthen, List.cons_append, emptiedTokens_cons hword, ihelse,
        emptied, tokens]
      simp
  | empty | input | output | assignment =>
      intro rest
      refine emptiedTokens_append (isDeclarator_of_mem ?_ ?_) rest
      · simp [form]
      · simp [form]

theorem declarationTokens_flatMap (statements : List Statement) :
    declarationTokens (statements.flatMap tokens) =
      (statements.flatMap declarations).flatMap tokens := by
  induction statements with
  | nil =>
      rfl
  | cons statement rest ih =>
      rw [List.flatMap_cons, declarationTokens_tokens, ih, List.flatMap_cons,
        List.flatMap_append]

theorem emptiedTokens_flatMap (statements : List Statement) :
    emptiedTokens (statements.flatMap tokens) = (statements.map emptied).flatMap tokens := by
  induction statements with
  | nil =>
      rfl
  | cons statement rest ih =>
      rw [List.flatMap_cons, emptiedTokens_tokens, ih, List.map_cons, List.flatMap_cons]

/-- Declarations that are moved open no conditional. -/
theorem nearestElse_of_mem_declarations
    {statement declared : Statement}
    (h : declared ∈ statement.declarations) :
    declared.NearestElse := by
  induction statement with
  | declaration declarator name semicolon =>
      obtain rfl := List.mem_singleton.mp h
      trivial
  | conditional guard thenPart ih =>
      exact ih h
  | alternative guard thenPart word elsePart ihthen ihelse =>
      rcases List.mem_append.mp h with hthen | helse
      · exact ihthen hthen
      · exact ihelse helse
  | empty | input | output | assignment =>
      cases h

@[simp] theorem endsOpen_emptied (statement : Statement) :
    statement.emptied.endsOpen = statement.endsOpen := by
  induction statement with
  | conditional =>
      rfl
  | alternative guard thenPart word elsePart _ ih =>
      exact ih
  | empty | declaration | input | output | assignment =>
      rfl

/-- Emptying declarations moves no `else`. -/
theorem nearestElse_emptied
    {statement : Statement}
    (h : statement.NearestElse) :
    statement.emptied.NearestElse := by
  induction statement with
  | conditional guard thenPart ih =>
      exact ih h
  | alternative guard thenPart word elsePart ihthen ihelse =>
      obtain ⟨hclosed, hthen, helse⟩ := h
      exact ⟨by rw [endsOpen_emptied, hclosed], ihthen hthen, ihelse helse⟩
  | empty | declaration | input | output | assignment =>
      trivial

/-- The declarations hold exactly the obligations of declarations. -/
theorem obligations_declarations (statement : Statement) :
    statement.declarations.flatMap obligations =
      statement.obligations.filter Obligation.isDeclaration := by
  induction statement with
  | conditional guard thenPart ih =>
      exact ih
  | alternative guard thenPart word elsePart ihthen ihelse =>
      rw [declarations, List.flatMap_append, ihthen, ihelse, obligations,
        List.filter_cons_of_neg (by simp [Obligation.isDeclaration]), List.filter_append]
  | output word arrows printed semicolon =>
      cases printed <;> rfl
  | empty | declaration | input | assignment =>
      rfl

/-- What is left holds exactly the other obligations. -/
theorem obligations_emptied (statement : Statement) :
    statement.emptied.obligations =
      statement.obligations.filter (fun obligation => !obligation.isDeclaration) := by
  induction statement with
  | conditional guard thenPart ih =>
      rw [emptied, obligations, ih]
      rfl
  | alternative guard thenPart word elsePart ihthen ihelse =>
      rw [emptied, obligations, ihthen, ihelse, obligations,
        List.filter_cons_of_pos (by simp [Obligation.isDeclaration]), List.filter_append]
  | output word arrows printed semicolon =>
      cases printed <;> rfl
  | empty | declaration | input | assignment =>
      rfl

end Statement

/-- A program of the given statements, which are at least one. -/
def Program.ofStatements (first : Statement) (further : List Statement) : Program :=
  { void := .ofSpelling "void"
    main := .ofSpelling "main"
    left := .ofSpelling "("
    right := .ofSpelling ")"
    opening := .ofSpelling "\x7b"
    first := first
    further := further
    closing := .ofSpelling "\x7d"
    stop := .ofSpelling "$" }

namespace Program

variable (program : Program)

/-- The declarations of a program, in the order of the text. -/
def declarations : List Statement :=
  program.statements.flatMap Statement.declarations

/-- The program whose declarations are moved to its beginning. -/
def hoisted : Program :=
  match program.declarations with
  | [] => .ofStatements program.first.emptied (program.further.map Statement.emptied)
  | first :: further =>
      .ofStatements first (further ++ program.statements.map Statement.emptied)

theorem statements_hoisted :
    program.hoisted.statements =
      program.declarations ++ program.statements.map Statement.emptied := by
  unfold hoisted
  split
  · rename_i hnone
    rw [hnone]
    rfl
  · rename_i hsome
    rw [hsome]
    rfl

theorem tokens_hoisted_eq : program.hoisted.tokens = programOf program.hoisted.body := by
  unfold hoisted
  split <;> rfl

theorem body_hoisted :
    program.hoisted.body =
      declarationTokens program.body ++ emptiedTokens program.body := by
  rw [body, statements_hoisted, List.flatMap_append, body,
    Statement.declarationTokens_flatMap, Statement.emptiedTokens_flatMap, declarations]

theorem bodyTokens_tokens : bodyTokens program.tokens = program.body := by
  simp [bodyTokens, tokens]

/-- Hoisting a program hoists its tokens. -/
theorem tokens_hoisted : program.hoisted.tokens = hoist program.tokens := by
  rw [tokens_hoisted_eq, body_hoisted, hoist, bodyTokens_tokens]

/-- Hoisting moves no `else` to another conditional. -/
theorem nearestElse_hoisted (h : program.NearestElse) : program.hoisted.NearestElse := by
  intro statement hstatement
  rw [statements_hoisted] at hstatement
  rcases List.mem_append.mp hstatement with hdeclared | hemptied
  · obtain ⟨original, _, hmem⟩ := List.mem_flatMap.mp hdeclared
    exact Statement.nearestElse_of_mem_declarations hmem
  · obtain ⟨original, hmem, rfl⟩ := List.mem_map.mp hemptied
    exact Statement.nearestElse_emptied (h original hmem)

/-- The obligations of a hoisted program are the declarations and then the others. -/
theorem obligations_hoisted :
    program.hoisted.obligations =
      program.obligations.filter Obligation.isDeclaration ++
        program.obligations.filter (fun obligation => !obligation.isDeclaration) := by
  unfold obligations
  rw [statements_hoisted, declarations]
  simp only [List.flatMap_append, List.flatMap_assoc, List.flatMap_map, List.filter_flatMap,
    Statement.obligations_declarations, Statement.obligations_emptied]

end Program

end SimpleC
