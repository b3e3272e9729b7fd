import Mathlib.Tactic.SplitIfs
import SimpleC.Proofs.Phrase.Basic

/-!
# The form of a statement

One token tells which form the statement that begins with it has. The forms are
told apart by the spelling of that token, except for assignments, which begin
with an identifier. A brace and an `else` begin no statement, so that the
repetition of statements and the end of a branch are recognized without doubt.
-/

namespace SimpleC

namespace StatementForm

/-- The spellings with which a statement of the form begins. -/
def spellings : StatementForm → List String
  | empty => [";"]
  | declaration => ["int", "real"]
  | input => ["cin"]
  | output => ["cout"]
  | assignment => []
  | conditional => ["if"]

/-- A spelling tells the form of the statement that begins with it. -/
theorem ofSpelling?_eq_some_iff
    {spelling : String}
    {form : StatementForm} :
    ofSpelling? spelling = some form ↔ spelling ∈ form.spellings := by
  unfold ofSpelling?
  constructor
  · intro h
    split_ifs at h <;> cases h <;> simp_all [spellings]
  · intro h
    cases form <;> simp only [spellings, List.mem_cons, List.not_mem_nil, or_false] at h
    · simp [h]
    · rcases h with rfl | rfl <;> decide
    · simp [h]
    · simp [h]
    · simp [h]

/-- A bare token begins the statement that its spelling calls for. -/
theorem ofToken?_of_spelling?
    {token : Token}
    {spelling : String}
    (hspelling : token.spelling? = some spelling) :
    ofToken? token = ofSpelling? spelling := by
  have hkind : token.kind ≠ .identifier := by
    intro hkind
    simp [Token.spelling?, hkind, TokenKind.hasPayload] at hspelling
  simp [ofToken?, hkind, hspelling]

/-- A declaration begins with the name of a numeric type. -/
theorem exists_type_of_declaration
    {spelling : String}
    (hform : ofSpelling? spelling = some declaration) :
    ∃ type : ValueType, type.isNumeric = true ∧ spelling = type.name := by
  have hmem := ofSpelling?_eq_some_iff.mp hform
  simp only [spellings, List.mem_cons, List.not_mem_nil, or_false] at hmem
  rcases hmem with rfl | rfl
  · exact ⟨.int, rfl, rfl⟩
  · exact ⟨.real, rfl, rfl⟩

/-- A token that begins a statement is no `else`. -/
theorem isSpelled_else
    {token : Token}
    {form : StatementForm}
    (hform : ofToken? token = some form) :
    token.isSpelled "else" = false := by
  cases hword : token.isSpelled "else" with
  | false =>
      rfl
  | true =>
      have hspelling : token.spelling? = some "else" := by
        simpa [Token.isSpelled] using hword
      rw [ofToken?_of_spelling? hspelling, ofSpelling?_eq_some_iff] at hform
      revert hform
      cases form <;> decide

end StatementForm

namespace Statement

/-- The form of a statement. -/
def form : Statement → StatementForm
  | empty .. => .empty
  | declaration .. => .declaration
  | input .. => .input
  | output .. => .output
  | assignment .. => .assignment
  | conditional .. | alternative .. => .conditional

/-- The token with which a statement begins. -/
def first : Statement → Token
  | empty semicolon => semicolon.token
  | declaration declarator _ _ => declarator.word.token
  | input word _ _ _ => word.token
  | output word _ _ _ => word.token
  | assignment name _ _ _ => name.token
  | conditional guard _ => guard.opening.token
  | alternative guard _ _ _ => guard.opening.token

/-- The tokens of a statement begin with its first token. -/
theorem exists_tokens_eq (statement : Statement) :
    ∃ tail, statement.tokens = statement.first :: tail := by
  cases statement <;> exact ⟨_, rfl⟩

/-- The first token of a statement tells its form. -/
theorem ofToken?_first (statement : Statement) :
    StatementForm.ofToken? statement.first = some statement.form := by
  cases statement with
  | assignment name equals value semicolon =>
      simp [first, form, StatementForm.ofToken?]
  | declaration declarator name semicolon =>
      rw [first, StatementForm.ofToken?_of_spelling? declarator.word.spelling?_token, form,
        StatementForm.ofSpelling?_eq_some_iff]
      obtain ⟨type, hnumeric, _⟩ := declarator
      cases type with
      | int | real =>
          simp [StatementForm.spellings, ValueType.name]
      | str | bool =>
          simp [ValueType.isNumeric] at hnumeric
  | empty semicolon =>
      exact StatementForm.ofToken?_of_spelling? semicolon.spelling?_token
  | input word | output word =>
      exact StatementForm.ofToken?_of_spelling? word.spelling?_token
  | conditional guard | alternative guard =>
      exact StatementForm.ofToken?_of_spelling? guard.opening.spelling?_token

/-- What follows a statement in a row is no `else`. -/
theorem exists_no_else
    (further : List Statement)
    (closing : Word "\x7d")
    (tail : List Token) :
    ∃ token rest,
      further.flatMap Statement.tokens ++ closing.token :: tail = token :: rest ∧
        token.isSpelled "else" = false := by
  cases further with
  | nil =>
      exact ⟨closing.token, tail, rfl, by simp⟩
  | cons statement further =>
      obtain ⟨rest, htokens⟩ := statement.exists_tokens_eq
      refine ⟨statement.first, rest ++ (further.flatMap Statement.tokens ++
        closing.token :: tail), ?_, StatementForm.isSpelled_else statement.ofToken?_first⟩
      simp [htokens]

end Statement

end SimpleC
