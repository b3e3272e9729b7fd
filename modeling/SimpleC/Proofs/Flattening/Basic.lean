import SimpleC.Proofs.Checking.Basic
import SimpleC.Proofs.Phrase.NearestElse
import SimpleC.Proofs.Phrase.Spelling

/-!
# Flattening programs

Flattening drops the conditionals of a program and keeps what is in their branches, in the
order of the text. It is defined on the tokens, by a scan that deletes the heads of the
conditionals and every `else`, and on phrases, by recursion on the statements. The two
agree, since a statement without branches has no word that begins a head or a branch.
-/

namespace SimpleC

/-- The tokens without the heads of conditionals, each from its `if` through the next
closing parenthesis, and without any `else`. A scan that has begun inside of a head is to
delete the rest of it first. -/
def flattenFrom (insideHead : Bool) : List Token → List Token
  | [] => []
  | token :: rest =>
      if insideHead then
        flattenFrom (!token.isSpelled ")") rest
      else if token.isSpelled "if" then
        flattenFrom true rest
      else if token.isSpelled "else" then
        flattenFrom false rest
      else
        token :: flattenFrom false rest

/-- The tokens without the heads of conditionals and without any `else`. -/
def flatten (tokens : List Token) : List Token :=
  flattenFrom false tokens

section Scan

variable {token : Token} {front : List Token}

theorem flatten_cons
    (hopening : token.isSpelled "if" = false)
    (helse : token.isSpelled "else" = false)
    (rest : List Token) :
    flatten (token :: rest) = token :: flatten rest := by
  simp [flatten, flattenFrom, hopening, helse]

/-- Tokens that belong to no conditional are kept. -/
theorem flatten_append
    (hopening : ∀ token ∈ front, token.isSpelled "if" = false)
    (helse : ∀ token ∈ front, token.isSpelled "else" = false)
    (rest : List Token) :
    flatten (front ++ rest) = front ++ flatten rest := by
  induction front with
  | nil =>
      rfl
  | cons token front ih =>
      rw [List.forall_mem_cons] at hopening helse
      rw [List.cons_append, flatten_cons hopening.1 helse.1, ih hopening.2 helse.2,
        List.cons_append]

/-- The tokens up to a closing parenthesis are deleted inside of a head. -/
theorem flattenFrom_append
    (hfront : ∀ token ∈ front, token.isSpelled ")" = false)
    (right : Word ")")
    (rest : List Token) :
    flattenFrom true (front ++ right.token :: rest) = flatten rest := by
  induction front with
  | nil =>
      simp [flattenFrom, flatten]
  | cons token front ih =>
      rw [List.forall_mem_cons] at hfront
      simpa [flattenFrom, hfront.1] using ih hfront.2

theorem Word.flatten_else (word : Word "else") (rest : List Token) :
    flatten (word.token :: rest) = flatten rest := by
  simp [flatten, flattenFrom]

/-- The head of a conditional is deleted. -/
theorem Guard.flatten_append (guard : Guard) (rest : List Token) :
    flatten (guard.tokens ++ rest) = flatten rest := by
  obtain ⟨opening, left, phrase, right⟩ := guard
  have hleft : left.token.isSpelled ")" = false := left.isSpelled_eq_false (by decide)
  have hphrase : ∀ token ∈ phrase.tokens, token.isSpelled ")" = false :=
    phrase.isSpelled_of_mem (by decide) (by decide)
  have hinside := flattenFrom_append (List.forall_mem_cons.mpr ⟨hleft, hphrase⟩) right rest
  simpa [tokens, flatten, flattenFrom] using hinside

end Scan

/-- Whether the obligation is the one of a condition. -/
def Obligation.isCondition : Obligation → Bool
  | condition _ => true
  | declaration .. | input .. | output .. | assignment .. => false

namespace Statement

/-- The statements without branches that are in a statement, in the order of the text. -/
def flattened : Statement → List Statement
  | conditional _ thenPart => thenPart.flattened
  | alternative _ thenPart _ elsePart => thenPart.flattened ++ elsePart.flattened
  | statement => [statement]

/-- The scan keeps a statement without branches. -/
theorem flatten_append_of_form
    {statement : Statement}
    (hconditional : statement.form ≠ .conditional)
    (rest : List Token) :
    flatten (statement.tokens ++ rest) = statement.tokens ++ flatten rest := by
  refine flatten_append ?_ ?_ rest
  · exact isSpelled_of_mem hconditional (fun _ => by decide) (by decide) (by decide)
  · exact isSpelled_of_mem hconditional (fun _ => by decide) (by decide) (by decide)

/-- The scan finds the statements without branches. -/
theorem flatten_tokens (statement : Statement) :
    ∀ rest, flatten (statement.tokens ++ rest) =
      statement.flattened.flatMap tokens ++ flatten rest := by
  induction statement with
  | conditional guard thenPart ih =>
      intro rest
      rw [tokens, List.append_assoc, guard.flatten_append, ih, flattened]
  | alternative guard thenPart word elsePart ihthen ihelse =>
      intro rest
      rw [tokens, List.append_assoc, guard.flatten_append, List.append_assoc, ihthen,
        List.cons_append, word.flatten_else, ihelse, flattened, List.flatMap_append,
        List.append_assoc]
  | empty | declaration | input | output | assignment =>
      intro rest
      rw [flatten_append_of_form (by simp [form])]
      simp [flattened]

theorem flatten_flatMap (statements : List Statement) (rest : List Token) :
    flatten (statements.flatMap tokens ++ rest) =
      (statements.flatMap flattened).flatMap tokens ++ flatten rest := by
  induction statements with
  | nil =>
      rfl
  | cons statement further ih =>
      rw [List.flatMap_cons, List.append_assoc, flatten_tokens, ih, List.flatMap_cons,
        List.flatMap_append, List.append_assoc]

theorem flattened_ne_nil (statement : Statement) : statement.flattened ≠ [] := by
  induction statement with
  | conditional guard thenPart ih =>
      exact ih
  | alternative guard thenPart word elsePart ih _ =>
      exact List.append_ne_nil_of_left_ne_nil ih _
  | empty | declaration | input | output | assignment =>
      exact List.cons_ne_nil _ _

/-- What is left has no `else` and no conditional to which one could belong. -/
theorem nearestElse_of_mem_flattened
    {statement inner : Statement}
    (h : inner ∈ statement.flattened) :
    inner.NearestElse := by
  induction statement with
  | conditional guard thenPart ih =>
      exact ih h
  | alternative guard thenPart word elsePart ihthen ihelse =>
      rcases List.mem_append.mp h with hthen | helse
      · exact ihthen hthen
      · exact ihelse helse
  | empty | declaration | input | output | assignment =>
      obtain rfl := List.mem_singleton.mp h
      trivial

/-- Nothing is left out of the obligations of a statement but the conditions. -/
theorem obligations_flattened (statement : Statement) :
    statement.flattened.flatMap obligations =
      statement.obligations.filter fun obligation => !obligation.isCondition := by
  induction statement with
  | conditional guard thenPart ih =>
      rw [flattened, ih, obligations, List.filter_cons_of_neg (by simp [Obligation.isCondition])]
  | alternative guard thenPart word elsePart ihthen ihelse =>
      rw [flattened, List.flatMap_append, ihthen, ihelse, obligations,
        List.filter_cons_of_neg (by simp [Obligation.isCondition]), List.filter_append]
  | output word arrows printed semicolon =>
      cases printed <;> rfl
  | empty | declaration | input | assignment =>
      rfl

end Statement

namespace Program

variable (program : Program)

/-- The program without conditionals. -/
def flattened : Program :=
  match program.statements.flatMap Statement.flattened with
  | [] => program
  | first :: further => { program with first := first, further := further }

/-- A program has statements without branches, since each statement has one in it. -/
theorem statements_flattened :
    program.flattened.statements = program.statements.flatMap Statement.flattened := by
  unfold flattened
  split
  · rename_i hnone
    have hfirst : program.first.flattened = [] :=
      (List.append_eq_nil_iff.mp (List.flatMap_cons.symm.trans hnone)).1
    exact absurd hfirst program.first.flattened_ne_nil
  · rename_i hsome
    exact hsome.symm

/-- Flattening a program changes nothing outside of its braces. -/
theorem tokens_flattened_eq :
    program.flattened.tokens =
      program.void.token :: program.main.token :: program.left.token :: program.right.token ::
        program.opening.token ::
          (program.flattened.body ++ [program.closing.token, program.stop.token]) := by
  unfold flattened
  split <;> rfl

/-- Flattening a program flattens its tokens. -/
theorem tokens_flattened : program.flattened.tokens = flatten program.tokens := by
  have hword : ∀ {spelling : String} (word : Word spelling) (rest : List Token),
      spelling ≠ "if" → spelling ≠ "else" →
        flatten (word.token :: rest) = word.token :: flatten rest := by
    intro spelling word rest hopening helse
    exact flatten_cons (word.isSpelled_eq_false hopening) (word.isSpelled_eq_false helse) rest
  rw [tokens_flattened_eq, tokens, body, body, statements_flattened,
    hword _ _ (by decide) (by decide), hword _ _ (by decide) (by decide),
    hword _ _ (by decide) (by decide), hword _ _ (by decide) (by decide),
    hword _ _ (by decide) (by decide), Statement.flatten_flatMap,
    hword _ _ (by decide) (by decide), hword _ _ (by decide) (by decide)]
  rfl

/-- A program without conditionals has no `else`. -/
theorem nearestElse_flattened : program.flattened.NearestElse := by
  intro statement hstatement
  rw [statements_flattened] at hstatement
  obtain ⟨original, _, hmem⟩ := List.mem_flatMap.mp hstatement
  exact Statement.nearestElse_of_mem_flattened hmem

/-- A flattened program has the obligations of the program but for the conditions. -/
theorem obligations_flattened :
    program.flattened.obligations =
      program.obligations.filter fun obligation => !obligation.isCondition := by
  unfold obligations
  rw [statements_flattened]
  simp only [List.flatMap_assoc, List.filter_flatMap, Statement.obligations_flattened]

end Program

end SimpleC
