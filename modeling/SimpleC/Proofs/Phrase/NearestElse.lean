import SimpleC.Proofs.Phrase.Basic

/-!
# The nearest open conditional

An `else` that could belong to several conditionals belongs to the nearest one
that is open. This module says when a phrase groups its conditionals in that
way, and regroups any phrase so that it does. Regrouping changes no token: every
list of tokens that is some program is also a program of this form.
-/

namespace SimpleC

namespace Statement

/-- Whether an `else` after the statement would belong to a conditional in it. -/
def endsOpen : Statement → Bool
  | conditional _ _ => true
  | alternative _ _ _ elsePart => elsePart.endsOpen
  | empty .. | declaration .. | input .. | output .. | assignment .. => false

/-- Every `else` in the statement belongs to the nearest conditional that is open. -/
def NearestElse : Statement → Prop
  | conditional _ thenPart => thenPart.NearestElse
  | alternative _ thenPart _ elsePart =>
      thenPart.endsOpen = false ∧ thenPart.NearestElse ∧ elsePart.NearestElse
  | empty .. | declaration .. | input .. | output .. | assignment .. => True

/-- The tokens may follow the statement without becoming a part of it: one that
ends open is followed by a token, which is no `else`. -/
def MayPrecede (statement : Statement) (rest : List Token) : Prop :=
  statement.endsOpen = true →
    ∃ token tail, rest = token :: tail ∧ token.isSpelled "else" = false

/-- Gives the nearest conditional that is open at the end of a statement an `else`. -/
def attach (word : Word "else") (branch : Statement) : Statement → Statement
  | conditional guard thenPart =>
      if thenPart.endsOpen then
        conditional guard (attach word branch thenPart)
      else
        alternative guard thenPart word branch
  | alternative guard thenPart other elsePart =>
      alternative guard thenPart other (attach word branch elsePart)
  | statement => statement

/-- Moves every `else` in the statement to the nearest conditional that is open. -/
def regroup : Statement → Statement
  | conditional guard thenPart => conditional guard thenPart.regroup
  | alternative guard thenPart word elsePart =>
      if thenPart.regroup.endsOpen then
        conditional guard (attach word elsePart.regroup thenPart.regroup)
      else
        alternative guard thenPart.regroup word elsePart.regroup
  | statement => statement

/-- An attached `else` comes after all tokens of the statement. -/
theorem tokens_attach
    (word : Word "else")
    (branch statement : Statement)
    (hopen : statement.endsOpen = true) :
    (attach word branch statement).tokens =
      statement.tokens ++ word.token :: branch.tokens := by
  induction statement with
  | conditional guard thenPart ih =>
      rw [attach]
      split
      · rename_i hthen
        simp [tokens, ih hthen]
      · simp [tokens]
  | alternative guard thenPart other elsePart _ ih =>
      have helse : elsePart.endsOpen = true := hopen
      simp [attach, tokens, ih helse]
  | empty | declaration | input | output | assignment =>
      simp [endsOpen] at hopen

/-- The attached `else` belongs to the nearest conditional that is open. -/
theorem nearestElse_attach
    (word : Word "else")
    (branch statement : Statement)
    (hopen : statement.endsOpen = true)
    (hbranch : branch.NearestElse)
    (hstatement : statement.NearestElse) :
    (attach word branch statement).NearestElse := by
  induction statement with
  | conditional guard thenPart ih =>
      rw [attach]
      split
      · rename_i hthen
        exact ih hthen hstatement
      · rename_i hthen
        exact ⟨by simpa using hthen, hstatement, hbranch⟩
  | alternative guard thenPart other elsePart _ ih =>
      obtain ⟨hclosed, hthen, helse⟩ := hstatement
      exact ⟨hclosed, hthen, ih hopen helse⟩
  | empty | declaration | input | output | assignment =>
      simp [endsOpen] at hopen

/-- Regrouping changes no token. -/
@[simp] theorem tokens_regroup (statement : Statement) :
    statement.regroup.tokens = statement.tokens := by
  induction statement with
  | conditional guard thenPart ih =>
      simp [regroup, tokens, ih]
  | alternative guard thenPart word elsePart ihthen ihelse =>
      rw [regroup]
      split
      · rename_i hopen
        simp [tokens, tokens_attach word _ _ hopen, ihthen, ihelse]
      · simp [tokens, ihthen, ihelse]
  | empty | declaration | input | output | assignment =>
      rfl

/-- After regrouping, every `else` belongs to the nearest conditional that is open. -/
theorem nearestElse_regroup (statement : Statement) : statement.regroup.NearestElse := by
  induction statement with
  | conditional guard thenPart ih =>
      exact ih
  | alternative guard thenPart word elsePart ihthen ihelse =>
      rw [regroup]
      split
      · rename_i hopen
        exact nearestElse_attach word _ _ hopen ihelse ihthen
      · rename_i hopen
        exact ⟨by simpa using hopen, ihthen, ihelse⟩
  | empty | declaration | input | output | assignment =>
      trivial

end Statement

namespace Program

/-- Every `else` in the program belongs to the nearest conditional that is open. -/
def NearestElse (program : Program) : Prop :=
  ∀ statement ∈ program.statements, statement.NearestElse

/-- Regroups all statements of a program. -/
def regroup (program : Program) : Program :=
  { program with
    first := program.first.regroup
    further := program.further.map Statement.regroup }

/-- Regrouping a program changes no token. -/
theorem tokens_regroup (program : Program) : program.regroup.tokens = program.tokens := by
  simp [tokens, body, statements, regroup, List.flatMap_map]

/-- After regrouping, every `else` of a program belongs to the nearest conditional. -/
theorem nearestElse_regroup (program : Program) : program.regroup.NearestElse := by
  intro statement hstatement
  have hmem : statement ∈ program.statements.map Statement.regroup := by
    simpa [statements, regroup] using hstatement
  obtain ⟨original, _, rfl⟩ := List.mem_map.mp hmem
  exact original.nearestElse_regroup

end Program

end SimpleC
