import SimpleC.Proofs.Phrase.Form

/-!
# The spellings in a statement

The bare tokens of a statement without branches have few spellings. So a scan for other
words, as one that looks for the beginning of a conditional, passes over them.
-/

namespace SimpleC

/-- The spellings of words in statements without branches that name no type and are no
operator. -/
def statementSpellings : List String :=
  [";", "cin", ">>", "cout", "<<", "endl", "=", "true", "false"]

section Spelling

variable {spelling : String}

/-- An identifier has a text of its own and no spelling. -/
@[simp] theorem Identifier.isSpelled_token (name : Identifier) (spelling : String) :
    name.token.isSpelled spelling = false := by
  simp [Token.isSpelled, Token.spelling?, TokenKind.hasPayload]

theorem Word.isSpelled_eq_false
    {other : String}
    (word : Word other)
    (hne : other ≠ spelling) :
    word.token.isSpelled spelling = false := by
  simpa using hne

theorem Printed.isSpelled_eq_false
    (printed : Printed)
    (hspelling : spelling ∉ "endl" :: boolSpellings) :
    printed.token.isSpelled spelling = false := by
  rw [List.mem_cons, not_or] at hspelling
  cases printed with
  | endOfLine word =>
      exact word.isSpelled_eq_false (Ne.symm hspelling.1)
  | value operand =>
      exact operand.isSpelled_eq_false hspelling.2

/-- The words in an expression are truth values and operators. -/
theorem Expression.isSpelled_of_mem
    (phrase : Expression)
    (hbool : spelling ∉ boolSpellings)
    (hoperator : Operator.ofSpelling? spelling = none) :
    ∀ token ∈ phrase.tokens, token.isSpelled spelling = false := by
  cases phrase with
  | single value =>
      exact List.forall_mem_singleton.mpr (value.isSpelled_eq_false hbool)
  | binary left sign right =>
      have hsign : sign.word.token.isSpelled spelling = false := by
        refine sign.word.isSpelled_eq_false ?_
        rintro rfl
        rw [Operator.ofSpelling?_eq_some_iff.mpr rfl] at hoperator
        cases hoperator
      simp [tokens, left.isSpelled_eq_false hbool, hsign, right.isSpelled_eq_false hbool]

/-- A statement without branches has no other words than the ones of its form. -/
theorem Statement.isSpelled_of_mem
    {statement : Statement}
    (hconditional : statement.form ≠ .conditional)
    (hdeclarator : statement.form = .declaration → spelling ∉ ["int", "real"])
    (hword : spelling ∉ statementSpellings)
    (hoperator : Operator.ofSpelling? spelling = none) :
    ∀ token ∈ statement.tokens, token.isSpelled spelling = false := by
  have hother : ∀ {other : String} (word : Word other), other ∈ statementSpellings →
      word.token.isSpelled spelling = false := by
    intro other word hmem
    refine word.isSpelled_eq_false ?_
    rintro rfl
    exact hword hmem
  have hprinted : spelling ∉ "endl" :: boolSpellings := by
    have hmem : ∀ other ∈ "endl" :: boolSpellings, other ∈ statementSpellings := by decide
    exact fun h => hword (hmem spelling h)
  have hbool : spelling ∉ boolSpellings := fun h => hprinted (List.mem_cons_of_mem _ h)
  cases statement with
  | empty semicolon =>
      exact List.forall_mem_singleton.mpr (hother semicolon (by decide))
  | declaration declarator name semicolon =>
      obtain ⟨type, hnumeric, word⟩ := declarator
      have htype : word.token.isSpelled spelling = false := by
        refine word.isSpelled_eq_false ?_
        rintro rfl
        refine hdeclarator rfl ?_
        cases type with
        | int | real =>
            decide
        | str | bool =>
            cases hnumeric
      simp [tokens, htype, hother semicolon (by decide)]
  | input word arrows name semicolon =>
      simp [tokens, hother word (by decide), hother arrows (by decide),
        hother semicolon (by decide)]
  | output word arrows printed semicolon =>
      simp [tokens, hother word (by decide), hother arrows (by decide),
        printed.isSpelled_eq_false hprinted, hother semicolon (by decide)]
  | assignment name equals value semicolon =>
      have hvalue := value.isSpelled_of_mem hbool hoperator
      simp only [tokens, List.forall_mem_cons, List.forall_mem_append]
      exact ⟨name.isSpelled_token spelling, hother equals (by decide), hvalue,
        hother semicolon (by decide), List.forall_mem_nil _⟩
  | conditional | alternative =>
      exact absurd rfl hconditional

end Spelling

end SimpleC
