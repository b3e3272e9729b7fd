import SimpleC.Proofs.Recognizer.Phrases
import SimpleC.Run

/-!
# What the recognizer accepts is a program

The recursion of the recognizer over statements. What recognizes a statement is
given what recognizes the statements inside it, and keeps the property of having
read a statement whose `else`s are the nearest ones. By induction on the bounds
a recognition that ends well has read a whole program.
-/

namespace SimpleC

namespace Recognizer

variable {switches : Switches} {state after : State}

/-- A step that, whenever it ends well, has read a statement that groups its
`else`s as required and does not reach for an `else` that follows it. -/
def ReadsStatement (step : Recognizer Unit) : Prop :=
  ∀ state after, step state = .ok () after →
    ∃ phrase : Statement,
      phrase.NearestElse ∧
        phrase.MayPrecede after.cursor.ahead ∧
          state.cursor.ahead = phrase.tokens ++ after.cursor.ahead

/-- The part of a conditional statement after its first branch. Without an `else`
nothing is read, and the next token is no `else`. -/
theorem elsePart_eq_ok
    {statement : Recognizer Unit}
    (hreads : ReadsStatement statement)
    (h : plain switches .elsePart (do
        if (← peek).isSpelled "else" then
          expect switches "else"
          statement) state = .ok () after) :
    (after.cursor.ahead = state.cursor.ahead ∧
        ∃ token tail, state.cursor.ahead = token :: tail ∧ token.isSpelled "else" = false) ∨
      ∃ (word : Word "else") (phrase : Statement),
        phrase.NearestElse ∧
          phrase.MayPrecede after.cursor.ahead ∧
            state.cursor.ahead = word.token :: (phrase.tokens ++ after.cursor.ahead) := by
  obtain ⟨inner, hstep, hafter⟩ := producing_eq_ok h
  rw [bind_eq_ok] at hstep
  obtain ⟨token, _, hpeek, hstep⟩ := hstep
  obtain ⟨rfl, tail, hahead⟩ := peek_eq_ok hpeek
  rw [hafter]
  split at hstep
  · obtain ⟨word, middle, hword, hstep⟩ := expect_bind_eq_ok hstep
    obtain ⟨phrase, hnearest, hprecede, hphrase⟩ := hreads _ _ hstep
    exact .inr ⟨word, phrase, hnearest, hprecede, by rw [← hphrase]; exact hword⟩
  · rename_i hother
    cases hstep
    exact .inl ⟨rfl, token, tail, hahead, by simpa using hother⟩

theorem readsStatement_conditional
    {statement : Recognizer Unit}
    (hreads : ReadsStatement statement) :
    ReadsStatement (conditional switches statement) := by
  intro state after h
  obtain ⟨inner, hstep, hafter⟩ := producing_eq_ok h
  obtain ⟨opening, _, hopening, hstep⟩ := expect_bind_eq_ok hstep
  obtain ⟨left, _, hleft, hstep⟩ := expect_bind_eq_ok hstep
  rw [bind_eq_ok] at hstep
  obtain ⟨_, afterCondition, hcondition, hstep⟩ := hstep
  obtain ⟨_, hcondition⟩ := discard_eq_ok hcondition
  obtain ⟨expression, hcondition⟩ := condition_eq_ok hcondition
  obtain ⟨right, afterRight, hright, hstep⟩ := expect_bind_eq_ok hstep
  rw [bind_eq_ok] at hstep
  obtain ⟨_, afterThen, hthen, helse⟩ := hstep
  obtain ⟨innerThen, hthen, hafterThen⟩ := producing_eq_ok hthen
  obtain ⟨thenPart, hnearest, hprecede, hthen⟩ := hreads _ _ hthen
  rw [← hafterThen] at hprecede hthen
  have hguard : state.cursor.ahead =
      (Guard.mk opening left expression right).tokens ++
        (thenPart.tokens ++ afterThen.cursor.ahead) := by
    rw [cursor_enter] at hopening
    rw [hopening, hleft, hcondition, hright, ← hthen]
    simp [Guard.tokens]
  rcases elsePart_eq_ok hreads helse with ⟨hsame, token, tail, hahead, hother⟩ | helse
  · refine ⟨.conditional ⟨opening, left, expression, right⟩ thenPart, hnearest, ?_, ?_⟩
    · intro _
      exact ⟨token, tail, by rw [hafter, hsame, hahead], hother⟩
    · rw [hguard, hafter, hsame]
      simp [Statement.tokens]
  · obtain ⟨word, elsePart, hnearestElse, hprecedeElse, helse⟩ := helse
    -- An `else` follows the first branch, so that it cannot end open.
    have hclosed : thenPart.endsOpen = false := by
      cases hopen : thenPart.endsOpen with
      | false =>
          rfl
      | true =>
          obtain ⟨token, tail, hahead, hother⟩ := hprecede hopen
          rw [helse] at hahead
          obtain ⟨rfl, _⟩ := List.cons.inj hahead
          simp at hother
    refine ⟨.alternative ⟨opening, left, expression, right⟩ thenPart word elsePart,
      ⟨hclosed, hnearest, hnearestElse⟩, ?_, ?_⟩
    · intro hopen
      rw [hafter]
      exact hprecedeElse hopen
    · rw [hguard, helse, hafter]
      simp [Statement.tokens]

/-- A statement without statements inside it groups no `else`. -/
theorem exists_statement_of_simple
    (phrase : Statement)
    {rest : List Token}
    (hnearest : phrase.NearestElse)
    (hclosed : phrase.endsOpen = false)
    (hahead : state.cursor.ahead = phrase.tokens ++ rest) :
    ∃ phrase : Statement,
      phrase.NearestElse ∧
        phrase.MayPrecede rest ∧ state.cursor.ahead = phrase.tokens ++ rest := by
  refine ⟨phrase, hnearest, ?_, hahead⟩
  intro hopen
  rw [hclosed] at hopen
  cases hopen

/-- A statement that was read is a statement. -/
theorem readsStatement_statementOf
    {statement : Recognizer Unit}
    (hreads : ReadsStatement statement) :
    ReadsStatement (statementOf switches statement) := by
  intro state after h
  obtain ⟨inner, hstep, hafter⟩ := producing_eq_ok h
  rw [bind_eq_ok] at hstep
  obtain ⟨token, _, hpeek, hstep⟩ := hstep
  obtain ⟨rfl, tail, hahead⟩ := peek_eq_ok hpeek
  rw [hafter]
  cases hform : StatementForm.ofToken? token with
  | none =>
      rw [hform] at hstep
      cases hstep
  | some form =>
      rw [hform] at hstep
      cases form with
      | empty =>
          obtain ⟨semicolon, hphrase⟩ := emptyStatement_eq_ok hstep
          exact exists_statement_of_simple (.empty semicolon) trivial rfl hphrase
      | declaration =>
          obtain ⟨declarator, name, semicolon, hphrase⟩ :=
            declaration_eq_ok hahead hform hstep
          exact exists_statement_of_simple (.declaration declarator name semicolon) trivial rfl hphrase
      | input =>
          obtain ⟨word, arrows, name, semicolon, hphrase⟩ := input_eq_ok hstep
          exact exists_statement_of_simple (.input word arrows name semicolon) trivial rfl hphrase
      | output =>
          obtain ⟨word, arrows, printed, semicolon, hphrase⟩ := output_eq_ok hstep
          exact exists_statement_of_simple (.output word arrows printed semicolon) trivial rfl hphrase
      | assignment =>
          obtain ⟨name, equals, value, semicolon, hphrase⟩ := assignment_eq_ok hstep
          exact exists_statement_of_simple (.assignment name equals value semicolon) trivial rfl hphrase
      | conditional =>
          have hconditional :
              conditional switches statement (state.enter .statement) = .ok () inner :=
            hstep
          have hread := readsStatement_conditional hreads _ _ hconditional
          rwa [cursor_enter] at hread

/-- Statements nested to any depth. -/
theorem readsStatement_statement (depth : Nat) :
    ReadsStatement (statement switches depth) := by
  induction depth with
  | zero =>
      intro state after h
      cases h
  | succ depth ih =>
      exact readsStatement_statementOf ih

/-- Statements in a row that were read are statements. -/
theorem repeated_eq_ok
    {statement : Recognizer Unit}
    (hreads : ReadsStatement statement)
    {count : Nat}
    (h : repeated statement count state = .ok () after) :
    ∃ phrases : List Statement,
      (∀ phrase ∈ phrases, phrase.NearestElse) ∧
        state.cursor.ahead = phrases.flatMap Statement.tokens ++ after.cursor.ahead := by
  induction count generalizing state with
  | zero =>
      cases h
  | succ count ih =>
      rw [repeated, bind_eq_ok] at h
      obtain ⟨token, _, hpeek, h⟩ := h
      obtain ⟨rfl, tail, hahead⟩ := peek_eq_ok hpeek
      split at h
      · rw [bind_eq_ok] at h
        obtain ⟨_, middle, hfirst, hrest⟩ := h
        obtain ⟨phrase, hnearest, _, hphrase⟩ := hreads _ _ hfirst
        obtain ⟨phrases, hnearestRest, hphrases⟩ := ih hrest
        refine ⟨phrase :: phrases, ?_, ?_⟩
        · simpa using ⟨hnearest, hnearestRest⟩
        · rw [hphrase, hphrases]
          simp
      · cases h
        exact ⟨[], by simp, by simp⟩

theorem statements_eq_ok
    {bound : Nat}
    (h : statements switches bound state = .ok () after) :
    ∃ (first : Statement) (further : List Statement),
      (∀ phrase ∈ first :: further, phrase.NearestElse) ∧
        state.cursor.ahead =
          (first :: further).flatMap Statement.tokens ++ after.cursor.ahead := by
  obtain ⟨inner, hstep, hafter⟩ := producing_eq_ok h
  rw [bind_eq_ok] at hstep
  obtain ⟨_, middle, hfirst, hrest⟩ := hstep
  obtain ⟨first, hnearest, _, hfirst⟩ := readsStatement_statement bound _ _ hfirst
  obtain ⟨further, hnearestRest, hfurther⟩ :=
    repeated_eq_ok (readsStatement_statement bound) hrest
  refine ⟨first, further, ?_, ?_⟩
  · simpa using ⟨hnearest, hnearestRest⟩
  · rw [cursor_enter] at hfirst
    rw [hfirst, hfurther, hafter]
    simp

theorem program_eq_ok
    {bound : Nat}
    (h : program switches bound state = .ok () after) :
    ∃ phrase : Program,
      phrase.NearestElse ∧ state.cursor.ahead = phrase.tokens ++ after.cursor.ahead := by
  obtain ⟨inner, hstep, hafter⟩ := producing_eq_ok h
  obtain ⟨void, _, hvoid, hstep⟩ := expect_bind_eq_ok hstep
  obtain ⟨main, _, hmain, hstep⟩ := expect_bind_eq_ok hstep
  obtain ⟨left, _, hleft, hstep⟩ := expect_bind_eq_ok hstep
  obtain ⟨right, _, hright, hstep⟩ := expect_bind_eq_ok hstep
  obtain ⟨opening, _, hopening, hstep⟩ := expect_bind_eq_ok hstep
  rw [bind_eq_ok] at hstep
  obtain ⟨_, afterBody, hbody, hstep⟩ := hstep
  obtain ⟨first, further, hnearest, hbody⟩ := statements_eq_ok hbody
  obtain ⟨closing, _, hclosing, hstep⟩ := expect_bind_eq_ok hstep
  obtain ⟨stop, hstop⟩ := expect_eq_ok hstep
  rw [cursor_enter] at hvoid
  refine ⟨⟨void, main, left, right, opening, first, further, closing, stop⟩, hnearest, ?_⟩
  rw [hvoid, hmain, hleft, hright, hopening, hbody, hclosing, hstop, hafter]
  simp [Program.tokens, Program.body, Program.statements]

/-- After a whole input nothing lies ahead. -/
theorem wholeInput_eq_ok
    {bound : Nat}
    (h : wholeInput switches bound state = .ok () after) :
    ∃ phrase : Program, phrase.NearestElse ∧ state.cursor.ahead = phrase.tokens := by
  rw [wholeInput, bind_eq_ok] at h
  obtain ⟨_, middle, hprogram, hnothing⟩ := h
  obtain ⟨phrase, hnearest, hphrase⟩ := program_eq_ok hprogram
  rw [nothingMore, bind_eq_ok] at hnothing
  obtain ⟨_, _, hget, hnothing⟩ := hnothing
  cases hget
  cases hahead : middle.cursor.ahead with
  | nil =>
      exact ⟨phrase, hnearest, by rw [hphrase, hahead, List.append_nil]⟩
  | cons token tail =>
      rw [hahead] at hnothing
      cases hnothing

end Recognizer

/-- Whatever the switches and the symbol table, only programs are accepted. -/
theorem exists_program_of_isSuccess
    {switches : Switches}
    {symbols : SymbolTable}
    {tokens : List Token}
    (h : (recognize switches symbols tokens).isSuccess = true) :
    ∃ phrase : Program, phrase.NearestElse ∧ phrase.tokens = tokens := by
  unfold recognize at h
  cases hresult : Recognizer.wholeInput switches (tokens.length + 1)
      (.start tokens symbols) with
  | ok answer after =>
      obtain ⟨phrase, hnearest, hahead⟩ := Recognizer.wholeInput_eq_ok hresult
      exact ⟨phrase, hnearest, hahead.symm⟩
  | error stop after =>
      rw [hresult] at h
      cases h

end SimpleC
