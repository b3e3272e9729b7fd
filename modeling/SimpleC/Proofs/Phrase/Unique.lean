import Mathlib.Logic.ExistsUnique
import SimpleC.Proofs.Phrase.Derivation
import SimpleC.Proofs.Phrase.Form

/-!
# Programs are told by their tokens

A list of tokens is the list of at most one program in which every `else`
belongs to the nearest open conditional. The argument reads two phrases side by
side: they have the same form, since one token tells it, and then the same
parts. Only where one conditional has an `else` and the other one has not is
there a choice, and the nearest one leaves none.
-/

namespace SimpleC

theorem Terminal.eq_of_token
    {wanted : Expectation}
    {left right : Terminal wanted}
    (h : left.token = right.token) :
    left = right := by
  cases left
  cases right
  cases h
  rfl

theorem Operand.eq_of_token {left right : Operand} (h : left.token = right.token) :
    left = right := by
  cases left
  cases right
  cases h
  rfl

theorem Word.spelling_eq_of_token
    {spelling spelling' : String}
    {word : Word spelling}
    {word' : Word spelling'}
    (h : word.token = word'.token) :
    spelling = spelling' := by
  have hspelling := word.spelling?_token
  rw [h, word'.spelling?_token] at hspelling
  exact (Option.some.inj hspelling).symm

theorem Sign.eq_of_token {left right : Sign} (h : left.word.token = right.word.token) :
    left = right := by
  obtain ⟨operator, word⟩ := left
  obtain ⟨operator', word'⟩ := right
  have hoperator := Operator.spelling_injective (Word.spelling_eq_of_token h)
  subst hoperator
  have hword : word = word' := Terminal.eq_of_token h
  rw [hword]

theorem Declarator.eq_of_token {left right : Declarator} (h : left.word.token = right.word.token) :
    left = right := by
  obtain ⟨type, numeric, word⟩ := left
  obtain ⟨type', numeric', word'⟩ := right
  have htype := ValueType.name_injective (Word.spelling_eq_of_token h)
  subst htype
  have hword : word = word' := Terminal.eq_of_token h
  rw [hword]

theorem Printed.eq_of_token {left right : Printed} (h : left.token = right.token) :
    left = right := by
  cases left with
  | endOfLine word =>
      cases right with
      | endOfLine word' =>
          rw [Terminal.eq_of_token h]
      | value operand =>
          have hword := operand.isSpelled_eq_false (show "endl" ∉ boolSpellings by decide)
          rw [← show word.token = operand.token from h, word.isSpelled_token] at hword
          cases hword
  | value operand =>
      cases right with
      | endOfLine word' =>
          have hword := operand.isSpelled_eq_false (show "endl" ∉ boolSpellings by decide)
          rw [show operand.token = word'.token from h, word'.isSpelled_token] at hword
          cases hword
      | value operand' =>
          rw [Operand.eq_of_token h]

/-- An expression is told by its tokens, if no operator follows it. -/
theorem Expression.eq_of_tokens
    {left right : Expression}
    {token token' : Token}
    {tail tail' : List Token}
    (hoperator : token.isOperator = false)
    (hoperator' : token'.isOperator = false)
    (h : left.tokens ++ token :: tail = right.tokens ++ token' :: tail') :
    left = right ∧ token :: tail = token' :: tail' := by
  cases left with
  | single value =>
      cases right with
      | single value' =>
          obtain ⟨hvalue, hrest⟩ := List.cons.inj h
          exact ⟨by rw [Operand.eq_of_token hvalue], hrest⟩
      | binary left' sign' right' =>
          obtain ⟨_, hrest⟩ := List.cons.inj h
          obtain ⟨rfl, _⟩ := List.cons.inj hrest
          rw [sign'.isOperator_token] at hoperator
          cases hoperator
  | binary leftValue sign rightValue =>
      cases right with
      | single value' =>
          obtain ⟨_, hrest⟩ := List.cons.inj h
          obtain ⟨rfl, _⟩ := List.cons.inj hrest
          rw [sign.isOperator_token] at hoperator'
          cases hoperator'
      | binary left' sign' right' =>
          obtain ⟨hleft, hrest⟩ := List.cons.inj h
          obtain ⟨hsign, hrest⟩ := List.cons.inj hrest
          obtain ⟨hright, hrest⟩ := List.cons.inj hrest
          refine ⟨?_, hrest⟩
          rw [Operand.eq_of_token hleft, Sign.eq_of_token hsign, Operand.eq_of_token hright]

/-- The head of a conditional is told by its tokens. -/
theorem Guard.eq_of_tokens
    {left right : Guard}
    {rest rest' : List Token}
    (h : left.tokens ++ rest = right.tokens ++ rest') :
    left = right ∧ rest = rest' := by
  obtain ⟨opening, parenthesis, phrase, closing⟩ := left
  obtain ⟨opening', parenthesis', phrase', closing'⟩ := right
  simp only [tokens, List.cons_append, List.append_assoc, List.nil_append] at h
  obtain ⟨hopening, h⟩ := List.cons.inj h
  obtain ⟨hparenthesis, h⟩ := List.cons.inj h
  obtain ⟨rfl, hclosing⟩ := Expression.eq_of_tokens (closing.isOperator_token.trans rfl)
    (closing'.isOperator_token.trans rfl) h
  obtain ⟨hclosing, hrest⟩ := List.cons.inj hclosing
  refine ⟨?_, hrest⟩
  rw [Terminal.eq_of_token hopening, Terminal.eq_of_token hparenthesis,
    Terminal.eq_of_token hclosing]

namespace Statement

/-- Statements that begin with the same token have the same form. -/
theorem form_eq_of_tokens
    {left right : Statement}
    {rest rest' : List Token}
    (h : left.tokens ++ rest = right.tokens ++ rest') :
    left.form = right.form := by
  obtain ⟨tail, htokens⟩ := left.exists_tokens_eq
  obtain ⟨tail', htokens'⟩ := right.exists_tokens_eq
  rw [htokens, htokens'] at h
  obtain ⟨hfirst, _⟩ := List.cons.inj h
  have hform := left.ofToken?_first
  rw [hfirst, right.ofToken?_first] at hform
  exact (Option.some.inj hform).symm

/-- A statement without branches is told by its tokens. -/
theorem eq_of_tokens_of_form
    {left right : Statement}
    {rest rest' : List Token}
    (hsimple : left.form ≠ .conditional)
    (h : left.tokens ++ rest = right.tokens ++ rest') :
    left = right ∧ rest = rest' := by
  have hform := form_eq_of_tokens h
  cases left with
  | empty semicolon =>
      cases right with
      | empty semicolon' =>
          obtain ⟨hsemicolon, hrest⟩ := List.cons.inj h
          exact ⟨by rw [Terminal.eq_of_token hsemicolon], hrest⟩
      | _ =>
          cases hform
  | declaration declarator name semicolon =>
      cases right with
      | declaration declarator' name' semicolon' =>
          obtain ⟨hword, h⟩ := List.cons.inj h
          obtain ⟨hname, h⟩ := List.cons.inj h
          obtain ⟨hsemicolon, hrest⟩ := List.cons.inj h
          exact ⟨by rw [Declarator.eq_of_token hword, Terminal.eq_of_token hname,
            Terminal.eq_of_token hsemicolon], hrest⟩
      | _ =>
          cases hform
  | input word arrows name semicolon =>
      cases right with
      | input word' arrows' name' semicolon' =>
          obtain ⟨hword, h⟩ := List.cons.inj h
          obtain ⟨harrows, h⟩ := List.cons.inj h
          obtain ⟨hname, h⟩ := List.cons.inj h
          obtain ⟨hsemicolon, hrest⟩ := List.cons.inj h
          exact ⟨by rw [Terminal.eq_of_token hword, Terminal.eq_of_token harrows,
            Terminal.eq_of_token hname, Terminal.eq_of_token hsemicolon], hrest⟩
      | _ =>
          cases hform
  | output word arrows printed semicolon =>
      cases right with
      | output word' arrows' printed' semicolon' =>
          obtain ⟨hword, h⟩ := List.cons.inj h
          obtain ⟨harrows, h⟩ := List.cons.inj h
          obtain ⟨hprinted, h⟩ := List.cons.inj h
          obtain ⟨hsemicolon, hrest⟩ := List.cons.inj h
          exact ⟨by rw [Terminal.eq_of_token hword, Terminal.eq_of_token harrows,
            Printed.eq_of_token hprinted, Terminal.eq_of_token hsemicolon], hrest⟩
      | _ =>
          cases hform
  | assignment name equals value semicolon =>
      cases right with
      | assignment name' equals' value' semicolon' =>
          simp only [tokens, List.cons_append, List.append_assoc, List.nil_append] at h
          obtain ⟨hname, h⟩ := List.cons.inj h
          obtain ⟨hequals, h⟩ := List.cons.inj h
          obtain ⟨hvalue, h⟩ := Expression.eq_of_tokens (semicolon.isOperator_token.trans rfl)
            (semicolon'.isOperator_token.trans rfl) h
          obtain ⟨hsemicolon, hrest⟩ := List.cons.inj h
          exact ⟨by rw [Terminal.eq_of_token hname, Terminal.eq_of_token hequals, hvalue,
            Terminal.eq_of_token hsemicolon], hrest⟩
      | _ =>
          cases hform
  | conditional | alternative =>
      exact absurd rfl hsimple

/-- A statement in which every `else` is at the nearest conditional is told by its tokens. -/
theorem eq_of_tokens (left : Statement) :
    ∀ {right : Statement} {rest rest' : List Token},
      left.NearestElse → right.NearestElse → left.MayPrecede rest → right.MayPrecede rest' →
        left.tokens ++ rest = right.tokens ++ rest' → left = right ∧ rest = rest' := by
  induction left with
  | conditional guard thenPart ih =>
      intro right rest rest' hnearest hnearest' hrest hrest' h
      have hform := form_eq_of_tokens h
      cases right with
      | conditional guard' thenPart' =>
          simp only [tokens, List.append_assoc] at h
          obtain ⟨rfl, hthen⟩ := Guard.eq_of_tokens h
          have hnearestThen' : thenPart'.NearestElse := hnearest'
          obtain ⟨rfl, hrests⟩ := ih hnearest hnearestThen' (fun _ => hrest rfl)
            (fun _ => hrest' rfl) hthen
          exact ⟨rfl, hrests⟩
      | alternative guard' thenPart' word' elsePart' =>
          simp only [tokens, List.append_assoc, List.cons_append] at h
          obtain ⟨rfl, hthen⟩ := Guard.eq_of_tokens h
          obtain ⟨hclosed', hnearestThen', _⟩ := hnearest'
          obtain ⟨_, hrests⟩ := ih hnearest hnearestThen' (fun _ => hrest rfl)
            (fun hopen => by simp [hclosed'] at hopen) hthen
          -- the other statement has an `else` where this one may have none
          obtain ⟨token, tail, rfl, hno⟩ := hrest rfl
          obtain ⟨rfl, _⟩ := List.cons.inj hrests
          rw [word'.isSpelled_token] at hno
          cases hno
      | _ =>
          cases hform
  | alternative guard thenPart word elsePart ihthen ihelse =>
      intro right rest rest' hnearest hnearest' hrest hrest' h
      have hform := form_eq_of_tokens h
      obtain ⟨hclosed, hnearestThen, hnearestElse⟩ := hnearest
      cases right with
      | conditional guard' thenPart' =>
          simp only [tokens, List.append_assoc, List.cons_append] at h
          obtain ⟨rfl, hthen⟩ := Guard.eq_of_tokens h
          have hnearestThen' : thenPart'.NearestElse := hnearest'
          obtain ⟨_, hrests⟩ := ihthen hnearestThen hnearestThen'
            (fun hopen => by simp [hclosed] at hopen) (fun _ => hrest' rfl) hthen
          obtain ⟨token, tail, rfl, hno⟩ := hrest' rfl
          obtain ⟨rfl, _⟩ := List.cons.inj hrests
          rw [word.isSpelled_token] at hno
          cases hno
      | alternative guard' thenPart' word' elsePart' =>
          simp only [tokens, List.append_assoc, List.cons_append] at h
          obtain ⟨rfl, hthen⟩ := Guard.eq_of_tokens h
          obtain ⟨hclosed', hnearestThen', hnearestElse'⟩ := hnearest'
          obtain ⟨rfl, hrests⟩ := ihthen hnearestThen hnearestThen'
            (fun hopen => by simp [hclosed] at hopen) (fun hopen => by simp [hclosed'] at hopen)
            hthen
          obtain ⟨hword, helse⟩ := List.cons.inj hrests
          obtain ⟨rfl, hends⟩ := ihelse hnearestElse hnearestElse' hrest hrest' helse
          exact ⟨by rw [Terminal.eq_of_token hword], hends⟩
      | _ =>
          cases hform
  | empty | declaration | input | output | assignment =>
      intro right rest rest' _ _ _ _ h
      exact eq_of_tokens_of_form (by simp [form]) h

end Statement

namespace Program

/-- A brace that closes the statements begins none. -/
theorem ne_closing_append
    (closing : Word "\x7d")
    (statement : Statement)
    (tail rest : List Token) :
    closing.token :: tail ≠ statement.tokens ++ rest := by
  intro h
  obtain ⟨further, htokens⟩ := statement.exists_tokens_eq
  rw [htokens] at h
  obtain ⟨hfirst, _⟩ := List.cons.inj h
  have hform := statement.ofToken?_first
  rw [← hfirst, StatementForm.ofToken?_of_spelling? closing.spelling?_token] at hform
  cases hform

/-- Statements in a row are told by their tokens and the brace that closes them. -/
theorem statements_eq_of_tokens
    {closing closing' : Word "\x7d"}
    {tail tail' : List Token}
    (left : List Statement) :
    ∀ {right : List Statement},
      (∀ statement ∈ left, statement.NearestElse) →
        (∀ statement ∈ right, statement.NearestElse) →
          left.flatMap Statement.tokens ++ closing.token :: tail =
            right.flatMap Statement.tokens ++ closing'.token :: tail' →
          left = right ∧ closing.token :: tail = closing'.token :: tail' := by
  induction left with
  | nil =>
      intro right _ _ h
      cases right with
      | nil =>
          exact ⟨rfl, h⟩
      | cons next further =>
          rw [List.flatMap_cons, List.append_assoc] at h
          exact absurd h (ne_closing_append closing next _ _)
  | cons next further ih =>
      intro right hnearest hnearest' h
      cases right with
      | nil =>
          rw [List.flatMap_cons, List.append_assoc] at h
          exact absurd h.symm (ne_closing_append closing' next _ _)
      | cons next' further' =>
          simp only [List.flatMap_cons, List.append_assoc] at h
          simp only [List.forall_mem_cons] at hnearest hnearest'
          obtain ⟨rfl, hrest⟩ := next.eq_of_tokens hnearest.1 hnearest'.1
            (fun _ => Statement.exists_no_else further closing tail)
            (fun _ => Statement.exists_no_else further' closing' tail') h
          obtain ⟨rfl, hends⟩ := ih hnearest.2 hnearest'.2 hrest
          exact ⟨rfl, hends⟩

/-- There is at most one program with the given tokens in which every `else` is at the
nearest conditional. -/
theorem eq_of_tokens
    {left right : Program}
    (hleft : left.NearestElse)
    (hright : right.NearestElse)
    (h : left.tokens = right.tokens) :
    left = right := by
  obtain ⟨void, main, opens, closes, opening, first, further, closing, stop⟩ := left
  obtain ⟨void', main', opens', closes', opening', first', further', closing', stop'⟩ := right
  simp only [tokens, body, statements] at h
  obtain ⟨hvoid, h⟩ := List.cons.inj h
  obtain ⟨hmain, h⟩ := List.cons.inj h
  obtain ⟨hopens, h⟩ := List.cons.inj h
  obtain ⟨hcloses, h⟩ := List.cons.inj h
  obtain ⟨hopening, h⟩ := List.cons.inj h
  obtain ⟨hstatements, h⟩ := statements_eq_of_tokens (first :: further) hleft hright h
  obtain ⟨hclosing, h⟩ := List.cons.inj h
  obtain ⟨hstop, _⟩ := List.cons.inj h
  obtain ⟨rfl, rfl⟩ := List.cons.inj hstatements
  rw [Terminal.eq_of_token hvoid, Terminal.eq_of_token hmain, Terminal.eq_of_token hopens,
    Terminal.eq_of_token hcloses, Terminal.eq_of_token hopening, Terminal.eq_of_token hclosing,
    Terminal.eq_of_token hstop]

end Program

/-- What the grammar derives is exactly one program in which every `else` is at the
nearest conditional. -/
theorem Grammar.derivable_iff_existsUnique (tokens : List Token) :
    Derivable tokens ↔ ∃! program : Program, program.NearestElse ∧ program.tokens = tokens := by
  rw [derivable_iff_exists_nearestElse]
  constructor
  · rintro ⟨program, hnearest, rfl⟩
    refine ⟨program, ⟨hnearest, rfl⟩, ?_⟩
    rintro other ⟨hother, htokens⟩
    exact Program.eq_of_tokens hother hnearest htokens
  · rintro ⟨program, hprogram, _⟩
    exact ⟨program, hprogram⟩

end SimpleC
