import SimpleC.Proofs.Course.Run

/-!
# What follows a course

A course that has come to its end has looked at most at the first of the tokens that are left
over, and only to find that an optional part is missing. So these tokens may be exchanged for
others with which it is missing as well. In particular statements may be followed by further
statements instead of the end of a program.
-/

namespace SimpleC

/-- Whether something can be left out at the place. -/
def Choice.isOptional : Choice → Bool
  | further | otherwise | operation => true
  | form | declarator | printed | operand | sign => false

/-- Whether the item is known to consume a token. -/
def Item.isEager : Item → Bool
  | token _ => true
  | phrase production => production ≠ .elsePart
  | check => false
  | choice place => !place.isOptional

/-- Only an `else` that is missing consumes nothing. -/
theorem Production.any_isEager
    {production : Production}
    (hproduction : production ≠ .elsePart) :
    production.items.any Item.isEager = true := by
  cases production with
  | elsePart =>
      exact absurd rfl hproduction
  | _ =>
      decide

/-- A choice for something decides for what consumes a token. -/
theorem Choice.any_isEager
    {choice : Choice}
    {token : Token}
    {more : List Item}
    (hmore : choice.items token = .ok more)
    (hsome : choice.isOptional = false ∨ more ≠ []) :
    more.any Item.isEager = true := by
  cases choice with
  | further | printed | otherwise | operation =>
      simp only [items] at hmore
      split at hmore <;> cases hmore
      · decide
      · simp_all [isOptional, Item.isEager]
  | form =>
      simp only [items] at hmore
      split at hmore
      · rename_i form _
        cases hmore
        cases form <;> rfl
      · cases hmore
  | declarator | operand | sign =>
      simp only [items] at hmore
      split at hmore
      · cases hmore
        rfl
      · cases hmore

section Following

variable
    {production : Production}
    {read ahead rest others : List Token}
    {items : List Item}
    {moves : List Move}
    {rest? : Option (List Token)}

/-- What is known to consume a token does so. -/
theorem Course.tokens_ne_nil
    (h : Course production read items ahead moves rest?)
    (hrest : rest?.isSome = true)
    (heager : items.any Item.isEager = true) :
    Move.tokens moves ≠ [] := by
  induction h with
  | done =>
      cases heager
  | token =>
      simp
  | unexpected | missing | refused | undecided | broken =>
      cases hrest
  | check _ ih =>
      simpa using ih hrest heager
  | @choice _ _ _ _ _ _ _ choice _ hmore _ ih =>
      refine ih hrest ?_
      rw [List.any_append, Bool.or_eq_true]
      rw [List.any_cons, Bool.or_eq_true] at heager
      refine heager.imp_left fun hchoice => Choice.any_isEager hmore (.inl ?_)
      simpa [Item.isEager] using hchoice
  | phrase _ _ ihinner ih =>
      rw [List.any_cons, Bool.or_eq_true] at heager
      rw [Move.tokens_within]
      intro hnil
      obtain ⟨hinner, hfurther⟩ := List.append_eq_nil_iff.mp hnil
      rcases heager with hphrase | hitems
      · exact ihinner rfl (Production.any_isEager (of_decide_eq_true hphrase)) hinner
      · exact ih hrest hitems hfurther

/-- Whether statements are repeated in the item. -/
def Item.repeats : Item → Bool
  | choice place => place = .further
  | phrase production => production = .statements ∨ production = .program
  | token _ | check => false

/-- Wherever an optional part is missing because of the first rest, it is because of the other
one. -/
def Continues (rest others : List Token) : Prop :=
  ∀ (choice : Choice) (token : Token) (tail : List Token), choice ≠ .further →
    rest = token :: tail → choice.items token = .ok [] →
      ∃ other tail', others = other :: tail' ∧ choice.items other = .ok []

theorem Continues.append (h : Continues rest others) (front : List Token) :
    Continues (front ++ rest) (front ++ others) := by
  cases front with
  | nil =>
      exact h
  | cons first front =>
      intro choice token tail _ hrest hitems
      obtain ⟨rfl, _⟩ := List.cons.inj hrest
      exact ⟨first, _, rfl, hitems⟩

/-- Without repeated statements, a choice decides for none. -/
theorem Choice.repeats_of_items
    {choice : Choice}
    {token : Token}
    {more : List Item}
    (hchoice : choice ≠ .further)
    (hmore : choice.items token = .ok more) :
    ∀ item ∈ more, item.repeats = false := by
  cases choice with
  | further =>
      exact absurd rfl hchoice
  | printed | otherwise | operation =>
      simp only [items] at hmore
      split at hmore <;> cases hmore <;> decide
  | form =>
      simp only [items] at hmore
      split at hmore
      · rename_i form _
        cases hmore
        cases form <;> decide
      · cases hmore
  | declarator | operand | sign =>
      simp only [items] at hmore
      split at hmore
      · cases hmore
        simp [Item.repeats]
      · cases hmore

theorem Production.repeats_of_mem_items
    {production : Production}
    (hproduction : (Item.phrase production).repeats = false) :
    ∀ item ∈ production.items, item.repeats = false := by
  cases production with
  | statements | program =>
      cases hproduction
  | _ =>
      decide

/-- The tokens that are left over may be exchanged. -/
theorem Course.exchange_rest
    (h : Course production read items ahead moves rest?)
    (hrest : rest? = some rest)
    (hrepeats : ∀ item ∈ items, item.repeats = false)
    (hcontinues : Continues rest others) :
    Course production read items (Move.tokens moves ++ others) moves (some others) := by
  induction h generalizing rest others with
  | done =>
      exact .done
  | unexpected | missing | refused | undecided | broken =>
      cases hrest
  | token haccepts _ ih =>
      rw [List.forall_mem_cons] at hrepeats
      exact .token haccepts (ih hrest hrepeats.2 hcontinues)
  | check _ ih =>
      rw [List.forall_mem_cons] at hrepeats
      rw [Move.tokens_append, Production.tokens_checks, List.nil_append]
      exact .check (ih hrest hrepeats.2 hcontinues)
  | @choice _ _ _ _ more moves _ choice token hmore hcourse ih =>
      rw [List.forall_mem_cons] at hrepeats
      have hchoice : choice ≠ .further := by simpa [Item.repeats] using hrepeats.1
      have hother := ih hrest
        (List.forall_mem_append.mpr ⟨Choice.repeats_of_items hchoice hmore, hrepeats.2⟩) hcontinues
      have hahead := hcourse.ahead_eq hrest
      cases htokens : Move.tokens moves with
      | cons first tokens =>
          rw [htokens] at hahead hother
          obtain ⟨rfl, _⟩ := List.cons.inj hahead
          exact .choice hmore hother
      | nil =>
          -- nothing was consumed, so that the choice has decided for nothing
          have hnothing : more = [] := by
            cases hsome : more with
            | nil =>
                rfl
            | cons item items =>
                refine absurd htokens (hcourse.tokens_ne_nil (by rw [hrest]; rfl) ?_)
                have heager := Choice.any_isEager hmore (.inr (by rw [hsome]; exact List.cons_ne_nil _ _))
                rw [List.any_append, heager, Bool.true_or]
          subst hnothing
          rw [htokens] at hahead hother
          obtain ⟨other, tail, rfl, hitems⟩ := hcontinues choice token _ hchoice hahead.symm hmore
          exact .choice hitems hother
  | phrase hinner hcourse ihinner ih =>
      rw [List.forall_mem_cons] at hrepeats
      have hmiddle := hcourse.ahead_eq hrest
      rw [Move.tokens_within, List.append_assoc]
      refine .phrase ?_ (ih hrest hrepeats.2 hcontinues)
      refine ihinner rfl (Production.repeats_of_mem_items hrepeats.1) ?_
      rw [hmiddle]
      exact hcontinues.append _

/-- What a production has read tells nothing about its course, unless it asks something. -/
theorem Course.of_read
    (h : Course production read items ahead moves rest?)
    (hchecks : ∀ read, production.checks read = [])
    (other : List Token) :
    Course production other items ahead moves rest? := by
  induction h generalizing other with
  | done =>
      exact .done
  | token haccepts _ ih =>
      exact .token haccepts (ih hchecks _)
  | unexpected haccepts =>
      exact .unexpected haccepts
  | missing =>
      exact .missing
  | @check production read _ _ _ _ _ ih =>
      rw [hchecks read, ← hchecks other]
      exact .check (ih hchecks other)
  | choice hmore _ ih =>
      exact .choice hmore (ih hchecks other)
  | refused hmore =>
      exact .refused hmore
  | undecided =>
      exact .undecided
  | phrase hinner _ _ ih =>
      exact .phrase hinner (ih hchecks _)
  | broken hinner =>
      exact .broken hinner

/-- The items with which statements end. -/
def Item.EndsStatements (items : List Item) : Prop :=
  items = [.phrase .statement, .choice .further] ∨ items = [.choice .further]

/-- Statements that have come to their end may be followed by further ones. -/
theorem Course.append_statements
    {starter : Token}
    {further : List Move}
    {further? : Option (List Token)}
    (h : Course .statements read items ahead moves (some rest))
    (hitems : Item.EndsStatements items)
    (hcontinues : Continues rest (starter :: others))
    (hstarter : (StatementForm.ofToken? starter).isSome = true)
    (hlater : Course .statements [] Production.statements.items (starter :: others) further
      further?) :
    Course .statements read items (Move.tokens moves ++ starter :: others) (moves ++ further)
      further? := by
  generalize hproduction : Production.statements = production at h
  generalize hrest : some rest = rest? at h
  induction h with
  | done | unexpected | missing | check | undecided | refused | broken =>
      rcases hitems with hitems | hitems <;> cases hitems <;> cases hrest
  | token =>
      rcases hitems with hitems | hitems <;> cases hitems
  | @choice _ _ _ _ more _ _ choice token hmore hcourse ih =>
      subst hproduction hrest
      rcases hitems with hitems | hitems
      · cases hitems
      · cases hitems
        have hahead := hcourse.ahead_eq rfl
        cases hform : StatementForm.ofToken? token with
        | none =>
            -- there are no more statements, so that the further ones begin here
            simp only [Choice.items, hform, Option.isSome_none] at hmore
            cases hmore
            cases hcourse
            exact .choice (if_pos hstarter) (hlater.of_read (fun _ => rfl) _)
        | some form =>
            simp only [Choice.items, hform, Option.isSome_some] at hmore
            cases hmore
            have hcourse' := ih (.inl rfl) rfl rfl
            cases htokens : Move.tokens _ with
            | nil =>
                rw [htokens] at hcourse'
                exact .choice (if_pos hstarter) hcourse'
            | cons first tokens =>
                rw [htokens] at hahead hcourse'
                obtain ⟨rfl, _⟩ := List.cons.inj hahead
                exact .choice (if_pos (by rw [hform]; rfl)) hcourse'
  | phrase hinner hcourse _ ih =>
      subst hproduction hrest
      rcases hitems with hitems | hitems
      · cases hitems
        have hmiddle := hcourse.ahead_eq rfl
        rw [Move.tokens_within, List.append_assoc, List.cons_append]
        refine .phrase ?_ (ih (.inr rfl) rfl rfl)
        refine hinner.exchange_rest rfl (by decide) ?_
        rw [hmiddle]
        exact hcontinues.append _
      · cases hitems

end Following

end SimpleC
