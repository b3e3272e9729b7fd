import SimpleC.Proofs.Course.Parts
import SimpleC.Proofs.Course.Run
import SimpleC.Proofs.Declarations.Scan

/-!
# The variables of a run

However deep a declaration lies, and whether or not a run comes to its end, the
variables that are added to the symbol table are those that a flat scan of the
consumed tokens finds. Declarations are the only productions that read a word which
names a type, so that none lies across the border between two phrases.
-/

namespace SimpleC

/-- Whether no word of a declaration is what is expected. -/
def Expectation.isPlain : Expectation → Bool
  | spelled spelling => (ValueType.ofDeclarator? spelling).isNone
  | ofKind kind => kind.hasPayload

/-- Whether the item reads no word of a declaration. -/
def Item.isPlain : Item → Bool
  | token wanted => wanted.isPlain
  | choice place => place ≠ .declarator
  | phrase _ | check => true

section Plain

variable {token : Token} {items more : List Item}

theorem Expectation.declarator?_of_accepts
    {wanted : Expectation}
    (hplain : wanted.isPlain = true)
    (haccepts : wanted.accepts token = true) :
    token.declarator? = none := by
  cases wanted with
  | spelled spelling =>
      rw [Token.declarator?_of_isSpelled haccepts]
      exact Option.isNone_iff_eq_none.mp hplain
  | ofKind kind =>
      have hkind : token.kind = kind := by
        simpa [accepts] using haccepts
      exact Token.declarator?_of_kind hplain hkind

/-- Only declarations have words that name a type. -/
theorem Production.isPlain_of_mem_items
    {production : Production}
    (hproduction : production ≠ .declaration) :
    ∀ item ∈ production.items, item.isPlain = true := by
  cases production with
  | declaration =>
      exact absurd rfl hproduction
  | _ =>
      decide

theorem Token.isPlain_of_valueExpectation?
    {wanted : Expectation}
    (h : token.valueExpectation? = some wanted) :
    wanted.isPlain = true := by
  refine of_valueExpectation? ?_ ?_ h
  · exact fun kind hpayload => hpayload
  · decide

/-- The next token decides for plain items, except at the word of a declaration. -/
theorem Choice.isPlain_of_items
    {choice : Choice}
    (hchoice : choice ≠ .declarator)
    (hmore : choice.items token = .ok more) :
    ∀ item ∈ more, item.isPlain = true := by
  cases choice with
  | declarator =>
      exact absurd rfl hchoice
  | further | printed | otherwise | operation =>
      simp only [items] at hmore
      split at hmore <;> cases hmore <;> decide
  | form =>
      simp only [items] at hmore
      split at hmore
      · cases hmore
        simp [Item.isPlain]
      · cases hmore
  | operand =>
      simp only [items] at hmore
      split at hmore
      · rename_i hwanted
        cases hmore
        simp [Item.isPlain, Token.isPlain_of_valueExpectation? hwanted]
      · cases hmore
  | sign =>
      simp only [items] at hmore
      split at hmore
      · rename_i operator _
        cases hmore
        cases operator <;> decide
      · cases hmore

end Plain

/-- Only at the mark of a declaration a variable is declared. -/
theorem Production.isDeclaration_of_demand?
    {production : Production}
    {read : List Token}
    {demand : Demand}
    (hproduction : production ≠ .declaration)
    (h : production.demand? read = some demand) :
    demand.isDeclaration = false := by
  cases asks_of_demand? h with
  | declaration =>
      exact absurd rfl hproduction
  | _ =>
      rfl

/-- The moves add what a scan of their tokens finds and, when they are not the last ones, no
declaration lies across their end. -/
structure Move.Tidy (moves : List Move) (rest? : Option (List Token)) : Prop where
  scanned : Step.Scanned (stepsAll moves)
  settled : rest?.isSome = true → Settled (tokens moves)

namespace Move

variable {moves further : List Move} {middle : List Token} {rest? : Option (List Token)}

theorem tidy_nil : Tidy [] rest? where
  scanned := Step.scanned_nil
  settled _ := settled_nil

theorem tidy_stop
    {violation : Violation}
    (hphase : violation.phase = .grammar) :
    Tidy [step (.stop violation)] none where
  scanned := Step.scanned_stop hphase
  settled hrest := by cases hrest

theorem Tidy.append (hmoves : Tidy moves (some middle)) (hfurther : Tidy further rest?) :
    Tidy (moves ++ further) rest? where
  scanned := by
    rw [stepsAll_append]
    exact hmoves.scanned.append (hmoves.settled rfl) hfurther.scanned
  settled hrest := by
    rw [tokens_append]
    exact (hmoves.settled rfl).append (hfurther.settled hrest)

/-- A production is as tidy as the moves inside it. -/
theorem Tidy.within (hmoves : Tidy moves rest?) (production : Production) :
    Tidy [within production moves] rest? where
  scanned := by simpa using hmoves.scanned
  settled hrest := by simpa using hmoves.settled hrest

theorem tidy_read
    {token : Token}
    (middle : List Token)
    (htoken : token.declarator? = none) :
    Tidy [step (.read token)] (some middle) where
  scanned := Step.scanned_read token
  settled _ := settled_singleton htoken

theorem tidy_checks
    {production : Production}
    (hproduction : production ≠ .declaration)
    (read middle : List Token) :
    Tidy (production.checks read) (some middle) := by
  unfold Production.checks
  cases hdemand : production.demand? read with
  | none =>
      exact tidy_nil
  | some demand =>
      have hkind := Production.isDeclaration_of_demand? hproduction hdemand
      exact ⟨Step.scanned_check hkind, fun _ => settled_nil⟩

end Move

section Declaration

variable {word name semicolon : Token} {type : ValueType}

theorem declaredBy?_eq_some
    (hword : word.declarator? = some type)
    (hname : (Expectation.ofKind .identifier).accepts name = true)
    (hsemicolon : (Expectation.spelled ";").accepts semicolon = true) :
    declaredBy? word name semicolon = some ⟨name.text, type⟩ := by
  have hkind : name.kind = .identifier := by
    simpa [Expectation.accepts] using hname
  have hspelled : semicolon.isSpelled ";" = true := hsemicolon
  simp only [declaredBy?, hword, hkind, hspelled, and_self, if_true]

/-- Tokens without a declaration that are followed by a violation of the grammar declare
nothing. -/
theorem Step.scanned_incomplete
    {read : List Token}
    {violation : Violation}
    (hread : declaredIn read = [])
    (hphase : violation.phase = .grammar) :
    Scanned (read.map .read ++ [stop violation]) := by
  intro switches findings _
  have htokens : tokens (read.map .read ++ [stop violation]) = read := by
    simp
  rw [htokens, outcome_map_read_append]
  simp only [outcome, Nat.add_zero, List.take_length]
  refine .extended ?_ (by rw [hread, List.append_nil])
  intro name hviolation
  cases hviolation
  cases hphase

/-- A complete declaration declares its variable, unless its name is bound. -/
theorem Step.scanned_declaration
    (hdeclared : declaredBy? word name semicolon = some ⟨name.text, type⟩) :
    Scanned [read word, read name, read semicolon, check (.declaration type name.text)] := by
  intro switches findings hdeclare
  have hscan : declaredIn [word, name, semicolon] = [⟨name.text, type⟩] :=
    declaredIn_declaration hdeclared
  simp only [outcome, Demand.answer_declaration, hdeclare, if_true, tokens_read, tokens_check,
    tokens_nil]
  cases hsymbols : findings.symbols.declare name.text type with
  | ok extended =>
      refine .extended ?_ ?_
      · intro other hviolation
        cases hviolation
      · exact (SymbolTable.entries_of_declare hsymbols).2.trans (by rw [← hscan]; rfl)
  | error violation =>
      obtain ⟨hbound, rfl⟩ := (SymbolTable.declare_eq_error_iff _ _ _ _).mp hsymbols
      exact .redefined (List.nil_append _).symm hdeclared (hscan.trans (List.nil_append _).symm)
        rfl hbound (List.append_nil _).symm

end Declaration

section Courses

variable
    {production : Production}
    {read ahead : List Token}
    {items : List Item}
    {moves : List Move}
    {rest? : Option (List Token)}

/-- The course of a declaration is tidy, since its variable is declared at its end. -/
theorem Course.tidy_declaration
    (h : Course .declaration [] Production.declaration.items ahead moves rest?) :
    Move.Tidy moves rest? := by
  have hincomplete : ∀ (read : List Token) {violation : Violation}, declaredIn read = [] →
      violation.phase = .grammar →
        Move.Tidy (read.map (.step ∘ .read) ++ [.step (.stop violation)]) none := by
    intro read violation hread hphase
    refine ⟨?_, fun hrest => by cases hrest⟩
    rw [Move.stepsAll_append, Move.stepsAll_map_read]
    exact Step.scanned_incomplete hread hphase
  have hcourse : Course .declaration []
      [.choice .declarator, .identifier, .word ";", .check] ahead moves rest? := h
  cases hcourse with
  | undecided =>
      exact Move.tidy_stop rfl
  | refused hmore =>
      exact Move.tidy_stop (Choice.phase_of_items hmore)
  | @choice _ _ _ _ more _ _ _ word hmore hcourse =>
      cases hword : word.declarator? with
      | none =>
          have hnone : word.spelling?.bind ValueType.ofDeclarator? = none := hword
          simp [Choice.items, hnone] at hmore
      | some type =>
          have hsome : word.spelling?.bind ValueType.ofDeclarator? = some type := hword
          simp only [Choice.items, hsome, Except.ok.injEq] at hmore
          subst hmore
          cases hcourse with
          | unexpected =>
              exact Move.tidy_stop rfl
          | token _ hcourse =>
              cases hcourse with
              | missing | unexpected =>
                  exact hincomplete [word] rfl rfl
              | @token _ _ _ _ _ _ _ name hname hcourse =>
                  cases hcourse with
                  | missing | unexpected =>
                      exact hincomplete [word, name] rfl rfl
                  | @token _ _ _ _ _ _ _ semicolon hsemicolon hcourse =>
                      cases hcourse with
                      | check hcourse =>
                          cases hcourse with
                          | done =>
                              have hdeclared := declaredBy?_eq_some hword hname hsemicolon
                              have hchecks : Production.declaration.checks
                                  ([] ++ [word] ++ [name] ++ [semicolon]) =
                                    [.step (.check (.declaration type name.text))] := by
                                simp [Production.checks, Production.demand?, hsome]
                              rw [hchecks]
                              exact ⟨Step.scanned_declaration hdeclared,
                                fun _ => settled_declaration hdeclared⟩

/-- All moves are tidy, if declarations are taken as a whole. -/
theorem Move.tidy_parts :
    Move.Parts Move.Tidy Item.isPlain fun production => production = .declaration where
  nil _ := tidy_nil
  append hmoves hfurther := hmoves.append hfurther
  within production hmoves := hmoves.within production
  stop hphase := tidy_stop hphase
  read hplain haccepts := tidy_read [] (Expectation.declarator?_of_accepts hplain haccepts)
  checks read hproduction := tidy_checks (of_decide_eq_false hproduction) read []
  choice hplain hmore := Choice.isPlain_of_items (of_decide_eq_true hplain) hmore
  phrase _ hproduction := Production.isPlain_of_mem_items (of_decide_eq_false hproduction)
  whole hproduction hcourse := by
    cases of_decide_eq_true hproduction
    exact hcourse.tidy_declaration

theorem WholeCourse.scanned
    {tokens : List Token}
    (h : WholeCourse tokens moves) :
    Step.Scanned (Move.stepsAll moves) := by
  obtain ⟨_, htidy⟩ := h.of_parts Move.tidy_parts rfl rfl
  exact htidy.scanned

end Courses

/-- Steps leave the symbol table as it is when no variables are declared. -/
theorem Step.symbols_of_no_declare
    {switches : Switches}
    (hdeclare : switches.declare = false)
    (steps : List Step)
    (findings : Findings) :
    (outcome switches steps findings).findings.symbols = findings.symbols := by
  induction steps generalizing findings with
  | nil =>
      rfl
  | cons step rest ih =>
      cases step with
      | read token =>
          exact ih findings
      | stop violation =>
          rfl
      | check demand =>
          simp only [outcome]
          cases hanswer : demand.answer switches findings.symbols with
          | error violation =>
              rfl
          | ok found =>
              obtain ⟨extended, warnings⟩ := found
              exact (ih _).trans (Demand.symbols_of_answer_of_no_declare hdeclare hanswer)

namespace Run

end Run

end SimpleC
