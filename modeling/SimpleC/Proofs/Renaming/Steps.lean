import SimpleC.Proofs.Course.Marks
import SimpleC.Proofs.Renaming.Basic

/-!
# Renamed steps

A course decides on the kinds and the spellings of tokens alone. So on corresponding tokens
it goes the same way, with corresponding steps, and what comes of these corresponds as well.
-/

namespace SimpleC

section Relations

variable
    (rename : String → String)
    (names : Set String)

/-- Steps that correspond to each other. -/
inductive Step.Renames : Step → Step → Prop
  | read {token other : Token}
      (htoken : token.Renames rename names other) :
      Renames (.read token) (.read other)
  | check {demand other : Demand}
      (hdemand : demand.Renames rename names other) :
      Renames (.check demand) (.check other)
  | stop {violation other : Violation}
      (hviolation : violation.Renames rename names other) :
      Renames (.stop violation) (.stop other)

/-- Outcomes that correspond to each other. -/
structure Outcome.Renames (outcome other : Outcome) : Prop where
  violation : Option.Rel (Violation.Renames rename names) outcome.violation? other.violation?
  consumed : other.consumed = outcome.consumed
  symbols : outcome.findings.symbols.Renames rename names other.findings.symbols
  warnings : other.findings.warnings = outcome.findings.warnings

end Relations

variable
    {rename : String → String}
    {names : Set String}

section Tokens

variable {token other : Token}

namespace Token.Renames

theorem form_eq (h : token.Renames rename names other) :
    StatementForm.ofToken? other = StatementForm.ofToken? token := by
  rw [StatementForm.ofToken?, StatementForm.ofToken?, h.kind_eq, h.spelling?_eq]

theorem isSpelled_eq (h : token.Renames rename names other) (spelling : String) :
    other.isSpelled spelling = token.isSpelled spelling := by
  rw [isSpelled, isSpelled, h.spelling?_eq]

theorem isOperator_eq (h : token.Renames rename names other) :
    other.isOperator = token.isOperator := by
  rw [isOperator, isOperator, h.spelling?_eq]

end Token.Renames

/-- Corresponding tokens are chosen for in the same way. -/
theorem Choice.items_renamed (h : token.Renames rename names other) (choice : Choice) :
    Violation.RenamesUnlessOk rename names Eq (choice.items token) (choice.items other) := by
  cases choice with
  | further | printed | otherwise | operation =>
      simp only [items, h.form_eq, h.isSpelled_eq, h.isOperator_eq]
      split <;> exact .ok rfl
  | form =>
      simp only [items, h.form_eq]
      cases StatementForm.ofToken? token with
      | some form =>
          exact .ok rfl
      | none =>
          exact .error (.notAStatement h)
  | declarator =>
      simp only [items, h.spelling?_eq]
      cases token.spelling?.bind ValueType.ofDeclarator? with
      | some type =>
          exact .ok rfl
      | none =>
          exact .error (.notAStatement h)
  | operand =>
      simp only [items, h.valueExpectation?_eq]
      cases token.valueExpectation? with
      | some wanted =>
          exact .ok rfl
      | none =>
          exact .error (.notAValue h)
  | sign =>
      simp only [items, h.spelling?_eq]
      cases token.spelling?.bind Operator.ofSpelling? with
      | some operator =>
          exact .ok rfl
      | none =>
          exact .error (.notAValue h)

theorem Terminal.exists_renamed
    {wanted : Expectation}
    (terminal : Terminal wanted)
    (h : terminal.token.Renames rename names other) :
    ∃ renamed : Terminal wanted, renamed.token = other :=
  ⟨⟨other, (h.accepts_eq wanted).trans terminal.accepted⟩, rfl⟩

theorem Operand.exists_renamed
    (value : Operand)
    (h : value.token.Renames rename names other) :
    ∃ renamed : Operand, renamed.token = other :=
  ⟨⟨other, by rw [h.valueExpectation?_eq]; exact value.isValue⟩, rfl⟩

/-- An identifier is declared and looked up by its new name. -/
theorem Identifier.text_renamed
    (name : Identifier)
    (h : name.token.Renames rename names other) :
    name.token.text ∈ names ∧ other.text = rename name.token.text :=
  h.text_of_identifier name.kind_token

end Tokens

section Marks

variable {others : List Token}

theorem Expression.exists_renamed
    (phrase : Expression)
    (h : List.Forall₂ (Token.Renames rename names) phrase.tokens others) :
    ∃ renamed : Expression, renamed.tokens = others ∧ phrase.Renames rename names renamed := by
  cases phrase with
  | single value =>
      rcases h with _ | ⟨hvalue, _ | _⟩
      obtain ⟨value', rfl⟩ := value.exists_renamed hvalue
      exact ⟨.single value', rfl, .single hvalue⟩
  | binary left sign right =>
      rcases h with _ | ⟨hleft, _ | ⟨hsign, _ | ⟨hright, _ | _⟩⟩⟩
      obtain ⟨left', rfl⟩ := left.exists_renamed hleft
      obtain ⟨right', rfl⟩ := right.exists_renamed hright
      cases hsign.eq_of_word
      exact ⟨.binary left' sign right', rfl, .binary sign hleft hright⟩

/-- Tokens that correspond to those before a mark come before the same mark. -/
theorem Production.Marks.exists_renamed
    {production : Production}
    {steps : List Step}
    {demand : Demand}
    (hmarks : production.Marks steps demand)
    (h : List.Forall₂ (Token.Renames rename names) (Step.tokens steps) others) :
    ∃ steps' demand', production.Marks steps' demand' ∧ Step.tokens steps' = others ∧
      demand.Renames rename names demand' := by
  cases hmarks with
  | declaration declarator name semicolon =>
      rcases h with _ | ⟨hword, _ | ⟨hname, _ | ⟨hsemicolon, _ | _⟩⟩⟩
      cases hword.eq_of_word
      cases hsemicolon.eq_of_word
      obtain ⟨hmem, htext⟩ := Identifier.text_renamed name hname
      obtain ⟨name', rfl⟩ := name.exists_renamed hname
      exact ⟨_, _, .declaration declarator name' semicolon, rfl, htext ▸ .declaration _ hmem⟩
  | input word arrows name =>
      rcases h with _ | ⟨hword, _ | ⟨harrows, _ | ⟨hname, _ | _⟩⟩⟩
      cases hword.eq_of_word
      cases harrows.eq_of_word
      obtain ⟨hmem, htext⟩ := Identifier.text_renamed name hname
      obtain ⟨name', rfl⟩ := name.exists_renamed hname
      exact ⟨_, _, .input word arrows name', rfl, htext ▸ .lookup hmem⟩
  | target name =>
      rcases h with _ | ⟨hname, _ | _⟩
      obtain ⟨hmem, htext⟩ := Identifier.text_renamed name hname
      obtain ⟨name', rfl⟩ := name.exists_renamed hname
      exact ⟨_, _, .target name', rfl, htext ▸ .lookup hmem⟩
  | assignment name equals phrase =>
      simp only [Step.tokens_read, Step.tokens_check, Expression.tokens_steps] at h
      rcases h with _ | ⟨hname, _ | ⟨hequals, hphrase⟩⟩
      cases hequals.eq_of_word
      obtain ⟨hmem, htext⟩ := Identifier.text_renamed name hname
      obtain ⟨name', rfl⟩ := name.exists_renamed hname
      obtain ⟨phrase', rfl, hrenames⟩ := phrase.exists_renamed hphrase
      exact ⟨_, _, .assignment name' equals phrase', by simp, htext ▸ .assignment hmem hrenames⟩
  | condition phrase =>
      rw [Expression.tokens_steps] at h
      obtain ⟨phrase', rfl, hrenames⟩ := phrase.exists_renamed h
      exact ⟨_, _, .condition phrase', phrase'.tokens_steps, .condition hrenames⟩
  | operation left sign right =>
      rcases h with _ | ⟨hleft, _ | ⟨hsign, _ | ⟨hright, _ | _⟩⟩⟩
      obtain ⟨left', rfl⟩ := left.exists_renamed hleft
      obtain ⟨right', rfl⟩ := right.exists_renamed hright
      cases hsign.eq_of_word
      exact ⟨_, _, .operation left' sign right', rfl, .operation sign hleft hright⟩
  | value operand =>
      rcases h with _ | ⟨hvalue, _ | _⟩
      obtain ⟨operand', rfl⟩ := operand.exists_renamed hvalue
      exact ⟨_, _, .value operand', rfl, .value hvalue⟩

end Marks

section Courses

variable
    {production : Production}
    {read ahead readOthers others : List Token}
    {items : List Item}
    {past moves : List Move}
    {steps stepsOthers : List Step}
    {rest? : Option (List Token)}

/-- Corresponding steps consume corresponding tokens. -/
theorem Step.tokens_renamed (h : List.Forall₂ (Step.Renames rename names) steps stepsOthers) :
    List.Forall₂ (Token.Renames rename names) (tokens steps) (tokens stepsOthers) := by
  induction h with
  | nil =>
      exact .nil
  | cons hstep _ ih =>
      cases hstep with
      | read htoken =>
          exact .cons htoken ih
      | check | stop =>
          exact ih

/-- On corresponding tokens a course makes corresponding moves. -/
theorem Course.exists_renamed
    (h : Course production read items ahead moves rest?)
    (hpast : production.Past past items ahead)
    (hread : read = Move.tokens past)
    (hreadOthers : List.Forall₂ (Token.Renames rename names) read readOthers)
    (hothers : List.Forall₂ (Token.Renames rename names) ahead others) :
    ∃ further further?, Course production readOthers items others further further? ∧
      List.Forall₂ (Step.Renames rename names) (Move.stepsAll moves) (Move.stepsAll further) ∧
        Option.Rel (List.Forall₂ (Token.Renames rename names)) rest? further? := by
  induction h generalizing past readOthers others with
  | done =>
      exact ⟨[], some others, .done, .nil, .some hothers⟩
  | @token _ _ _ _ _ _ wanted token haccepts _ ih =>
      rcases hothers with _ | ⟨htoken, hahead⟩
      obtain ⟨further, further?, hcourse, hsteps, hrest⟩ := ih (hpast.token haccepts)
        (by simp [hread]) (List.rel_append hreadOthers (.cons htoken .nil)) hahead
      exact ⟨_, _, .token ((htoken.accepts_eq wanted).trans haccepts) hcourse,
        .cons (.read htoken) hsteps, hrest⟩
  | @unexpected _ _ _ _ wanted _ haccepts =>
      rcases hothers with _ | ⟨htoken, hahead⟩
      exact ⟨_, _, .unexpected ((htoken.accepts_eq wanted).trans haccepts),
        .cons (.stop (.unexpected wanted htoken)) .nil, .none⟩
  | missing =>
      cases hothers
      exact ⟨_, _, .missing, .cons (.stop .endOfInput) .nil, .none⟩
  | check _ ih =>
      obtain ⟨demand, hmarks⟩ := hpast.exists_marks
      obtain ⟨further, further?, hcourse, hsteps, hrest⟩ :=
        ih hpast.check (by simp [hread]) hreadOthers hothers
      subst hread
      obtain ⟨steps', demand', hmarks', rfl, hdemand⟩ := hmarks.exists_renamed hreadOthers
      refine ⟨_, _, .check hcourse, ?_, hrest⟩
      rw [Move.tokens, hmarks.checks_eq, hmarks'.checks_eq]
      exact .cons (.check hdemand) hsteps
  | @choice _ _ _ _ _ _ _ choice _ hmore _ ih =>
      have ih := ih (hpast.choice hmore) hread hreadOthers hothers
      rcases hothers with _ | ⟨htoken, hahead⟩
      have hsame := Choice.items_renamed htoken choice
      rw [hmore] at hsame
      generalize hother : choice.items _ = other at hsame
      cases hsame with
      | ok hrelated =>
          cases hrelated
          obtain ⟨further, further?, hcourse, hsteps, hrest⟩ := ih
          exact ⟨_, _, .choice hother hcourse, hsteps, hrest⟩
  | @refused _ _ _ _ choice _ _ hmore =>
      rcases hothers with _ | ⟨htoken, hahead⟩
      have hsame := Choice.items_renamed htoken choice
      rw [hmore] at hsame
      generalize hother : choice.items _ = other at hsame
      cases hsame with
      | error hviolation =>
          exact ⟨_, _, .refused hother, .cons (.stop hviolation) .nil, .none⟩
  | undecided =>
      cases hothers
      exact ⟨_, _, .undecided, .cons (.stop .endOfInput) .nil, .none⟩
  | phrase hinner _ ihinner ih =>
      obtain ⟨inside, _, hinside, hsteps, hmiddle⟩ := ihinner (.start _ _) rfl .nil hothers
      rcases hmiddle with ⟨hmiddle⟩
      obtain ⟨further, further?, hcourse, hfurther, hrest⟩ := ih (hpast.phrase hinner)
        (by simp [hread]) (List.rel_append hreadOthers (Step.tokens_renamed hsteps)) hmiddle
      refine ⟨_, _, .phrase hinside hcourse, ?_, hrest⟩
      rw [Move.stepsAll_within, Move.stepsAll_within]
      exact List.rel_append hsteps hfurther
  | broken hinner ih =>
      obtain ⟨inside, _, hinside, hsteps, hmiddle⟩ := ih (.start _ _) rfl .nil hothers
      cases hmiddle
      refine ⟨_, _, .broken hinside, ?_, .none⟩
      simpa using hsteps

/-- The steps on corresponding inputs correspond. -/
theorem WholeCourse.exists_renamed
    {tokens : List Token}
    (h : WholeCourse tokens moves)
    (hothers : List.Forall₂ (Token.Renames rename names) tokens others) :
    ∃ further, WholeCourse others further ∧
      List.Forall₂ (Step.Renames rename names) (Move.stepsAll moves) (Move.stepsAll further) := by
  obtain ⟨inner, rest?, hcourse, rfl⟩ := wholeCourse_iff.mp h
  obtain ⟨further, further?, hfurther, hsteps, hrest⟩ :=
    hcourse.exists_renamed (.start _ _) rfl .nil hothers
  refine ⟨_, wholeCourse_iff.mpr ⟨further, further?, hfurther, rfl⟩, ?_⟩
  rw [Move.stepsAll_within, Move.stepsAll_within]
  refine List.rel_append hsteps ?_
  cases hrest with
  | none =>
      exact .nil
  | some hrest =>
      cases hrest with
      | nil =>
          exact .nil
      | cons htoken _ =>
          exact .cons (.stop (.trailing htoken)) .nil

end Courses

end SimpleC
