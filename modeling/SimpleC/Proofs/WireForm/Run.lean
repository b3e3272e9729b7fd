import Mathlib.Data.List.Forall2
import SimpleC.Proofs.Course.Extension
import SimpleC.Proofs.Course.Marks
import SimpleC.Proofs.SameFindings
import SimpleC.Proofs.WireForm.Classified
import SimpleC.Token.Item

/-!
# Runs on wire forms

A run never looks at the kind of a bare token. So it makes no difference whether a token is
handed over as it is or in its wire form, from which a bare token is read with the kind that
its spelling calls for, whatever its kind was before.
-/

namespace SimpleC

/-- Whether an item is not a bare token that is told by its kind. -/
def Item.ignoresBareKind : Item → Bool
  | token wanted => wanted.ignoresBareKind
  | phrase _ | check | choice _ => true

theorem Production.ignoresBareKind_of_mem_items
    {production : Production}
    {item : Item}
    (h : item ∈ production.items) :
    item.ignoresBareKind = true := by
  revert item
  cases production <;> decide

/-- Bare tokens are chosen for by their spelling. -/
theorem Choice.ignoresBareKind_of_items
    {choice : Choice}
    {token : Token}
    {more : List Item}
    (hmore : choice.items token = .ok more) :
    ∀ item ∈ more, item.ignoresBareKind = true := by
  cases choice with
  | further | printed | otherwise | operation =>
      simp only [items] at hmore
      split at hmore <;> cases hmore <;> decide
  | form | declarator | sign =>
      simp only [items] at hmore
      split at hmore <;> cases hmore
      simp [Item.ignoresBareKind, Expectation.ignoresBareKind]
  | operand =>
      obtain ⟨wanted, hwanted, rfl⟩ := exists_operand_of_items hmore
      rcases Token.eq_of_valueExpectation? hwanted with
        ⟨hpayload, _, rfl⟩ | ⟨spelling, _, _, rfl⟩
      · simp [Item.ignoresBareKind, Expectation.ignoresBareKind, hpayload]
      · simp [Item.ignoresBareKind, Expectation.ignoresBareKind]

/-- Classified tokens are chosen for in the same way. -/
theorem Choice.items_classified (choice : Choice) (token : Token) :
    choice.items token.classified = (choice.items token).mapError Violation.classified := by
  cases choice with
  | further | printed | otherwise | operation =>
      simp only [items, Token.form_classified, Token.isSpelled_classified,
        Token.isOperator_classified]
      split <;> rfl
  | form =>
      simp only [items, Token.form_classified]
      cases StatementForm.ofToken? token with
      | none | some =>
          rfl
  | declarator =>
      simp only [items, Token.spelling?_classified]
      cases token.spelling?.bind ValueType.ofDeclarator? with
      | none | some =>
          rfl
  | operand =>
      simp only [items, Token.valueExpectation?_classified]
      cases token.valueExpectation? with
      | none | some =>
          rfl
  | sign =>
      simp only [items, Token.spelling?_classified]
      cases token.spelling?.bind Operator.ofSpelling? with
      | none | some =>
          rfl

namespace Step

/-- The step with its tokens classified. -/
def classified : Step → Step
  | read token => read token.classified
  | check demand => check demand.classified
  | stop violation => stop violation.classified

theorem tokens_classified (steps : List Step) :
    tokens (steps.map classified) = (tokens steps).map Token.classified := by
  induction steps with
  | nil =>
      rfl
  | cons step rest ih =>
      cases step with
      | read token =>
          exact congrArg (token.classified :: ·) ih
      | check | stop =>
          exact ih

end Step

section Courses

variable
    {production : Production}
    {read ahead : List Token}
    {items : List Item}
    {moves : List Move}
    {rest? : Option (List Token)}

theorem Production.stepsAll_checks_classified (production : Production) (read : List Token) :
    Move.stepsAll (production.checks (read.map Token.classified)) =
      (Move.stepsAll (production.checks read)).map Step.classified := by
  rw [checks, checks, demand?_classified]
  cases production.demand? read <;> rfl

/-- On classified tokens a course takes the classified steps. -/
theorem Course.exists_classified
    (h : Course production read items ahead moves rest?)
    (hitems : ∀ item ∈ items, item.ignoresBareKind = true) :
    ∃ further,
      Course production (read.map Token.classified) items (ahead.map Token.classified) further
          (rest?.map (List.map Token.classified)) ∧
        Move.stepsAll further = (Move.stepsAll moves).map Step.classified := by
  induction h with
  | done =>
      exact ⟨[], .done, rfl⟩
  | token haccepts _ ih =>
      rw [List.forall_mem_cons] at hitems
      obtain ⟨further, hcourse, hsteps⟩ := ih hitems.2
      rw [List.map_append] at hcourse
      have haccepts' := (Expectation.accepts_classified hitems.1 _).trans haccepts
      exact ⟨_, .token haccepts' hcourse, congrArg (_ :: ·) hsteps⟩
  | unexpected haccepts =>
      have hwanted := hitems _ List.mem_cons_self
      exact ⟨_, .unexpected ((Expectation.accepts_classified hwanted _).trans haccepts), rfl⟩
  | missing =>
      exact ⟨_, .missing, rfl⟩
  | check _ ih =>
      rw [List.forall_mem_cons] at hitems
      obtain ⟨further, hcourse, hsteps⟩ := ih hitems.2
      refine ⟨_, .check hcourse, ?_⟩
      rw [Move.stepsAll_append, Move.stepsAll_append, List.map_append, hsteps,
        Production.stepsAll_checks_classified]
  | choice hmore _ ih =>
      rw [List.forall_mem_cons] at hitems
      have hchosen := Choice.ignoresBareKind_of_items hmore
      obtain ⟨further, hcourse, hsteps⟩ := ih (List.forall_mem_append.mpr ⟨hchosen, hitems.2⟩)
      exact ⟨_, .choice (by rw [Choice.items_classified, hmore]; rfl) hcourse, hsteps⟩
  | refused hmore =>
      exact ⟨_, .refused (by rw [Choice.items_classified, hmore]; rfl), rfl⟩
  | undecided =>
      exact ⟨_, .undecided, rfl⟩
  | phrase _ _ ihinner ih =>
      rw [List.forall_mem_cons] at hitems
      obtain ⟨inside, hinside, hinner⟩ :=
        ihinner fun _ => Production.ignoresBareKind_of_mem_items
      obtain ⟨further, hcourse, hsteps⟩ := ih hitems.2
      refine ⟨.within _ inside :: further, .phrase hinside ?_, ?_⟩
      · rwa [List.map_append, Move.tokens, ← Step.tokens_classified, ← hinner] at hcourse
      · rw [Move.stepsAll_within, Move.stepsAll_within, List.map_append, hinner, hsteps]
  | broken _ ih =>
      obtain ⟨inside, hinside, hinner⟩ := ih fun _ => Production.ignoresBareKind_of_mem_items
      refine ⟨_, .broken hinside, ?_⟩
      rw [Move.stepsAll_within, Move.stepsAll_within, List.map_append, hinner]
      rfl

/-- The steps on classified tokens are the classified steps. -/
theorem WholeCourse.exists_classified
    {tokens : List Token}
    (h : WholeCourse tokens moves) :
    ∃ further, WholeCourse (tokens.map Token.classified) further ∧
      Move.stepsAll further = (Move.stepsAll moves).map Step.classified := by
  obtain ⟨inner, rest?, hcourse, rfl⟩ := wholeCourse_iff.mp h
  obtain ⟨further, hfurther, hsteps⟩ :=
    hcourse.exists_classified fun _ => Production.ignoresBareKind_of_mem_items
  refine ⟨_, wholeCourse_iff.mpr ⟨further, _, hfurther, rfl⟩, ?_⟩
  rw [Move.stepsAll_within, Move.stepsAll_within, List.map_append, hsteps]
  rcases rest? with _ | _ | ⟨token, rest⟩ <;> rfl

end Courses

/-- What comes of classified steps is the same, but for the tokens that the violation names. -/
theorem Step.outcome_classified
    (switches : Switches)
    (steps : List Step)
    (findings : Findings) :
    outcome switches (steps.map classified) findings =
      { outcome switches steps findings with
        violation? := (outcome switches steps findings).violation?.map Violation.classified } := by
  induction steps generalizing findings with
  | nil =>
      rfl
  | cons step rest ih =>
      cases step with
      | read =>
          simp only [List.map_cons, classified, outcome, ih]
      | stop =>
          rfl
      | check demand =>
          simp only [List.map_cons, classified, outcome, Demand.answer_classified]
          cases hanswer : demand.answer switches findings.symbols with
          | ok =>
              exact ih _
          | error violation =>
              simp only [Option.map_some, Demand.classified_of_answer hanswer]

/-- A run finds the same on classified tokens. -/
theorem recognize_classified
    (switches : Switches)
    (symbols : SymbolTable)
    (tokens : List Token) :
    (recognize switches symbols (tokens.map Token.classified)).SameFindings
      (recognize switches symbols tokens) := by
  obtain ⟨moves, hcourse, hruns⟩ := exists_moves tokens
  obtain ⟨further, hother, hsteps⟩ := hcourse.exists_classified
  have htells := (hruns switches symbols).2
  have htells' := (hother.recognize_eq switches symbols).2
  rw [hsteps, Step.outcome_classified] at htells'
  refine ⟨?_, htells'.position.trans htells.position.symm,
    htells'.symbols.trans htells.symbols.symm, htells'.warnings.trans htells.warnings.symm⟩
  rw [Run.verdict, Run.verdict, htells.stop, htells'.stop]
  cases (Step.outcome switches (Move.stepsAll moves) ⟨symbols, []⟩).violation? with
  | none =>
      rfl
  | some violation =>
      exact violation.verdict_classified

/-- Runs find the same on tokens that are the same once they are classified. -/
theorem recognize_sameFindings_of_classified
    {tokens others : List Token}
    (h : tokens.map Token.classified = others.map Token.classified)
    (switches : Switches)
    (symbols : SymbolTable) :
    (recognize switches symbols tokens).SameFindings (recognize switches symbols others) := by
  have hothers := recognize_classified switches symbols others
  rw [← h] at hothers
  exact (recognize_classified switches symbols tokens).symm.trans hothers

namespace TokenItem

/-- The item stands for the token: it is the token itself, or its wire form. -/
inductive StandsFor : TokenItem → Token → Prop
  | built (token : Token) : StandsFor (.built token) token
  | wire (token : Token) : StandsFor (.wire token.wire) token

/-- What is read off an item is the token that it stands for, but for the kind of a bare one. -/
theorem StandsFor.exists_decode
    {item : TokenItem}
    {token : Token}
    (h : item.StandsFor token)
    (huntagged : token.kind.hasPayload = false → ¬ IsTagged token.text) :
    ∃ read, item.decode = .ok read ∧ read.classified = token.classified := by
  cases h with
  | built =>
      exact ⟨token, rfl, rfl⟩
  | wire =>
      exact ⟨_, rfl, by rw [Token.ofWire_wire_eq_classified huntagged, Token.classified_classified]⟩

theorem exists_decodeAll
    {items : List TokenItem}
    {tokens : List Token}
    (hitems : List.Forall₂ StandsFor items tokens)
    (huntagged : ∀ token ∈ tokens, token.kind.hasPayload = false → ¬ IsTagged token.text) :
    ∃ read, decodeAll items = .ok read ∧
      read.map Token.classified = tokens.map Token.classified := by
  induction hitems with
  | nil =>
      exact ⟨[], rfl, rfl⟩
  | cons hitem _ ih =>
      rw [List.forall_mem_cons] at huntagged
      obtain ⟨first, hfirst, hsame⟩ := hitem.exists_decode huntagged.1
      obtain ⟨rest, hrest, hothers⟩ := ih huntagged.2
      refine ⟨first :: rest, ?_, by rw [List.map_cons, List.map_cons, hsame, hothers]⟩
      rw [decodeAll] at hrest ⊢
      rw [List.mapM_cons, hfirst, hrest]
      rfl

end TokenItem

/-- The kinds of bare tokens do not count. Let none of the bare tokens have a text that begins
like a payload token. Then they may be handed over as they are or, each of them, in their wire
forms: whatever is read off these, every run finds the same, and so does the staged check. -/
theorem runs_find_same_on_wire_forms
    {tokens : List Token}
    (huntagged : ∀ token ∈ tokens, token.kind.hasPayload = false → ¬ IsTagged token.text)
    {items : List TokenItem}
    (hitems : List.Forall₂ TokenItem.StandsFor items tokens) :
    ∃ read, TokenItem.decodeAll items = .ok read ∧
      (∀ switches symbols, (recognize switches symbols read).SameFindings
        (recognize switches symbols tokens)) ∧
      ∀ record, (checkStaged record read).SameFindings (checkStaged record tokens) := by
  obtain ⟨read, hread, hclassified⟩ := TokenItem.exists_decodeAll hitems huntagged
  have hruns := recognize_sameFindings_of_classified hclassified
  exact ⟨read, hread, hruns, fun record => checkStaged_sameFindings fun _ _ => hruns _⟩

/-- The tokens with one kind for all that are bare. -/
def punctuated (tokens : List Token) : List Token :=
  tokens.map fun token => if token.kind.hasPayload then token else ⟨.punctuation, token.text⟩

/-- A program that reads a variable. -/
def readsVariable : List Token :=
  programOf [.bare "int", ⟨.identifier, "x"⟩, .bare ";",
    .bare "cin", .bare ">>", ⟨.identifier, "x"⟩, .bare ";"]

/-- A program that puts out a word that is no value. -/
def putsOutWord : List Token :=
  programOf [.bare "cout", .bare "<<", .bare "else", .bare ";"]

/-- Tokens whose kinds do not go with their spellings are accepted as those are that are read
off their wire forms, and are rejected with the same message. -/
theorem runs_find_same_on_wire_forms_of_punctuated :
    punctuated readsVariable ≠ readsVariable ∧
      TokenItem.decodeAll ((punctuated readsVariable).map fun token => .wire token.wire) =
          .ok readsVariable ∧
        (check false (punctuated readsVariable)).verdict = .success ∧
      TokenItem.decodeAll ((punctuated putsOutWord).map fun token => .wire token.wire) =
          .ok putsOutWord ∧
        (check false (punctuated putsOutWord)).verdict =
          .failure .grammar "expecting identifier or literal, but found else" := by
  have hdiffer : punctuated readsVariable ≠ readsVariable := by decide +kernel
  have hread : TokenItem.decodeAll ((punctuated readsVariable).map fun token => .wire token.wire) =
      .ok readsVariable := by
    decide +kernel
  have hword : TokenItem.decodeAll ((punctuated putsOutWord).map fun token => .wire token.wire) =
      .ok putsOutWord := by
    decide +kernel
  have haccepted : (check false readsVariable).verdict = .success := by decide +kernel
  have hrejected : (check false putsOutWord).verdict =
      .failure .grammar "expecting identifier or literal, but found else" := by
    decide +kernel
  have hwires : ∀ tokens : List Token, List.Forall₂ TokenItem.StandsFor
      (tokens.map fun token => .wire token.wire) tokens := by
    intro tokens
    exact List.forall₂_map_left_iff.mpr (List.forall₂_same.mpr fun token _ => .wire token)
  refine ⟨hdiffer, hread, ?_, hword, ?_⟩
  · obtain ⟨read, hdecoded, hruns, _⟩ :=
      runs_find_same_on_wire_forms (by decide +kernel) (hwires (punctuated readsVariable))
    rw [hread] at hdecoded
    cases hdecoded
    exact (hruns ⟨true, true, false⟩ .empty).verdict.symm.trans haccepted
  · obtain ⟨read, hdecoded, hruns, _⟩ :=
      runs_find_same_on_wire_forms (by decide +kernel) (hwires (punctuated putsOutWord))
    rw [hword] at hdecoded
    cases hdecoded
    exact (hruns ⟨true, true, false⟩ .empty).verdict.symm.trans hrejected

end SimpleC
