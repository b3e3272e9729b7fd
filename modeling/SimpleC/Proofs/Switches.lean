import SimpleC.Proofs.Course.TypePhases
import SimpleC.Proofs.Course.Run
import SimpleC.Proofs.DerivationTree.Recorded

/-!
# Fewer checks

A check that is switched off can no longer fail, and that is all: the run makes the
same steps and only gets further. So two runs that differ in one switch end alike, or
the one with the check ends no later, with a violation of what is checked there.
-/

namespace SimpleC

namespace Step

variable (record : Bool) (steps : List Step)

/-- Steps add to the symbol table at most. -/
theorem entries_prefix_outcome (switches : Switches) (findings : Findings) :
    findings.symbols.entries <+: (outcome switches steps findings).findings.symbols.entries := by
  induction steps generalizing findings with
  | nil =>
      exact List.prefix_rfl
  | cons step rest ih =>
      cases step with
      | read token =>
          exact ih findings
      | stop violation =>
          exact List.prefix_rfl
      | check demand =>
          simp only [outcome]
          cases hanswer : demand.answer switches findings.symbols with
          | error violation =>
              exact List.prefix_rfl
          | ok found =>
              obtain ⟨extended, warnings⟩ := found
              exact (Demand.entries_of_answer hanswer).trans
                (ih ⟨extended, findings.warnings ++ warnings⟩)

/-- Without the type rules, steps that declare variables end like those that do not, or
earlier at a variable that is declared again. -/
theorem outcome_of_declare (findings other : Findings) :
    ((outcome ⟨true, false, record⟩ steps findings).violation? =
          (outcome ⟨false, false, record⟩ steps other).violation? ∧
        (outcome ⟨true, false, record⟩ steps findings).consumed =
          (outcome ⟨false, false, record⟩ steps other).consumed) ∨
      ∃ violation, (outcome ⟨true, false, record⟩ steps findings).violation? = some violation ∧
        violation.phase = .redefinition ∧
          (outcome ⟨true, false, record⟩ steps findings).consumed ≤
            (outcome ⟨false, false, record⟩ steps other).consumed := by
  induction steps generalizing findings other with
  | nil =>
      exact .inl ⟨rfl, rfl⟩
  | cons step rest ih =>
      cases step with
      | read token =>
          rcases ih findings other with
            ⟨hviolation, hconsumed⟩ | ⟨violation, hviolation, hphase, hle⟩
          · exact .inl ⟨hviolation, congrArg Nat.succ hconsumed⟩
          · exact .inr ⟨violation, hviolation, hphase, Nat.succ_le_succ hle⟩
      | stop violation =>
          exact .inl ⟨rfl, rfl⟩
      | check demand =>
          simp only [outcome]
          cases hkind : demand.isDeclaration with
          | false =>
              rw [Demand.answer_of_no_types hkind rfl, Demand.answer_of_no_types hkind rfl]
              exact ih _ _
          | true =>
              obtain ⟨type, name, rfl⟩ := Demand.eq_declaration hkind
              rw [Demand.answer_declaration, Demand.answer_declaration]
              simp only [if_true, Bool.false_eq_true, if_false]
              cases hdeclare : findings.symbols.declare name type with
              | ok extended =>
                  exact ih _ _
              | error violation =>
                  obtain ⟨_, rfl⟩ := (SymbolTable.declare_eq_error_iff _ _ _ _).mp hdeclare
                  exact .inr ⟨_, rfl, rfl, Nat.zero_le _⟩

/-- Steps with the type rules end like those without them and leave the same symbol table,
or they end earlier at a violation of a type rule. -/
theorem outcome_of_types
    (declare : Bool)
    {findings other : Findings}
    (hsymbols : findings.symbols = other.symbols) :
    ((outcome ⟨declare, true, record⟩ steps findings).violation? =
          (outcome ⟨declare, false, record⟩ steps other).violation? ∧
        (outcome ⟨declare, true, record⟩ steps findings).consumed =
          (outcome ⟨declare, false, record⟩ steps other).consumed ∧
        (outcome ⟨declare, true, record⟩ steps findings).findings.symbols =
          (outcome ⟨declare, false, record⟩ steps other).findings.symbols) ∨
      ∃ violation, (outcome ⟨declare, true, record⟩ steps findings).violation? = some violation ∧
        violation.phase ∈ typePhases ∧
          (outcome ⟨declare, true, record⟩ steps findings).consumed ≤
            (outcome ⟨declare, false, record⟩ steps other).consumed ∧
          (outcome ⟨declare, true, record⟩ steps findings).findings.symbols.entries <+:
            (outcome ⟨declare, false, record⟩ steps other).findings.symbols.entries := by
  induction steps generalizing findings other with
  | nil =>
      exact .inl ⟨rfl, rfl, hsymbols⟩
  | cons step rest ih =>
      cases step with
      | read token =>
          rcases ih hsymbols with
            ⟨hviolation, hconsumed, hsame⟩ | ⟨violation, hviolation, hphase, hle, hprefix⟩
          · exact .inl ⟨hviolation, congrArg Nat.succ hconsumed, hsame⟩
          · exact .inr ⟨violation, hviolation, hphase, Nat.succ_le_succ hle, hprefix⟩
      | stop violation =>
          exact .inl ⟨rfl, rfl, hsymbols⟩
      | check demand =>
          cases hkind : demand.isDeclaration with
          | false =>
              have hoff : outcome ⟨declare, false, record⟩ (check demand :: rest) other =
                  outcome ⟨declare, false, record⟩ rest other := by
                rw [outcome, Demand.answer_of_no_types hkind rfl]
                simp
              rw [hoff]
              simp only [outcome]
              rw [Demand.answer_of_types hkind rfl]
              cases hruling : demand.ruling findings.symbols with
              | ok warnings =>
                  exact ih hsymbols
              | error violation =>
                  refine .inr ⟨violation, rfl, Demand.phase_of_ruling hruling, Nat.zero_le _, ?_⟩
                  show findings.symbols.entries <+: _
                  rw [hsymbols]
                  exact entries_prefix_outcome _ _ _
          | true =>
              obtain ⟨type, name, rfl⟩ := Demand.eq_declaration hkind
              simp only [outcome, Demand.answer_declaration, hsymbols]
              cases declare with
              | false =>
                  exact ih rfl
              | true =>
                  simp only [if_true]
                  cases other.symbols.declare name type with
                  | ok extended =>
                      exact ih rfl
                  | error violation =>
                      exact .inl ⟨rfl, rfl, hsymbols⟩

end Step

namespace Run

/-- The runs end alike: both well, or at the same violation, after the same number of
tokens. -/
def EndsLike (run other : Run) : Prop :=
  run.stop? = other.stop? ∧ run.position = other.position

/-- The run ends no later than the other one, at a violation of one of the phases. -/
def EndsFirst (run other : Run) (phases : List Phase) : Prop :=
  ∃ violation, run.stop? = some (.violation violation) ∧ violation.phase ∈ phases ∧
    run.position ≤ other.position

/-- Both runs have recorded a tree, and the trees are the same but for the types. -/
def SameTree (run other : Run) : Prop :=
  ∃ tree tree', run.tree? = some tree ∧ other.tree? = some tree' ∧
    tree.eraseTypes = tree'.eraseTypes

variable {run other : Run} {phase : Phase} {message : String}

theorem EndsLike.verdict (h : run.EndsLike other) : run.verdict = other.verdict := by
  unfold Run.verdict
  rw [h.1]

/-- A run that fails in another phase does not end first. -/
theorem not_endsFirst
    {phases : List Phase}
    (hverdict : run.verdict = .failure phase message)
    (hphase : phase ∉ phases) :
    ¬run.EndsFirst other phases := by
  rintro ⟨violation, hstop, hmem, _⟩
  obtain ⟨found, hfound, rfl, _⟩ := exists_violation_of_verdict hverdict
  cases hstop.symm.trans hfound
  exact hphase hmem

end Run

section Comparison

variable (record : Bool) (symbols : SymbolTable) (tokens : List Token)

/-- Declarations that are not made cannot be made twice. -/
theorem endsLike_or_endsFirst_of_declare :
    (recognize ⟨true, false, record⟩ symbols tokens).EndsLike
        (recognize ⟨false, false, record⟩ symbols tokens) ∨
      (recognize ⟨true, false, record⟩ symbols tokens).EndsFirst
        (recognize ⟨false, false, record⟩ symbols tokens) [.redefinition] := by
  obtain ⟨moves, _, hmoves⟩ := exists_moves tokens
  have hon := (hmoves ⟨true, false, record⟩ symbols).2
  have hoff := (hmoves ⟨false, false, record⟩ symbols).2
  unfold Run.EndsLike Run.EndsFirst
  rw [hon.stop, hon.position, hoff.stop, hoff.position]
  rcases Step.outcome_of_declare record (Move.stepsAll moves) ⟨symbols, []⟩ ⟨symbols, []⟩ with
    ⟨hviolation, hconsumed⟩ | ⟨violation, hviolation, hphase, hle⟩
  · exact .inl ⟨by rw [hviolation], hconsumed⟩
  · exact .inr ⟨violation, by rw [hviolation]; rfl, by rw [hphase]; decide, hle⟩

/-- Types that are not checked cannot be wrong. -/
theorem endsLike_or_endsFirst_of_types (declare : Bool) :
    ((recognize ⟨declare, true, record⟩ symbols tokens).EndsLike
          (recognize ⟨declare, false, record⟩ symbols tokens) ∧
        (recognize ⟨declare, true, record⟩ symbols tokens).symbols =
          (recognize ⟨declare, false, record⟩ symbols tokens).symbols) ∨
      ((recognize ⟨declare, true, record⟩ symbols tokens).EndsFirst
          (recognize ⟨declare, false, record⟩ symbols tokens) typePhases ∧
        (recognize ⟨declare, true, record⟩ symbols tokens).symbols.entries <+:
          (recognize ⟨declare, false, record⟩ symbols tokens).symbols.entries) := by
  obtain ⟨moves, _, hmoves⟩ := exists_moves tokens
  have hon := (hmoves ⟨declare, true, record⟩ symbols).2
  have hoff := (hmoves ⟨declare, false, record⟩ symbols).2
  unfold Run.EndsLike Run.EndsFirst
  rw [hon.stop, hon.position, hon.symbols, hoff.stop, hoff.position, hoff.symbols]
  rcases Step.outcome_of_types record (Move.stepsAll moves) declare
      (rfl : (⟨symbols, []⟩ : Findings).symbols = (⟨symbols, []⟩ : Findings).symbols) with
    ⟨hviolation, hconsumed, hsymbols⟩ | ⟨violation, hviolation, hphase, hle, hprefix⟩
  · exact .inl ⟨⟨by rw [hviolation], hconsumed⟩, hsymbols⟩
  · exact .inr ⟨⟨violation, by rw [hviolation]; rfl, hphase, hle⟩, hprefix⟩

/-- A check that fails for the grammar fails as the parse does. -/
theorem parse_endsLike_check
    {message : String}
    (h : (check record tokens).verdict = .failure .grammar message) :
    (check record tokens).EndsLike (parse record tokens) := by
  rcases endsLike_or_endsFirst_of_types record .empty tokens true with
    ⟨hsame, _⟩ | ⟨hfirst, _⟩
  · rcases endsLike_or_endsFirst_of_declare record .empty tokens with hparse | hfirst
    · exact ⟨hsame.1.trans hparse.1, hsame.2.trans hparse.2⟩
    · have hbuilt : (buildSymbols record tokens).verdict = .failure .grammar message := by
        rw [← h]
        exact hsame.verdict.symm
      exact absurd hfirst (Run.not_endsFirst hbuilt (by decide))
  · exact absurd hfirst (Run.not_endsFirst h (by decide))

/-- Runs that end well have recorded the same derivation. -/
theorem sameTree_of_isSuccess
    {declare checkTypes declare' checkTypes' : Bool}
    (h : (recognize ⟨declare, checkTypes, true⟩ symbols tokens).isSuccess = true)
    (h' : (recognize ⟨declare', checkTypes', true⟩ symbols tokens).isSuccess = true) :
    (recognize ⟨declare, checkTypes, true⟩ symbols tokens).SameTree
      (recognize ⟨declare', checkTypes', true⟩ symbols tokens) := by
  obtain ⟨program, symbols?, hnearest, htokens, htree⟩ := exists_program_of_tree h
  obtain ⟨program', symbols?', hnearest', htokens', htree'⟩ := exists_program_of_tree h'
  have hsame := Program.eq_of_tokens hnearest hnearest' (htokens.trans htokens'.symm)
  subst hsame
  exact ⟨_, _, htree, htree', by rw [Program.eraseTypes_node, Program.eraseTypes_node]⟩

/-- A run with a check switched off gets further at most. Without the declarations it ends
like the run with them, unless a variable is declared again; without the type rules it ends
like the run with them and with the same variables, unless a type rule is violated. So what
the check reports of the grammar and of redefinitions is what the parse and the table builder
report, and runs that end well record the same derivation but for the types. -/
theorem fewer_checks_only_go_further :
    ((recognize ⟨true, false, record⟩ symbols tokens).EndsLike
          (recognize ⟨false, false, record⟩ symbols tokens) ∨
        (recognize ⟨true, false, record⟩ symbols tokens).EndsFirst
          (recognize ⟨false, false, record⟩ symbols tokens) [.redefinition]) ∧
      (∀ declare,
        ((recognize ⟨declare, true, record⟩ symbols tokens).EndsLike
              (recognize ⟨declare, false, record⟩ symbols tokens) ∧
            (recognize ⟨declare, true, record⟩ symbols tokens).symbols =
              (recognize ⟨declare, false, record⟩ symbols tokens).symbols) ∨
          ((recognize ⟨declare, true, record⟩ symbols tokens).EndsFirst
              (recognize ⟨declare, false, record⟩ symbols tokens) [.undefined, .type] ∧
            (recognize ⟨declare, true, record⟩ symbols tokens).symbols.entries <+:
              (recognize ⟨declare, false, record⟩ symbols tokens).symbols.entries)) ∧
      (∀ message, (check record tokens).verdict = .failure .grammar message →
        (parse record tokens).verdict = .failure .grammar message ∧
          (parse record tokens).position = (check record tokens).position) ∧
      (∀ message, (check record tokens).verdict = .failure .redefinition message →
        (buildSymbols record tokens).verdict = .failure .redefinition message ∧
          (buildSymbols record tokens).position = (check record tokens).position ∧
          (buildSymbols record tokens).symbols = (check record tokens).symbols) ∧
      (∀ declare checkTypes declare' checkTypes',
        (recognize ⟨declare, checkTypes, true⟩ symbols tokens).isSuccess = true →
          (recognize ⟨declare', checkTypes', true⟩ symbols tokens).isSuccess = true →
            (recognize ⟨declare, checkTypes, true⟩ symbols tokens).SameTree
              (recognize ⟨declare', checkTypes', true⟩ symbols tokens)) := by
  refine ⟨endsLike_or_endsFirst_of_declare record symbols tokens,
    endsLike_or_endsFirst_of_types record symbols tokens, ?_, ?_, ?_⟩
  · intro message hfails
    have hsame := parse_endsLike_check record tokens hfails
    exact ⟨hsame.verdict.symm.trans hfails, hsame.2.symm⟩
  · intro message hfails
    rcases endsLike_or_endsFirst_of_types record .empty tokens true with
      ⟨hsame, hsymbols⟩ | ⟨hfirst, _⟩
    · exact ⟨hsame.verdict.symm.trans hfails, hsame.2.symm, hsymbols.symm⟩
    · exact absurd hfirst (Run.not_endsFirst hfails (by decide))
  · intro declare checkTypes declare' checkTypes'
    exact sameTree_of_isSuccess symbols tokens

/-- A program in which a variable is declared again before the grammar is violated. -/
def declaredAgain : List Token :=
  programOf [.bare "int", ⟨.identifier, "x"⟩, .bare ";",
    .bare "real", ⟨.identifier, "x"⟩, .bare ";", .bare "else"]

/-- A program that the grammar does not allow to go on after a declaration. -/
def strayElse : List Token :=
  programOf [.bare "int", ⟨.identifier, "x"⟩, .bare ";", .bare "else"]

/-- Each of the comparisons occurs. -/
theorem fewer_checks_on_examples :
    (∃ message, (check true strayElse).verdict = .failure .grammar message ∧
        (parse true strayElse).verdict = .failure .grammar message) ∧
      (∃ message, (check true declaredAgain).verdict = .failure .redefinition message ∧
        (buildSymbols true declaredAgain).verdict = .failure .redefinition message) ∧
      (check true declaredFirst).SameTree (parse true declaredFirst) := by
  obtain ⟨_, _, hgrammar, _, _⟩ := fewer_checks_only_go_further true .empty strayElse
  obtain ⟨_, _, _, hredefined, _⟩ := fewer_checks_only_go_further true .empty declaredAgain
  obtain ⟨_, _, _, _, htrees⟩ := fewer_checks_only_go_further true .empty declaredFirst
  have hstray : (check true strayElse).verdict =
      .failure .grammar (Violation.unexpected (.spelled "\x7d") (.bare "else")).message := by
    decide +kernel
  have hagain : (check true declaredAgain).verdict =
      .failure .redefinition (Violation.redefined "x").message := by
    decide +kernel
  exact ⟨⟨_, hstray, (hgrammar _ hstray).1⟩, ⟨_, hagain, (hredefined _ hagain).1⟩,
    htrees true true false false (by decide +kernel) (by decide +kernel)⟩

end Comparison

end SimpleC
