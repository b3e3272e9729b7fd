import SimpleC.Proofs.Course.Parts
import SimpleC.Proofs.DerivationTree.Expansion
import SimpleC.Proofs.Grammar.Productive
import SimpleC.Proofs.Language
import SimpleC.Proofs.Lookahead

/-!
# Viable prefixes

A parse fails at the first token at which it has to: what it has consumed can be
completed to a program, and with the next token it no longer can. For the first half,
the course of a recognition is completed to a derivation, wherever it was broken off; for
the second, a failure depends on no more than the next token.
-/

namespace SimpleC

open Grammar

section Completion

variable
    {production : Production}
    {read ahead : List Token}
    {items : List Item}
    {moves : List Move}
    {rest? : Option (List Token)}

/-- A course that was broken off before it read anything can be completed. -/
theorem exists_completion_of_items (items : List Item) :
    ∃ body more, Expands items body ∧ Derives body more := by
  obtain ⟨body, hexpands⟩ := exists_expands items
  obtain ⟨more, hmore⟩ := productive body
  exact ⟨body, more, hexpands, hmore⟩

/-- What a course consumes can be completed to a derivation of its items; nothing need be added
if it has come to its end. -/
theorem Course.exists_completion (h : Course production read items ahead moves rest?) :
    ∃ body more, Expands items body ∧ Derives body (Move.tokens moves ++ more) ∧
      (rest?.isSome = true → more = []) := by
  induction h with
  | done =>
      exact ⟨[], [], .nil, .nil, fun _ => rfl⟩
  | token haccepts _ ih =>
      obtain ⟨body, more, hexpands, hderives, hmore⟩ := ih
      exact ⟨_, more, .token hexpands, .terminal haccepts hderives, hmore⟩
  | unexpected | missing | refused | undecided =>
      obtain ⟨body, more, hexpands, hderives⟩ := exists_completion_of_items _
      exact ⟨body, more, hexpands, hderives, fun hrest => by cases hrest⟩
  | check _ ih =>
      obtain ⟨body, more, hexpands, hderives, hmore⟩ := ih
      rw [Move.tokens_append, Production.tokens_checks, List.nil_append]
      exact ⟨body, more, .check hexpands, hderives, hmore⟩
  | choice hmore _ ih =>
      obtain ⟨body, more, hexpands, hderives, hend⟩ := ih
      exact ⟨body, more, .choice hmore hexpands, hderives, hend⟩
  | phrase _ _ ihinner ih =>
      obtain ⟨inner, none, hinner, hinnerDerives, hnone⟩ := ihinner
      obtain ⟨body, more, hexpands, hderives, hmore⟩ := ih
      rw [hnone rfl, List.append_nil] at hinnerDerives
      refine ⟨_, more, .phrase hexpands, ?_, hmore⟩
      rw [Move.tokens_within, List.append_assoc]
      exact .nonterminal (rule_of_expands hinner) hinnerDerives hderives
  | @broken _ inner _ _ items moves _ ihinner =>
      obtain ⟨innerBody, missing, hinner, hinnerDerives, _⟩ := ihinner
      obtain ⟨body, more, hexpands, hderives⟩ := exists_completion_of_items items
      refine ⟨_, missing ++ more, .phrase hexpands, ?_, fun hrest => by cases hrest⟩
      rw [Move.tokens_within, Move.tokens_nil, List.append_nil, ← List.append_assoc]
      exact .nonterminal (rule_of_expands hinner) hinnerDerives hderives

/-- What is consumed on a whole input can be completed to a program. -/
theorem WholeCourse.exists_completion
    {tokens : List Token}
    (h : WholeCourse tokens moves) :
    ∃ more, Derivable (Move.tokens moves ++ more) := by
  obtain ⟨inner, rest?, hcourse, rfl⟩ := wholeCourse_iff.mp h
  obtain ⟨body, more, hexpands, hderives, _⟩ := hcourse.exists_completion
  refine ⟨more, ?_⟩
  rw [Move.tokens_within, Move.tokens_afterProgram, List.append_nil]
  exact .ofRule (rule_of_expands hexpands) hderives

end Completion

section Parse

variable
    {switches : Switches}
    {production : Production}
    {read ahead : List Token}
    {items : List Item}
    {moves : List Move}
    {rest? : Option (List Token)}

/-- When all checks are switched off, every demand is met. -/
theorem Demand.answer_of_off
    (hdeclare : switches.declare = false)
    (htypes : switches.checkTypes = false)
    (demand : Demand)
    (symbols : SymbolTable) :
    demand.answer switches symbols = .ok (symbols, []) := by
  cases hkind : demand.isDeclaration with
  | false =>
      exact answer_of_no_types hkind htypes
  | true =>
      obtain ⟨type, name, rfl⟩ := eq_declaration hkind
      rw [answer_declaration, hdeclare]
      rfl

/-- The steps consume all their tokens, and end well as far as told. -/
structure Step.ReadsAll
    (switches : Switches)
    (steps : List Step)
    (endsWell : Bool) : Prop where
  consumed (findings : Findings) :
    (outcome switches steps findings).consumed = (tokens steps).length
  ends (findings : Findings) :
    (outcome switches steps findings).violation?.isNone = endsWell

theorem Step.ReadsAll.append
    {first rest : List Step}
    {endsWell : Bool}
    (hfirst : ReadsAll switches first true)
    (hrest : ReadsAll switches rest endsWell) :
    ReadsAll switches (first ++ rest) endsWell where
  consumed findings := by
    have hnone := Option.isNone_iff_eq_none.mp (hfirst.ends findings)
    rw [outcome_append_of_none hnone, tokens_append, List.length_append, hfirst.consumed,
      hrest.consumed]
  ends findings := by
    have hnone := Option.isNone_iff_eq_none.mp (hfirst.ends findings)
    rw [outcome_append_of_none hnone]
    exact hrest.ends _

theorem Step.readsAll_read (token : Token) : ReadsAll switches [.read token] true where
  consumed _ := rfl
  ends _ := rfl

theorem Step.readsAll_stop (violation : Violation) :
    ReadsAll switches [.stop violation] false where
  consumed _ := rfl
  ends _ := rfl

theorem Step.readsAll_check
    (hdeclare : switches.declare = false)
    (htypes : switches.checkTypes = false)
    (demand : Demand) :
    ReadsAll switches [.check demand] true where
  consumed findings := by
    rw [outcome, Demand.answer_of_off hdeclare htypes]
    rfl
  ends findings := by
    rw [outcome, Demand.answer_of_off hdeclare htypes]
    rfl

/-- When all checks are switched off, moves consume all their tokens, and end well if they leave
tokens over. -/
theorem Move.readsAll_parts
    (hdeclare : switches.declare = false)
    (htypes : switches.checkTypes = false) :
    Move.Parts (fun moves rest? => Step.ReadsAll switches (stepsAll moves) rest?.isSome)
      (fun _ => true) (fun _ => false) where
  nil _ := ⟨fun _ => rfl, fun _ => rfl⟩
  append hmoves hfurther := by
    rw [stepsAll_append]
    exact hmoves.append hfurther
  within production hmoves := by
    simpa using hmoves
  stop _ := Step.readsAll_stop _
  read _ _ := Step.readsAll_read _
  checks {production} read _ := by
    unfold Production.checks
    cases production.demand? read with
    | none =>
        exact ⟨fun _ => rfl, fun _ => rfl⟩
    | some demand =>
        exact Step.readsAll_check hdeclare htypes demand
  choice _ _ _ _ := rfl
  phrase _ _ _ _ := rfl
  whole hwhole := by cases hwhole

/-- When all checks are switched off, a course consumes all its tokens, and ends well if it comes
to its end. -/
theorem Course.readsAll
    (hdeclare : switches.declare = false)
    (htypes : switches.checkTypes = false)
    (h : Course production read items ahead moves rest?) :
    Step.ReadsAll switches (Move.stepsAll moves) rest?.isSome :=
  h.of_parts (Move.readsAll_parts hdeclare htypes) rfl fun _ _ => rfl

/-- On a whole input all tokens of the moves are consumed, and these are all tokens there are if
the moves end well. -/
theorem WholeCourse.readsAll
    {tokens : List Token}
    (hdeclare : switches.declare = false)
    (htypes : switches.checkTypes = false)
    (h : WholeCourse tokens moves) :
    ∃ endsWell, Step.ReadsAll switches (Move.stepsAll moves) endsWell ∧
      (endsWell = true → Move.tokens moves = tokens) := by
  cases h with
  | accepted hcourse =>
      have htokens := hcourse.ahead_eq rfl
      refine ⟨true, by simpa using hcourse.readsAll hdeclare htypes, fun _ => ?_⟩
      simpa using htokens.symm
  | @trailing _ token _ hcourse =>
      have hprogram := hcourse.readsAll hdeclare htypes
      exact ⟨false, hprogram.append (Step.readsAll_stop (.trailing token)), fun hends => by cases hends⟩
  | stopped hcourse =>
      exact ⟨false, by simpa using hcourse.readsAll hdeclare htypes, fun hends => by cases hends⟩

/-- What a parse consumes begins its input and can be completed to a program; it is the whole
input if the parse ends well. -/
theorem exists_consumed_of_parse (record : Bool) (tokens : List Token) :
    ∃ consumed, tokens.take (parse record tokens).position = consumed ∧
      (parse record tokens).position = consumed.length ∧
      (∃ more, Derivable (consumed ++ more)) ∧
      ((parse record tokens).isSuccess = true → consumed = tokens) := by
  obtain ⟨moves, hcourse, hruns⟩ := exists_moves tokens
  have htells := (hruns ⟨false, false, record⟩ .empty).2
  have hdeclare : (⟨false, false, record⟩ : Switches).declare = false := rfl
  obtain ⟨endsWell, hreads, hall⟩ := hcourse.readsAll hdeclare rfl
  have hposition : (parse record tokens).position = (Move.tokens moves).length :=
    htells.position.trans (hreads.consumed _)
  refine ⟨Move.tokens moves, ?_, hposition, hcourse.exists_completion, ?_⟩
  · rw [hposition]
    exact (List.prefix_iff_eq_take.mp hcourse.tokens_prefix).symm
  · intro hsuccess
    refine hall ?_
    have hstop : (parse record tokens).stop? = none := Option.isNone_iff_eq_none.mp hsuccess
    have hviolation := htells.stop.symm.trans hstop
    rw [Option.map_eq_none_iff] at hviolation
    rw [← hreads.ends ⟨.empty, []⟩, hviolation]
    rfl

end Parse

/-- The tokens begin a program that parsing accepts. -/
def Viable (record : Bool) (tokens : List Token) : Prop :=
  ∃ more, (parse record (tokens ++ more)).isSuccess = true

theorem viable_iff_exists_derivable {record : Bool} {tokens : List Token} :
    Viable record tokens ↔ ∃ more, Derivable (tokens ++ more) := by
  unfold Viable
  simp only [parse_isSuccess_iff_exists_program, derivable_iff_exists_nearestElse]

section SyntaxErrors

variable {record : Bool} {tokens : List Token}

/-- What a parse has consumed is viable, however it has ended. -/
theorem viable_take_position (record : Bool) (tokens : List Token) :
    Viable record (tokens.take (parse record tokens).position) := by
  obtain ⟨consumed, htake, _, hcompletion, _⟩ := exists_consumed_of_parse record tokens
  rw [htake]
  exact viable_iff_exists_derivable.mpr hcompletion

/-- The token at which a parse fails is one that nothing viable has there. -/
theorem not_viable_take_succ
    (hfails : (parse record tokens).isSuccess = false)
    (hposition : (parse record tokens).position < tokens.length) :
    ¬Viable record (tokens.take ((parse record tokens).position + 1)) := by
  rintro ⟨more, haccepted⟩
  have hsame : parse record (tokens.take ((parse record tokens).position + 1) ++ more) =
      parse record tokens := recognize_eq_of_position_lt hposition more
  rw [hsame, hfails] at haccepted
  cases haccepted

/-- A parse of the beginning of a program wants a further token. -/
theorem parse_of_proper_prefix
    {more : List Token}
    (hmore : more ≠ [])
    (haccepted : (parse record (tokens ++ more)).isSuccess = true) :
    (parse record tokens).stop? = some (.violation .endOfInput) ∧
      (parse record tokens).position = tokens.length := by
  obtain ⟨all, htake, hposition, _, hall⟩ := exists_consumed_of_parse record (tokens ++ more)
  have hend := hall haccepted
  subst hend
  rcases recognize_append ⟨false, false, record⟩ .empty tokens more with hsame | hgoesOn
  · -- the shorter run cannot have consumed as much
    obtain ⟨consumed, htake', hposition', _⟩ := exists_consumed_of_parse record tokens
    have hle : consumed.length ≤ tokens.length := by
      rw [← htake']
      exact List.length_take_le' _ _
    have hequal : (parse record (tokens ++ more)).position = (parse record tokens).position :=
      congrArg Run.position hsame
    have hpositive := List.length_pos_iff.mpr hmore
    rw [List.length_append] at hposition
    omega
  · cases hgoesOn with
    | trailing _ _ _ _ htrailing =>
        have hstop : (parse record (tokens ++ more)).stop? = none :=
          Option.isNone_iff_eq_none.mp haccepted
        cases hstop.symm.trans htrailing
    | missing hposition hstop =>
        exact ⟨hstop, hposition⟩

/-- A parse fails at the first token at which it has to. What it has consumed begins some
program, and together with the next token it begins none; and all that is missing at the end of
the beginning of a program is a further token. -/
theorem syntax_error_is_earliest (record : Bool) (tokens : List Token) :
    ((parse record tokens).isSuccess = false →
        Viable record (tokens.take (parse record tokens).position) ∧
          ((parse record tokens).position < tokens.length →
            ¬Viable record (tokens.take ((parse record tokens).position + 1)))) ∧
      (∀ more, more ≠ [] → (parse record (tokens ++ more)).isSuccess = true →
        (parse record tokens).verdict = .failure .grammar "unexpected end of input" ∧
          (parse record tokens).position = tokens.length) := by
  constructor
  · intro hfails
    exact ⟨viable_take_position record tokens, not_viable_take_succ hfails⟩
  · intro more hmore haccepted
    obtain ⟨hstop, hposition⟩ := parse_of_proper_prefix hmore haccepted
    refine ⟨?_, hposition⟩
    rw [Run.verdict, hstop]
    rfl

/-- A program with an `else` after two conditionals that have one each, and a further `else`. -/
def surplusElse : List Token :=
  programOf [.bare "if", .bare "(", .bare "true", .bare ")",
    .bare "if", .bare "(", .bare "false", .bare ")", .bare ";", .bare "else", .bare ";",
    .bare "else", .bare ";", .bare "else", .bare ";"]

theorem syntax_error_surplusElse :
    (parse true surplusElse).isSuccess = false ∧
      (parse true surplusElse).position = 18 ∧
      Viable true (surplusElse.take 18) ∧ ¬Viable true (surplusElse.take 19) ∧
      (parse true (surplusElse.take 18)).verdict =
        .failure .grammar "unexpected end of input" ∧
      (parse true (surplusElse.take 18)).position = 18 := by
  have hfails : (parse true surplusElse).isSuccess = false := by decide +kernel
  have hposition : (parse true surplusElse).position = 18 := by decide +kernel
  have hcompleted :
      (parse true (surplusElse.take 18 ++ [.bare "\x7d", .bare "$"])).isSuccess = true := by
    decide +kernel
  obtain ⟨hviable, hnot⟩ := (syntax_error_is_earliest true surplusElse).1 hfails
  rw [hposition] at hviable hnot
  obtain ⟨hverdict, hend⟩ :=
    (syntax_error_is_earliest true (surplusElse.take 18)).2 _ (List.cons_ne_nil _ _) hcompleted
  exact ⟨hfails, hposition, hviable, hnot (by decide), hverdict, hend⟩

end SyntaxErrors

end SimpleC
