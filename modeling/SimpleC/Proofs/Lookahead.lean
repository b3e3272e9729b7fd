import SimpleC.Proofs.Course.Extension
import SimpleC.Proofs.Course.Twin

/-!
# One token of lookahead

A failure depends on nothing but the tokens that were consumed and the next one. Two runs
on inputs that agree so far do the same moves up to the failure. They differ only where
one of them wants a token that is not there, or is at the end of its program.
-/

namespace SimpleC

namespace Step

/-- The steps consume all their tokens and then want another one; the others consume no
fewer. -/
structure WantsToken
    (switches : Switches)
    (findings : Findings)
    (steps further : List Step) : Prop where
  violation : (outcome switches steps findings).violation? = some .endOfInput
  consumed : (outcome switches steps findings).consumed = (tokens steps).length
  later : (tokens steps).length ≤ (outcome switches further findings).consumed

namespace WantsToken

variable
    {switches : Switches}
    {findings : Findings}
    {steps further : List Step}

/-- The steps want a token also after others that end well. -/
theorem append_left
    {first : List Step}
    (hfirst : (outcome switches first findings).violation? = none)
    (h : WantsToken switches (outcome switches first findings).findings steps further) :
    WantsToken switches findings (first ++ steps) (first ++ further) where
  violation := by
    rw [outcome_append_of_none hfirst]
    exact h.violation
  consumed := by
    rw [outcome_append_of_none hfirst, tokens_append, List.length_append,
      consumed_of_none hfirst]
    exact congrArg _ h.consumed
  later := by
    rw [outcome_append_of_none hfirst, tokens_append, List.length_append,
      consumed_of_none hfirst]
    exact Nat.add_le_add_left h.later _

/-- Whatever the other steps are followed by. -/
theorem append_right
    (h : WantsToken switches findings steps further)
    (rest : List Step) :
    WantsToken switches findings steps (further ++ rest) where
  violation := h.violation
  consumed := h.consumed
  later := by
    cases hviolation : (outcome switches further findings).violation? with
    | some violation =>
        rw [outcome_append_of_violation hviolation]
        exact h.later
    | none =>
        rw [outcome_append_of_none hviolation]
        exact Nat.le_add_right_of_le h.later

end WantsToken

end Step

/-- Moves that were broken off for want of a token fail as the ones that go on do, before they
come to their end; or they come to it. -/
theorem Move.Prolonged.fails_or_wantsToken
    {moves further : List Move}
    (h : Prolonged moves further)
    (switches : Switches)
    (state : State) :
    (∃ stop after, performAll switches moves state = .error stop after ∧
        performAll switches further state = .error stop after) ∨
      Step.WantsToken switches state.findings (stepsAll moves) (stepsAll further) := by
  induction h generalizing state with
  | missing moves =>
      exact .inr ⟨rfl, rfl, Nat.zero_le _⟩
  | @cons move moves further _ ih =>
      rw [performAll, performAll]
      have hmove : (Step.outcome switches move.steps state.findings).Describes state
          (perform switches move state) := move.describes_perform state
      cases hended : perform switches move state with
      | error stop after =>
          exact .inl ⟨stop, after, bind_of_error hended, bind_of_error hended⟩
      | ok _ middle =>
          rw [bind_of_ok hended, bind_of_ok hended]
          rw [hended] at hmove
          generalize hfirst : Step.outcome switches move.steps state.findings = first at hmove
          cases hmove with
          | ok _ =>
              refine (ih middle).imp_right ?_
              intro hwants
              refine Step.WantsToken.append_left (by rw [hfirst]) ?_
              rwa [hfirst]
  | @within production moves further _ rest ih =>
      rcases ih (state.enter production) with ⟨stop, after, hmoves, hfurther⟩ | hwants
      · refine .inl ⟨stop, _, bind_of_error (perform_within_of_error hmoves),
          bind_of_error (perform_within_of_error hfurther)⟩
      · rw [stepsAll_within, stepsAll_within, stepsAll_nil, List.append_nil]
        exact .inr (hwants.append_right _)

/-- How a run has ended that goes on when more tokens follow: well, so that the next token is one
too many, or for want of a token. -/
inductive Run.GoesOn (tokens more : List Token) (run longer : Run) : Prop
  | trailing {token : Token} {tail : List Token}
      (hmore : more = token :: tail)
      (hposition : run.position = tokens.length)
      (hstop : run.stop? = none)
      (hlonger : longer.position = tokens.length)
      (htrailing : longer.stop? = some (.violation (.trailing token)))
  | missing
      (hposition : run.position = tokens.length)
      (hstop : run.stop? = some (.violation .endOfInput))
      (hlonger : tokens.length ≤ longer.position)

namespace Run

variable {tokens more : List Token} {run longer : Run}

/-- A run whose steps end well goes on to a token that follows its program. -/
theorem goesOn_of_trailing
    {switches : Switches}
    {symbols : SymbolTable}
    {steps : List Step}
    {token : Token}
    {tail : List Token}
    (hmore : more = token :: tail)
    (htokens : Step.tokens steps = tokens)
    (hended : (Step.outcome switches steps ⟨symbols, []⟩).violation? = none)
    (htells : (Step.outcome switches steps ⟨symbols, []⟩).Tells run)
    (hlonger : (Step.outcome switches (steps ++ [.stop (.trailing token)]) ⟨symbols, []⟩).Tells
      longer) :
    run.GoesOn tokens more longer := by
  have hconsumed := Step.consumed_of_none hended
  rw [htokens] at hconsumed
  rw [Step.outcome_append_of_none hended] at hlonger
  refine .trailing hmore ?_ ?_ ?_ ?_
  · rw [htells.position, hconsumed]
  · rw [htells.stop, hended]
    rfl
  · rw [hlonger.position, hconsumed]
    rfl
  · rw [hlonger.stop]
    rfl

/-- A run whose steps want a token goes on if one follows. -/
theorem goesOn_of_wantsToken
    {switches : Switches}
    {symbols : SymbolTable}
    {steps further : List Step}
    (htokens : Step.tokens steps = tokens)
    (hwants : Step.WantsToken switches ⟨symbols, []⟩ steps further)
    (htells : (Step.outcome switches steps ⟨symbols, []⟩).Tells run)
    (hlonger : (Step.outcome switches further ⟨symbols, []⟩).Tells longer) :
    run.GoesOn tokens more longer := by
  subst htokens
  refine .missing ?_ ?_ ?_
  · rw [htells.position, hwants.consumed]
  · rw [htells.stop, hwants.violation]
    rfl
  · rw [hlonger.position]
    exact hwants.later

end Run

/-- A run ends in the same way when more tokens follow, or it goes on. -/
theorem recognize_append
    (switches : Switches)
    (symbols : SymbolTable)
    (tokens more : List Token) :
    recognize switches symbols (tokens ++ more) = recognize switches symbols tokens ∨
      (recognize switches symbols tokens).GoesOn tokens more
        (recognize switches symbols (tokens ++ more)) := by
  obtain ⟨moves, hcourse, hruns⟩ := exists_moves tokens
  obtain ⟨further, hlonger, hlongerRuns⟩ := exists_moves (tokens ++ more)
  obtain ⟨hrun, htells⟩ := hruns switches symbols
  obtain ⟨hlongerRun, hlongerTells⟩ := hlongerRuns switches symbols
  rw [Run.ofResult_performAll_start switches symbols further tokens] at hlongerRun
  rcases hcourse.extended hlonger with rfl | ⟨token, tail, hmore, htokens, rfl⟩ |
    ⟨_, htokens, hprolonged⟩
  · exact .inl (hlongerRun.trans hrun.symm)
  · rw [Move.stepsAll_append] at hlongerTells
    have hdescribes : (Step.outcome switches (Move.stepsAll moves)
        (State.start tokens symbols).findings).Describes (.start tokens symbols)
          (Move.performAll switches moves (.start tokens symbols)) :=
      Move.describes_performAll moves _
    cases hended : Move.performAll switches moves (.start tokens symbols) with
    | error stop after =>
        rw [hlongerRun, hrun, Move.performAll_append, bind_of_error hended, hended]
        exact .inl rfl
    | ok _ after =>
        rw [hended] at hdescribes
        generalize houtcome : Step.outcome switches (Move.stepsAll moves)
          (State.start tokens symbols).findings = outcome at hdescribes
        cases hdescribes with
        | ok _ =>
            refine .inr (Run.goesOn_of_trailing hmore htokens ?_ htells hlongerTells)
            exact congrArg Outcome.violation? houtcome
  · rcases hprolonged.fails_or_wantsToken switches (.start tokens symbols) with
      ⟨stop, after, hmoves, hfurther⟩ | hwants
    · rw [hlongerRun, hrun, hmoves, hfurther]
      exact .inl rfl
    · exact .inr (Run.goesOn_of_wantsToken htokens hwants htells hlongerTells)

section Failure

variable
    {switches : Switches}
    {symbols : SymbolTable}
    {tokens : List Token}

/-- A run that ends before the last token ends in the same way whatever follows. -/
theorem recognize_append_of_position_lt
    (hposition : (recognize switches symbols tokens).position < tokens.length)
    (more : List Token) :
    recognize switches symbols (tokens ++ more) = recognize switches symbols tokens := by
  rcases recognize_append switches symbols tokens more with hsame | hgoesOn
  · exact hsame
  · cases hgoesOn with
    | trailing _ hend | missing hend =>
        omega

/-- A run that ends at a violation other than for want of a token ends in the same way
whatever follows. -/
theorem recognize_append_of_violation
    {violation : Violation}
    (hstop : (recognize switches symbols tokens).stop? = some (.violation violation))
    (hviolation : violation ≠ .endOfInput)
    (more : List Token) :
    recognize switches symbols (tokens ++ more) = recognize switches symbols tokens := by
  rcases recognize_append switches symbols tokens more with hsame | hgoesOn
  · exact hsame
  · cases hgoesOn with
    | trailing _ _ hnone =>
        cases hnone.symm.trans hstop
    | missing _ hmissing =>
        cases hmissing.symm.trans hstop
        exact absurd rfl hviolation

/-- A run that ends before the last token needs no more than the tokens that it consumes and
the next one. -/
theorem recognize_take_of_position_lt
    (hposition : (recognize switches symbols tokens).position < tokens.length) :
    recognize switches symbols
        (tokens.take ((recognize switches symbols tokens).position + 1)) =
      recognize switches symbols tokens := by
  generalize hfront : tokens.take ((recognize switches symbols tokens).position + 1) = front
  have hlength : front.length = (recognize switches symbols tokens).position + 1 := by
    rw [← hfront, List.length_take]
    omega
  have happend := recognize_append switches symbols front
    (tokens.drop ((recognize switches symbols tokens).position + 1))
  rw [← hfront, List.take_append_drop, hfront] at happend
  rcases happend with hsame | hgoesOn
  · exact hsame.symm
  · cases hgoesOn with
    | trailing _ _ _ hlonger | missing _ _ hlonger =>
        omega

/-- A run that ends before the last token ends in the same way on all tokens that begin with
those that it consumes and the next one. -/
theorem recognize_eq_of_position_lt
    (hposition : (recognize switches symbols tokens).position < tokens.length)
    (more : List Token) :
    recognize switches symbols
        (tokens.take ((recognize switches symbols tokens).position + 1) ++ more) =
      recognize switches symbols tokens := by
  have htake := recognize_take_of_position_lt hposition
  rw [recognize_append_of_position_lt ?_ more, htake]
  rw [htake, List.length_take]
  omega

/-- A failure depends only on the consumed tokens and the next one. If a run fails, and not
for want of a token, it has the same outcome on all tokens that agree so far: the same
verdict, position, symbols, warnings, trace and tree. -/
theorem failure_depends_on_lookahead
    (switches : Switches)
    (symbols : SymbolTable)
    (tokens others : List Token)
    {phase : Phase}
    {message : String}
    (hfails : (recognize switches symbols tokens).verdict = .failure phase message)
    (hagree : others.take (min ((recognize switches symbols tokens).position + 1) tokens.length) =
      tokens.take (min ((recognize switches symbols tokens).position + 1) tokens.length))
    (hseen : (recognize switches symbols tokens).position < tokens.length ∨ phase ≠ .grammar) :
    recognize switches symbols others = recognize switches symbols tokens := by
  generalize hcount : min ((recognize switches symbols tokens).position + 1) tokens.length =
    count at hagree
  rw [← List.take_append_drop count others, hagree]
  by_cases hposition : (recognize switches symbols tokens).position < tokens.length
  · have hlookahead : count = (recognize switches symbols tokens).position + 1 := by omega
    rw [hlookahead]
    exact recognize_eq_of_position_lt hposition _
  · have hall : tokens.length ≤ count := by omega
    rw [List.take_of_length_le hall]
    obtain ⟨violation, hstop, hphase, _⟩ := Run.exists_violation_of_verdict hfails
    refine recognize_append_of_violation hstop ?_ _
    rintro rfl
    exact (hseen.resolve_left hposition) hphase.symm

/-- The beginning of a program, up to a variable that is not declared. -/
def undeclaredStart : List Token :=
  ["void", "main", "(", ")", "\x7b"].map Token.bare ++ [⟨.identifier, "x"⟩]

/-- A variable that is not declared is the violation, whatever comes after it. -/
theorem failure_at_undeclaredStart :
    (check true undeclaredStart).verdict =
        .failure .undefined (Violation.undefined "x").message ∧
      check true (undeclaredStart ++ [.bare "else", .bare "$"]) = check true undeclaredStart := by
  have hfails : (check true undeclaredStart).verdict =
      .failure .undefined (Violation.undefined "x").message := by decide +kernel
  have hposition : (check true undeclaredStart).position = 6 := by decide +kernel
  refine ⟨hfails, failure_depends_on_lookahead ⟨true, true, true⟩ .empty undeclaredStart _ hfails
    ?_ (.inr (by decide))⟩
  show List.take (min ((check true undeclaredStart).position + 1) _) _ = _
  rw [hposition]
  rfl

end Failure

end SimpleC
