import SimpleC.Proofs.Course.Parts
import SimpleC.Proofs.Course.Twin
import SimpleC.Proofs.Warnings.Scan

/-!
# The warnings of a run

Expressions are the only phrases that read a sign of equality, and it stands between two
values there. So no comparison lies across the border between two phrases, and however a run
ends, its warnings are as many as a flat scan of the consumed tokens finds equalities of
reals. Its trace reports them one by one.
-/

namespace SimpleC

section Expressions

variable {steps : List Step} {endsWell : Bool}

theorem Operand.isSpelled_equality (value : Operand) : value.token.isSpelled "==" = false :=
  value.isSpelled_eq_false (by decide)

/-- The steps of an expression are counted. -/
theorem Expression.Steps.counted (h : Expression.Steps steps endsWell) : Step.Counted steps := by
  cases h with
  | binary left sign right =>
      exact Step.counted_binary left right sign
  | stopped | stoppedAfterValue | single | stoppedAfterSign =>
      refine Step.counted_of_silent ?_ ?_
      · simp [Operand.steps, Step.isSilent, Demand.isOperation]
      · simp

/-- An expression begins with a value. -/
theorem Expression.Steps.begins (h : Expression.Steps steps endsWell) :
    BeginsWithoutEquality (Step.tokens steps) := by
  cases h with
  | stopped =>
      exact beginsWithoutEquality_nil
  | stoppedAfterValue value | single value | stoppedAfterSign value | binary value =>
      simp [BeginsWithoutEquality, value.isSpelled_equality]

/-- An expression ends with a value. -/
theorem Expression.Steps.ends (h : Expression.Steps steps true) :
    EndsWithoutEquality (Step.tokens steps) := by
  cases h with
  | single value | binary _ _ value =>
      simp [EndsWithoutEquality, value.isSpelled_equality]

end Expressions

/-- Whether something other than a sign of equality is expected. -/
def Expectation.lacksEquality : Expectation → Bool
  | spelled spelling => spelling ≠ "=="
  | ofKind kind => kind.hasPayload

/-- Whether the item reads no sign of equality, but for expressions. -/
def Item.lacksEquality : Item → Bool
  | token wanted => wanted.lacksEquality
  | choice place => place ≠ .operation ∧ place ≠ .sign
  | phrase production => production ≠ .operator
  | check => true

section Items

variable {token : Token} {more : List Item}

theorem Expectation.isSpelled_of_accepts
    {wanted : Expectation}
    (hwanted : wanted.lacksEquality = true)
    (haccepts : wanted.accepts token = true) :
    token.isSpelled "==" = false := by
  cases wanted with
  | spelled spelling =>
      have hspelling : token.spelling? = some spelling := by
        simpa [accepts, Token.isSpelled] using haccepts
      simpa [Token.isSpelled, hspelling, lacksEquality] using hwanted
  | ofKind kind =>
      have hkind : token.kind = kind := by
        simpa [accepts] using haccepts
      have hpayload : kind.hasPayload = true := hwanted
      simp [Token.isSpelled, Token.spelling?, hkind, hpayload]

theorem Token.lacksEquality_of_valueExpectation?
    {wanted : Expectation}
    (h : token.valueExpectation? = some wanted) :
    wanted.lacksEquality = true := by
  refine of_valueExpectation? ?_ ?_ h
  · exact fun kind hpayload => hpayload
  · decide

/-- Signs of equality are only read as operators. -/
theorem Choice.lacksEquality_of_items
    {choice : Choice}
    (hchoice : (Item.choice choice).lacksEquality = true)
    (hmore : choice.items token = .ok more) :
    ∀ item ∈ more, item.lacksEquality = true := by
  cases choice with
  | operation | sign =>
      cases hchoice
  | further | printed | otherwise =>
      simp only [items] at hmore
      split at hmore <;> cases hmore <;> decide
  | form =>
      simp only [items] at hmore
      split at hmore
      · rename_i form _
        cases hmore
        cases form <;> decide
      · cases hmore
  | declarator =>
      simp only [items] at hmore
      split at hmore
      · rename_i type _
        cases hmore
        cases type <;> decide
      · cases hmore
  | operand =>
      simp only [items] at hmore
      split at hmore
      · rename_i hwanted
        cases hmore
        simp [Item.lacksEquality, Token.lacksEquality_of_valueExpectation? hwanted]
      · cases hmore

/-- Operators are only part of expressions. -/
theorem Production.lacksEquality_of_mem_items
    {production : Production}
    (hphrase : (Item.phrase production).lacksEquality = true)
    (hproduction : production ≠ .expression) :
    ∀ item ∈ production.items, item.lacksEquality = true := by
  cases production with
  | operator =>
      cases hphrase
  | expression =>
      exact absurd rfl hproduction
  | _ =>
      decide

/-- Operators are only asked about in expressions. -/
theorem Production.isOperation_of_demand?
    {production : Production}
    {read : List Token}
    {demand : Demand}
    (hproduction : production ≠ .expression)
    (h : production.demand? read = some demand) :
    demand.isOperation = false := by
  cases asks_of_demand? h with
  | operation =>
      exact absurd rfl hproduction
  | _ =>
      rfl

end Items

/-- The moves are counted, and no comparison lies across their beginning or, when they are not
the last ones, across their end. -/
structure Move.Counts (moves : List Move) (rest? : Option (List Token)) : Prop where
  counted : Step.Counted (stepsAll moves)
  begins : BeginsWithoutEquality (tokens moves)
  ends : rest?.isSome = true → EndsWithoutEquality (tokens moves)

namespace Move

variable {moves further : List Move} {middle : List Token} {rest? : Option (List Token)}

/-- Moves that consume nothing and are not about operators. -/
theorem counts_of_silent
    (hsilent : ∀ step ∈ stepsAll moves, step.isSilent = true)
    (htokens : tokens moves = []) :
    Counts moves rest? where
  counted := by
    have hlength : (tokens moves).length ≤ 2 := by
      rw [htokens]
      exact Nat.zero_le _
    exact Step.counted_of_silent hsilent hlength
  begins := by
    rw [htokens]
    exact beginsWithoutEquality_nil
  ends _ := by
    rw [htokens]
    exact endsWithoutEquality_nil

theorem counts_nil : Counts [] rest? :=
  counts_of_silent (List.forall_mem_nil _) rfl

theorem counts_stop (violation : Violation) : Counts [step (.stop violation)] rest? :=
  counts_of_silent (by simp [Step.isSilent]) rfl

theorem counts_read
    {token : Token}
    (htoken : token.isSpelled "==" = false) :
    Counts [step (.read token)] rest? where
  counted := Step.counted_of_silent (by simp [Step.isSilent]) (by simp)
  begins := by simpa [BeginsWithoutEquality] using htoken
  ends _ := by simpa [EndsWithoutEquality] using htoken

theorem Counts.append (hmoves : Counts moves (some middle)) (hfurther : Counts further rest?) :
    Counts (moves ++ further) rest? where
  counted := by
    rw [stepsAll_append]
    exact hmoves.counted.append (hmoves.ends rfl) hfurther.begins hfurther.counted
  begins := by
    rw [tokens_append]
    exact hmoves.begins.append hfurther.begins
  ends hrest := by
    rw [tokens_append]
    exact (hmoves.ends rfl).append (hfurther.ends hrest)

theorem Counts.within (hmoves : Counts moves rest?) (production : Production) :
    Counts [within production moves] rest? where
  counted := by simpa using hmoves.counted
  begins := by simpa using hmoves.begins
  ends hrest := by simpa using hmoves.ends hrest

theorem counts_checks
    {production : Production}
    (hproduction : production ≠ .expression)
    (read : List Token) :
    Counts (production.checks read) rest? := by
  unfold Production.checks
  cases hdemand : production.demand? read with
  | none =>
      exact counts_nil
  | some demand =>
      have hkind := Production.isOperation_of_demand? hproduction hdemand
      refine counts_of_silent ?_ rfl
      simp [Step.isSilent, hkind]

/-- All moves are counted, if expressions are taken as a whole. -/
theorem counts_parts :
    Parts Counts Item.lacksEquality fun production => production = .expression where
  nil _ := counts_nil
  append hmoves hfurther := hmoves.append hfurther
  within production hmoves := hmoves.within production
  stop _ := counts_stop _
  read hwanted haccepts := counts_read (Expectation.isSpelled_of_accepts hwanted haccepts)
  checks read hproduction := counts_checks (of_decide_eq_false hproduction) read
  choice hchoice hmore := Choice.lacksEquality_of_items hchoice hmore
  phrase hphrase hproduction :=
    Production.lacksEquality_of_mem_items hphrase (of_decide_eq_false hproduction)
  whole hproduction hcourse := by
    cases of_decide_eq_true hproduction
    have hsteps := hcourse.expression_steps
    exact ⟨hsteps.counted, hsteps.begins, fun hrest => (hrest ▸ hsteps).ends⟩

end Move

theorem WholeCourse.counted
    {tokens : List Token}
    {moves : List Move}
    (h : WholeCourse tokens moves) :
    Step.Counted (Move.stepsAll moves) := by
  obtain ⟨_, hcounts⟩ := h.of_parts Move.counts_parts rfl rfl
  exact hcounts.counted

section Trace

/-- The warnings in the trace are the ones that were given, in order. -/
def State.LogsWarnings (state : State) : Prop :=
  state.trace.toList.filter (fun event => event.level = .warning) =
    state.warnings.toList.map .warned

/-- Each change of a state logs the warnings that it gives. -/
theorem Move.keeps_logsWarnings (switches : Switches) :
    Move.Keeps switches switches fun state twin => twin = state ∧ state.LogsWarnings where
  declare := rfl
  checkTypes := rfl
  symbols := by
    rintro state _ ⟨rfl, _⟩
    rfl
  read := by
    rintro state _ token ⟨rfl, hlogs⟩
    refine ⟨rfl, ?_⟩
    simpa [State.LogsWarnings, State.read] using hlogs
  learn := by
    rintro state _ symbols warnings ⟨rfl, hlogs⟩
    have hadded : (warnings.map Event.warned).filter (fun event => event.level = .warning) =
        warnings.map Event.warned := by
      simp [List.filter_eq_self, Event.level]
    refine ⟨rfl, ?_⟩
    unfold State.LogsWarnings at hlogs ⊢
    simp only [State.learn, Array.toList_append, List.filter_append, List.map_append, hlogs, hadded]
  enter := by
    rintro state _ production ⟨rfl, hlogs⟩
    refine ⟨rfl, ?_⟩
    simpa [State.LogsWarnings, State.enter, State.note, Event.level] using hlogs
  leave := by
    rintro state _ after _ production type? ⟨rfl, _⟩ ⟨rfl, hlogs⟩
    refine ⟨rfl, ?_⟩
    simpa [State.LogsWarnings] using hlogs

/-- The trace of a run reports its warnings. -/
theorem trace_logs_warnings
    (switches : Switches)
    (symbols : SymbolTable)
    (tokens : List Token) :
    (recognize switches symbols tokens).trace.filter (fun event => event.level = .warning) =
      (recognize switches symbols tokens).warnings.map .warned := by
  obtain ⟨moves, _, hruns⟩ := exists_moves tokens
  rw [(hruns switches symbols).1]
  have hstart : (State.start tokens symbols).LogsWarnings := rfl
  have hended := (Move.keeps_logsWarnings switches).perform_moves moves ⟨rfl, hstart⟩
  generalize Move.performAll switches moves (.start tokens symbols) = ended at hended ⊢
  cases hended with
  | ok htwins =>
      exact htwins.2
  | @error stop after _ htwins =>
      cases stop with
      | violation violation =>
          simpa [State.LogsWarnings, Run.ofResult, Run.ofState, Run.noteStop, State.note,
            Event.level] using htwins.2
      | fault reason =>
          exact htwins.2

end Trace

/-- The run gives as many warnings about equalities of reals, and its trace reports as many. -/
structure Run.Warns (run : Run) (count : Nat) : Prop where
  given : run.report.warnings = List.replicate count Warning.realEquality.text
  logged : run.trace.filter (fun event => event.level = .warning) =
    List.replicate count (.warned .realEquality)

/-- A run that gives so many warnings reports them in its trace as well. -/
theorem Run.warns_of_warnings
    {switches : Switches}
    {symbols : SymbolTable}
    {tokens : List Token}
    {count : Nat}
    (h : (recognize switches symbols tokens).warnings = List.replicate count .realEquality) :
    (recognize switches symbols tokens).Warns count where
  given := by rw [report, h, List.map_replicate]
  logged := by rw [trace_logs_warnings, h, List.map_replicate]

/-- However a run ends, it gives a warning for each three tokens in a row among the consumed
ones that compare a real for equality, whose types are those of its last symbol table. When
types are not checked, there are no warnings. -/
theorem warnings_are_real_equalities
    (declare record : Bool)
    (symbols : SymbolTable)
    (tokens : List Token) :
    (recognize ⟨declare, true, record⟩ symbols tokens).Warns
        (realEqualitiesIn (recognize ⟨declare, true, record⟩ symbols tokens).symbols
          (tokens.take (recognize ⟨declare, true, record⟩ symbols tokens).position)) ∧
      (recognize ⟨declare, false, record⟩ symbols tokens).Warns 0 := by
  obtain ⟨moves, hcourse, hruns⟩ := exists_moves tokens
  constructor
  · refine Run.warns_of_warnings ?_
    have htells := (hruns ⟨declare, true, record⟩ symbols).2
    have hcounted := hcourse.counted ⟨declare, true, record⟩ ⟨symbols, []⟩ _ rfl
      ⟨.refl _, fun _ => rfl⟩
    rw [hcourse.take_position htells, htells.symbols, htells.warnings, hcounted]
    rfl
  · refine Run.warns_of_warnings ?_
    have htells := (hruns ⟨declare, false, record⟩ symbols).2
    have hoff : (⟨declare, false, record⟩ : Switches).checkTypes ≠ true := Bool.false_ne_true
    rw [htells.warnings, Step.warnings_of_silent fun htypes => absurd htypes hoff]
    rfl

/-- A warning stays when the run fails after it. -/
example :
    (check false (programOf [.bare "real", ⟨.identifier, "x"⟩, .bare ";",
      .bare "if", .bare "(", ⟨.identifier, "x"⟩, .bare "==", ⟨.intLiteral, "1"⟩, .bare ")",
      .bare "cin", .bare ">>", ⟨.identifier, "y"⟩])).report.warnings =
        [Warning.realEquality.text] := by
  decide +kernel

end SimpleC
