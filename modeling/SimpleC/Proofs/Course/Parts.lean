import SimpleC.Proofs.Course.Basic

/-!
# Courses by their parts

What is shown of the single moves of a course is to be put together along the course. Often
this goes through for most productions, but a few have to be taken as a whole, since what
counts is their tokens in a row. This module does the induction once: a property of moves
holds of a course if it holds of its parts, and of the courses of the productions that are
taken as a whole. For the marks it lists what each production asks.
-/

namespace SimpleC

/-- The violation is one of the grammar: at the first of the tokens ahead or, if there is
none, at the end. -/
inductive Violation.StopsAt : Violation → List Token → Prop
  | endOfInput :
      StopsAt .endOfInput []
  | unexpected (wanted : Expectation) (found : Token) (rest : List Token) :
      StopsAt (.unexpected wanted found) (found :: rest)
  | notAValue (found : Token) (rest : List Token) :
      StopsAt (.notAValue found) (found :: rest)
  | notAStatement (found : Token) (rest : List Token) :
      StopsAt (.notAStatement found) (found :: rest)
  | trailing (found : Token) (rest : List Token) :
      StopsAt (.trailing found) (found :: rest)

theorem Violation.StopsAt.phase_eq
    {violation : Violation}
    {ahead : List Token}
    (h : violation.StopsAt ahead) :
    violation.phase = .grammar := by
  cases h with
  | endOfInput | unexpected | notAValue | notAStatement | trailing =>
      rfl

/-- A token that is refused is the one at which the course stops. -/
theorem Choice.stopsAt_of_items
    {choice : Choice}
    {token : Token}
    {violation : Violation}
    (hmore : choice.items token = .error violation)
    (rest : List Token) :
    violation.StopsAt (token :: rest) := by
  cases choice with
  | further | printed | otherwise | operation =>
      simp only [items] at hmore
      split at hmore <;> cases hmore
  | form | declarator =>
      simp only [items] at hmore
      split at hmore <;> cases hmore
      exact .notAStatement token rest
  | operand | sign =>
      simp only [items] at hmore
      split at hmore <;> cases hmore
      exact .notAValue token rest

/-- What is refused violates the grammar. -/
theorem Choice.phase_of_items
    {choice : Choice}
    {token : Token}
    {violation : Violation}
    (hmore : choice.items token = .error violation) :
    violation.phase = .grammar :=
  (stopsAt_of_items hmore []).phase_eq

/-- What is asked at the marks of a production. -/
inductive Production.Asks : Production → Demand → Prop
  | declaration (type : ValueType) (name : String) : Asks declaration (.declaration type name)
  | input (name : String) : Asks input (.lookup name)
  | target (name : String) : Asks assignment (.lookup name)
  | assignment (name : String) (phrase : Expression) : Asks assignment (.assignment name phrase)
  | condition (phrase : Expression) : Asks condition (.condition phrase)
  | operation (left : Operand) (sign : Sign) (right : Operand) :
      Asks expression (.operation left sign right)
  | value (operand : Operand) : Asks value (.value operand)

/-- Whatever has been read, nothing else is asked. -/
theorem Production.asks_of_demand?
    {production : Production}
    {read : List Token}
    {demand : Demand}
    (h : production.demand? read = some demand) :
    production.Asks demand := by
  unfold demand? at h
  split at h
  all_goals
    simp only [Option.pure_def, Option.bind_eq_bind, Option.bind_eq_some_iff,
      Option.some.injEq, reduceCtorEq] at h
  · obtain ⟨type, _, rfl⟩ := h
    exact .declaration type _
  · subst h
    exact .input _
  · subst h
    exact .target _
  · obtain ⟨phrase, _, rfl⟩ := h
    exact .assignment _ phrase
  · obtain ⟨phrase, _, rfl⟩ := h
    exact .condition phrase
  · obtain ⟨left, _, sign, _, right, _, rfl⟩ := h
    exact .operation left sign right
  · obtain ⟨operand, _, rfl⟩ := h
    exact .value operand

/-- The property of moves, and whether they leave tokens over, is put together from its parts.
It is shown of the plain items one by one, and of some productions as a whole. -/
structure Move.Parts
    (Holds : List Move → Option (List Token) → Prop)
    (isPlain : Item → Bool)
    (isWhole : Production → Bool) : Prop where
  nil (rest : List Token) : Holds [] (some rest)
  append {moves further : List Move} {middle : List Token} {rest? : Option (List Token)} :
    Holds moves (some middle) → Holds further rest? → Holds (moves ++ further) rest?
  within {moves : List Move} {rest? : Option (List Token)} (production : Production) :
    Holds moves rest? → Holds [.within production moves] rest?
  stop {violation : Violation} :
    violation.phase = .grammar → Holds [.step (.stop violation)] none
  read {wanted : Expectation} {token : Token} :
    isPlain (.token wanted) = true → wanted.accepts token = true →
      Holds [.step (.read token)] (some [])
  checks {production : Production} (read : List Token) :
    isWhole production = false → Holds (production.checks read) (some [])
  choice {choice : Choice} {token : Token} {more : List Item} :
    isPlain (.choice choice) = true → choice.items token = .ok more →
      ∀ item ∈ more, isPlain item = true
  phrase {production : Production} :
    isPlain (.phrase production) = true → isWhole production = false →
      ∀ item ∈ production.items, isPlain item = true
  whole {production : Production} {ahead : List Token} {moves : List Move}
      {rest? : Option (List Token)} :
    isWhole production = true → Course production [] production.items ahead moves rest? →
      Holds moves rest?

section Parts

variable
    {Holds : List Move → Option (List Token) → Prop}
    {isPlain : Item → Bool}
    {isWhole : Production → Bool}

/-- The property holds of a course of plain items. -/
theorem Course.of_parts
    {production : Production}
    {read ahead : List Token}
    {items : List Item}
    {moves : List Move}
    {rest? : Option (List Token)}
    (hparts : Move.Parts Holds isPlain isWhole)
    (h : Course production read items ahead moves rest?)
    (hproduction : isWhole production = false)
    (hplain : ∀ item ∈ items, isPlain item = true) :
    Holds moves rest? := by
  -- a production that is taken as a whole is not part of the induction
  have hphrase : ∀ {inner : Production} {ahead : List Token} {moves : List Move}
      {rest? : Option (List Token)}, isPlain (.phrase inner) = true →
      Course inner [] inner.items ahead moves rest? →
      (isWhole inner = false → (∀ item ∈ inner.items, isPlain item = true) →
        Holds moves rest?) → Holds moves rest? := by
    intro inner ahead moves rest? hplain hinner ih
    cases hwhole : isWhole inner with
    | true =>
        exact hparts.whole hwhole hinner
    | false =>
        exact ih hwhole (hparts.phrase hplain hwhole)
  induction h with
  | done =>
      exact hparts.nil _
  | token haccepts _ ih =>
      rw [List.forall_mem_cons] at hplain
      exact hparts.append (hparts.read hplain.1 haccepts) (ih hproduction hplain.2)
  | unexpected | missing | undecided =>
      exact hparts.stop rfl
  | refused hmore =>
      exact hparts.stop (Choice.phase_of_items hmore)
  | check _ ih =>
      rw [List.forall_mem_cons] at hplain
      exact hparts.append (hparts.checks _ hproduction) (ih hproduction hplain.2)
  | choice hmore _ ih =>
      rw [List.forall_mem_cons] at hplain
      refine ih hproduction ?_
      rw [List.forall_mem_append]
      exact ⟨hparts.choice hplain.1 hmore, hplain.2⟩
  | phrase hinner _ ihinner ih =>
      rw [List.forall_mem_cons] at hplain
      exact hparts.append (hparts.within _ (hphrase hplain.1 hinner ihinner))
        (ih hproduction hplain.2)
  | broken hinner ihinner =>
      rw [List.forall_mem_cons] at hplain
      exact hparts.within _ (hphrase hplain.1 hinner ihinner)

/-- The property holds of the moves on a whole input. -/
theorem WholeCourse.of_parts
    {tokens : List Token}
    {moves : List Move}
    (hparts : Move.Parts Holds isPlain isWhole)
    (hplain : isPlain (.phrase .program) = true)
    (hwhole : isWhole .program = false)
    (h : WholeCourse tokens moves) :
    ∃ rest?, Holds moves rest? := by
  have hprogram : ∀ {moves rest?}, Course .program [] Production.program.items tokens moves rest? →
      Holds [.within .program moves] rest? := fun hcourse =>
    hparts.within .program (hcourse.of_parts hparts hwhole (hparts.phrase hplain hwhole))
  cases h with
  | accepted hcourse | stopped hcourse =>
      exact ⟨_, hprogram hcourse⟩
  | trailing hcourse =>
      exact ⟨none, hparts.append (hprogram hcourse) (hparts.stop rfl)⟩

end Parts

/-- Steps with a stop do not end well. -/
theorem Step.violation?_append_stop
    {switches : Switches}
    {steps : List Step}
    {findings : Findings}
    (violation : Violation) :
    (outcome switches (steps ++ [stop violation]) findings).violation? ≠ none := by
  cases hsteps : (outcome switches steps findings).violation? with
  | some earlier =>
      rw [outcome_append_of_violation hsteps, hsteps]
      exact Option.some_ne_none earlier
  | none =>
      rw [outcome_append_of_none hsteps]
      exact Option.some_ne_none violation

/-- Moves that leave nothing over end at a violation. -/
theorem Move.stopping_parts :
    Move.Parts
      (fun moves rest? => rest? = none →
        ∃ steps violation, stepsAll moves = steps ++ [.stop violation])
      (fun _ => true) (fun _ => false) where
  nil _ hrest := by cases hrest
  append {moves _ _ _} _ hfurther hrest := by
    obtain ⟨steps, violation, hsteps⟩ := hfurther hrest
    exact ⟨stepsAll moves ++ steps, violation, by simp [hsteps]⟩
  within production hmoves hrest := by
    simpa using hmoves hrest
  stop {violation} _ _ := ⟨[], violation, rfl⟩
  read _ _ hrest := by cases hrest
  checks _ _ hrest := by cases hrest
  choice _ _ _ _ := rfl
  phrase _ _ _ _ := rfl
  whole hwhole := by cases hwhole

/-- Moves that leave something over have no stop among them. -/
theorem Move.lasting_parts :
    Move.Parts
      (fun moves rest? => rest?.isSome = true → ∀ violation, .stop violation ∉ stepsAll moves)
      (fun _ => true) (fun _ => false) where
  nil _ _ _ := List.not_mem_nil
  append hmoves hfurther hrest violation := by
    rw [stepsAll_append, List.mem_append, not_or]
    exact ⟨hmoves rfl violation, hfurther hrest violation⟩
  within production hmoves hrest violation := by
    simpa using hmoves hrest violation
  stop _ hrest := by cases hrest
  read _ _ _ violation := by simp
  checks {production} read _ _ violation := by
    unfold Production.checks
    cases production.demand? read with
    | none | some =>
        simp
  choice _ _ _ _ := rfl
  phrase _ _ _ _ := rfl
  whole hwhole := by cases hwhole

theorem Course.stop_notMem
    {production : Production}
    {read ahead rest : List Token}
    {items : List Item}
    {moves : List Move}
    (h : Course production read items ahead moves (some rest)) :
    ∀ violation, .stop violation ∉ Move.stepsAll moves :=
  h.of_parts Move.lasting_parts rfl (fun _ _ => rfl) rfl

/-- A course that leaves nothing over does not end well. -/
theorem Course.violation?_ne_none
    {production : Production}
    {read ahead : List Token}
    {items : List Item}
    {moves : List Move}
    (h : Course production read items ahead moves none)
    (switches : Switches)
    (findings : Findings) :
    (Step.outcome switches (Move.stepsAll moves) findings).violation? ≠ none := by
  obtain ⟨steps, violation, hsteps⟩ :=
    h.of_parts Move.stopping_parts rfl (fun _ _ => rfl) rfl
  rw [hsteps]
  exact Step.violation?_append_stop violation

end SimpleC
