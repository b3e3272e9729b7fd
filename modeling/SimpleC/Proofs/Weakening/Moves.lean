import SimpleC.Proofs.Course.Passing
import SimpleC.Proofs.Weakening.Basic

/-!
# Moves under a larger symbol table

The moves of a course do the same from a larger symbol table on: they consume the same
tokens, give the same warnings, record the same nodes and add the same variables. They may
only end differently at a variable that is missing in the smaller table.
-/

namespace SimpleC

section Relations

variable (symbols larger : SymbolTable)

/-- The states differ in their symbol tables only, to which the same variables were added. -/
def State.GrownAlike (state twin : State) : Prop :=
  ∃ table, twin = { state with symbols := table } ∧
    symbols.GrownAlike larger state.symbols table

/-- Two programs have ended alike, or the first one at a variable that only the larger table
has from the beginning. -/
inductive State.EndAlike :
    EStateM.Result Stop State Unit → EStateM.Result Stop State Unit → Prop
  | ok {state twin : State}
      (hgrown : state.GrownAlike symbols larger twin) :
      EndAlike (.ok () state) (.ok () twin)
  | error (stop : Stop) {state twin : State}
      (hgrown : state.GrownAlike symbols larger twin) :
      EndAlike (.error stop state) (.error stop twin)
  | undefined {name : String} {state : State} {ended : EStateM.Result Stop State Unit}
      (hbound : name ∈ larger.names)
      (hnew : name ∉ symbols.names) :
      EndAlike (.error (.violation (.undefined name)) state) ended

/-- None of the steps declares a variable that only the larger table has. -/
def Step.Spare (steps : List Step) : Prop :=
  ∀ type name, .check (.declaration type name) ∈ steps →
    name ∈ larger.names → name ∈ symbols.names

end Relations

section States

variable
    {symbols larger : SymbolTable}
    {state twin : State}

namespace State.GrownAlike

theorem symbols_grownAlike (h : state.GrownAlike symbols larger twin) :
    symbols.GrownAlike larger state.symbols twin.symbols := by
  obtain ⟨table, rfl, htable⟩ := h
  exact htable

theorem read
    (h : state.GrownAlike symbols larger twin)
    (switches : Switches)
    (token : Token) :
    (state.read switches token).GrownAlike symbols larger (twin.read switches token) := by
  obtain ⟨table, rfl, htable⟩ := h
  refine ⟨table, ?_, ?_⟩
  · unfold State.read State.append
    split <;> rfl
  · rw [State.read, symbols_append]
    exact htable

theorem learn
    {table other : SymbolTable}
    (h : state.GrownAlike symbols larger twin)
    (hgrown : symbols.GrownAlike larger table other)
    (warnings : List Warning) :
    (state.learn table warnings).GrownAlike symbols larger (twin.learn other warnings) := by
  obtain ⟨_, rfl, _⟩ := h
  exact ⟨other, rfl, hgrown⟩

theorem enter
    (h : state.GrownAlike symbols larger twin)
    (production : Production) :
    (state.enter production).GrownAlike symbols larger (twin.enter production) := by
  obtain ⟨table, rfl, htable⟩ := h
  exact ⟨table, rfl, htable⟩

theorem leave
    {after twinAfter : State}
    (h : state.GrownAlike symbols larger twin)
    (hafter : after.GrownAlike symbols larger twinAfter)
    (switches : Switches)
    (production : Production)
    (type? : Option ValueType) :
    (after.leave switches production type? state.children).GrownAlike symbols larger
      (twinAfter.leave switches production type? twin.children) := by
  obtain ⟨_, rfl, _⟩ := h
  obtain ⟨table, rfl, htable⟩ := hafter
  refine ⟨table, ?_, ?_⟩
  · unfold State.leave State.append
    split <;> rfl
  · rw [symbols_leave]
    exact htable

end State.GrownAlike

theorem State.EndAlike.bind
    {step next twinStep twinNext : Recognizer Unit}
    (hstep : EndAlike symbols larger (step state) (twinStep twin))
    (hnext : ∀ {after twinAfter}, step state = .ok () after →
      after.GrownAlike symbols larger twinAfter →
        EndAlike symbols larger (next after) (twinNext twinAfter)) :
    EndAlike symbols larger ((step >>= fun _ => next) state)
      ((twinStep >>= fun _ => twinNext) twin) := by
  generalize hs : step state = ended, ht : twinStep twin = twinEnded at hstep hnext
  cases hstep with
  | ok hgrown =>
      rw [bind_of_ok hs, bind_of_ok ht]
      exact hnext rfl hgrown
  | error stop hgrown =>
      rw [bind_of_error hs, bind_of_error ht]
      exact .error stop hgrown
  | undefined hbound hnew =>
      rw [bind_of_error hs]
      exact .undefined hbound hnew

end States

namespace Step.Spare

variable
    {symbols larger : SymbolTable}
    {left right : List Step}

theorem append_iff :
    Spare symbols larger (left ++ right) ↔
      Spare symbols larger left ∧ Spare symbols larger right := by
  constructor
  · intro h
    refine ⟨fun type name hmem => ?_, fun type name hmem => ?_⟩
    · exact h type name (List.mem_append_left _ hmem)
    · exact h type name (List.mem_append_right _ hmem)
  · rintro ⟨hleft, hright⟩ type name hmem
    rcases List.mem_append.mp hmem with hmem | hmem
    · exact hleft type name hmem
    · exact hright type name hmem

end Step.Spare

section Moves

variable
    {switches : Switches}
    {symbols larger : SymbolTable}
    {state twin : State}
    {production : Production}
    {read ahead : List Token}
    {items : List Item}
    {moves : List Move}
    {rest? : Option (List Token)}

theorem Step.endAlike_check
    {demand : Demand}
    (hwithin : symbols.Within larger)
    (hspare : switches.declare = true → Spare symbols larger [.check demand])
    (hgrown : state.GrownAlike symbols larger twin) :
    State.EndAlike symbols larger ((check demand).perform switches state)
      ((check demand).perform switches twin) := by
  have hanswer : symbols.AnsweredAlike larger (demand.answer switches state.symbols)
      (demand.answer switches twin.symbols) := by
    refine hgrown.symbols_grownAlike.answer hwithin ?_
    rintro type name rfl hdeclare
    exact hspare hdeclare type name List.mem_cons_self
  rw [perform_check, perform_check]
  generalize demand.answer switches state.symbols = answer,
    demand.answer switches twin.symbols = other at hanswer
  cases hanswer with
  | ok hextended =>
      exact .ok (hgrown.learn hextended _)
  | error violation =>
      exact .error _ hgrown
  | undefined hbound hnew =>
      exact .undefined hbound hnew

theorem Move.endAlike_checks
    (hwithin : symbols.Within larger)
    (hspare : switches.declare = true →
      Step.Spare symbols larger (stepsAll (production.checks read)))
    (hgrown : state.GrownAlike symbols larger twin) :
    State.EndAlike symbols larger (performAll switches (production.checks read) state)
      (performAll switches (production.checks read) twin) := by
  unfold Production.checks at hspare ⊢
  cases hdemand : production.demand? read with
  | none =>
      exact .ok hgrown
  | some demand =>
      rw [hdemand] at hspare
      rw [Option.toList_some, List.map_singleton, performAll_singleton]
      exact Step.endAlike_check hwithin hspare hgrown

/-- A production ends alike if the moves inside it do, and if its type stays. -/
theorem Move.endAlike_within
    (hwithin : symbols.Within larger)
    (hinner : State.EndAlike symbols larger (performAll switches moves (state.enter production))
      (performAll switches moves (twin.enter production)))
    (htype : ∀ {after table}, performAll switches moves (state.enter production) = .ok () after →
      after.symbols.Within table →
        production.type? (switches.typesUnder table) (tokens moves) =
          production.type? (switches.typesUnder after.symbols) (tokens moves))
    (hgrown : state.GrownAlike symbols larger twin) :
    State.EndAlike symbols larger (perform switches (.within production moves) state)
      (perform switches (.within production moves) twin) := by
  generalize hs : performAll switches moves (state.enter production) = ended,
    ht : performAll switches moves (twin.enter production) = twinEnded at hinner
  cases hinner with
  | error stop hafter =>
      rw [perform_within_of_error hs, perform_within_of_error ht]
      exact .error stop (hgrown.leave hafter switches production none)
  | undefined hbound hnew =>
      rw [perform_within_of_error hs]
      exact .undefined hbound hnew
  | @ok after twinAfter hafter =>
      have hsame : production.type? (switches.typesUnder twinAfter.symbols) (tokens moves) =
          production.type? (switches.typesUnder after.symbols) (tokens moves) :=
        htype hs (hafter.symbols_grownAlike.within hwithin)
      rw [perform_within_of_ok hs, perform_within_of_ok ht, hsame]
      exact .ok (hgrown.leave hafter switches production _)

/-- The moves of a course end alike on both sides. -/
theorem Course.endAlike
    (hwithin : symbols.Within larger)
    (h : Course production read items ahead moves rest?)
    (hspare : switches.declare = true → Step.Spare symbols larger (Move.stepsAll moves))
    (hgrown : state.GrownAlike symbols larger twin) :
    State.EndAlike symbols larger (Move.performAll switches moves state)
      (Move.performAll switches moves twin) := by
  induction h generalizing state twin with
  | done =>
      exact .ok hgrown
  | unexpected | missing | refused | undecided =>
      exact .error _ hgrown
  | choice _ _ ih =>
      exact ih hspare hgrown
  | token _ _ ih =>
      refine ih (fun hdeclare => ?_) (hgrown.read switches _)
      exact (Step.Spare.append_iff.mp (hspare hdeclare : Step.Spare _ _ ([_] ++ _))).2
  | check _ ih =>
      rw [Move.stepsAll_append, Step.Spare.append_iff] at hspare
      rw [Move.performAll_append]
      refine (Move.endAlike_checks hwithin (fun hdeclare => (hspare hdeclare).1) hgrown).bind ?_
      intro after twinAfter _ hafter
      exact ih (fun hdeclare => (hspare hdeclare).2) hafter
  | phrase hinner _ ihinner ih =>
      rw [Move.stepsAll_within, Step.Spare.append_iff] at hspare
      refine State.EndAlike.bind (Move.endAlike_within hwithin ?_ ?_ hgrown) ?_
      · exact ihinner (fun hdeclare => (hspare hdeclare).1) (hgrown.enter _)
      · intro after table hperformed hlarger
        exact hinner.type?_of_passes (Move.passes_of_performAll hperformed) hlarger
      · intro after twinAfter _ hafter
        exact ih (fun hdeclare => (hspare hdeclare).2) hafter
  | broken hinner ih =>
      rw [Move.stepsAll_within, Move.stepsAll_nil, List.append_nil] at hspare
      rw [Move.performAll_singleton]
      refine Move.endAlike_within hwithin (ih hspare (hgrown.enter _)) ?_ hgrown
      intro after table hperformed hlarger
      exact hinner.type?_of_passes (Move.passes_of_performAll hperformed) hlarger

/-- The moves on a whole input end alike on both sides. -/
theorem WholeCourse.endAlike
    {tokens : List Token}
    (hwithin : symbols.Within larger)
    (h : WholeCourse tokens moves)
    (hspare : switches.declare = true → Step.Spare symbols larger (Move.stepsAll moves))
    (hgrown : state.GrownAlike symbols larger twin) :
    State.EndAlike symbols larger (Move.performAll switches moves state)
      (Move.performAll switches moves twin) := by
  obtain ⟨inner, rest?, hcourse, rfl⟩ := wholeCourse_iff.mp h
  rw [Move.stepsAll_within, Step.Spare.append_iff] at hspare
  refine State.EndAlike.bind (Move.endAlike_within hwithin ?_ ?_ hgrown) ?_
  · exact hcourse.endAlike hwithin (fun hdeclare => (hspare hdeclare).1) (hgrown.enter _)
  · intro after table hperformed hlarger
    exact hcourse.type?_of_passes (Move.passes_of_performAll hperformed) hlarger
  · intro after twinAfter _ hafter
    match rest? with
    | none | some [] =>
        exact .ok hafter
    | some (token :: _) =>
        exact .error _ hafter

end Moves

end SimpleC
