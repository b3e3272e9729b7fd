import SimpleC.Proofs.Course.Run

/-!
# Twin states

Moves read neither the tokens ahead nor the recorded nodes. So a relation between
states that each single change of a state keeps is kept by all moves, performed in
both states under switches that ask the same. In particular what a run amounts to is
told by its moves alone, not by the tokens that lie ahead while they are performed.
-/

namespace SimpleC

/-- The same is asked under both switches, and each single change of two related states
leads to related states. -/
structure Move.Keeps (switches other : Switches) (Twins : State → State → Prop) : Prop where
  declare : other.declare = switches.declare
  checkTypes : other.checkTypes = switches.checkTypes
  symbols {state twin : State} : Twins state twin → twin.symbols = state.symbols
  read {state twin : State} (token : Token) :
    Twins state twin → Twins (state.read switches token) (twin.read other token)
  learn {state twin : State} (symbols : SymbolTable) (warnings : List Warning) :
    Twins state twin → Twins (state.learn symbols warnings) (twin.learn symbols warnings)
  enter {state twin : State} (production : Production) :
    Twins state twin → Twins (state.enter production) (twin.enter production)
  leave {state twin after twinAfter : State} (production : Production)
    (type? : Option ValueType) :
    Twins state twin → Twins after twinAfter →
      Twins (after.leave switches production type? state.children)
        (twinAfter.leave other production type? twin.children)

/-- Two programs have ended alike, in related states. -/
inductive State.EndTwins (Twins : State → State → Prop) :
    EStateM.Result Stop State Unit → EStateM.Result Stop State Unit → Prop
  | ok {state twin : State} (htwins : Twins state twin) :
      EndTwins Twins (.ok () state) (.ok () twin)
  | error {stop : Stop} {state twin : State} (htwins : Twins state twin) :
      EndTwins Twins (.error stop state) (.error stop twin)

/-- What is asked depends on the switches for declarations and types only. -/
theorem Demand.answer_congr
    {switches other : Switches}
    (hdeclare : other.declare = switches.declare)
    (htypes : other.checkTypes = switches.checkTypes)
    (demand : Demand)
    (symbols : SymbolTable) :
    demand.answer other symbols = demand.answer switches symbols := by
  cases demand with
  | declaration type name =>
      simp only [answer, hdeclare]
  | lookup | value | operation | assignment | condition =>
      simp only [answer, htypes]

section Keeps

variable
    {switches other : Switches}
    {Twins : State → State → Prop}
    {state twin : State}

theorem State.EndTwins.bind
    {step next twinStep twinNext : Recognizer Unit}
    (hstep : EndTwins Twins (step state) (twinStep twin))
    (hnext : ∀ {state twin}, Twins state twin → EndTwins Twins (next state) (twinNext twin)) :
    EndTwins Twins ((step >>= fun _ => next) state) ((twinStep >>= fun _ => twinNext) twin) := by
  generalize hs : step state = ended, ht : twinStep twin = twinEnded at hstep
  cases hstep with
  | ok htwins =>
      rw [bind_of_ok hs, bind_of_ok ht]
      exact hnext htwins
  | error htwins =>
      rw [bind_of_error hs, bind_of_error ht]
      exact .error htwins

namespace Move.Keeps

theorem perform_step
    (hkeeps : Move.Keeps switches other Twins)
    (single : Step)
    (htwins : Twins state twin) :
    State.EndTwins Twins (single.perform switches state) (single.perform other twin) := by
  cases single with
  | read token =>
      exact .ok (hkeeps.read token htwins)
  | stop violation =>
      exact .error htwins
  | check demand =>
      rw [Step.perform_check, Step.perform_check, hkeeps.symbols htwins,
        Demand.answer_congr hkeeps.declare hkeeps.checkTypes]
      cases demand.answer switches state.symbols with
      | ok found =>
          exact .ok (hkeeps.learn found.1 found.2 htwins)
      | error violation =>
          exact .error htwins

theorem perform_within
    (hkeeps : Move.Keeps switches other Twins)
    {production : Production}
    {moves : List Move}
    (htwins : Twins state twin)
    (hmoves : State.EndTwins Twins (performAll switches moves (state.enter production))
      (performAll other moves (twin.enter production))) :
    State.EndTwins Twins (perform switches (.within production moves) state)
      (perform other (.within production moves) twin) := by
  generalize hs : performAll switches moves (state.enter production) = ended,
    ht : performAll other moves (twin.enter production) = twinEnded at hmoves
  cases hmoves with
  | error hafter =>
      rw [perform_within_of_error hs, perform_within_of_error ht]
      exact .error (hkeeps.leave production none htwins hafter)
  | @ok after twinAfter hafter =>
      have htypes : other.typesUnder twinAfter.symbols = switches.typesUnder after.symbols := by
        rw [Switches.typesUnder, Switches.typesUnder, hkeeps.checkTypes, hkeeps.symbols hafter]
      rw [perform_within_of_ok hs, perform_within_of_ok ht, htypes]
      exact .ok (hkeeps.leave production _ htwins hafter)

mutual

theorem perform_move
    (hkeeps : Move.Keeps switches other Twins)
    (move : Move)
    {state twin : State}
    (htwins : Twins state twin) :
    State.EndTwins Twins (perform switches move state) (perform other move twin) := by
  cases move with
  | step single =>
      exact hkeeps.perform_step single htwins
  | within production moves =>
      exact hkeeps.perform_within htwins
        (hkeeps.perform_moves moves (hkeeps.enter production htwins))

/-- Moves that are performed in related states end alike, in related states. -/
theorem perform_moves
    (hkeeps : Move.Keeps switches other Twins)
    (moves : List Move)
    {state twin : State}
    (htwins : Twins state twin) :
    State.EndTwins Twins (performAll switches moves state) (performAll other moves twin) := by
  cases moves with
  | nil =>
      exact .ok htwins
  | cons move rest =>
      exact (hkeeps.perform_move move htwins).bind fun hafter => hkeeps.perform_moves rest hafter

end

end Move.Keeps

end Keeps

/-- The states differ at most in the tokens that lie ahead. -/
def State.SameButAhead (state twin : State) : Prop :=
  ∃ ahead, twin = { state with cursor := ⟨state.cursor.position, ahead⟩ }

theorem Move.keeps_sameButAhead (switches : Switches) :
    Move.Keeps switches switches State.SameButAhead where
  declare := rfl
  checkTypes := rfl
  symbols := by
    rintro state _ ⟨ahead, rfl⟩
    rfl
  read := by
    rintro state _ token ⟨ahead, rfl⟩
    refine ⟨ahead.tail, ?_⟩
    unfold State.read State.append
    split <;> rfl
  learn := by
    rintro state _ symbols warnings ⟨ahead, rfl⟩
    exact ⟨ahead, rfl⟩
  enter := by
    rintro state _ production ⟨ahead, rfl⟩
    exact ⟨ahead, rfl⟩
  leave := by
    rintro state _ after _ production type? ⟨_, rfl⟩ ⟨ahead, rfl⟩
    refine ⟨ahead, ?_⟩
    unfold State.leave State.append
    split <;> rfl

/-- What a run amounts to does not depend on the tokens that lie ahead in its last state. -/
theorem Run.ofResult_eq_of_endTwins
    {ended twinEnded : EStateM.Result Stop State Unit}
    (h : State.EndTwins State.SameButAhead ended twinEnded) :
    ofResult twinEnded = ofResult ended := by
  cases h with
  | ok htwins =>
      obtain ⟨ahead, rfl⟩ := htwins
      rfl
  | @error stop _ _ htwins =>
      obtain ⟨ahead, rfl⟩ := htwins
      cases stop with
      | violation | fault =>
          rfl

/-- What moves amount to from the start on does not depend on the tokens ahead. -/
theorem Run.ofResult_performAll_start
    (switches : Switches)
    (symbols : SymbolTable)
    (moves : List Move)
    (tokens others : List Token) :
    ofResult (Move.performAll switches moves (.start others symbols)) =
      ofResult (Move.performAll switches moves (.start tokens symbols)) :=
  ofResult_eq_of_endTwins
    ((Move.keeps_sameButAhead switches).perform_moves moves ⟨others, rfl⟩)

end SimpleC
