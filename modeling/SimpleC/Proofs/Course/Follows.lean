import SimpleC.Proofs.Course.Basic

/-!
# Following a course

A step of the recognizer follows a course if it does what the moves of that course
do, whatever the switches, the symbol table and the answers of earlier steps are. So
none of these has an influence on which tokens are consumed.

Steps in a row follow a course that is put together from theirs. What is known of
their answers is handed on to the steps that use them.
-/

namespace SimpleC

/-- What is known of an answer under the switches and the symbol table. Further variables
do not make it wrong. -/
structure Knowledge (α : Type) where
  Holds : Switches → SymbolTable → α → Prop
  lasts : ∀ {switches symbols larger answer}, symbols.Within larger →
    Holds switches symbols answer → Holds switches larger answer

namespace Knowledge

variable {α β : Type}

/-- Nothing is known. -/
def nothing : Knowledge α where
  Holds _ _ _ := True
  lasts _ _ := trivial

/-- What is known of two answers. -/
def and (first : Knowledge α) (second : Knowledge β) : Knowledge (α × β) where
  Holds switches symbols answers :=
    first.Holds switches symbols answers.1 ∧ second.Holds switches symbols answers.2
  lasts hwithin h := ⟨first.lasts hwithin h.1, second.lasts hwithin h.2⟩

/-- A type is known, if types are checked. -/
def ofType
    (has : SymbolTable → ValueType → Prop)
    (hlasts : ∀ {symbols larger type}, symbols.Within larger → has symbols type →
      has larger type) :
    Knowledge (Option ValueType) where
  Holds switches symbols answer :=
    (switches.checkTypes = true → ∃ type, has symbols type ∧ answer = some type) ∧
      (switches.checkTypes = false → answer = none)
  lasts hwithin h := by
    refine ⟨fun htypes => ?_, h.2⟩
    obtain ⟨type, htype, hanswer⟩ := h.1 htypes
    exact ⟨type, hlasts hwithin htype, hanswer⟩

/-- The type of an expression is known, if types are checked. -/
def typed (phrase : Expression) : Knowledge (Option ValueType) :=
  ofType (fun symbols type => ∃ warnings, phrase.typing symbols = .ok ⟨type, warnings⟩)
    fun hwithin => by
      rintro ⟨warnings, htyping⟩
      exact ⟨warnings, (phrase.typing_of_within hwithin).eq_ok htyping⟩

/-- The type of a declared variable is known, if types are checked. -/
def declared (name : String) : Knowledge (Option ValueType) :=
  ofType (fun symbols type => ∃ symbol, symbols.lookup name = .ok symbol ∧ symbol.type = type)
    fun hwithin => by
      rintro ⟨symbol, hlookup, htype⟩
      exact ⟨symbol, (hwithin.lookup name).eq_ok hlookup, htype⟩

end Knowledge

namespace Recognizer

variable {ι α β : Type}

/-- A program that started in a state has ended as the moves have, which were to leave
over the rest. -/
inductive Takes
    (switches : Switches)
    (rest? : Option (List Token))
    (found : Knowledge α)
    (state : State) :
    EStateM.Result Stop State α → EStateM.Result Stop State Unit → Prop where
  | ok {answer : α} {after : State}
      (hrest : rest? = some after.cursor.ahead)
      (hgrown : state.symbols.Within after.symbols)
      (hfound : found.Holds switches after.symbols answer) :
      Takes switches rest? found state (.ok answer after) (.ok () after)
  | error {stop : Stop} {after : State} :
      Takes switches rest? found state (.error stop after) (.error stop after)

/-- Given the answers of earlier steps, the step follows the course of the items on the
tokens ahead. -/
def Follows
    (production : Production)
    (read : List Token)
    (items : List Item)
    (ahead : List Token)
    (given : Knowledge ι)
    (found : List Token → Knowledge α)
    (step : Switches → ι → Recognizer α) : Prop :=
  ∃ moves rest?, Course production read items ahead moves rest? ∧
    ∀ (switches : Switches) (state : State) (earlier : ι), state.cursor.ahead = ahead →
      given.Holds switches state.symbols earlier →
        Takes switches rest? (found (read ++ Move.tokens moves)) state
          (step switches earlier state) (Move.performAll switches moves state)

/-- The step enters the production and follows its course on the tokens ahead. -/
def FollowsPhrase
    (production : Production)
    (ahead : List Token)
    (found : List Token → Knowledge α)
    (step : Switches → Recognizer α) : Prop :=
  ∃ moves rest?, Course production [] production.items ahead moves rest? ∧
    ∀ (switches : Switches) (state : State), state.cursor.ahead = ahead →
      Takes switches rest? (found (Move.tokens moves)) state
        (step switches state) ((Move.within production moves).perform switches state)

/-- The step asks what is asked at a mark of the production. -/
def Asks
    (production : Production)
    (read : List Token)
    (given : Knowledge ι)
    (found : Knowledge α)
    (step : Switches → ι → Recognizer α) : Prop :=
  ∀ (switches : Switches) (state : State) (earlier : ι),
    given.Holds switches state.symbols earlier →
      Takes switches (some state.cursor.ahead) found state
        (step switches earlier state) (Move.performAll switches (production.checks read) state)

variable
    {switches : Switches}
    {rest? further? : Option (List Token)}
    {middle : List Token}
    {first : Knowledge α}
    {second : Knowledge β}
    {state : State}

/-- Programs in a row end as the moves in a row. -/
theorem Takes.bind
    {step : Recognizer α}
    {next : α → Recognizer β}
    {moves further : Recognizer Unit}
    (hstep : Takes switches (some middle) first state (step state) (moves state))
    (hnext : ∀ answer after, after.cursor.ahead = middle → state.symbols.Within after.symbols →
      first.Holds switches after.symbols answer →
        Takes switches further? second after (next answer after) (further after)) :
    Takes switches further? second state ((step >>= next) state)
      ((moves >>= fun _ => further) state) := by
  generalize hs : step state = ended, hm : moves state = moved at hstep
  cases hstep with
  | error =>
      rw [bind_of_error hs, bind_of_error hm]
      exact .error
  | @ok answer after hrest hgrown hfound =>
      have hsecond := hnext answer after (Option.some.inj hrest).symm hgrown hfound
      rw [bind_of_ok hs, bind_of_ok hm]
      generalize next answer after = ended, further after = moved at hsecond ⊢
      cases hsecond with
      | error =>
          exact .error
      | ok hrest' hgrown' hfound' =>
          exact .ok hrest' (hgrown.trans hgrown') hfound'

/-- Where nothing is left over, the first program is the last one. -/
theorem Takes.bind_of_none
    {step : Recognizer α}
    {next : α → Recognizer β}
    {moves further : Recognizer Unit}
    (hstep : Takes switches none first state (step state) (moves state)) :
    Takes switches further? second state ((step >>= next) state)
      ((moves >>= fun _ => further) state) := by
  generalize hs : step state = ended, hm : moves state = moved at hstep
  cases hstep with
  | error =>
      rw [bind_of_error hs, bind_of_error hm]
      exact .error
  | ok hrest =>
      cases hrest

end Recognizer

namespace Move

variable {switches : Switches} {state : State}

theorem performAll_append (left right : List Move) :
    performAll switches (left ++ right) =
      (do
        performAll switches left
        performAll switches right) := by
  induction left with
  | nil =>
      rw [List.nil_append, performAll, pure_bind]
  | cons move rest ih =>
      rw [List.cons_append, performAll, performAll, ih, bind_assoc]

theorem performAll_singleton (move : Move) :
    performAll switches [move] = perform switches move := by
  show (perform switches move >>= fun _ => pure ()) = _
  exact bind_pure _

theorem performAll_stop (violation : Violation) (rest : List Move) :
    performAll switches (step (.stop violation) :: rest) state =
      .error (.violation violation) state :=
  rfl

theorem performAll_read (token : Token) (rest : List Move) :
    performAll switches (step (.read token) :: rest) state =
      performAll switches rest (state.read switches token) :=
  rfl

end Move

namespace Recognizer

variable
    {ι α β : Type}
    {production inner : Production}
    {read ahead tail : List Token}
    {items : List Item}
    {given : Knowledge ι}
    {found : List Token → Knowledge β}

/-- A step without items gives its answer. -/
theorem Follows.pure
    {answer : Switches → ι → β}
    (hanswer : ∀ switches symbols earlier, given.Holds switches symbols earlier →
      (found read).Holds switches symbols (answer switches earlier)) :
    Follows production read [] ahead given found
      (fun switches earlier => pure (answer switches earlier)) := by
  refine ⟨[], some ahead, .done, ?_⟩
  intro switches state earlier hahead hgiven
  rw [Move.tokens_nil, List.append_nil]
  exact .ok (by rw [hahead]) (.refl _) (hanswer switches _ earlier hgiven)

/-- A step that is followed by nothing. -/
theorem Follows.of_bind_pure
    {step : Switches → ι → Recognizer β}
    (h : Follows production read items ahead given found
      (fun switches earlier => step switches earlier >>= fun answer => Pure.pure answer)) :
    Follows production read items ahead given found step := by
  simpa only [bind_pure] using h

/-- A step that ends where its course stops. -/
theorem Follows.of_violation
    {violation : Violation}
    {step : Switches → ι → Recognizer β}
    (hcourse : Course production read items ahead [.step (.stop violation)] none)
    (hstep : ∀ (switches : Switches) (state : State) (earlier : ι), state.cursor.ahead = ahead →
      step switches earlier state = .error (.violation violation) state) :
    Follows production read items ahead given found step := by
  refine ⟨_, none, hcourse, ?_⟩
  intro switches state earlier hahead hgiven
  rw [Move.performAll_stop, hstep switches state earlier hahead]
  exact .error

/-- A token that is wanted is consumed, if it lies ahead. -/
theorem Follows.consume_bind
    {wanted : Expectation}
    {next : Switches → ι → Token → Recognizer β}
    (hnext : ∀ token tail, ahead = token :: tail → wanted.accepts token = true →
      Follows production (read ++ [token]) items tail given found
        (fun switches earlier => next switches earlier token)) :
    Follows production read (.token wanted :: items) ahead given found
      (fun switches earlier => consume switches wanted >>= next switches earlier) := by
  have hconsumed : ∀ {switches : Switches} {state : State} {token : Token} {cursor : Cursor},
      state.cursor.consume wanted = .ok (token, cursor) →
        consume switches wanted state =
          .ok token (({ state with cursor := cursor } : State).append switches (.leaf token)) := by
    intro switches state token cursor hcursor
    show (obey (state.cursor.consume wanted) >>= _) state = _
    rw [hcursor]
    rfl
  have hrefused : ∀ {switches : Switches} {state : State} {violation : Violation},
      state.cursor.consume wanted = .error violation →
        consume switches wanted state = .error (.violation violation) state := by
    intro switches state violation hcursor
    show (obey (state.cursor.consume wanted) >>= _) state = _
    rw [hcursor]
    rfl
  cases hcase : ahead with
  | nil =>
      refine of_violation .missing fun switches state earlier hahead =>
        bind_of_error (hrefused ?_)
      simp only [Cursor.consume, hahead]
  | cons token tail =>
      cases haccepts : wanted.accepts token with
      | false =>
          refine of_violation (.unexpected haccepts) fun switches state earlier hahead =>
            bind_of_error (hrefused ?_)
          simp only [Cursor.consume, hahead, haccepts, Bool.false_eq_true, if_false]
      | true =>
          obtain ⟨moves, rest?, hcourse, htakes⟩ := hnext token tail hcase haccepts
          refine ⟨_, rest?, .token haccepts hcourse, ?_⟩
          intro switches state earlier hahead hgiven
          have hstep : consume switches wanted state =
              .ok token (state.read switches token) := by
            rw [State.read, hahead]
            refine hconsumed ?_
            simp only [Cursor.consume, hahead, haccepts, if_true]
            rfl
          have hrest := htakes switches (state.read switches token) earlier (by simp [hahead])
            (by rw [← State.symbols_findings, State.findings_read]; exact hgiven)
          dsimp only at hrest ⊢
          rw [Move.performAll_read, bind_of_ok hstep, Move.tokens_read, List.append_cons]
          generalize next switches earlier token (state.read switches token) = ended,
            Move.performAll switches moves (state.read switches token) = moved at hrest ⊢
          cases hrest with
          | error =>
              exact .error
          | ok hrest hgrown hfound =>
              rw [← State.symbols_findings, State.findings_read] at hgrown
              exact .ok hrest hgrown hfound

theorem Follows.discard_consume_bind
    {wanted : Expectation}
    {next : Switches → ι → Unit → Recognizer β}
    (hnext : ∀ token tail, ahead = token :: tail → wanted.accepts token = true →
      Follows production (read ++ [token]) items tail given found
        (fun switches earlier => next switches earlier ())) :
    Follows production read (.token wanted :: items) ahead given found
      (fun switches earlier =>
        Functor.discard (consume switches wanted) >>= next switches earlier) := by
  have hconsume : Follows production read (.token wanted :: items) ahead given found
      (fun switches earlier => consume switches wanted >>= fun _ =>
        next switches earlier ()) := consume_bind hnext
  simpa only [discard_eq_bind, bind_assoc, pure_bind] using hconsume

/-- A word is consumed, if it lies ahead. -/
theorem Follows.expect_bind
    {spelling : String}
    {next : Switches → ι → Unit → Recognizer β}
    (hnext : ∀ token tail, ahead = token :: tail → token.isSpelled spelling = true →
      Follows production (read ++ [token]) items tail given found
        (fun switches earlier => next switches earlier ())) :
    Follows production read (.word spelling :: items) ahead given found
      (fun switches earlier => expect switches spelling >>= next switches earlier) := by
  exact discard_consume_bind hnext

/-- An identifier is consumed, if one lies ahead. -/
theorem Follows.identifier_bind
    {next : Switches → ι → String → Recognizer β}
    (hnext : ∀ token tail, ahead = token :: tail →
      Follows production (read ++ [token]) items tail given found
        (fun switches earlier => next switches earlier token.text)) :
    Follows production read (.identifier :: items) ahead given found
      (fun switches earlier => identifier switches >>= next switches earlier) := by
  have hconsume : Follows production read (.identifier :: items) ahead given found
      (fun switches earlier => consume switches (.ofKind .identifier) >>= fun token =>
        next switches earlier token.text) :=
    consume_bind fun token tail hahead _ => hnext token tail hahead
  simpa only [identifier, bind_assoc, pure_bind] using hconsume

/-- Where there is a choice, the next token decides how the step goes on. -/
theorem Follows.peek_bind
    (choice : Choice)
    {next : Switches → ι → Token → Recognizer β}
    (hnext : ∀ token tail more, ahead = token :: tail → choice.items token = .ok more →
      Follows production read (more ++ items) ahead given found
        (fun switches earlier => next switches earlier token))
    (hrefused : ∀ token tail violation, ahead = token :: tail →
      choice.items token = .error violation →
        ∀ switches earlier, next switches earlier token = violate violation) :
    Follows production read (.choice choice :: items) ahead given found
      (fun switches earlier => peek >>= next switches earlier) := by
  cases hcase : ahead with
  | nil =>
      refine of_violation .undecided fun switches state earlier hahead => bind_of_error ?_
      show obey state.cursor.peek state = _
      rw [Cursor.peek, hahead]
      rfl
  | cons token tail =>
      have hpeek : ∀ state : State, state.cursor.ahead = token :: tail →
          peek state = .ok token state := by
        intro state hahead
        show obey state.cursor.peek state = _
        rw [Cursor.peek, hahead]
        rfl
      cases hitems : choice.items token with
      | error violation =>
          refine of_violation (.refused hitems) fun switches state earlier hahead => ?_
          rw [bind_of_ok (hpeek state hahead), hrefused token tail violation hcase hitems]
          rfl
      | ok more =>
          obtain ⟨moves, rest?, hcourse, htakes⟩ := hnext token tail more hcase hitems
          rw [hcase] at hcourse htakes
          refine ⟨moves, rest?, .choice hitems hcourse, ?_⟩
          intro switches state earlier hahead hgiven
          dsimp only
          rw [bind_of_ok (hpeek state hahead)]
          exact htakes switches state earlier hahead hgiven

/-- The word that is seen ahead is known to be one that the choice allows. -/
theorem Follows.nextSpelling_bind
    {choice : Choice}
    {more : List Item}
    {token : Token}
    {spelling : String}
    {next : Switches → ι → String → Recognizer β}
    (hspelling : token.spelling? = some spelling)
    (hmore : choice.items token = .ok more)
    (hnext : Follows production read (more ++ items) (token :: tail) given found
      (fun switches earlier => next switches earlier spelling)) :
    Follows production read (.choice choice :: items) (token :: tail) given found
      (fun switches earlier => nextSpelling >>= next switches earlier) := by
  simp only [nextSpelling, bind_assoc]
  refine peek_bind choice ?_ ?_
  · intro _ _ other hahead hother
    obtain ⟨rfl, rfl⟩ := List.cons.inj hahead
    rw [hmore] at hother
    cases hother
    simpa only [hspelling, pure_bind] using hnext
  · intro _ _ violation hahead hother
    obtain ⟨rfl, rfl⟩ := List.cons.inj hahead
    rw [hmore] at hother
    cases hother

/-- What is asked at a mark is asked before the step goes on. -/
theorem Follows.check_bind
    {first : Knowledge α}
    {step : Switches → ι → Recognizer α}
    {next : Switches → ι → α → Recognizer β}
    (hstep : Asks production read given first step)
    (hnext : Follows production read items ahead (given.and first) found
      (fun switches earlier => next switches earlier.1 earlier.2)) :
    Follows production read (.check :: items) ahead given found
      (fun switches earlier => step switches earlier >>= next switches earlier) := by
  obtain ⟨moves, rest?, hcourse, htakes⟩ := hnext
  refine ⟨production.checks read ++ moves, rest?, .check hcourse, ?_⟩
  intro switches state earlier hahead hgiven
  rw [Move.performAll_append, Move.tokens_append, Production.tokens_checks, List.nil_append]
  refine (hstep switches state earlier hgiven).bind ?_
  intro answer after hafter hgrown hfirst
  exact htakes switches after (earlier, answer) (hafter.trans hahead)
    ⟨given.lasts hgrown hgiven, hfirst⟩

/-- The answer of a phrase may be discarded. -/
theorem FollowsPhrase.discard
    {first : List Token → Knowledge α}
    {step : Switches → Recognizer α}
    (hstep : FollowsPhrase inner ahead first step) :
    FollowsPhrase inner ahead (fun _ => (.nothing : Knowledge Unit))
      (fun switches => Functor.discard (step switches)) := by
  obtain ⟨moves, rest?, hcourse, htakes⟩ := hstep
  refine ⟨moves, rest?, hcourse, ?_⟩
  intro switches state hahead
  have hended := htakes switches state hahead
  dsimp only
  rw [discard_eq_bind]
  generalize hs : step switches state = ended,
    (Move.within inner moves).perform switches state = moved at hended
  cases hended with
  | error =>
      rw [bind_of_error hs]
      exact .error
  | ok hrest hgrown =>
      rw [bind_of_ok hs]
      exact .ok hrest hgrown trivial

/-- A phrase is recognized before the step goes on. -/
theorem Follows.phrase_bind
    {first : List Token → Knowledge α}
    {step : Switches → Recognizer α}
    {next : Switches → ι → α → Recognizer β}
    (hstep : FollowsPhrase inner ahead first step)
    (hnext : ∀ moves middle, Course inner [] inner.items ahead moves (some middle) →
      Follows production (read ++ Move.tokens moves) items middle
        (given.and (first (Move.tokens moves))) found
        (fun switches earlier => next switches earlier.1 earlier.2)) :
    Follows production read (.phrase inner :: items) ahead given found
      (fun switches earlier => step switches >>= next switches earlier) := by
  obtain ⟨moves, rest?, hcourse, htakes⟩ := hstep
  cases rest? with
  | none =>
      refine ⟨_, none, .broken hcourse, ?_⟩
      intro switches state earlier hahead hgiven
      exact (htakes switches state hahead).bind_of_none
  | some middle =>
      obtain ⟨further, rest?, hrest, hfurther⟩ := hnext moves middle hcourse
      refine ⟨_, rest?, .phrase hcourse hrest, ?_⟩
      intro switches state earlier hahead hgiven
      rw [Move.tokens_within, ← List.append_assoc]
      refine (htakes switches state hahead).bind ?_
      intro answer after hafter hgrown hfirst
      exact hfurther switches after (earlier, answer) hafter
        ⟨given.lasts hgrown hgiven, hfirst⟩

/-- A production is entered for a step that follows its course. -/
theorem Follows.producing
    {step : Switches → Recognizer β}
    {typeOf : β → Option ValueType}
    (hstep : Follows production [] production.items ahead (.nothing : Knowledge Unit) found
      (fun switches _ => step switches))
    (htype : ∀ switches symbols tokens answer,
      (found tokens).Holds switches symbols answer →
        typeOf answer = production.type? (switches.typesUnder symbols) tokens) :
    FollowsPhrase production ahead found
      (fun switches => producing switches production typeOf (step switches)) := by
  obtain ⟨moves, rest?, hcourse, htakes⟩ := hstep
  refine ⟨moves, rest?, hcourse, ?_⟩
  intro switches state hahead
  have hinner := htakes switches (state.enter production) () (by simpa using hahead) trivial
  dsimp only at hinner ⊢
  generalize hs : step switches (state.enter production) = ended,
    hm : Move.performAll switches moves (state.enter production) = moved at hinner
  cases hinner with
  | error =>
      rw [producing_of_error hs, Move.perform_within_of_error hm]
      exact .error
  | @ok answer after hrest hgrown hfound =>
      rw [List.nil_append] at hfound
      rw [producing_of_ok hs, Move.perform_within_of_ok hm,
        ← htype switches after.symbols _ answer hfound]
      refine .ok (by simpa using hrest) ?_ ?_
      · rw [State.symbols_leave]
        exact hgrown
      · rw [State.symbols_leave]
        exact hfound

end Recognizer

end SimpleC
