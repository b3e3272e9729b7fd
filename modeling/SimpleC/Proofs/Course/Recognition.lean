import SimpleC.Proofs.Course.Asking
import SimpleC.Proofs.Phrase.Form

/-!
# Every recognition follows its course

Each function of the recognizer follows the course of its production. The bounds on
nesting and on the number of statements are no bounds of courses: they are large
enough as long as they exceed the number of tokens ahead, since a statement consumes
at least one token.
-/

namespace SimpleC

namespace Recognizer

variable {ahead tail : List Token} {token : Token}

theorem follows_value (ahead : List Token) :
    FollowsPhrase .value ahead .ofValue value := by
  refine Follows.producing ?_ ?_
  · refine .peek_bind .operand ?_ ?_
    · intro token tail more hahead hmore
      cases hwanted : token.valueExpectation? with
      | none =>
          simp [Choice.items, hwanted] at hmore
      | some wanted =>
          have hsome : token.valueExpectation?.isSome = true := by simp [hwanted]
          simp only [Choice.items, hwanted, Except.ok.injEq] at hmore
          subst hmore
          dsimp only
          refine .discard_consume_bind ?_
          intro other rest hother _
          obtain ⟨rfl, rfl⟩ := List.cons.inj (hahead.symm.trans hother)
          refine .of_bind_pure (.check_bind (asks_valueType ⟨token, hsome⟩) (.pure ?_))
          intro switches symbols earlier hgiven
          exact ⟨⟨token, hsome⟩, rfl, hgiven.2⟩
    · intro token tail violation _ hrefused switches _
      cases hwanted : token.valueExpectation? with
      | none =>
          simp only [Choice.items, hwanted, Except.error.injEq] at hrefused
          rw [hrefused]
      | some wanted =>
          simp [Choice.items, hwanted] at hrefused
  · rintro switches symbols _ answer ⟨value, rfl, hvalue⟩
    have htype := Knowledge.type?_of_typed hvalue
    simpa [Production.type?, Expression.ofTokens?, value.ofToken?_token] using htype

/-- An operator follows its course where one lies ahead. -/
theorem follows_operator (hoperator : token.isOperator = true) :
    FollowsPhrase .operator (token :: tail) .ofOperator operator := by
  obtain ⟨operator, hfound⟩ := Option.isSome_iff_exists.mp hoperator
  obtain ⟨spelling, hspelling, hof⟩ := Option.bind_eq_some_iff.mp hfound
  have hspelled := Operator.ofSpelling?_eq_some_iff.mp hof
  subst hspelled
  have hmore : Choice.sign.items token = .ok [.word operator.spelling] := by
    simp [Choice.items, hfound]
  refine Follows.producing ?_ ?_
  · refine .nextSpelling_bind hspelling hmore (.expect_bind ?_)
    intro other rest hother haccepts
    refine .pure ?_
    intro _ _ _ _
    exact ⟨⟨operator, other, haccepts⟩, rfl, rfl⟩
  · intro _ _ _ _ _
    rfl

theorem follows_expression (ahead : List Token) :
    FollowsPhrase .expression ahead .ofExpression expression := by
  refine Follows.producing ?_ ?_
  · refine .phrase_bind (follows_value ahead) ?_
    intro leftMoves middle _
    refine .peek_bind .operation ?_ ?_
    · intro token tail more hahead hmore
      cases hoperator : token.isOperator with
      | true =>
          simp only [Choice.items, hoperator, if_true, Except.ok.injEq] at hmore
          subst hmore hahead
          simp only [if_true]
          refine .phrase_bind (follows_operator hoperator) ?_
          intro signMoves afterSign _
          refine .phrase_bind (follows_value afterSign) ?_
          intro rightMoves rest _
          refine .of_bind_pure (.check_bind asks_binaryType (.pure ?_))
          intro switches symbols earlier hgiven
          exact hgiven.2
      | false =>
          simp only [Choice.items, hoperator, Bool.false_eq_true, if_false,
            Except.ok.injEq] at hmore
          subst hmore
          simp only [Bool.false_eq_true, if_false]
          refine .pure ?_
          intro switches symbols earlier hgiven
          exact Knowledge.ofExpression_of_ofValue hgiven.2
    · intro token tail violation _ hrefused
      cases hoperator : token.isOperator <;> simp [Choice.items, hoperator] at hrefused
  · rintro switches symbols _ answer ⟨phrase, rfl, hphrase⟩
    have htype := Knowledge.type?_of_typed hphrase
    simpa [Production.type?, phrase.ofTokens?_tokens] using htype

theorem follows_condition (ahead : List Token) :
    FollowsPhrase .condition ahead .ofExpression condition := by
  refine Follows.producing ?_ ?_
  · refine .phrase_bind (follows_expression ahead) ?_
    intro moves middle _
    refine .check_bind asks_checkCondition (.pure ?_)
    intro switches symbols earlier hgiven
    exact hgiven.1.2
  · rintro switches symbols _ answer ⟨phrase, rfl, hphrase⟩
    have htype := Knowledge.type?_of_typed hphrase
    simpa [Production.type?, phrase.ofTokens?_tokens] using htype

/-- The step recognizes a phrase that has no type. -/
abbrev FollowsPlain
    (production : Production)
    (ahead : List Token)
    (step : Switches → Recognizer Unit) : Prop :=
  FollowsPhrase production ahead (fun _ => .nothing) step

/-- A production without a type is entered for a step that follows its course. -/
theorem FollowsPlain.plain
    {production : Production}
    {step : Switches → Recognizer Unit}
    (htype : ∀ symbols? tokens, production.type? symbols? tokens = none)
    (hstep : Follows production [] production.items ahead (.nothing : Knowledge Unit)
      (fun _ => (.nothing : Knowledge Unit)) (fun switches _ => step switches)) :
    FollowsPlain production ahead
      (fun switches => Recognizer.plain switches production (step switches)) :=
  hstep.producing fun _ _ _ _ _ => (htype _ _).symm

/-- A step that ends with a word. -/
theorem Follows.expect
    {ι : Type}
    {production : Production}
    {read ahead : List Token}
    {given : Knowledge ι}
    (spelling : String) :
    Follows production read [.word spelling] ahead given (fun _ => .nothing)
      (fun switches _ => expect switches spelling) :=
  .of_bind_pure (.expect_bind fun _ _ _ _ => .pure fun _ _ _ _ => trivial)

/-- A step that ends with a phrase. -/
theorem Follows.phrase
    {ι : Type}
    {production inner : Production}
    {read : List Token}
    {given : Knowledge ι}
    {step : Switches → Recognizer Unit}
    (hstep : FollowsPlain inner ahead step) :
    Follows production read [.phrase inner] ahead given (fun _ => .nothing)
      (fun switches _ => step switches) :=
  .of_bind_pure (.phrase_bind hstep fun _ _ _ => .pure fun _ _ _ _ => trivial)

theorem follows_emptyStatement (ahead : List Token) :
    FollowsPlain .empty ahead emptyStatement :=
  .plain (fun _ _ => rfl) (.expect ";")

/-- A declaration follows its course where its word lies ahead. -/
theorem follows_declaration (hform : StatementForm.ofToken? token = some .declaration) :
    FollowsPlain .declaration (token :: tail) declaration := by
  obtain ⟨spelling, hspelling, hof⟩ : ∃ spelling, token.spelling? = some spelling ∧
      StatementForm.ofSpelling? spelling = some .declaration := by
    unfold StatementForm.ofToken? at hform
    split at hform
    · cases hform
    · exact Option.bind_eq_some_iff.mp hform
  obtain ⟨type, hnumeric, rfl⟩ := StatementForm.exists_type_of_declaration hof
  have htype : ValueType.ofDeclarator? type.name = some type :=
    ValueType.ofDeclarator?_eq_some_iff.mpr ⟨hnumeric, rfl⟩
  have hmore : Choice.declarator.items token = .ok [.word type.name] := by
    simp [Choice.items, hspelling, htype]
  refine .plain (fun _ _ => rfl) (.nextSpelling_bind hspelling hmore (.expect_bind ?_))
  intro word _ hword _
  obtain ⟨rfl, rfl⟩ := List.cons.inj hword
  refine .identifier_bind ?_
  intro name _ _
  refine .expect_bind ?_
  intro semicolon _ _ _
  exact .of_bind_pure (.check_bind (asks_addVariable hspelling htype)
    (.pure fun _ _ _ _ => trivial))

theorem follows_input (ahead : List Token) : FollowsPlain .input ahead input := by
  refine .plain (fun _ _ => rfl) (.expect_bind ?_)
  intro word _ _ _
  refine .expect_bind ?_
  intro arrows _ _ _
  refine .identifier_bind ?_
  intro name rest _
  have hasks : Follows .input ([] ++ [word] ++ [arrows] ++ [name]) [.check, .word ";"] rest
      (.nothing : Knowledge Unit) (fun _ => .nothing)
      (fun switches _ => variableType switches name.text >>= fun _ => expect switches ";") :=
    .check_bind (asks_variableType rfl) (.expect ";")
  simpa only [discard_eq_bind, bind_assoc, pure_bind] using hasks

theorem follows_outputValue (ahead : List Token) :
    FollowsPlain .outputValue ahead outputValue := by
  refine .plain (fun _ _ => rfl) (.peek_bind .printed ?_ ?_)
  · intro token tail more hahead hmore
    cases hword : token.isSpelled "endl" with
    | true =>
        simp only [Choice.items, hword, if_true, Except.ok.injEq] at hmore
        subst hmore
        exact .expect "endl"
    | false =>
        simp only [Choice.items, hword, Bool.false_eq_true, if_false, Except.ok.injEq] at hmore
        subst hmore
        exact .phrase (follows_value ahead).discard
  · intro token tail violation _ hrefused
    cases hword : token.isSpelled "endl" <;> simp [Choice.items, hword] at hrefused

theorem follows_output (ahead : List Token) : FollowsPlain .output ahead output := by
  refine .plain (fun _ _ => rfl) (.expect_bind ?_)
  intro word _ _ _
  refine .expect_bind ?_
  intro arrows rest _ _
  exact .phrase_bind (follows_outputValue rest) fun _ _ _ => .expect ";"

theorem follows_assignment (ahead : List Token) :
    FollowsPlain .assignment ahead assignment := by
  refine .plain (fun _ _ => rfl) (.identifier_bind ?_)
  intro name _ _
  refine .check_bind (asks_variableType rfl) (.expect_bind ?_)
  intro equals rest _ _
  refine .phrase_bind (follows_expression rest) ?_
  intro moves middle _
  exact .check_bind asks_checkAssignment (.expect ";")

/-- A conditional follows its course if the statements inside it do. -/
theorem follows_conditional
    {statement : Switches → Recognizer Unit}
    (ahead : List Token)
    (hstatement : ∀ inner : List Token, inner.length < ahead.length →
      FollowsPlain .statement inner statement) :
    FollowsPlain .conditional ahead
      (fun switches => conditional switches (statement switches)) := by
  refine .plain (fun _ _ => rfl) (.expect_bind ?_)
  intro word afterWord hword _
  refine .expect_bind ?_
  intro bracket afterBracket hbracket _
  refine .phrase_bind (follows_condition afterBracket).discard ?_
  intro condition afterCondition hcondition
  refine .expect_bind ?_
  intro closing afterClosing hclosing _
  have hinner : afterClosing.length < ahead.length := by
    have hle := hcondition.length_le
    simp only [hword, hbracket, hclosing, List.length_cons] at hle ⊢
    omega
  have hthen : FollowsPlain .thenPart afterClosing
      (fun switches => plain switches .thenPart (statement switches)) :=
    .plain (fun _ _ => rfl) (.phrase (hstatement afterClosing hinner))
  refine .phrase_bind hthen ?_
  intro thenPart afterThen hthenPart
  have hrest : afterThen.length ≤ afterClosing.length := hthenPart.length_le
  refine .phrase (.plain (fun _ _ => rfl) (.peek_bind .otherwise ?_ ?_))
  · intro token tail more hahead hmore
    cases helse : token.isSpelled "else" with
    | true =>
        simp only [Choice.items, helse, if_true, Except.ok.injEq] at hmore
        subst hmore
        refine .expect_bind ?_
        intro other afterElse hother _
        refine .phrase (hstatement afterElse ?_)
        rw [hother, List.length_cons] at hrest
        omega
    | false =>
        simp only [Choice.items, helse, Bool.false_eq_true, if_false, Except.ok.injEq] at hmore
        subst hmore
        exact .pure fun _ _ _ _ => trivial
  · intro token tail violation _ hrefused
    cases helse : token.isSpelled "else" <;> simp [Choice.items, helse] at hrefused

/-- A statement follows its course if those inside it do. -/
theorem follows_statementOf
    {statement : Switches → Recognizer Unit}
    (ahead : List Token)
    (hstatement : ∀ inner : List Token, inner.length < ahead.length →
      FollowsPlain .statement inner statement) :
    FollowsPlain .statement ahead (fun switches => statementOf switches (statement switches)) := by
  refine .plain (fun _ _ => rfl) (.peek_bind .form ?_ ?_)
  · intro token tail more hahead hmore
    cases hform : StatementForm.ofToken? token with
    | none =>
        simp [Choice.items, hform] at hmore
    | some form =>
        simp only [Choice.items, hform, Except.ok.injEq] at hmore
        subst hmore
        cases form with
        | empty =>
            exact .phrase (follows_emptyStatement ahead)
        | declaration =>
            rw [hahead]
            exact .phrase (follows_declaration hform)
        | input =>
            exact .phrase (follows_input ahead)
        | output =>
            exact .phrase (follows_output ahead)
        | assignment =>
            exact .phrase (follows_assignment ahead)
        | conditional =>
            exact .phrase (follows_conditional ahead hstatement)
  · intro token tail violation _ hrefused switches _
    cases hform : StatementForm.ofToken? token with
    | none =>
        simp only [Choice.items, hform, Except.error.injEq] at hrefused
        rw [hrefused]
    | some form =>
        simp [Choice.items, hform] at hrefused

/-- The bound on nesting is large enough if it exceeds the number of tokens ahead. -/
theorem follows_statement
    {depth : Nat}
    (ahead : List Token)
    (hdepth : ahead.length < depth) :
    FollowsPlain .statement ahead (fun switches => statement switches depth) := by
  induction depth generalizing ahead with
  | zero =>
      omega
  | succ depth ih =>
      refine follows_statementOf ahead fun inner hinner => ih inner ?_
      omega

/-- The bound on the number of statements is large enough if it exceeds the number of
tokens ahead. -/
theorem follows_repeated
    {ι : Type}
    {bound count : Nat}
    (read ahead : List Token)
    (given : Knowledge ι)
    (hbound : ahead.length < bound)
    (hcount : ahead.length < count) :
    Follows .statements read [.choice .further] ahead given
      (fun _ => (.nothing : Knowledge Unit))
      (fun switches _ => repeated (statement switches bound) count) := by
  induction count generalizing ι read ahead given with
  | zero =>
      omega
  | succ count ih =>
      refine .peek_bind .further ?_ ?_
      · intro token tail more hahead hmore
        cases hform : (StatementForm.ofToken? token).isSome with
        | true =>
            simp only [Choice.items, hform, if_true, Except.ok.injEq] at hmore
            subst hmore
            simp only [if_true]
            refine .phrase_bind (follows_statement ahead hbound) ?_
            intro moves middle hstatement
            have hlt := hstatement.length_lt_of_statement
            exact ih _ middle _ (by omega) (by omega)
        | false =>
            simp only [Choice.items, hform, Bool.false_eq_true, if_false,
              Except.ok.injEq] at hmore
            subst hmore
            exact .pure fun _ _ _ _ => trivial
      · intro token tail violation _ hrefused
        cases hform : (StatementForm.ofToken? token).isSome <;>
          simp [Choice.items, hform] at hrefused

theorem follows_statements
    {bound : Nat}
    (ahead : List Token)
    (hbound : ahead.length < bound) :
    FollowsPlain .statements ahead (fun switches => statements switches bound) := by
  refine .plain (fun _ _ => rfl) (.phrase_bind (follows_statement ahead hbound) ?_)
  intro moves middle hstatement
  have hlt := hstatement.length_lt_of_statement
  exact follows_repeated _ middle _ (by omega) (by omega)

theorem follows_program
    {bound : Nat}
    (ahead : List Token)
    (hbound : ahead.length < bound) :
    FollowsPlain .program ahead (fun switches => program switches bound) := by
  refine .plain (fun _ _ => rfl) (.expect_bind ?_)
  intro void afterVoid hvoid _
  refine .expect_bind ?_
  intro main afterMain hmain _
  refine .expect_bind ?_
  intro left afterLeft hleft _
  refine .expect_bind ?_
  intro right afterRight hright _
  refine .expect_bind ?_
  intro opening body hopening _
  have hbody : body.length < bound := by
    simp only [hvoid, hmain, hleft, hright, hopening, List.length_cons] at hbound
    omega
  refine .phrase_bind (follows_statements body hbody) ?_
  intro moves middle _
  refine .expect_bind ?_
  intro closing afterClosing _ _
  exact .expect "$"

/-- A program without an answer that ends as the moves do ends like them. -/
theorem Takes.eq
    {switches : Switches}
    {rest? : Option (List Token)}
    {found : Knowledge Unit}
    {state : State}
    {ended moved : EStateM.Result Stop State Unit}
    (h : Takes switches rest? found state ended moved) :
    ended = moved := by
  cases h with
  | ok | error =>
      rfl

theorem nothingMore_of_nil {state : State} (hahead : state.cursor.ahead = []) :
    nothingMore state = .ok () state := by
  have hget : (get : Recognizer State) state = .ok state state := rfl
  rw [nothingMore, bind_of_ok hget, hahead]
  rfl

theorem nothingMore_of_cons {state : State} (hahead : state.cursor.ahead = token :: tail) :
    nothingMore state = .error (.violation (.trailing token)) state := by
  have hget : (get : Recognizer State) state = .ok state state := rfl
  rw [nothingMore, bind_of_ok hget, hahead]
  rfl

/-- The moves on the whole input are what the recognizer does, whatever the switches and
the symbol table are. -/
theorem exists_wholeCourse (tokens : List Token) :
    ∃ moves, WholeCourse tokens moves ∧
      ∀ switches symbols,
        wholeInput switches (tokens.length + 1) (.start tokens symbols) =
          Move.performAll switches moves (.start tokens symbols) := by
  obtain ⟨moves, rest?, hcourse, htakes⟩ :=
    follows_program tokens (Nat.lt_succ_self tokens.length)
  have hprogram := fun switches symbols => htakes switches (.start tokens symbols) rfl
  cases rest? with
  | none =>
      refine ⟨_, .stopped hcourse, ?_⟩
      intro switches symbols
      have hwhole : Takes switches none (.nothing : Knowledge Unit) (.start tokens symbols)
          (wholeInput switches (tokens.length + 1) (.start tokens symbols))
          (Move.performAll switches [.within .program moves] (.start tokens symbols)) :=
        (hprogram switches symbols).bind_of_none
      exact hwhole.eq
  | some rest =>
      cases rest with
      | nil =>
          refine ⟨_, .accepted hcourse, ?_⟩
          intro switches symbols
          have hwhole : Takes switches (some []) (.nothing : Knowledge Unit)
              (.start tokens symbols)
              (wholeInput switches (tokens.length + 1) (.start tokens symbols))
              (Move.performAll switches [.within .program moves] (.start tokens symbols)) := by
            refine (hprogram switches symbols).bind ?_
            intro _ after hafter _ _
            rw [nothingMore_of_nil hafter]
            exact .ok (by rw [hafter]) (.refl _) trivial
          exact hwhole.eq
      | cons token rest =>
          refine ⟨_, .trailing hcourse, ?_⟩
          intro switches symbols
          have hwhole : Takes switches none (.nothing : Knowledge Unit) (.start tokens symbols)
              (wholeInput switches (tokens.length + 1) (.start tokens symbols))
              (Move.performAll switches
                [.within .program moves, .step (.stop (.trailing token))]
                (.start tokens symbols)) := by
            refine (hprogram switches symbols).bind ?_
            intro _ after hafter _ _
            rw [nothingMore_of_cons hafter, Move.performAll_stop]
            exact .error
          exact hwhole.eq

end Recognizer

end SimpleC
