import SimpleC.Proofs.Course.Extension
import SimpleC.Proofs.Course.Following
import SimpleC.Proofs.Course.Parts

/-!
# Programs in a row

After the statements of an accepted program the recognizer is where it is at the
beginning of a body, also when the last of them is a conditional without an `else`. All
that is handed on to further statements is the symbol table. So to check the statements
of two programs in a row is to check the second program with the variables of the first
one.
-/

namespace SimpleC

/-- The spellings of the bare tokens with which a statement can begin. -/
def startSpellings : List String :=
  [";", "int", "real", "cin", "cout", "if"]

/-- The tokens with which a statement can begin. -/
def Token.BeginsStatement (token : Token) : Prop :=
  token.kind = .identifier ∨ ∃ spelling ∈ startSpellings, token.isSpelled spelling = true

instance : DecidablePred Token.BeginsStatement := fun _ =>
  inferInstanceAs (Decidable (_ ∨ _))

section Starters

variable {token : Token}

/-- These are the tokens for which there is a form of a statement. -/
theorem Token.beginsStatement_iff :
    token.BeginsStatement ↔ (StatementForm.ofToken? token).isSome = true := by
  constructor
  · rintro (hkind | ⟨spelling, hmem, hspelled⟩)
    · simp [StatementForm.ofToken?, hkind]
    · have hspelling : token.spelling? = some spelling := by
        simpa [isSpelled] using hspelled
      have hforms : ∀ spelling ∈ startSpellings,
          (StatementForm.ofSpelling? spelling).isSome = true := by decide
      rw [StatementForm.ofToken?_of_spelling? hspelling]
      exact hforms spelling hmem
  · intro hsome
    obtain ⟨form, hform⟩ := Option.isSome_iff_exists.mp hsome
    by_cases hkind : token.kind = .identifier
    · exact .inl hkind
    · rw [StatementForm.ofToken?, if_neg hkind, Option.bind_eq_some_iff] at hform
      obtain ⟨spelling, hspelling, hform⟩ := hform
      have hall : form.spellings ⊆ startSpellings := by
        cases form <;> decide
      refine .inr ⟨spelling, ?_, by simp [isSpelled, hspelling]⟩
      exact hall (StatementForm.ofSpelling?_eq_some_iff.mp hform)

/-- A token that begins a statement is no operator. -/
theorem StatementForm.isOperator_eq_false
    (hform : (ofToken? token).isSome = true) :
    token.isOperator = false := by
  cases hspelling : token.spelling? with
  | none =>
      simp [Token.isOperator, hspelling]
  | some spelling =>
      cases hoperator : Operator.ofSpelling? spelling with
      | none =>
          simp [Token.isOperator, hspelling, hoperator]
      | some operator =>
          rw [Operator.ofSpelling?_eq_some_iff] at hoperator
          subst hoperator
          rw [ofToken?_of_spelling? hspelling] at hform
          cases operator <;> cases hform

/-- The optional parts that are missing before the end of a body are missing before a further
statement. -/
theorem continues_of_beginsStatement
    {closing : Token}
    {rest others : List Token}
    (hclosing : closing.isSpelled "\x7d" = true)
    (hstarter : (StatementForm.ofToken? token).isSome = true) :
    Continues (closing :: rest) (token :: others) := by
  intro choice first tail hchoice hrest hitems
  obtain ⟨rfl, _⟩ := List.cons.inj hrest
  refine ⟨token, others, rfl, ?_⟩
  have hspelling : closing.spelling? = some "\x7d" := by
    simpa [Token.isSpelled] using hclosing
  cases choice with
  | further =>
      exact absurd rfl hchoice
  | otherwise =>
      obtain ⟨form, hform⟩ := Option.isSome_iff_exists.mp hstarter
      simp [Choice.items, StatementForm.isSpelled_else hform]
  | operation =>
      simp [Choice.items, StatementForm.isOperator_eq_false hstarter]
  | form | declarator | printed | operand | sign =>
      simp only [Choice.items] at hitems
      split at hitems <;> cases hitems

end Starters

section Bodies

variable
    {production : Production}
    {read ahead rest body first : List Token}
    {items : List Item}
    {moves inner : List Move}
    {rest? : Option (List Token)}

/-- The words of a program before its body. -/
def openingWords : List String :=
  ["void", "main", "(", ")", "\x7b"]

/-- The words of a program after its body. -/
def closingWords : List String :=
  ["\x7d", "$"]

/-- The items of a program from its body on. -/
def bodyItems : List Item :=
  .phrase .statements :: closingWords.map Item.word

/-- The moves that read words. -/
def Move.readWords (words : List String) : List Move :=
  (words.map Token.bare).map (.step ∘ .read)

theorem Move.stepsAll_readWords (words : List String) :
    stepsAll (readWords words) = (words.map Token.bare).map .read :=
  stepsAll_map_read _

/-- The steps on a whole program, from those on its body. -/
theorem Move.stepsAll_program (inner : List Move) (rest? : Option (List Token)) :
    stepsAll (.within .program (readWords openingWords ++ inner) :: afterProgram rest?) =
      (openingWords.map Token.bare).map .read ++
        (stepsAll inner ++ stepsAll (afterProgram rest?)) := by
  rw [stepsAll_within, stepsAll_append, stepsAll_readWords, List.append_assoc]

/-- A word accepts its bare token. -/
theorem Expectation.accepts_bare (spelling : String) :
    (spelled spelling).accepts (.bare spelling) = true :=
  (Word.ofSpelling spelling).accepted

/-- Words that stand ahead are read. -/
theorem Course.words_iff (words : List String) :
    Course production read (words.map Item.word ++ items) (words.map Token.bare ++ ahead) moves
        rest? ↔
      ∃ further, Course production (read ++ words.map Token.bare) items ahead further rest? ∧
        moves = Move.readWords words ++ further := by
  induction words generalizing read moves with
  | nil =>
      simp [Move.readWords]
  | cons word words ih =>
      have haccepts := Expectation.accepts_bare word
      constructor
      · intro h
        cases h with
        | unexpected hrefused =>
            rw [haccepts] at hrefused
            cases hrefused
        | token _ hrest =>
            obtain ⟨further, hfurther, rfl⟩ := ih.mp hrest
            exact ⟨further, by simpa using hfurther, rfl⟩
      · rintro ⟨further, hfurther, rfl⟩
        exact .token haccepts (ih.mpr ⟨further, by simpa using hfurther, rfl⟩)

/-- Words at the end of a production consume as many tokens. -/
theorem Course.exists_of_words
    {words : List String}
    (h : Course production read (words.map Item.word) ahead moves (some rest)) :
    ∃ consumed, ahead = consumed ++ rest ∧ consumed.length = words.length ∧
      moves = consumed.map (.step ∘ .read) := by
  induction words generalizing read ahead moves with
  | nil =>
      cases h
      exact ⟨[], rfl, rfl, rfl⟩
  | cons word words ih =>
      cases h with
      | @token _ _ _ _ _ _ _ token _ hrest =>
          obtain ⟨consumed, rfl, hlength, rfl⟩ := ih hrest
          exact ⟨token :: consumed, rfl, congrArg Nat.succ hlength, rfl⟩

/-- The moves on a whole program are told from its body on. -/
theorem wholeCourse_programOf_iff :
    WholeCourse (programOf body) moves ↔
      ∃ inner rest?,
        Course .program (openingWords.map Token.bare) bodyItems
          (body ++ closingWords.map Token.bare) inner rest? ∧
        moves =
          .within .program (Move.readWords openingWords ++ inner) :: Move.afterProgram rest? := by
  rw [wholeCourse_iff]
  have hwords : ∀ moves rest?,
      Course .program [] Production.program.items (programOf body) moves rest? ↔ _ :=
    fun moves rest? => Course.words_iff openingWords
  constructor
  · rintro ⟨moves, rest?, hcourse, rfl⟩
    obtain ⟨inner, hinner, rfl⟩ := (hwords moves rest?).mp hcourse
    exact ⟨inner, rest?, hinner, rfl⟩
  · rintro ⟨inner, rest?, hinner, rfl⟩
    exact ⟨_, rest?, (hwords _ rest?).mpr ⟨inner, hinner, rfl⟩, rfl⟩

/-- The body of an accepted program ends before its closing words. -/
theorem Course.exists_body_of_accepted
    (h : Course .program read bodyItems (first ++ closingWords.map Token.bare) inner (some [])) :
    ∃ moves,
      Course .statements [] Production.statements.items (first ++ closingWords.map Token.bare)
        moves (some (closingWords.map Token.bare)) ∧
      Move.tokens moves = first ∧
      inner = .within .statements moves :: Move.readWords closingWords := by
  cases h with
  | @phrase _ _ _ _ middle _ moves further _ hinner hrest =>
      obtain ⟨consumed, hmiddle, hlength, rfl⟩ := hrest.exists_of_words
      rw [List.append_nil] at hmiddle
      subst hmiddle
      obtain ⟨hfirst, rfl⟩ := List.append_inj' (hinner.ahead_eq rfl)
        (by rw [hlength, List.length_map])
      exact ⟨moves, hinner, hfirst.symm, rfl⟩

/-- Statements that have come to their end may stand before those of another body. -/
theorem Course.append_body
    {starter : Token}
    {others : List Token}
    (hfirst : Course .statements [] Production.statements.items ahead moves (some rest))
    (hcontinues : Continues rest (starter :: others))
    (hstarter : (StatementForm.ofToken? starter).isSome = true)
    (h : Course .program read (.phrase .statements :: items) (starter :: others) inner rest?) :
    ∃ further,
      Course .program read (.phrase .statements :: items)
        (Move.tokens moves ++ starter :: others) further rest? ∧
      Move.stepsAll further = Move.stepsAll moves ++ Move.stepsAll inner := by
  cases h with
  | broken hinner =>
      refine ⟨_, .broken (hfirst.append_statements (.inl rfl) hcontinues hstarter hinner), ?_⟩
      simp
  | phrase hinner hrest =>
      refine ⟨_, .phrase (hfirst.append_statements (.inl rfl) hcontinues hstarter hinner)
        (hrest.of_read (fun _ => rfl) _), ?_⟩
      simp

end Bodies

namespace Step

variable {switches : Switches} {steps : List Step} {findings : Findings}

/-- Nothing comes of tokens that are only consumed. -/
theorem outcome_map_read (consumed : List Token) :
    outcome switches (consumed.map read) findings = ⟨none, consumed.length, findings⟩ := by
  rw [← List.append_nil (consumed.map _), outcome_map_read_append]
  rfl

/-- Earlier warnings have no influence on what comes of steps. -/
theorem outcome_of_warnings
    (switches : Switches)
    (steps : List Step)
    (symbols : SymbolTable)
    (earlier warnings : List Warning) :
    outcome switches steps ⟨symbols, earlier ++ warnings⟩ =
      ⟨(outcome switches steps ⟨symbols, warnings⟩).violation?,
        (outcome switches steps ⟨symbols, warnings⟩).consumed,
        (outcome switches steps ⟨symbols, warnings⟩).findings.symbols,
        earlier ++ (outcome switches steps ⟨symbols, warnings⟩).findings.warnings⟩ := by
  induction steps generalizing symbols warnings with
  | nil =>
      rfl
  | cons step rest ih =>
      cases step with
      | read token =>
          simp only [outcome, ih]
      | stop violation =>
          rfl
      | check demand =>
          simp only [outcome]
          cases demand.answer switches symbols with
          | error violation =>
              rfl
          | ok found =>
              obtain ⟨extended, further⟩ := found
              simp only [List.append_assoc, ih]

end Step

section Ends

variable
    {switches : Switches}
    {production : Production}
    {read ahead : List Token}
    {items : List Item}
    {moves : List Move}
    {rest? : Option (List Token)}

/-- Only the moves on a program with nothing after it end well. -/
theorem Course.rest_of_success
    {findings : Findings}
    (h : Course .program read items ahead moves rest?)
    (hsuccess : (Step.outcome switches
      (Move.stepsAll (.within .program moves :: Move.afterProgram rest?)) findings).violation? =
        none) :
    rest? = some [] := by
  cases rest? with
  | none =>
      rw [Move.stepsAll_within, Move.afterProgram, Move.stepsAll_nil, List.append_nil] at hsuccess
      exact absurd hsuccess (h.violation?_ne_none switches findings)
  | some rest =>
      cases rest with
      | nil =>
          rfl
      | cons token rest =>
          exact absurd hsuccess (Step.violation?_append_stop _)

end Ends

/-- The whole run does what the later one does, after what the earlier one has found and so
many tokens further on. -/
structure Run.Composes (whole earlier later : Run) (offset : Nat) : Prop where
  verdict : whole.verdict = later.verdict
  symbols : whole.symbols = later.symbols
  warnings : whole.warnings = earlier.warnings ++ later.warnings
  position : whole.position = offset + later.position

section Composition

variable
    {switches : Switches}
    {symbols : SymbolTable}
    {first second : List Token}

/-- Runs compose if the steps of the whole are those of the two bodies in a row. -/
theorem Run.composes_of_steps
    {whole earlier later : Run}
    {opening closing : List Token}
    {body steps : List Step}
    (hsuccess : (Step.outcome switches (opening.map .read ++ (body ++ closing.map .read))
      ⟨symbols, []⟩).violation? = none)
    (hearlier : (Step.outcome switches (opening.map .read ++ (body ++ closing.map .read))
      ⟨symbols, []⟩).Tells earlier)
    (hlater : (Step.outcome switches (opening.map .read ++ steps)
      ⟨earlier.symbols, []⟩).Tells later)
    (hwhole : (Step.outcome switches (opening.map .read ++ (body ++ steps))
      ⟨symbols, []⟩).Tells whole) :
    whole.Composes earlier later (Step.tokens body).length := by
  rw [Step.outcome_map_read_append] at hsuccess hearlier hlater hwhole
  have hbody : (Step.outcome switches body ⟨symbols, []⟩).violation? = none := by
    cases hviolation : (Step.outcome switches body ⟨symbols, []⟩).violation? with
    | none =>
        rfl
    | some violation =>
        rw [Step.outcome_append_of_violation hviolation] at hsuccess
        exact hviolation.symm.trans hsuccess
  have hconsumed := Step.consumed_of_none hbody
  rw [Step.outcome_append_of_none hbody] at hearlier hwhole
  rw [Step.outcome_map_read] at hearlier
  generalize Step.outcome switches body ⟨symbols, []⟩ = ended at hearlier hwhole hconsumed
  obtain ⟨violation?, consumed, found, warnings⟩ := ended
  have hsymbols : earlier.symbols = found := hearlier.symbols
  have hwarnings : earlier.warnings = warnings := hearlier.warnings
  -- the warnings of the first body are all that sets its findings apart from a fresh start
  have hshift := Step.outcome_of_warnings switches steps found warnings []
  rw [List.append_nil] at hshift
  simp only [hshift] at hwhole
  rw [hsymbols] at hlater
  generalize Step.outcome switches steps ⟨found, []⟩ = result at hlater hwhole
  refine ⟨?_, ?_, ?_, ?_⟩
  · rw [Run.verdict, Run.verdict, hwhole.stop, hlater.stop]
  · rw [hwhole.symbols, hlater.symbols]
  · rw [hwhole.warnings, hlater.warnings, hwarnings]
  · have hposition := hwhole.position
    have hlaterPosition := hlater.position
    simp only at hposition hlaterPosition hconsumed
    omega

/-- Once a program is accepted, its statements may be followed by others, and all that these
get to know of them is the symbol table. The run on both is the run on the others with the
variables of the first program, after the warnings about this one. -/
theorem runs_compose_through_symbols
    (switches : Switches)
    (symbols : SymbolTable)
    {starter : Token}
    {others : List Token}
    (hfirst : (recognize switches symbols (programOf first)).isSuccess = true)
    (hstarter : starter.BeginsStatement)
    (hsecond : second = starter :: others) :
    (recognize switches symbols (programOf (first ++ second))).Composes
      (recognize switches symbols (programOf first))
      (recognize switches (recognize switches symbols (programOf first)).symbols
        (programOf second))
      first.length := by
  subst hsecond
  have hform := Token.beginsStatement_iff.mp hstarter
  obtain ⟨_, hcourse, hfirstRun⟩ := exists_moves (programOf first)
  obtain ⟨inner, rest?, hinner, rfl⟩ := wholeCourse_programOf_iff.mp hcourse
  have hearlier := (hfirstRun switches symbols).2
  have hsuccess := hearlier.stop.symm.trans (Option.isNone_iff_eq_none.mp hfirst)
  rw [Option.map_eq_none_iff] at hsuccess
  cases hinner.rest_of_success hsuccess
  obtain ⟨moves, hbody, rfl, rfl⟩ := hinner.exists_body_of_accepted
  obtain ⟨_, hcourse', hsecondRun⟩ := exists_moves (programOf (starter :: others))
  obtain ⟨inner, rest?, hinner', rfl⟩ := wholeCourse_programOf_iff.mp hcourse'
  obtain ⟨further, hfurther, hsteps⟩ :=
    hbody.append_body (continues_of_beginsStatement rfl hform) hform hinner'
  have hwhole : WholeCourse (programOf (Move.tokens moves ++ starter :: others)) _ :=
    wholeCourse_programOf_iff.mpr ⟨further, rest?, by simpa [bodyItems] using hfurther, rfl⟩
  have hlater := (hsecondRun switches
    (recognize switches symbols (programOf (Move.tokens moves))).symbols).2
  have hboth := (hwhole.recognize_eq switches symbols).2
  rw [Move.stepsAll_program] at hsuccess hearlier hlater hboth
  rw [Move.stepsAll_within, Move.stepsAll_readWords, Move.afterProgram, Move.stepsAll_nil,
    List.append_nil] at hsuccess hearlier
  rw [hsteps, List.append_assoc] at hboth
  exact Run.composes_of_steps hsuccess hearlier hlater hboth

/-- Statements that end with a conditional without an `else`, about which there is a warning. -/
def openStatements : List Token :=
  [.bare "real", ⟨.identifier, "x"⟩, .bare ";",
    .bare "if", .bare "(", ⟨.identifier, "x"⟩, .bare "==", ⟨.intLiteral, "1"⟩, .bare ")",
    ⟨.identifier, "x"⟩, .bare "=", ⟨.intLiteral, "2"⟩, .bare ";"]

/-- Statements that need a variable from before and declare it again. -/
def dependentStatements : List Token :=
  [.bare "if", .bare "(", ⟨.identifier, "x"⟩, .bare "==", ⟨.identifier, "x"⟩, .bare ")",
    .bare "cin", .bare ">>", ⟨.identifier, "x"⟩, .bare ";",
    .bare "else", .bare "int", ⟨.identifier, "x"⟩, .bare ";"]

/-- The second of two programs fails in what the first one has left. -/
theorem runs_compose_on_dependentStatements :
    (check true (programOf (openStatements ++ dependentStatements))).verdict =
        .failure .redefinition (Violation.redefined "x").message ∧
      (check true (programOf (openStatements ++ dependentStatements))).Composes
        (check true (programOf openStatements))
        (recognize ⟨true, true, true⟩ (check true (programOf openStatements)).symbols
          (programOf dependentStatements))
        13 := by
  have haccepted : (check true (programOf openStatements)).isSuccess = true := by
    decide +kernel
  have hstarter : (Token.bare "if").BeginsStatement := by decide
  exact ⟨by decide +kernel,
    runs_compose_through_symbols ⟨true, true, true⟩ .empty haccepted hstarter rfl⟩

end Composition

end SimpleC
