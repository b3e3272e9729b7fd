import SimpleC.Proofs.EarlyEnd
import SimpleC.Proofs.Phrase.Node
import SimpleC.Recognizer.Grammar

/-!
# Reading known tokens

What a step of the recognizer does when the tokens ahead of it are known. It
moves over them, records their nodes, and otherwise does to its findings what a
check does: it ends well exactly if the check ends well, and ends with the
violation of the check if there is one. Steps in a row read what they read one
after the other, so that the reading of a phrase is put together from the
readings of its parts.

The nodes carry types under the symbol table that a step leaves, and under every
larger one: no variable changes its type later.
-/

namespace SimpleC

namespace State

/-- What the checks of a recognition have found so far. -/
def findings (state : State) : Findings :=
  ⟨state.symbols, state.warnings.toList⟩

@[simp] theorem symbols_findings (state : State) : state.findings.symbols = state.symbols :=
  rfl

@[simp] theorem findings_append (state : State) (switches : Switches) (node : Node) :
    (state.append switches node).findings = state.findings := by
  simp [findings]

@[simp] theorem findings_leave
    (state : State)
    (switches : Switches)
    (production : Production)
    (type? : Option ValueType)
    (around : Array Node) :
    (state.leave switches production type? around).findings = state.findings := by
  simp [findings]

@[simp] theorem findings_enter (state : State) (production : Production) :
    (state.enter production).findings = state.findings :=
  rfl

end State

namespace Switches

/-- The nodes that are kept: all of them, or none. -/
def recorded (switches : Switches) (nodes : List Node) : List Node :=
  if switches.record then nodes else []

/-- The symbol table that types are read from, if they are checked. -/
def typesUnder (switches : Switches) (symbols : SymbolTable) : Option SymbolTable :=
  if switches.checkTypes then some symbols else none

@[simp] theorem recorded_nil (switches : Switches) : switches.recorded [] = [] := by
  simp [recorded]

theorem recorded_append (switches : Switches) (left right : List Node) :
    switches.recorded (left ++ right) = switches.recorded left ++ switches.recorded right := by
  unfold recorded
  split <;> simp

end Switches

namespace Recognizer

variable {α β γ δ : Type} {switches : Switches}

/-- How a step that started in a state has ended, compared with a check. -/
inductive Ends
    (switches : Switches)
    (rest : List Token)
    (related : α → β → Prop)
    (nodes : SymbolTable → List Node)
    (state : State) :
    EStateM.Result Stop State α → EStateM.Result Violation Findings β → Prop where
  | ok {answer : α} {result : β} {after : State}
      (hrelated : related answer result)
      (hrest : after.cursor.ahead = rest)
      (hgrown : state.symbols.Within after.symbols)
      (hnodes : ∀ symbols, after.symbols.Within symbols →
        after.children.toList = state.children.toList ++ switches.recorded (nodes symbols)) :
      Ends switches rest related nodes state (.ok answer after) (.ok result after.findings)
  | error {violation : Violation} {after : State} :
      Ends switches rest related nodes state
        (.error (.violation violation) after) (.error violation after.findings)

/-- The step reads the tokens ahead of it up to the rest, records the nodes, and
does what the check does. -/
def Reads
    (switches : Switches)
    (ahead rest : List Token)
    (related : α → β → Prop)
    (nodes : SymbolTable → List Node)
    (step : Recognizer α)
    (check : Checking β) : Prop :=
  ∀ state, state.cursor.ahead = ahead →
    Ends switches rest related nodes state (step state) (check state.findings)

variable
    {ahead middle rest : List Token}
    {first : α → β → Prop}
    {second : γ → δ → Prop}
    {nodes further : SymbolTable → List Node}
    {step : Recognizer α}
    {check : Checking β}
    {next : α → Recognizer γ}
    {andThen : β → Checking δ}

/-- Steps in a row read one after the other what checks in a row ask for. -/
theorem Reads.bind
    (hstep : Reads switches ahead middle first nodes step check)
    (hnext : ∀ answer result, first answer result →
      Reads switches middle rest second further (next answer) (andThen result)) :
    Reads switches ahead rest second (fun symbols => nodes symbols ++ further symbols)
      (step >>= next) (check >>= andThen) := by
  intro state hahead
  have hfirst := hstep state hahead
  generalize hs : step state = ended, hc : check state.findings = checked at hfirst
  cases hfirst with
  | error =>
      rw [bind_of_error hs, bind_of_error hc]
      exact .error
  | @ok answer result after hrelated hmiddle hgrown hnodes =>
      have hsecond := hnext answer result hrelated after hmiddle
      rw [bind_of_ok hs, bind_of_ok hc]
      generalize next answer after = ended, andThen result after.findings = checked
        at hsecond ⊢
      cases hsecond with
      | error =>
          exact .error
      | ok hrelated' hrest hgrown' hfurther =>
          refine .ok hrelated' hrest (hgrown.trans hgrown') ?_
          intro symbols hsymbols
          rw [hfurther symbols hsymbols, hnodes symbols (hgrown'.trans hsymbols),
            Switches.recorded_append, List.append_assoc]

/-- What is known of the answers may be weakened. -/
theorem Reads.mono
    {weaker : α → β → Prop}
    (hstep : Reads switches ahead rest first nodes step check)
    (hweaker : ∀ answer result, first answer result → weaker answer result) :
    Reads switches ahead rest weaker nodes step check := by
  intro state hahead
  have hended := hstep state hahead
  generalize step state = ended, check state.findings = checked at hended ⊢
  cases hended with
  | ok hrelated hrest hgrown hnodes =>
      exact .ok (hweaker _ _ hrelated) hrest hgrown hnodes
  | error =>
      exact .error

/-- An answer that is at hand reads nothing. -/
theorem Reads.pure
    {answer : α}
    {result : β}
    (hrelated : first answer result) :
    Reads switches rest rest first (fun _ => []) (pure answer) (pure result) := by
  intro state hahead
  exact .ok hrelated hahead (.refl _) (by simp)

/-- A step that reads nothing leaves all tokens and nodes to the next one. -/
theorem Reads.check_bind
    (hstep : Reads switches ahead ahead first (fun _ => []) step check)
    (hnext : ∀ answer result, first answer result →
      Reads switches ahead rest second further (next answer) (andThen result)) :
    Reads switches ahead rest second further (step >>= next) (check >>= andThen) :=
  hstep.bind hnext

/-- A step that checks nothing leaves all checks to the next one. -/
theorem Reads.read_bind
    {found : α → Unit → Prop}
    {check : Checking δ}
    (hstep : Reads switches ahead middle found nodes step (Pure.pure ()))
    (hnext : ∀ answer, found answer () →
      Reads switches middle rest second further (next answer) check) :
    Reads switches ahead rest second (fun symbols => nodes symbols ++ further symbols)
      (step >>= next) check := by
  rw [← pure_bind () fun _ => check]
  exact hstep.bind fun answer _ => hnext answer

/-- After all checks, a step may read more without any check. -/
theorem Reads.bind_read
    {found : α → Unit → Prop}
    {related : γ → Unit → Prop}
    {check : Checking Unit}
    (hstep : Reads switches ahead middle found nodes step check)
    (hnext : ∀ answer, found answer () →
      Reads switches middle rest related further (next answer) (Pure.pure ())) :
    Reads switches ahead rest related (fun symbols => nodes symbols ++ further symbols)
      (step >>= next) check := by
  rw [← bind_pure check]
  exact hstep.bind fun answer _ => hnext answer

/-- A step after which nothing is read and an answer is given. -/
theorem Reads.bind_check
    (hstep : Reads switches ahead rest first nodes step check)
    (hnext : ∀ answer result, first answer result →
      Reads switches rest rest second (fun _ => []) (next answer) (andThen result)) :
    Reads switches ahead rest second nodes (step >>= next) (check >>= andThen) := by
  simpa using hstep.bind hnext

/-- Discarding an answer reads the same. -/
theorem Reads.discard
    (hstep : Reads switches ahead rest first nodes step check) :
    Reads switches ahead rest (fun _ _ => True) nodes (discard step) (discard check) := by
  show Reads switches ahead rest _ nodes (step >>= fun _ => Pure.pure ())
    (check >>= fun _ => Pure.pure ())
  exact hstep.bind_check fun _ _ _ => .pure trivial

theorem Reads.get :
    Reads switches rest rest (fun state findings => state.findings = findings)
      (fun _ => []) get get := by
  intro state hahead
  exact .ok rfl hahead (.refl _) (by simp)

/-- A rule is obeyed or violated alike. -/
theorem Reads.obey (result : Except Violation α) :
    Reads switches rest rest Eq (fun _ => []) (obey result) (Checking.obey result) := by
  cases result with
  | ok answer =>
      exact .pure rfl
  | error violation =>
      intro state _
      exact .error

/-- Warnings are given one by one or all at once. -/
theorem Reads.warn (warnings : List Warning) :
    Reads switches rest rest (fun _ _ => True) (fun _ => [])
      (warnings.forM Recognizer.warn) (Checking.warn warnings) := by
  induction warnings with
  | nil =>
      intro state hahead
      have hcheck : Checking.warn [] state.findings = .ok () state.findings := by
        show EStateM.Result.ok () _ = _
        simp [State.findings]
      rw [hcheck]
      exact .ok trivial hahead (.refl _) (by simp)
  | cons warning rest ih =>
      have hcheck : Checking.warn (warning :: rest) =
          (do Checking.warn [warning]; Checking.warn rest) := by
        funext findings
        show EStateM.Result.ok () _ = .ok () _
        simp
      have hfirst : ∀ ahead, Reads switches ahead ahead (fun _ _ => True) (fun _ => [])
          (Recognizer.warn warning) (Checking.warn [warning]) := by
        intro ahead state hahead
        have hfindings : Checking.warn [warning] state.findings =
            .ok () (({ state with warnings := state.warnings.push warning } : State).note
              (.warned warning)).findings := by
          show EStateM.Result.ok () _ = _
          simp [State.findings, State.note]
        rw [hfindings]
        exact .ok trivial hahead (.refl _) (by simp [State.note])
      rw [hcheck]
      exact (hfirst _).check_bind fun _ _ _ => ih

/-- A variable is added to the table of the findings as well. -/
theorem Reads.declare (name : String) (type : ValueType) :
    Reads switches rest rest (fun _ _ => True) (fun _ => [])
      (Recognizer.declare name type) (Checking.declare name type) := by
  intro state hahead
  have hstep : Recognizer.declare name type state =
      (Recognizer.obey (state.symbols.declare name type) >>= fun symbols =>
        modify fun state => { state with symbols := symbols }) state := rfl
  have hcheck : Checking.declare name type state.findings =
      (Checking.obey (state.symbols.declare name type) >>= fun symbols =>
        modify fun findings => { findings with symbols := symbols }) state.findings := rfl
  rw [hstep, hcheck]
  cases hdeclare : state.symbols.declare name type with
  | ok extended =>
      have hgrown := SymbolTable.within_of_declare hdeclare
      show Ends _ _ _ _ _ (.ok () { state with symbols := extended })
        (.ok () ({ state with symbols := extended } : State).findings)
      exact .ok trivial hahead hgrown (by simp)
  | error violation =>
      exact .error

/-- A token that lies ahead is seen. -/
theorem Reads.peek_bind
    {token : Token}
    {tail : List Token}
    {next : Token → Recognizer α}
    (hnext : Reads switches (token :: tail) rest first nodes (next token) check) :
    Reads switches (token :: tail) rest first nodes (peek >>= next) check := by
  intro state hahead
  have hpeek : (peek >>= next) state = next token state := by
    have hcursor : state.cursor.peek = .ok token := by
      simp [Cursor.peek, hahead]
    show (Recognizer.obey state.cursor.peek >>= next) state = _
    rw [hcursor]
    rfl
  rw [hpeek]
  exact hnext state hahead

/-- A token that is wanted is consumed, and is a leaf. -/
theorem Reads.consume
    {wanted : Expectation}
    {token : Token}
    (haccepts : wanted.accepts token = true) :
    Reads switches (token :: rest) rest (fun answer _ => answer = token)
      (fun _ => [.leaf token]) (consume switches wanted) (Pure.pure ()) := by
  intro state hahead
  obtain ⟨cursor, hconsume, hrest⟩ : ∃ cursor,
      state.cursor.consume wanted = .ok (token, cursor) ∧ cursor.ahead = rest := by
    simp [Cursor.consume, hahead, haccepts]
  have hstep : Recognizer.consume switches wanted state =
      .ok token (({ state with cursor := cursor } : State).append switches (.leaf token)) := by
    show (Recognizer.obey (state.cursor.consume wanted) >>= _) state = _
    rw [hconsume]
    rfl
  have hfindings : (({ state with cursor := cursor } : State).append switches
      (.leaf token)).findings = state.findings := by
    simp
    rfl
  rw [hstep]
  have hdone : (Pure.pure () : Checking Unit) state.findings =
      .ok () (({ state with cursor := cursor } : State).append switches
        (.leaf token)).findings := by
    rw [hfindings]
    rfl
  rw [hdone]
  refine .ok rfl (by simpa using hrest) (by simpa using .refl _) ?_
  intro symbols _
  unfold State.append Switches.recorded
  split <;> simp

/-- A token that is wanted is consumed before what follows it. -/
theorem Reads.consume_bind
    {wanted : Expectation}
    {token : Token}
    (haccepts : wanted.accepts token = true)
    {next : Recognizer α}
    (hnext : Reads switches middle rest first nodes next check) :
    Reads switches (token :: middle) rest first
      (fun symbols => .leaf token :: nodes symbols)
      (Functor.discard (Recognizer.consume switches wanted) >>= fun _ => next) check := by
  have hread : Reads switches (token :: middle) rest first
      (fun symbols => [.leaf token] ++ nodes symbols)
      (Recognizer.consume switches wanted >>= fun _ => next) check :=
    (Reads.consume haccepts).read_bind fun _ _ => hnext
  show Reads switches _ rest first _
    ((Recognizer.consume switches wanted >>= fun _ => Pure.pure ()) >>= fun _ => next) check
  simpa using hread

theorem Reads.expect {spelling : String} (word : Word spelling) :
    Reads switches (word.token :: rest) rest (fun _ _ => True) (fun _ => [.leaf word.token])
      (expect switches spelling) (Pure.pure ()) :=
  Reads.discard (Reads.consume word.accepted)

/-- A word is read before what follows it. -/
theorem Reads.expect_bind
    {spelling : String}
    (word : Word spelling)
    {next : Recognizer α}
    (hnext : Reads switches middle rest first nodes next check) :
    Reads switches (word.token :: middle) rest first
      (fun symbols => .leaf word.token :: nodes symbols)
      (Recognizer.expect switches spelling >>= fun _ => next) check :=
  Reads.consume_bind word.accepted hnext

/-- An identifier is read before what is done with its name. -/
theorem Reads.identifier_bind
    (name : Identifier)
    {next : String → Recognizer α}
    (hnext : Reads switches middle rest first nodes (next name.token.text) check) :
    Reads switches (name.token :: middle) rest first
      (fun symbols => .leaf name.token :: nodes symbols)
      (identifier switches >>= next) check := by
  have hread : Reads switches (name.token :: middle) rest first
      (fun symbols => [.leaf name.token] ++ nodes symbols)
      (Recognizer.consume switches (.ofKind .identifier) >>= fun token => next token.text)
      check := by
    refine (Reads.consume name.accepted).read_bind ?_
    rintro _ rfl
    exact hnext
  simpa [identifier] using hread

/-- The spelling of a bare token that lies ahead is seen. -/
theorem Reads.nextSpelling_bind
    {token : Token}
    {tail : List Token}
    {spelling : String}
    (hspelling : token.spelling? = some spelling)
    {next : String → Recognizer α}
    (hnext : Reads switches (token :: tail) rest first nodes (next spelling) check) :
    Reads switches (token :: tail) rest first nodes (nextSpelling >>= next) check := by
  unfold nextSpelling
  rw [bind_assoc]
  refine Reads.peek_bind ?_
  simpa [hspelling] using hnext

/-- A production records the nodes of its step under a node of its own, with the
type that its answer stands for. -/
theorem Reads.producing
    {production : Production}
    {typeOf : α → Option ValueType}
    {type? : SymbolTable → Option ValueType}
    (hstep : Reads switches ahead rest first nodes step check)
    (htype : ∀ answer result findings after, check findings = .ok result after →
      first answer result → ∀ symbols, after.symbols.Within symbols →
        typeOf answer = type? symbols) :
    Reads switches ahead rest first
      (fun symbols => [.inner production.name (type? symbols) (nodes symbols)])
      (producing switches production typeOf step) check := by
  intro state hahead
  have hinner := hstep (state.enter production) hahead
  rw [State.findings_enter] at hinner
  unfold Recognizer.producing
  simp only
  generalize hchecked : check state.findings = checked at hinner ⊢
  generalize step (state.enter production) = ended at hinner ⊢
  cases hinner with
  | @error violation after =>
      rw [← State.findings_leave after switches production none state.children]
      exact .error
  | @ok answer result after hrelated hrest hgrown hnodes =>
      simp only
      rw [← State.findings_leave after switches production (typeOf answer) state.children]
      refine .ok hrelated (by simpa using hrest) ?_ ?_
      · rw [State.symbols_leave]
        exact hgrown
      · intro symbols hsymbols
        rw [State.symbols_leave] at hsymbols
        have hchildren := hnodes symbols hsymbols
        have hanswer := htype answer result _ _ hchecked hrelated symbols hsymbols
        simp only [State.enter, List.nil_append] at hchildren
        unfold State.leave State.append
        unfold Switches.recorded at hchildren ⊢
        split
        · rename_i hrecord
          simp [hrecord, hchildren, hanswer]
        · simp

/-- A production without a type records the nodes of its step under a node of its own. -/
theorem Reads.plain
    (production : Production)
    (hstep : Reads switches ahead rest first nodes step check) :
    Reads switches ahead rest first (fun symbols => [production.node (nodes symbols)])
      (plain switches production step) check :=
  hstep.producing fun _ _ _ _ _ _ _ _ => rfl

end Recognizer

end SimpleC
