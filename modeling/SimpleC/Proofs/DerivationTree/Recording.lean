import SimpleC.Proofs.Course.Run
import SimpleC.Proofs.DerivationTree.Moves

/-!
# What a run records, step by step

A relation between two states and the nodes that were recorded in between holds of every
run that records, whether it fails or not, as soon as it holds of the single changes of a
state: to read a token, to learn from an answer, and to leave a production, at the end of
its moves or where they break off. A run records one tree.
-/

namespace SimpleC

/-- A program has ended, well or not, in a state of which something holds. -/
inductive State.EndsIn (holds : State → Prop) : EStateM.Result Stop State Unit → Prop
  | ok {after : State} (hafter : holds after) :
      EndsIn holds (.ok () after)
  | error {stop : Stop} {after : State} (hafter : holds after) :
      EndsIn holds (.error stop after)

/-- What holds of the single changes of a state and of the nodes that they record, and of
changes in a row. -/
structure State.Recording
    (switches : Switches)
    (Between : State → State → List Node → Prop) : Prop where
  nothing (state : State) : Between state state []
  trans {state middle after : State} {nodes more : List Node} :
    Between state middle nodes → Between middle after more → Between state after (nodes ++ more)
  read (state : State) (token : Token) :
    Between state (state.read switches token) [.leaf token]
  learn {state : State} {demand : Demand} {symbols : SymbolTable} {warnings : List Warning} :
    demand.answer switches state.symbols = .ok (symbols, warnings) →
      Between state (state.learn symbols warnings) []
  /-- A production whose moves break off has no type. -/
  broken {state after : State} {nodes : List Node} (production : Production) :
    Between (state.enter production) after nodes →
      Between state (after.leave switches production none state.children)
        [.inner production.name none nodes]
  /-- A production whose moves come to their end has the type of what it has read. -/
  whole {production : Production} {ahead : List Token} {moves : List Move}
    {rest? : Option (List Token)} {state after : State} {nodes : List Node} :
    Course production [] production.items ahead moves rest? →
      Move.performAll switches moves (state.enter production) = .ok () after →
        Between (state.enter production) after nodes →
          Between state
            (after.leave switches production
              (production.type? (switches.typesUnder after.symbols) (Move.tokens moves))
              state.children)
            [.inner production.name
              (production.type? (switches.typesUnder after.symbols) (Move.tokens moves)) nodes]

section Recording

variable
    {switches : Switches}
    {Between : State → State → List Node → Prop}
    {production inner : Production}
    {read ahead : List Token}
    {items : List Item}
    {moves : List Move}
    {rest? : Option (List Token)}

theorem State.EndsIn.imp
    {holds other : State → Prop}
    {ended : EStateM.Result Stop State Unit}
    (h : EndsIn holds ended)
    (himp : ∀ after, holds after → other after) :
    EndsIn other ended := by
  cases h with
  | ok hafter =>
      exact .ok (himp _ hafter)
  | error hafter =>
      exact .error (himp _ hafter)

namespace State.Recording

/-- What is recorded first is followed by what the next program records. -/
theorem bind
    (hrel : State.Recording switches Between)
    {state : State}
    {step next : Recognizer Unit}
    (hstep : EndsIn (fun after => ∃ nodes, Between state after nodes) (step state))
    (hnext : ∀ middle, EndsIn (fun after => ∃ nodes, Between middle after nodes) (next middle)) :
    EndsIn (fun after => ∃ nodes, Between state after nodes)
      ((step >>= fun _ => next) state) := by
  generalize hended : step state = ended at hstep
  cases hstep with
  | error hafter =>
      rw [bind_of_error hended]
      exact .error hafter
  | @ok middle hafter =>
      obtain ⟨nodes, hbetween⟩ := hafter
      rw [bind_of_ok hended]
      refine (hnext middle).imp ?_
      rintro after ⟨more, hmore⟩
      exact ⟨nodes ++ more, hrel.trans hbetween hmore⟩

theorem perform_checks
    (hrel : State.Recording switches Between)
    (state : State) :
    EndsIn (fun after => ∃ nodes, Between state after nodes)
      (Move.performAll switches (production.checks read) state) := by
  cases hdemand : production.demand? read with
  | none =>
      rw [Production.checks, hdemand]
      exact .ok ⟨[], hrel.nothing state⟩
  | some demand =>
      rw [Recognizer.performAll_checks hdemand]
      cases hanswer : demand.answer switches state.symbols with
      | ok found =>
          exact .ok ⟨[], hrel.learn hanswer⟩
      | error violation =>
          exact .error ⟨[], hrel.nothing state⟩

/-- What is recorded inside of a production becomes one node. -/
theorem perform_within
    (hrel : State.Recording switches Between)
    {state : State}
    (hcourse : Course inner [] inner.items ahead moves rest?)
    (hinside : EndsIn (fun after => ∃ nodes, Between (state.enter inner) after nodes)
      (Move.performAll switches moves (state.enter inner))) :
    EndsIn (fun after => ∃ node, Between state after [node])
      (Move.perform switches (.within inner moves) state) := by
  generalize hended : Move.performAll switches moves (state.enter inner) = ended at hinside
  cases hinside with
  | ok hafter =>
      obtain ⟨nodes, hbetween⟩ := hafter
      rw [Move.perform_within_of_ok hended]
      exact .ok ⟨_, hrel.whole hcourse hended hbetween⟩
  | error hafter =>
      obtain ⟨nodes, hbetween⟩ := hafter
      rw [Move.perform_within_of_error hended]
      exact .error ⟨_, hrel.broken inner hbetween⟩

end State.Recording

/-- The moves of a course record what the relation tells of. -/
theorem Course.endsIn
    (hrel : State.Recording switches Between)
    (h : Course production read items ahead moves rest?)
    (state : State) :
    State.EndsIn (fun after => ∃ nodes, Between state after nodes)
      (Move.performAll switches moves state) := by
  induction h generalizing state with
  | done =>
      exact .ok ⟨[], hrel.nothing state⟩
  | unexpected | missing | refused | undecided =>
      exact .error ⟨[], hrel.nothing state⟩
  | choice _ _ ih =>
      exact ih state
  | @token _ _ _ _ _ _ _ token _ _ ih =>
      exact hrel.bind (.ok ⟨_, hrel.read state token⟩) ih
  | check _ ih =>
      rw [Move.performAll_append]
      exact hrel.bind (hrel.perform_checks state) ih
  | phrase hinner _ ihinner ih =>
      have hphrase := hrel.perform_within hinner (ihinner (state.enter _))
      exact hrel.bind (hphrase.imp fun _ ⟨node, hbetween⟩ => ⟨[node], hbetween⟩) ih
  | broken hinner ih =>
      rw [Move.performAll_singleton]
      have hphrase := hrel.perform_within hinner (ih (state.enter _))
      exact hphrase.imp fun _ ⟨node, hbetween⟩ => ⟨[node], hbetween⟩

/-- The moves on a whole input record one tree. -/
theorem WholeCourse.endsIn
    {tokens : List Token}
    (hrel : State.Recording switches Between)
    (h : WholeCourse tokens moves)
    (state : State) :
    State.EndsIn (fun after => ∃ tree, Between state after [tree])
      (Move.performAll switches moves state) := by
  obtain ⟨inside, rest?, hcourse, rfl⟩ := wholeCourse_iff.mp h
  have hprogram := hrel.perform_within hcourse (hcourse.endsIn hrel (state.enter .program))
  rw [Move.performAll]
  generalize hended : Move.perform switches (.within .program inside) state = ended at hprogram
  cases hprogram with
  | error hafter =>
      rw [bind_of_error hended]
      exact .error hafter
  | ok hafter =>
      rw [bind_of_ok hended]
      -- nothing is recorded after the program
      cases rest? with
      | none =>
          exact .ok hafter
      | some rest =>
          cases rest with
          | nil =>
              exact .ok hafter
          | cons token rest =>
              exact .error hafter

end Recording

/-- A run has ended well, or at a violation, in the given state. -/
inductive Run.EndsAt (run : Run) (after : State) : Prop
  | ok (hrun : run = .ofResult (.ok () after))
  | violation (violation : Violation) (hrun : run = .ofResult (.error (.violation violation) after))

/-- A run records one tree from its start to its end. -/
theorem exists_recorded
    {switches : Switches}
    {Between : State → State → List Node → Prop}
    (hrel : State.Recording switches Between)
    (symbols : SymbolTable)
    (tokens : List Token) :
    ∃ after tree, (recognize switches symbols tokens).EndsAt after ∧
      Between (.start tokens symbols) after [tree] := by
  obtain ⟨moves, hcourse, hruns⟩ := exists_moves tokens
  obtain ⟨hrun, htells⟩ := hruns switches symbols
  have hstop := htells.stop
  have hended := hcourse.endsIn hrel (.start tokens symbols)
  rw [hrun] at hstop ⊢
  generalize Move.performAll switches moves (.start tokens symbols) = ended at hended hstop
  cases hended with
  | @ok after hafter =>
      obtain ⟨tree, hbetween⟩ := hafter
      exact ⟨after, tree, .ok rfl, hbetween⟩
  | @error stop after hafter =>
      -- moves end at violations only
      obtain ⟨tree, hbetween⟩ := hafter
      obtain ⟨violation, _, hviolation⟩ := Option.map_eq_some_iff.mp hstop.symm
      exact ⟨after, tree, .violation violation (by rw [hviolation]), hbetween⟩

namespace Run.EndsAt

variable {run : Run} {after : State}

theorem symbols_eq (h : run.EndsAt after) : run.symbols = after.symbols := by
  cases h with
  | ok hrun | violation _ hrun =>
      rw [hrun]
      rfl

theorem tree?_eq (h : run.EndsAt after) : run.tree? = after.children[0]? := by
  cases h with
  | ok hrun | violation _ hrun =>
      rw [hrun]
      rfl

/-- The one node that was recorded from the start on is the tree of the run. -/
theorem tree?_of_records
    {tokens : List Token}
    {symbols : SymbolTable}
    {tree : Node}
    (h : run.EndsAt after)
    (hrecords : (State.start tokens symbols).Records after [tree]) :
    run.tree? = some tree := by
  rw [h.tree?_eq, ← Array.getElem?_toList, hrecords.children]
  rfl

end Run.EndsAt

/-- Nodes are recorded with the tokens that they hold, if the derivation is recorded. -/
theorem State.recording_records
    {switches : Switches}
    (hrecord : switches.record = true) :
    State.Recording switches State.Records where
  nothing := .nothing
  trans := .trans
  read _ token := .read hrecord token
  learn _ := ⟨by simp, rfl⟩
  broken _ hinside := hinside.leave hrecord none
  whole _ _ hinside := hinside.leave hrecord _

/-- A run that records has a tree, whether it fails or not. -/
theorem exists_recorded_tree
    {switches : Switches}
    (hrecord : switches.record = true)
    (symbols : SymbolTable)
    (tokens : List Token) :
    ∃ tree, (recognize switches symbols tokens).tree? = some tree := by
  obtain ⟨after, tree, hends, hrecords⟩ :=
    exists_recorded (State.recording_records hrecord) symbols tokens
  exact ⟨tree, hends.tree?_of_records hrecords⟩

end SimpleC
