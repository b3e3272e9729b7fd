import SimpleC.Proofs.Course.Asking
import SimpleC.Proofs.DerivationTree.Expansion
import SimpleC.Proofs.DerivationTree.Truncated

/-!
# What moves record

Moves along a course record trees of what they consume. Where the course comes to its
end, the trees are derivations; where it is broken off, by a token that is not allowed
or by a check that fails, the last of them may be truncated. Either way the leaves are
the tokens that the cursor has passed.
-/

namespace SimpleC

open Grammar

/-- Between the states the nodes were recorded and their leaves consumed. -/
structure State.Records (state after : State) (nodes : List Node) : Prop where
  children : after.children.toList = state.children.toList ++ nodes
  position : after.cursor.position =
    state.cursor.position + (nodes.flatMap Node.leaves).length

namespace State.Records

variable {switches : Switches} {state middle after : State} {nodes more : List Node}

theorem nothing (state : State) : state.Records state [] :=
  ⟨by simp, rfl⟩

theorem trans (hfirst : state.Records middle nodes) (hnext : middle.Records after more) :
    state.Records after (nodes ++ more) where
  children := by
    rw [hnext.children, hfirst.children, List.append_assoc]
  position := by
    rw [hnext.position, hfirst.position, List.flatMap_append, List.length_append,
      Nat.add_assoc]

/-- A token is recorded as a leaf. -/
theorem read
    (hrecord : switches.record = true)
    (token : Token) :
    state.Records (state.read switches token) [.leaf token] where
  children := by
    simp [State.read, State.append, hrecord]
  position := by
    simp

/-- What is recorded inside a production becomes its node. -/
theorem leave
    {production : Production}
    (hrecord : switches.record = true)
    (hinside : (state.enter production).Records after nodes)
    (type? : Option ValueType) :
    state.Records (after.leave switches production type? state.children)
      [.inner production.name type? nodes] where
  children := by
    have hnodes : after.children.toList = nodes := by
      simpa [State.enter] using hinside.children
    simp [State.leave, State.append, hrecord, hnodes]
  position := by
    rw [State.cursor_leave, hinside.position]
    simp

end State.Records

/-- Items were recognized in a state: with the given tokens, if something is left over
after them, and otherwise with a part of these tokens. -/
inductive ItemsRecorded
    (items : List Item)
    (tokens : List Token)
    (rest? : Option (List Token))
    (state : State) :
    EStateM.Result Stop State Unit → Prop
  | ok {after : State} {nodes : List Node} {body : List Constituent}
      (hrest : rest?.isSome = true)
      (hrecords : state.Records after nodes)
      (hexpands : Expands items body)
      (hspans : Spans body nodes)
      (hleaves : nodes.flatMap Node.leaves = tokens) :
      ItemsRecorded items tokens rest? state (.ok () after)
  | error {stop : Stop} {after : State} {nodes : List Node} {body : List Constituent}
      (hrecords : state.Records after nodes)
      (hexpands : Expands items body)
      (htruncated : Truncated body nodes)
      (hleaves : nodes.flatMap Node.leaves <+: tokens) :
      ItemsRecorded items tokens rest? state (.error stop after)

/-- A production was recognized in a state: with the given tokens, if something is left
over after them, and otherwise with a part of these tokens. -/
inductive PhraseRecorded
    (production : Production)
    (tokens : List Token)
    (rest? : Option (List Token))
    (state : State) :
    EStateM.Result Stop State Unit → Prop
  | ok {after : State} {type? : Option ValueType} {nodes : List Node}
      (hrest : rest?.isSome = true)
      (hrecords : state.Records after [.inner production.name type? nodes])
      (hspans : Spans [.nonterminal production] [.inner production.name type? nodes])
      (hleaves : nodes.flatMap Node.leaves = tokens) :
      PhraseRecorded production tokens rest? state (.ok () after)
  | error {stop : Stop} {after : State} {type? : Option ValueType} {nodes : List Node}
      (hrecords : state.Records after [.inner production.name type? nodes])
      (htruncated : Truncated [.nonterminal production] [.inner production.name type? nodes])
      (hleaves : nodes.flatMap Node.leaves <+: tokens) :
      PhraseRecorded production tokens rest? state (.error stop after)

section ItemsRecorded

variable
    {items others : List Item}
    {tokens front : List Token}
    {rest? : Option (List Token)}
    {state middle : State}
    {ended : EStateM.Result Stop State Unit}

/-- Nothing need be recorded before a stop. -/
theorem ItemsRecorded.stopped
    (items : List Item)
    (tokens : List Token)
    (rest? : Option (List Token))
    (stop : Stop)
    {after : State}
    (hrecords : state.Records after []) :
    ItemsRecorded items tokens rest? state (.error stop after) := by
  obtain ⟨body, hexpands⟩ := exists_expands items
  exact .error hrecords hexpands (.stopped body) List.nil_prefix

/-- Items whose expansions are expansions of other items. -/
theorem ItemsRecorded.imp
    (h : ItemsRecorded items tokens rest? state ended)
    (hexpands : ∀ {body}, Expands items body → Expands others body) :
    ItemsRecorded others tokens rest? state ended := by
  cases h with
  | ok hrest hrecords hbody hspans hleaves =>
      exact .ok hrest hrecords (hexpands hbody) hspans hleaves
  | error hrecords hbody htruncated hleaves =>
      exact .error hrecords (hexpands hbody) htruncated hleaves

/-- Items that are recognized after nothing was recorded. -/
theorem ItemsRecorded.after_nothing
    (hfirst : state.Records middle [])
    (h : ItemsRecorded items tokens rest? middle ended) :
    ItemsRecorded items tokens rest? state ended := by
  cases h with
  | ok hrest hrecords hexpands hspans hleaves =>
      exact .ok hrest (hfirst.trans hrecords) hexpands hspans hleaves
  | error hrecords hexpands htruncated hleaves =>
      exact .error (hfirst.trans hrecords) hexpands htruncated hleaves

/-- Items that are recognized after one that has become a single node. -/
theorem ItemsRecorded.after_node
    {item : Item}
    {constituent : Constituent}
    {node : Node}
    (hfirst : state.Records middle [node])
    (hitem : ∀ {body}, Expands items body → Expands (item :: items) (constituent :: body))
    (hnode : Spans [constituent] [node])
    (hfront : node.leaves = front)
    (h : ItemsRecorded items tokens rest? middle ended) :
    ItemsRecorded (item :: items) (front ++ tokens) rest? state ended := by
  cases h with
  | ok hrest hrecords hexpands hspans hleaves =>
      refine .ok hrest (hfirst.trans hrecords) (hitem hexpands) (hnode.append hspans) ?_
      rw [List.flatMap_append, List.flatMap_singleton, hfront, hleaves]
  | error hrecords hexpands htruncated hleaves =>
      refine .error (hfirst.trans hrecords) (hitem hexpands) (hnode.append_truncated htruncated) ?_
      rw [List.flatMap_append, List.flatMap_singleton, hfront]
      exact (List.prefix_append_right_inj front).mpr hleaves

end ItemsRecorded

section Performing

variable
    {switches : Switches}
    {production inner : Production}
    {read tokens : List Token}
    {items : List Item}
    {moves : List Move}
    {rest? : Option (List Token)}
    {state : State}

/-- A check records nothing, whether it fails or not. -/
theorem Production.exists_of_checks
    (switches : Switches)
    (production : Production)
    (read : List Token)
    (state : State) :
    ∃ after, state.Records after [] ∧
      (Move.performAll switches (production.checks read) state = .ok () after ∨
        ∃ stop, Move.performAll switches (production.checks read) state = .error stop after) := by
  cases hdemand : production.demand? read with
  | none =>
      rw [checks, hdemand]
      exact ⟨state, .nothing state, .inl rfl⟩
  | some demand =>
      rw [Recognizer.performAll_checks hdemand]
      cases demand.answer switches state.symbols with
      | ok found =>
          obtain ⟨symbols, warnings⟩ := found
          exact ⟨state.learn symbols warnings, ⟨by simp, rfl⟩, .inl rfl⟩
      | error violation =>
          exact ⟨state, .nothing state, .inr ⟨_, rfl⟩⟩

/-- The node of a production holds what was recorded inside of it. -/
theorem ItemsRecorded.phrase
    (hrecord : switches.record = true)
    (h : ItemsRecorded production.items (Move.tokens moves) rest? (state.enter production)
      (Move.performAll switches moves (state.enter production))) :
    PhraseRecorded production (Move.tokens moves) rest? state
      (Move.perform switches (.within production moves) state) := by
  generalize hended : Move.performAll switches moves (state.enter production) = ended at h
  cases h with
  | ok hrest hrecords hexpands hspans hleaves =>
      rw [Move.perform_within_of_ok hended]
      exact .ok hrest (hrecords.leave hrecord _)
        (.nonterminal (rule_of_expands hexpands) hspans .nil) hleaves
  | error hrecords hexpands htruncated hleaves =>
      rw [Move.perform_within_of_error hended]
      exact .error (hrecords.leave hrecord _)
        (.last (rule_of_expands hexpands) htruncated []) hleaves

/-- A phrase that was broken off is all that is recorded of the items that begin with it. -/
theorem PhraseRecorded.first
    (items : List Item)
    (further : List Token)
    (further? : Option (List Token))
    {stop : Stop}
    {after : State}
    (h : PhraseRecorded inner tokens rest? state (.error stop after)) :
    ItemsRecorded (.phrase inner :: items) (tokens ++ further) further? state
      (.error stop after) := by
  obtain ⟨body, hexpands⟩ := exists_expands items
  cases h with
  | error hrecords htruncated hleaves =>
      refine .error hrecords (.phrase hexpands) ?_ ?_
      · cases htruncated with
        | nonterminal hrule hbody =>
            exact .nonterminal hrule hbody (.stopped body)
        | last hrule hbody =>
            exact .last hrule hbody body
      · simpa using hleaves.trans (List.prefix_append tokens further)

/-- Moves along a course record what the items of the course have become. -/
theorem Course.itemsRecorded
    {ahead : List Token}
    (hrecord : switches.record = true)
    (h : Course production read items ahead moves rest?)
    (state : State) :
    ItemsRecorded items (Move.tokens moves) rest? state
      (Move.performAll switches moves state) := by
  induction h generalizing state with
  | done =>
      exact .ok rfl (.nothing state) .nil .nil rfl
  | unexpected | missing | refused | undecided =>
      exact .stopped _ _ _ _ (.nothing state)
  | @token _ _ _ _ _ _ _ token haccepts _ ih =>
      exact .after_node (.read hrecord token) .token (.terminal haccepts .nil)
        (Node.leaves_leaf token) (ih (state.read switches token))
  | @check production read _ _ _ _ _ ih =>
      rw [Move.performAll_append, Move.tokens_append, Production.tokens_checks, List.nil_append]
      obtain ⟨after, hrecords, hended | ⟨stop, hended⟩⟩ :=
        production.exists_of_checks switches read state
      · rw [bind_of_ok hended]
        exact ((ih after).after_nothing hrecords).imp .check
      · -- the course goes on after a check that fails, but its tokens are not consumed
        rw [bind_of_error hended]
        exact .stopped _ _ _ _ hrecords
  | choice hmore _ ih =>
      exact (ih state).imp (.choice hmore)
  | @phrase _ inner _ _ _ _ moves further _ _ _ ihinner ih =>
      have hphrase := (ihinner (state.enter inner)).phrase hrecord
      rw [Move.performAll, Move.tokens_within]
      cases hended : Move.perform switches (.within inner moves) state with
      | ok _ after =>
          rw [hended] at hphrase
          rw [bind_of_ok hended]
          cases hphrase with
          | ok hrest hrecords hspans hleaves =>
              exact .after_node hrecords .phrase hspans (by simpa using hleaves) (ih after)
      | error stop after =>
          rw [hended] at hphrase
          rw [bind_of_error hended]
          exact hphrase.first _ _ _
  | @broken _ inner _ _ _ moves _ ih =>
      have hphrase := (ih (state.enter inner)).phrase hrecord
      rw [Move.performAll_singleton, Move.tokens_within]
      cases hended : Move.perform switches (.within inner moves) state with
      | ok _ after =>
          rw [hended] at hphrase
          -- nothing is left over after moves that were broken off
          cases hphrase with
          | ok hrest =>
              cases hrest
      | error stop after =>
          rw [hended] at hphrase
          exact hphrase.first _ _ _

end Performing

end SimpleC
