import SimpleC.Proofs.DerivationTree.Recording

/-!
# The trace of a run and its tree

A run that records tells of its productions twice: by an event when one is entered, and by
a node that closes when it is left, whether the run goes on or has ended there. Both tell
the same. The events are the productions of the tree, each before the ones below it, with
the number of tokens to the left of it; and one further event, at the end, reports a
violation if there was one.
-/

namespace SimpleC

/-- The begin of a production: its name and the number of tokens before it. -/
structure Entry where
  name : String
  position : Nat

/-- The line by which the begin of a production is reported. -/
def Entry.line (entry : Entry) : String :=
  entry.name ++ " at token " ++ toString entry.position

namespace Node

/-- The productions among nodes in a row, each with the number of tokens before it, if as
many as given are before the first of the nodes. -/
def entriesFrom (position : Nat) : List Node → List Entry
  | [] => []
  | node :: rest =>
      match node.kind with
      | .production =>
          ⟨node.name, position⟩ :: entriesFrom (position + node.token?.toList.length) rest
      | .token => entriesFrom (position + node.token?.toList.length) rest

/-- The productions of a tree, each before the ones below it, from left to right, with the
number of leaves that come before. -/
def entries (tree : Node) : List Entry :=
  entriesFrom 0 tree.walk

section Entries

variable (position : Nat) (nodes : List Node)

@[simp] theorem entriesFrom_nil : entriesFrom position [] = [] :=
  rfl

@[simp] theorem entriesFrom_leaf (token : Token) (rest : List Node) :
    entriesFrom position (leaf token :: rest) = entriesFrom (position + 1) rest :=
  rfl

@[simp] theorem entriesFrom_inner
    (name : String)
    (type? : Option ValueType)
    (children rest : List Node) :
    entriesFrom position (inner name type? children :: rest) =
      ⟨name, position⟩ :: entriesFrom position rest :=
  rfl

theorem entriesFrom_append (left right : List Node) :
    entriesFrom position (left ++ right) =
      entriesFrom position left ++
        entriesFrom (position + (left.filterMap token?).length) right := by
  induction left generalizing position with
  | nil =>
      rfl
  | cons node rest ih =>
      have hlength : ((node :: rest).filterMap token?).length =
          node.token?.toList.length + (rest.filterMap token?).length := by
        cases htoken : node.token? <;> simp [htoken, Nat.add_comm]
      rw [hlength, ← Nat.add_assoc, List.cons_append, entriesFrom, entriesFrom, ih]
      cases node.kind <;> rfl

/-- No more tokens are before a production than are there at all. -/
theorem position_of_mem_entriesFrom
    {entry : Entry}
    (h : entry ∈ entriesFrom position nodes) :
    position ≤ entry.position ∧
      entry.position ≤ position + (nodes.filterMap token?).length := by
  induction nodes generalizing position with
  | nil =>
      cases h
  | cons node rest ih =>
      rw [← List.singleton_append, entriesFrom_append, List.mem_append] at h
      rw [← List.singleton_append, List.filterMap_append, List.length_append]
      rcases h with h | h
      · have hentry : entry.position = position := by
          unfold entriesFrom at h
          cases hkind : node.kind with
          | token =>
              rw [hkind] at h
              cases h
          | production =>
              rw [hkind] at h
              rw [List.mem_singleton.mp h]
        omega
      · have := ih _ h
        omega

/-- Later productions have no fewer tokens before them. -/
theorem pairwise_entriesFrom :
    (entriesFrom position nodes).Pairwise fun earlier later =>
      earlier.position ≤ later.position := by
  induction nodes generalizing position with
  | nil =>
      exact .nil
  | cons node rest ih =>
      unfold entriesFrom
      cases node.kind with
      | token =>
          exact ih _
      | production =>
          refine List.pairwise_cons.mpr ⟨?_, ih _⟩
          intro later hlater
          exact Nat.le_trans (Nat.le_add_right _ _) (position_of_mem_entriesFrom _ _ hlater).1

end Entries

/-- The tokens on the nodes of trees are the leaves of the trees. -/
theorem filterMap_flatMap_walk (nodes : List Node) :
    (nodes.flatMap walk).filterMap token? = nodes.flatMap leaves := by
  rw [List.filterMap_flatMap]
  rfl

end Node

/-- The begin of a production that an event reports, if it reports one. -/
def Event.entry? : Event → Option Entry
  | entered production position => some ⟨production.name, position⟩
  | warned _ | stopped .. => none

/-- The events tell of entered productions, namely of the given ones, and of warnings. -/
structure Event.Tell (events : List Event) (entries : List Entry) : Prop where
  entries : events.filterMap entry? = entries
  unstopped : ∀ position violation, .stopped position violation ∉ events

namespace Event.Tell

variable {events more : List Event} {entries further : List Entry}

theorem nothing : Tell [] [] :=
  ⟨rfl, fun _ _ => List.not_mem_nil⟩

theorem append (h : Tell events entries) (hmore : Tell more further) :
    Tell (events ++ more) (entries ++ further) where
  entries := by
    rw [List.filterMap_append, h.entries, hmore.entries]
  unstopped := by
    intro position violation hmem
    rcases List.mem_append.mp hmem with hmem | hmem
    · exact h.unstopped position violation hmem
    · exact hmore.unstopped position violation hmem

theorem entered (h : Tell events entries) (production : Production) (position : Nat) :
    Tell (.entered production position :: events) (⟨production.name, position⟩ :: entries) where
  entries := by
    rw [← h.entries]
    rfl
  unstopped := by
    intro _ violation hmem
    rw [List.mem_cons] at hmem
    rcases hmem with heq | hmem
    · cases heq
    · exact h.unstopped _ violation hmem

theorem warned (warnings : List Warning) : Tell (warnings.map .warned) [] where
  entries := by
    simp [List.filterMap_map, Function.comp_def, entry?]
  unstopped := by
    simp

/-- The events that matter least are the entered productions. -/
theorem debug (h : Tell events entries) :
    (events.filter (·.level = .debug)).map text = entries.map Entry.line := by
  obtain ⟨rfl, hunstopped⟩ := h
  induction events with
  | nil =>
      rfl
  | cons event rest ih =>
      have hrest := ih fun position violation hmem =>
        hunstopped position violation (List.mem_cons_of_mem _ hmem)
      cases event with
      | entered production position =>
          exact congrArg _ hrest
      | warned warning =>
          exact hrest
      | stopped position violation =>
          exact absurd List.mem_cons_self (hunstopped position violation)

end Event.Tell

/-- Between the states the nodes were recorded, and their productions are what the trace
reports of that time. -/
structure State.Retells (state after : State) (nodes : List Node) : Prop
    extends state.Records after nodes where
  trace : ∃ events, after.trace.toList = state.trace.toList ++ events ∧
    Event.Tell events (Node.entriesFrom state.cursor.position (nodes.flatMap Node.walk))

namespace State.Retells

variable {switches : Switches} {state middle after : State} {nodes more : List Node}

theorem nothing (state : State) : state.Retells state [] :=
  ⟨.nothing state, [], by simp, .nothing⟩

theorem trans (hfirst : state.Retells middle nodes) (hnext : middle.Retells after more) :
    state.Retells after (nodes ++ more) := by
  obtain ⟨events, htrace, htell⟩ := hfirst.trace
  obtain ⟨later, htrace', htell'⟩ := hnext.trace
  refine ⟨hfirst.toRecords.trans hnext.toRecords, events ++ later, ?_, ?_⟩
  · rw [htrace', htrace, List.append_assoc]
  · rw [List.flatMap_append, Node.entriesFrom_append, Node.filterMap_flatMap_walk,
      ← hfirst.position]
    exact htell.append htell'

theorem read
    (hrecord : switches.record = true)
    (token : Token) :
    state.Retells (state.read switches token) [.leaf token] :=
  ⟨.read hrecord token, [], by simp [State.read], by simpa using .nothing⟩

theorem learn (symbols : SymbolTable) (warnings : List Warning) :
    state.Retells (state.learn symbols warnings) [] :=
  ⟨⟨by simp, rfl⟩, warnings.map .warned, by simp [State.learn], .warned warnings⟩

/-- The event of a production comes before those of what is recorded inside of it. -/
theorem leave
    {production : Production}
    (hrecord : switches.record = true)
    (hinside : (state.enter production).Retells after nodes)
    (type? : Option ValueType) :
    state.Retells (after.leave switches production type? state.children)
      [.inner production.name type? nodes] := by
  obtain ⟨events, htrace, htell⟩ := hinside.trace
  refine ⟨hinside.toRecords.leave hrecord type?,
    .entered production state.cursor.position :: events, ?_, ?_⟩
  · rw [trace_leave, htrace]
    simp [enter]
  · simpa using htell.entered production state.cursor.position

end State.Retells

/-- What is recorded is retold in the trace. -/
theorem State.recording_retells
    {switches : Switches}
    (hrecord : switches.record = true) :
    State.Recording switches State.Retells where
  nothing := .nothing
  trans := .trans
  read _ token := .read hrecord token
  learn _ := .learn _ _
  broken _ hinside := hinside.leave hrecord none
  whole _ _ hinside := hinside.leave hrecord _

namespace Run

/-- The lines of the trace that matter least. -/
def debugLines (run : Run) : List String :=
  (run.trace.filter fun event => event.level = .debug).map Event.text

/-- The line that reports the violation, if there was one. -/
def stopLine? (run : Run) : Option String :=
  match run.verdict with
  | .failure _ message =>
      some ("stopped at token " ++ toString run.position ++ ": " ++ message)
  | .success | .fault _ => none

/-- The trace of the run and the tree tell the same. -/
structure TellsTree (run : Run) (tree : Node) : Prop where
  recorded : run.tree? = some tree
  /-- The productions of the tree are reported, and then the violation. -/
  lines : run.debugLines = tree.entries.map Entry.line ++ run.stopLine?.toList
  /-- A violation is reported exactly if the run fails, with its own position. -/
  stopped : ∀ position violation, .stopped position violation ∈ run.trace ↔
    position = run.position ∧ run.stop? = some (.violation violation)
  /-- A run that fails has a last event, which reports the violation. -/
  last : run.isSuccess = false → ∃ violation, run.stop? = some (.violation violation) ∧
    run.trace.getLast? = some (.stopped run.position violation)
  ordered : tree.entries.Pairwise fun earlier later => earlier.position ≤ later.position
  bounded : ∀ entry ∈ tree.entries, entry.position ≤ run.position

section TellsTree

variable {tokens : List Token} {symbols : SymbolTable} {after : State} {tree : Node}

theorem position_of_retells
    (h : (State.start tokens symbols).Retells after [tree]) :
    after.cursor.position = tree.leaves.length := by
  rw [h.position]
  simp [State.start, Cursor.start]

theorem bounded_of_retells
    (h : (State.start tokens symbols).Retells after [tree])
    {entry : Entry}
    (hentry : entry ∈ tree.entries) :
    entry.position ≤ after.cursor.position := by
  have hposition := (Node.position_of_mem_entriesFrom 0 tree.walk hentry).2
  rwa [Nat.zero_add, ← Node.leaves, ← position_of_retells h] at hposition

theorem tell_of_retells
    (h : (State.start tokens symbols).Retells after [tree]) :
    Event.Tell after.trace.toList tree.entries := by
  obtain ⟨events, htrace, htell⟩ := h.trace
  have hevents : after.trace.toList = events := by
    simpa [State.start] using htrace
  rw [hevents]
  simpa [Node.entries, State.start, Cursor.start] using htell

theorem tellsTree_of_ok
    (h : (State.start tokens symbols).Retells after [tree]) :
    (ofResult (.ok () after)).TellsTree tree where
  recorded := (EndsAt.ok rfl).tree?_of_records h.toRecords
  lines := (tell_of_retells h).debug.trans (List.append_nil _).symm
  stopped := by
    intro position violation
    constructor
    · intro hmem
      exact absurd hmem ((tell_of_retells h).unstopped position violation)
    · rintro ⟨_, hstop⟩
      cases hstop
  last := by
    intro hfailed
    cases hfailed
  ordered := Node.pairwise_entriesFrom 0 tree.walk
  bounded := fun _ hentry => bounded_of_retells h hentry

theorem tellsTree_of_violation
    (violation : Violation)
    (h : (State.start tokens symbols).Retells after [tree]) :
    (ofResult (.error (.violation violation) after)).TellsTree tree := by
  have htrace : (ofResult (.error (.violation violation) after)).trace =
      after.trace.toList ++ [.stopped after.cursor.position violation] :=
    State.toList_trace_note _ _
  refine ⟨(EndsAt.violation violation rfl).tree?_of_records h.toRecords, ?_, ?_, ?_, ?_, ?_⟩
  · rw [debugLines, htrace, List.filter_append, List.map_append, (tell_of_retells h).debug]
    rfl
  · intro position other
    rw [htrace, List.mem_append, List.mem_singleton]
    constructor
    · rintro (hmem | heq)
      · exact absurd hmem ((tell_of_retells h).unstopped position other)
      · cases heq
        exact ⟨rfl, rfl⟩
    · rintro ⟨rfl, hstop⟩
      cases hstop
      exact .inr rfl
  · intro _
    refine ⟨violation, rfl, ?_⟩
    rw [htrace, List.getLast?_concat]
    rfl
  · exact Node.pairwise_entriesFrom 0 tree.walk
  · exact fun _ hentry => bounded_of_retells h hentry

end TellsTree

end Run

/-- The trace of a run that records reports the productions of its tree, each before the
ones below it and with the number of leaves to the left of it, and then, if the run fails,
the violation. -/
theorem trace_tells_tree
    (declare checkTypes : Bool)
    (symbols : SymbolTable)
    (tokens : List Token) :
    ∃ tree, (recognize ⟨declare, checkTypes, true⟩ symbols tokens).TellsTree tree := by
  have hrecord : (⟨declare, checkTypes, true⟩ : Switches).record = true := rfl
  obtain ⟨after, tree, hends, hretells⟩ :=
    exists_recorded (State.recording_retells hrecord) symbols tokens
  refine ⟨tree, ?_⟩
  cases hends with
  | ok hrun =>
      rw [hrun]
      exact Run.tellsTree_of_ok hretells
  | violation violation hrun =>
      rw [hrun]
      exact Run.tellsTree_of_violation violation hretells

end SimpleC
