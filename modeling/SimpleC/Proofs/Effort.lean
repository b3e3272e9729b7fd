import SimpleC.Proofs.DerivationTree.Effort
import SimpleC.Proofs.DerivationTree.Failed
import SimpleC.Proofs.DerivationTree.Recorded
import SimpleC.Proofs.DerivationTree.Unrecorded

/-!
# The effort of a run

A run enters at most two productions for each token that it consumes, and one more, whatever
the tokens are and wherever it ends. It enters no two statements at the same token, so that
neither the repetition of statements nor their nesting goes on without consuming a token, and
its bound on both is never reached. The productions that a run enters are those of the tree
that it records, or would record, which is a derivation or one that was broken off.
-/

namespace SimpleC

open Grammar

namespace Node

theorem length_entriesFrom (position : Nat) (nodes : List Node) :
    (entriesFrom position nodes).length = nodes.countP fun node => node.kind = .production := by
  induction nodes generalizing position with
  | nil =>
      rfl
  | cons node rest ih =>
      rw [entriesFrom, List.countP_cons]
      cases node.kind with
      | production =>
          simp [ih]
      | token =>
          simp [ih]

end Node

namespace Run

/-- The productions that a run has entered, in order, as its trace reports them. -/
def entries (run : Run) : List Entry :=
  run.trace.filterMap Event.entry?

/-- How many tokens were consumed before each of the statements that a run has entered. -/
def statementPositions (run : Run) : List Nat :=
  (run.entries.filter fun entry => entry.name = Production.statement.name).map Entry.position

end Run

section Effort

variable {switches : Switches} {symbols : SymbolTable} {tokens : List Token}

/-- A run that fails has recorded a derivation of a program that was broken off. -/
theorem exists_truncated_of_failure
    (hrecord : switches.record = true)
    (h : (recognize switches symbols tokens).isSuccess = false) :
    ∃ tree, (recognize switches symbols tokens).tree? = some tree ∧
      Truncated [.nonterminal .program] [tree] := by
  obtain ⟨moves, hcourse, hruns⟩ := exists_moves tokens
  rw [(hruns switches symbols).1] at h ⊢
  cases hended : Move.performAll switches moves (.start tokens symbols) with
  | ok _ after =>
      rw [hended] at h
      cases h
  | error stop after =>
      obtain ⟨rest?, hphrase⟩ := hcourse.exists_phraseRecorded hrecord hended
      cases hphrase with
      | error hrecords htruncated =>
          exact ⟨_, Run.tree?_of_error hrecords, htruncated⟩

/-- The tree of a run is a derivation of a program, whole or broken off. -/
theorem spans_or_truncated_of_tree
    {tree : Node}
    (hrecord : switches.record = true)
    (htree : (recognize switches symbols tokens).tree? = some tree) :
    Spans [.nonterminal .program] [tree] ∨ Truncated [.nonterminal .program] [tree] := by
  obtain ⟨declare, checkTypes, record⟩ := switches
  obtain rfl : record = true := hrecord
  cases hsuccess : (recognize ⟨declare, checkTypes, true⟩ symbols tokens).isSuccess with
  | true =>
      obtain ⟨program, symbols?, _, _, hnode⟩ := exists_program_of_tree hsuccess
      obtain rfl := Option.some.inj (htree.symm.trans hnode)
      exact .inl program.spans
  | false =>
      obtain ⟨other, hother, htruncated⟩ := exists_truncated_of_failure rfl hsuccess
      obtain rfl := Option.some.inj (htree.symm.trans hother)
      exact .inr htruncated

end Effort

namespace Run

/-- The run has entered the productions of the tree, and has consumed its leaves. It has not
contradicted itself. -/
structure Enters (run : Run) (tree : Node) : Prop where
  entries : run.entries = tree.entries
  position : run.position = tree.leaves.length
  bounded : ∀ entry ∈ run.entries, entry.position ≤ run.position
  faultless : ∀ fault, run.stop? ≠ some (.fault fault)

section Enters

variable {run : Run} {tree : Node}

theorem Enters.length_entries (h : run.Enters tree) :
    run.entries.length = Node.productionCount [tree] := by
  rw [h.entries, Node.entries, Node.length_entriesFrom, Node.productionCount,
    List.flatMap_singleton]

theorem Enters.statementPositions_eq (h : run.Enters tree) :
    run.statementPositions = Node.statementPositions 0 [tree] := by
  rw [statementPositions, h.entries, Node.statementPositions, List.flatMap_singleton]
  rfl

/-- The events of a run that ends with a violation are those before it, and one that enters
nothing. -/
theorem enters_of_retells
    {tokens : List Token}
    {symbols : SymbolTable}
    {after : State}
    (hends : run.EndsAt after)
    (h : (State.start tokens symbols).Retells after [tree]) :
    run.Enters tree := by
  have htold := (tell_of_retells h).entries
  have hposition := position_of_retells h
  have hbounded : ∀ entry ∈ tree.entries, entry.position ≤ after.cursor.position :=
    fun _ => bounded_of_retells h
  cases hends with
  | ok hrun =>
      subst hrun
      refine ⟨htold, hposition, ?_, fun fault hstop => by cases hstop⟩
      exact fun entry hentry => hbounded entry (htold ▸ hentry)
  | violation violation hrun =>
      subst hrun
      have hentries : (ofResult (.error (.violation violation) after)).entries = tree.entries := by
        rw [← htold]
        show (State.note after _).trace.toList.filterMap _ = _
        simp [Event.entry?]
      refine ⟨hentries, hposition, ?_, fun fault hstop => by cases hstop⟩
      exact fun entry hentry => hbounded entry (hentries ▸ hentry)

end Enters

end Run

/-- A run that records enters the productions of its tree. -/
theorem exists_entered
    {switches : Switches}
    (hrecord : switches.record = true)
    (symbols : SymbolTable)
    (tokens : List Token) :
    ∃ tree, (recognize switches symbols tokens).tree? = some tree ∧
      (recognize switches symbols tokens).Enters tree := by
  obtain ⟨after, tree, hends, hretells⟩ :=
    exists_recorded (State.recording_retells hrecord) symbols tokens
  exact ⟨tree, hends.tree?_of_records hretells.toRecords, Run.enters_of_retells hends hretells⟩

/-- What a run does is in proportion to the tokens that it consumes. -/
structure Run.IsLinear (run : Run) : Prop where
  /-- At most two productions are entered for each token, and one more. -/
  entries : run.entries.length ≤ 2 * run.position + 1
  /-- As many nodes of productions are recorded. -/
  nodes : ∀ tree, run.tree? = some tree →
    (tree.walk.countP fun node => node.kind = .production) = run.entries.length
  /-- A token is consumed between the begins of any two statements, whether one is inside of the
  other or after it. -/
  statements : run.statementPositions.Pairwise (· < ·)
  /-- No production is entered beyond the end of what is consumed. -/
  bounded : ∀ entry ∈ run.entries, entry.position ≤ run.position
  /-- The bound on the number of statements and on their nesting is never reached. -/
  bound : run.stop? ≠ some (.fault .outOfFuel)

theorem Run.Enters.isLinear
    {run : Run}
    {tree : Node}
    (h : run.Enters tree)
    (htree : run.tree? = some tree)
    (hderivation : Spans [.nonterminal .program] [tree] ∨
      Truncated [.nonterminal .program] [tree]) :
    run.IsLinear where
  entries := by
    rw [h.length_entries, h.position]
    exact productionCount_program_le hderivation
  nodes := by
    intro other hother
    obtain rfl := Option.some.inj (htree.symm.trans hother)
    rw [h.length_entries, Node.productionCount, List.flatMap_singleton]
  statements := by
    rw [h.statementPositions_eq]
    exact pairwise_statementPositions hderivation
  bounded := h.bounded
  bound := h.faultless .outOfFuel

/-- A run enters at most two productions for each token that it consumes, and one more, and
no two statements at the same token: whatever its switches, its symbol table and the tokens
are, and wherever it ends. -/
theorem effort_is_linear (switches : Switches) (symbols : SymbolTable) (tokens : List Token) :
    (recognize switches symbols tokens).IsLinear := by
  obtain ⟨declare, checkTypes, record⟩ := switches
  have hrecord : (⟨declare, checkTypes, true⟩ : Switches).record = true := rfl
  obtain ⟨tree, htree, henters⟩ := exists_entered hrecord symbols tokens
  have hlinear := henters.isLinear htree (spans_or_truncated_of_tree hrecord htree)
  cases record with
  | true =>
      exact hlinear
  | false =>
      rw [recognize_unrecorded]
      exact ⟨hlinear.entries, nofun, hlinear.statements, hlinear.bounded, hlinear.bound⟩

/-- The bound is reached where nothing is consumed. -/
example : (check false []).entries.length = 2 * (check false []).position + 1 := by
  decide +kernel

end SimpleC
