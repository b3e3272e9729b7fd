import SimpleC.Proofs.Course.Passing
import SimpleC.Proofs.DerivationTree.Recording
import SimpleC.Proofs.NodeTypes.Basic

/-!
# Types that are recorded

The type of a production is computed when its node closes, under the symbol table of that
moment. What has a type is a value, an expression or a condition that has come to its end:
its moves are told by the phrase, they declare nothing, and so its nodes are those of the
phrase under that table. As the table grows afterwards, the types stay right. So the types
on the recorded nodes are justified under the last table, also where the run breaks off
above them.
-/

namespace SimpleC

namespace Move

mutual

/-- The nodes that a move records if it ends well and declares nothing. -/
def nodes (symbols? : Option SymbolTable) : Move → List Node
  | step (.read token) => [.leaf token]
  | step (.check _) | step (.stop _) => []
  | within production moves =>
      [.inner production.name (production.type? symbols? (tokens moves))
        (nodesAll symbols? moves)]

/-- The nodes that moves record if they end well and declare nothing. -/
def nodesAll (symbols? : Option SymbolTable) : List Move → List Node
  | [] => []
  | move :: rest => nodes symbols? move ++ nodesAll symbols? rest

end

end Move

/-- None of the steps asks about a declaration. -/
def Step.DeclareNothing (steps : List Step) : Prop :=
  ∀ demand, .check demand ∈ steps → demand.isDeclaration = false

/-- Between the states the nodes were recorded and nothing was declared. -/
structure State.RecordsOnly (state after : State) (nodes : List Node) : Prop
    extends state.Records after nodes where
  symbols : after.symbols = state.symbols

section RecordsOnly

variable {switches : Switches} {state after : State}

theorem Step.DeclareNothing.append_iff {left right : List Step} :
    DeclareNothing (left ++ right) ↔ DeclareNothing left ∧ DeclareNothing right := by
  unfold DeclareNothing
  constructor
  · intro h
    exact ⟨fun demand hmem => h demand (List.mem_append_left _ hmem),
      fun demand hmem => h demand (List.mem_append_right _ hmem)⟩
  · rintro ⟨hleft, hright⟩ demand hmem
    rcases List.mem_append.mp hmem with hmem | hmem
    · exact hleft demand hmem
    · exact hright demand hmem

theorem Step.recordsOnly_of_perform
    {single : Step}
    (hrecord : switches.record = true)
    (hnothing : DeclareNothing [single])
    (h : single.perform switches state = .ok () after) :
    state.RecordsOnly after ((Move.step single).nodes (switches.typesUnder state.symbols)) := by
  cases single with
  | read token =>
      cases h
      exact ⟨.read hrecord token, by simp [State.read]⟩
  | stop violation =>
      cases h
  | check demand =>
      rw [perform_check] at h
      cases hanswer : demand.answer switches state.symbols with
      | error violation =>
          rw [hanswer] at h
          cases h
      | ok found =>
          rw [hanswer] at h
          cases h
          have hkind := hnothing demand List.mem_cons_self
          exact ⟨⟨by simp [Move.nodes], rfl⟩, Demand.symbols_of_answer hkind hanswer⟩

mutual

theorem Move.recordsOnly_of_perform
    (hrecord : switches.record = true)
    (move : Move)
    {state after : State}
    (hnothing : Step.DeclareNothing move.steps)
    (h : perform switches move state = .ok () after) :
    state.RecordsOnly after (move.nodes (switches.typesUnder state.symbols)) := by
  cases move with
  | step single =>
      exact Step.recordsOnly_of_perform hrecord hnothing h
  | within production moves =>
      cases hended : performAll switches moves (state.enter production) with
      | error stop ended =>
          rw [perform_within_of_error hended] at h
          cases h
      | ok _ ended =>
          obtain ⟨hrecords, hsymbols⟩ := recordsOnly_of_performAll hrecord moves hnothing hended
          have hsame : ended.symbols = state.symbols := hsymbols
          rw [perform_within_of_ok hended, hsame] at h
          cases h
          exact ⟨hrecords.leave hrecord _, by rw [State.symbols_leave, hsame]⟩

/-- Moves that end well and declare nothing record their nodes. -/
theorem Move.recordsOnly_of_performAll
    (hrecord : switches.record = true)
    (moves : List Move)
    {state after : State}
    (hnothing : Step.DeclareNothing (stepsAll moves))
    (h : performAll switches moves state = .ok () after) :
    state.RecordsOnly after (nodesAll (switches.typesUnder state.symbols) moves) := by
  cases moves with
  | nil =>
      cases h
      exact ⟨.nothing state, rfl⟩
  | cons move rest =>
      obtain ⟨hfirst, hrest⟩ := Step.DeclareNothing.append_iff.mp hnothing
      obtain ⟨_, middle, hmove, hmoves⟩ := bind_eq_ok.mp h
      obtain ⟨hrecords, hsymbols⟩ := recordsOnly_of_perform hrecord move hfirst hmove
      obtain ⟨hlater, hsymbols'⟩ := recordsOnly_of_performAll hrecord rest hrest hmoves
      rw [hsymbols] at hlater hsymbols'
      exact ⟨hrecords.trans hlater, hsymbols'⟩

end

end RecordsOnly

/-- The moves that read a value and ask about it. -/
def Operand.moves (value : Operand) : List Move :=
  [.step (.read value.token), .step (.check (.value value))]

/-- The moves of a whole expression. -/
def Expression.moves : Expression → List Move
  | single value => [.within .value value.moves]
  | binary left sign right =>
      [.within .value left.moves, .within .operator [.step (.read sign.word.token)],
        .within .value right.moves, .step (.check (.operation left sign right))]

section Typed

variable
    {switches : Switches}
    {symbols? : Option SymbolTable}
    {findings after : Findings}
    {production : Production}
    {ahead rest : List Token}
    {moves : List Move}

@[simp] theorem Operand.stepsAll_moves (value : Operand) :
    Move.stepsAll value.moves = value.steps :=
  rfl

@[simp] theorem Expression.stepsAll_moves (phrase : Expression) :
    Move.stepsAll phrase.moves = phrase.steps := by
  cases phrase with
  | single value =>
      simp [moves, steps]
  | binary left sign right =>
      simp [moves, steps]

theorem Expression.declareNothing_steps (phrase : Expression) :
    Step.DeclareNothing phrase.steps := by
  cases phrase <;> simp [Step.DeclareNothing, steps, Operand.steps, Demand.isDeclaration]

/-- A single value has the type of the value. -/
theorem Expression.type?_single (value : Operand) :
    (single value).type? symbols? = value.type? symbols? := by
  cases symbols? with
  | none =>
      rfl
  | some symbols =>
      rw [type?, Operand.type?, Option.bind_some, Option.bind_some, typing]
      cases value.typing symbols with
      | error | ok =>
          rfl

theorem Operand.nodes_within (value : Operand) :
    (Move.within .value value.moves).nodes symbols? = [value.node symbols?] := by
  have htype : Production.value.type? symbols? [value.token] = value.type? symbols? :=
    (Production.type?_of_expression (by simp) symbols?).trans (Expression.type?_single value)
  rw [Move.nodes, node, ← htype]
  rfl

/-- The moves of an expression record its node. -/
theorem Expression.nodes_within (phrase : Expression) :
    (Move.within .expression phrase.moves).nodes symbols? = [phrase.node symbols?] := by
  have htokens : Move.tokens phrase.moves = phrase.tokens := by
    rw [Move.tokens, stepsAll_moves, tokens_steps]
  have hparts : Move.nodesAll symbols? phrase.moves = phrase.parts symbols? := by
    cases phrase with
    | single value =>
        rw [moves, Move.nodesAll, value.nodes_within]
        rfl
    | binary left sign right =>
        rw [moves, Move.nodesAll, Move.nodesAll, Move.nodesAll, left.nodes_within,
          right.nodes_within]
        rfl
  rw [Move.nodes, hparts, htokens, Production.type?_of_expression (by simp), node]

/-- The moves of a condition record its node. -/
theorem Expression.nodes_within_condition (phrase : Expression) :
    (Move.within .condition
      [.within .expression phrase.moves, .step (.check (.condition phrase))]).nodes symbols? =
        [phrase.conditionNode symbols?] := by
  have htokens : Move.tokens [.within .expression phrase.moves,
      .step (.check (.condition phrase))] = phrase.tokens := by
    simp [Move.tokens]
  rw [Move.nodes, htokens, Move.nodesAll, phrase.nodes_within, conditionNode,
    Production.type?_of_expression (by simp)]
  rfl

theorem Course.moves_of_value
    (h : Course .value [] Production.value.items ahead moves (some rest)) :
    ∃ value : Operand, moves = value.moves := by
  have hchoice : Course .value [] [.choice .operand] ahead moves (some rest) := h
  cases hchoice with
  | choice hmore hcourse =>
      obtain ⟨wanted, hwanted, rfl⟩ := Choice.exists_operand_of_items hmore
      cases hcourse with
      | token _ hcourse =>
          cases hcourse with
          | check hcourse =>
              cases hcourse
              have hchecks := (Production.Marks.value ⟨_, by rw [hwanted]; rfl⟩).checks_eq
              exact ⟨⟨_, by rw [hwanted]; rfl⟩, congrArg _ ((List.append_nil _).trans hchecks)⟩

theorem Course.moves_of_operator
    (h : Course .operator [] Production.operator.items ahead moves (some rest)) :
    ∃ sign : Sign, moves = [.step (.read sign.word.token)] := by
  have hchoice : Course .operator [] [.choice .sign] ahead moves (some rest) := h
  cases hchoice with
  | choice hmore hcourse =>
      simp only [Choice.items] at hmore
      split at hmore <;> cases hmore
      cases hcourse with
      | token haccepts hcourse =>
          cases hcourse
          exact ⟨⟨_, _, haccepts⟩, rfl⟩

/-- An expression that comes to its end makes the moves of a phrase. -/
theorem Course.moves_of_expression
    (h : Course .expression [] Production.expression.items ahead moves (some rest)) :
    ∃ phrase : Expression, moves = phrase.moves := by
  have hitems : Course .expression [] [.phrase .value, .choice .operation] ahead moves
    (some rest) := h
  cases hitems with
  | phrase hvalue hcourse =>
      obtain ⟨left, rfl⟩ := hvalue.moves_of_value
      cases hcourse with
      | choice hmore hcourse =>
          simp only [Choice.items] at hmore
          split at hmore <;> cases hmore
          · cases hcourse with
            | phrase hsign hcourse =>
                obtain ⟨sign, rfl⟩ := hsign.moves_of_operator
                cases hcourse with
                | phrase hvalue hcourse =>
                    obtain ⟨right, rfl⟩ := hvalue.moves_of_value
                    cases hcourse with
                    | check hcourse =>
                        cases hcourse
                        have hchecks := (Production.Marks.operation left sign right).checks_eq
                        refine ⟨.binary left sign right, ?_⟩
                        rw [Expression.moves, ← hchecks, List.append_nil]
                        rfl
          · cases hcourse
            exact ⟨.single left, rfl⟩

/-- A condition that comes to its end makes the moves of an expression and asks about it. -/
theorem Course.moves_of_condition
    (h : Course .condition [] Production.condition.items ahead moves (some rest)) :
    ∃ phrase : Expression,
      moves = [.within .expression phrase.moves, .step (.check (.condition phrase))] := by
  have hitems : Course .condition [] [.phrase .expression, .check] ahead moves (some rest) := h
  cases hitems with
  | phrase hexpression hcourse =>
      obtain ⟨phrase, rfl⟩ := hexpression.moves_of_expression
      have htokens : Move.tokens phrase.moves = Step.tokens phrase.steps := by
        rw [Move.tokens, phrase.stepsAll_moves]
      cases hcourse with
      | check hcourse =>
          cases hcourse
          refine ⟨phrase, ?_⟩
          rw [List.nil_append, htokens, (Production.Marks.condition phrase).checks_eq]
          rfl

/-- A condition whose steps pass is a truth value. -/
theorem Expression.hasType_of_passes_condition
    {phrase : Expression}
    (htypes : switches.checkTypes = true)
    (h : Step.Passes switches (phrase.steps ++ [.check (.condition phrase)]) findings after) :
    phrase.HasType findings.symbols.environment .bool := by
  obtain ⟨middle, hphrase, hmark⟩ := Step.passes_append.mp h
  obtain ⟨hsame, typing, htyping⟩ := typing_of_passes htypes hphrase
  obtain ⟨symbols, warnings, hanswer, _⟩ := (Step.passes_check _).mp hmark
  rw [Demand.answer_of_types rfl htypes, hsame, Demand.ruling, htyping] at hanswer
  obtain ⟨_, hruling, _⟩ := except_map_eq_ok.mp hanswer
  obtain ⟨found, hfound, hruling⟩ := except_bind_eq_ok.mp hruling
  cases hfound
  obtain ⟨_, hcondition, _⟩ := except_bind_eq_ok.mp hruling
  rw [← TypeRules.condition_eq_ok_iff.mp hcondition]
  exact typing_eq_ok_iff.mp ⟨typing.warnings, htyping⟩

end Typed

section Whole

variable
    {switches : Switches}
    {state after : State}
    {production : Production}
    {ahead rest : List Token}
    {moves : List Move}

/-- What a production with types has recorded at its end. -/
def Node.ofMoves (symbols : SymbolTable) (production : Production) (moves : List Move) : Node :=
  .inner production.name (production.type? (some symbols) (Move.tokens moves))
    (Move.nodesAll (some symbols) moves)

/-- The types on the nodes of what has types and has come to its end are justified. -/
theorem Course.justified_ofMoves
    (htypes : switches.checkTypes = true)
    (h : Course production [] production.items ahead moves (some rest))
    (hproduction : production ∈ [.value, .expression, .condition])
    (hperformed : Move.performAll switches moves (state.enter production) = .ok () after) :
    Step.DeclareNothing (Move.stepsAll moves) ∧
      (Node.ofMoves state.symbols production moves).Everywhere
        (Node.Justified state.symbols) := by
  have hpasses := Move.passes_of_performAll hperformed
  have hnode : ∀ {node : Node},
      (Move.within production moves).nodes (some state.symbols) = [node] →
        node = Node.ofMoves state.symbols production moves :=
    fun hnodes => (List.singleton_inj.mp hnodes).symm
  cases production with
  | value =>
      obtain ⟨value, rfl⟩ := h.moves_of_value
      obtain ⟨_, type, htyping⟩ := Operand.typing_of_passes htypes hpasses
      refine ⟨(Expression.single value).declareNothing_steps, ?_⟩
      rw [← hnode value.nodes_within]
      exact Operand.justified_node (Operand.typing_eq_ok_iff.mp htyping)
  | expression =>
      obtain ⟨phrase, rfl⟩ := h.moves_of_expression
      rw [phrase.stepsAll_moves] at hpasses ⊢
      obtain ⟨_, typing, htyping⟩ := Expression.typing_of_passes htypes hpasses
      refine ⟨phrase.declareNothing_steps, ?_⟩
      rw [← hnode phrase.nodes_within]
      exact Expression.justified_node (Expression.typing_eq_ok_iff.mp ⟨_, htyping⟩)
  | condition =>
      obtain ⟨phrase, rfl⟩ := h.moves_of_condition
      have hsteps : Move.stepsAll [.within .expression phrase.moves,
          .step (.check (.condition phrase))] =
            phrase.steps ++ [.check (.condition phrase)] := by
        simp
      rw [hsteps] at hpasses ⊢
      refine ⟨Step.DeclareNothing.append_iff.mpr ⟨phrase.declareNothing_steps, ?_⟩, ?_⟩
      · simp [Step.DeclareNothing, Demand.isDeclaration]
      · rw [← hnode phrase.nodes_within_condition]
        exact Expression.justified_conditionNode
          (Expression.hasType_of_passes_condition htypes hpasses)
  | _ =>
      simp at hproduction

end Whole

/-- The type of the node, if it has one, is justified under the table that types are read
from; without such a table it has none. -/
def Node.TypedUnder (symbols? : Option SymbolTable) (node : Node) : Prop :=
  match symbols? with
  | none => node.type? = none
  | some symbols => node.Justified symbols

/-- Between the states the nodes were recorded, with types under the table at the end. -/
structure State.RecordsTyped
    (switches : Switches)
    (state after : State)
    (nodes : List Node) : Prop extends state.Records after nodes where
  within : state.symbols.Within after.symbols
  typed : ∀ node ∈ nodes,
    node.Everywhere (Node.TypedUnder (switches.typesUnder after.symbols))

section RecordsTyped

variable
    {switches : Switches}
    {symbols? : Option SymbolTable}
    {symbols larger : SymbolTable}
    {state after : State}
    {nodes : List Node}

theorem Node.typedUnder_of_untyped {node : Node} (h : node.type? = none) :
    node.TypedUnder symbols? := by
  cases symbols? with
  | none =>
      exact h
  | some symbols =>
      exact .untyped h

theorem Node.TypedUnder.of_within
    {node : Node}
    (hwithin : symbols.Within larger)
    (h : node.TypedUnder (switches.typesUnder symbols)) :
    node.TypedUnder (switches.typesUnder larger) := by
  unfold Switches.typesUnder at h ⊢
  cases htypes : switches.checkTypes with
  | false =>
      rw [htypes] at h
      exact h
  | true =>
      rw [htypes] at h
      exact Node.Justified.of_within hwithin h

theorem Production.type?_none (production : Production) (tokens : List Token) :
    production.type? none tokens = none := by
  cases production <;> simp [type?, Expression.type?]

theorem Demand.within_of_answer
    {demand : Demand}
    {warnings : List Warning}
    (h : demand.answer switches symbols = .ok (larger, warnings)) :
    symbols.Within larger :=
  (entries_of_answer h).subset

/-- Nodes that were recorded from one state to another are the same ones. -/
theorem State.Records.unique
    {more : List Node}
    (h : state.Records after nodes)
    (hmore : state.Records after more) :
    nodes = more :=
  List.append_cancel_left (h.children.symm.trans hmore.children)

namespace State.RecordsTyped

/-- A node without a type is added to what is below it. -/
theorem untyped
    {production : Production}
    {type? : Option ValueType}
    (hrecord : switches.record = true)
    (htype : type? = none)
    (h : (state.enter production).RecordsTyped switches after nodes) :
    state.RecordsTyped switches (after.leave switches production type? state.children)
      [.inner production.name type? nodes] where
  toRecords := h.toRecords.leave hrecord type?
  within := by
    rw [symbols_leave]
    exact h.within
  typed := by
    rw [symbols_leave, List.forall_mem_singleton, Node.everywhere_inner]
    exact ⟨Node.typedUnder_of_untyped htype, h.typed⟩

/-- A production that has come to its end has a node with a type under the last table. -/
theorem whole
    {production : Production}
    {ahead : List Token}
    {moves : List Move}
    {rest? : Option (List Token)}
    (hrecord : switches.record = true)
    (hcourse : Course production [] production.items ahead moves rest?)
    (hperformed : Move.performAll switches moves (state.enter production) = .ok () after)
    (h : (state.enter production).RecordsTyped switches after nodes) :
    state.RecordsTyped switches
      (after.leave switches production
        (production.type? (switches.typesUnder after.symbols) (Move.tokens moves))
        state.children)
      [.inner production.name
        (production.type? (switches.typesUnder after.symbols) (Move.tokens moves)) nodes] := by
  cases htypes : switches.checkTypes with
  | false =>
      refine h.untyped hrecord ?_
      rw [Switches.typesUnder, htypes]
      exact production.type?_none _
  | true =>
      by_cases hproduction : production ∈ [.value, .expression, .condition]
      · cases rest? with
        | none =>
            exact absurd (Move.passes_of_performAll hperformed).violation
              (hcourse.violation?_ne_none switches _)
        | some rest =>
            obtain ⟨hnothing, hjustified⟩ :=
              hcourse.justified_ofMoves htypes hproduction hperformed
            obtain ⟨hrecords, hsymbols⟩ :=
              Move.recordsOnly_of_performAll hrecord moves hnothing hperformed
            have hsame : after.symbols = state.symbols := hsymbols
            have htable : switches.typesUnder state.symbols = some state.symbols := by
              rw [Switches.typesUnder, if_pos htypes]
            have hinside : switches.typesUnder (state.enter production).symbols =
              some state.symbols := htable
            obtain rfl := h.toRecords.unique hrecords
            refine ⟨hrecords.leave hrecord _, ?_, ?_⟩
            · rw [symbols_leave]
              exact h.within
            · rw [symbols_leave, List.forall_mem_singleton, hsame, htable, hinside]
              exact hjustified
      · refine h.untyped hrecord ?_
        cases production with
        | value | expression | condition =>
            exact absurd (by decide) hproduction
        | _ =>
            rfl

/-- What is recorded has types under the table at the end. -/
theorem recording (hrecord : switches.record = true) :
    State.Recording switches (State.RecordsTyped switches) where
  nothing state := ⟨.nothing state, .refl _, List.forall_mem_nil _⟩
  trans := by
    intro state middle after nodes more hfirst hnext
    refine ⟨hfirst.toRecords.trans hnext.toRecords, hfirst.within.trans hnext.within, ?_⟩
    refine List.forall_mem_append.mpr ⟨?_, hnext.typed⟩
    intro tree htree node hnode
    exact (hfirst.typed tree htree node hnode).of_within hnext.within
  read state token := by
    refine ⟨.read hrecord token, ?_, ?_⟩
    · rw [State.read, symbols_append]
      exact .refl _
    · rw [List.forall_mem_singleton, Node.everywhere_leaf]
      exact Node.typedUnder_of_untyped rfl
  learn hanswer := ⟨⟨by simp, rfl⟩, Demand.within_of_answer hanswer, List.forall_mem_nil _⟩
  broken _ h := h.untyped hrecord rfl
  whole hcourse hperformed h := h.whole hrecord hcourse hperformed

end State.RecordsTyped

end RecordsTyped

end SimpleC
