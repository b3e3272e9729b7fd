import SimpleC.Proofs.DerivationTree.NearestElse
import SimpleC.Proofs.Phrase.Derivation
import SimpleC.Proofs.Phrase.Node

/-!
# The derivation trees of phrases

The tree of a phrase is a derivation of its tokens, whatever types its nodes
carry, and it keeps its `else`s exactly if every `else` of the phrase is at the
nearest conditional. Conversely, every derivation is the tree of a phrase, up to
types. So a program has one derivation that keeps its `else`s, and no other.
-/

namespace SimpleC

open Grammar

variable {symbols? : Option SymbolTable} {next : List Token}

section Leaves

theorem Operand.leaves_node (value : Operand) : (value.node symbols?).leaves = [value.token] := by
  simp [node]

theorem Expression.leaves_node (phrase : Expression) :
    (phrase.node symbols?).leaves = phrase.tokens := by
  cases phrase with
  | single value =>
      simp [node, parts, tokens, value.leaves_node]
  | binary left sign right =>
      simp [node, parts, tokens, left.leaves_node, right.leaves_node, Sign.node, Production.node]

theorem Expression.leaves_conditionNode (phrase : Expression) :
    (phrase.conditionNode symbols?).leaves = phrase.tokens := by
  simp [conditionNode, phrase.leaves_node]

theorem Printed.leaves_node (printed : Printed) :
    (printed.node symbols?).leaves = [printed.token] := by
  cases printed with
  | endOfLine word =>
      simp [node, Production.node, token]
  | value operand =>
      simp [node, Production.node, token, operand.leaves_node]

theorem Guard.leaves_nodes (guard : Guard) :
    (guard.nodes symbols?).flatMap Node.leaves = guard.tokens := by
  simp [nodes, tokens, guard.condition.leaves_conditionNode]

@[simp] theorem Statement.leaves_node (statement : Statement) :
    (statement.node symbols?).leaves = statement.tokens := by
  induction statement with
  | empty | declaration | input =>
      simp [node, Production.node, tokens]
  | output word arrows printed semicolon =>
      simp [node, Production.node, tokens, printed.leaves_node]
  | assignment name equals value semicolon =>
      simp [node, Production.node, tokens, value.leaves_node]
  | conditional guard thenPart ih =>
      simp [node, Production.node, tokens, guard.leaves_nodes, ih]
  | alternative guard thenPart word elsePart ihthen ihelse =>
      simp [node, Production.node, tokens, guard.leaves_nodes, ihthen, ihelse]

theorem Program.leaves_node (program : Program) :
    (program.node symbols?).leaves = program.tokens := by
  simp [node, Production.node, tokens, body, List.flatMap_map]

end Leaves

section EraseTypes

/-- Types are known under a symbol table only. -/
@[simp] theorem Operand.eraseTypes_node (value : Operand) :
    (value.node symbols?).eraseTypes = value.node none := by
  simp [node, type?]

@[simp] theorem Sign.eraseTypes_node (sign : Sign) : sign.node.eraseTypes = sign.node := by
  simp [node, Production.node]

@[simp] theorem Expression.eraseTypes_node (phrase : Expression) :
    (phrase.node symbols?).eraseTypes = phrase.node none := by
  cases phrase with
  | single | binary =>
      simp [node, parts, type?]

@[simp] theorem Expression.eraseTypes_conditionNode (phrase : Expression) :
    (phrase.conditionNode symbols?).eraseTypes = phrase.conditionNode none := by
  simp [conditionNode, type?]

@[simp] theorem Printed.eraseTypes_node (printed : Printed) :
    (printed.node symbols?).eraseTypes = printed.node none := by
  cases printed with
  | endOfLine | value =>
      simp [node, Production.node]

@[simp] theorem Statement.eraseTypes_node (statement : Statement) :
    (statement.node symbols?).eraseTypes = statement.node none := by
  induction statement with
  | empty | declaration | input | output | assignment =>
      simp [node, Production.node]
  | conditional guard thenPart ih =>
      simp [node, Production.node, Guard.nodes, ih]
  | alternative guard thenPart word elsePart ihthen ihelse =>
      simp [node, Production.node, Guard.nodes, ihthen, ihelse]

theorem Program.eraseTypes_node (program : Program) :
    (program.node symbols?).eraseTypes = program.node none := by
  simp [node, Production.node, Function.comp_def]

end EraseTypes

section Spans

variable {rest : List Constituent} {nodes : List Node}

theorem Terminal.spans
    {wanted : Expectation}
    (terminal : Terminal wanted)
    (hrest : Spans rest nodes) :
    Spans (.terminal wanted :: rest) (.leaf terminal.token :: nodes) :=
  .terminal terminal.accepted hrest

/-- Applying a rule derives one node from the nodes of its right-hand side. -/
theorem Grammar.Spans.ofRule
    {production : Production}
    {body : List Constituent}
    {children : List Node}
    (hrule : Rule production body)
    (hbody : Spans body children) :
    Spans [.nonterminal production] [production.node children] :=
  .nonterminal hrule hbody .nil

theorem Operand.spans (value : Operand) :
    Spans [.nonterminal .value] [value.node symbols?] := by
  obtain ⟨wanted, hmem, haccepts⟩ := value.exists_terminal
  exact .nonterminal (.value hmem) (.terminal haccepts .nil) .nil

theorem Sign.spans (sign : Sign) : Spans [.nonterminal .operator] [sign.node] := by
  have hmem : bare sign.operator.spelling ∈ operatorTerminals := by
    rw [operatorTerminals_eq]
    exact List.mem_map_of_mem (Operator.mem_all sign.operator)
  exact .ofRule (.operator hmem) (sign.word.spans .nil)

theorem Expression.spans (phrase : Expression) :
    Spans [.nonterminal .expression] [phrase.node symbols?] := by
  cases phrase with
  | single value =>
      exact .nonterminal .single value.spans .nil
  | binary left sign right =>
      exact .nonterminal .binary (left.spans.append (sign.spans.append right.spans)) .nil

theorem Expression.spans_condition (phrase : Expression) :
    Spans [.nonterminal .condition] [phrase.conditionNode symbols?] :=
  .nonterminal .condition phrase.spans .nil

theorem Printed.spans (printed : Printed) :
    Spans [.nonterminal .outputValue] [printed.node symbols?] := by
  cases printed with
  | endOfLine word =>
      exact .ofRule .endOfLine (word.spans .nil)
  | value operand =>
      exact .ofRule .printedValue operand.spans

/-- The node of a conditional is made of its head and its two parts. -/
theorem Guard.spans
    (guard : Guard)
    {thenPart elsePart : Node}
    (hthen : Spans [.nonterminal .thenPart] [thenPart])
    (helse : Spans [.nonterminal .elsePart] [elsePart]) :
    Spans [.nonterminal .conditional]
      [Production.conditional.node (guard.nodes symbols? ++ [thenPart, elsePart])] := by
  have hparts := guard.right.spans (hthen.append helse)
  have hcondition := (@Expression.spans_condition symbols? guard.condition).append hparts
  exact .ofRule .conditional (guard.opening.spans (guard.left.spans hcondition))

/-- A node of one of the six forms makes a statement. -/
theorem Grammar.Spans.ofForm
    (form : Production)
    {node : Node}
    (hform : form ∈
      [Production.empty, .declaration, .input, .output, .assignment, .conditional])
    (hspans : Spans [.nonterminal form] [node]) :
    Spans [.nonterminal .statement] [Production.statement.node [node]] :=
  .ofRule (.statement hform) hspans

theorem Statement.spans (statement : Statement) :
    Spans [.nonterminal .statement] [statement.node symbols?] := by
  induction statement with
  | empty semicolon =>
      exact .ofForm .empty (by simp) (.ofRule .empty (semicolon.spans .nil))
  | declaration declarator name semicolon =>
      exact .ofForm .declaration (by simp)
        (.ofRule (.declaration declarator.bare_mem)
          (declarator.word.spans (name.spans (semicolon.spans .nil))))
  | input word arrows name semicolon =>
      exact .ofForm .input (by simp)
        (.ofRule .input (word.spans (arrows.spans (name.spans (semicolon.spans .nil)))))
  | output word arrows printed semicolon =>
      exact .ofForm .output (by simp)
        (.ofRule .output
          (word.spans (arrows.spans (printed.spans.append (semicolon.spans .nil)))))
  | assignment name equals value semicolon =>
      exact .ofForm .assignment (by simp)
        (.ofRule .assignment
          (name.spans (equals.spans (value.spans.append (semicolon.spans .nil)))))
  | conditional guard thenPart ih =>
      exact .ofForm .conditional (by simp)
        (guard.spans (.ofRule .thenPart ih) (.ofRule .noElse .nil))
  | alternative guard thenPart word elsePart ihthen ihelse =>
      exact .ofForm .conditional (by simp)
        (guard.spans (.ofRule .thenPart ihthen) (.ofRule .otherwise (word.spans ihelse)))

/-- Statements in a row are derived one after the other. -/
theorem Statement.spans_all (statements : List Statement) :
    Spans (List.replicate statements.length (.nonterminal .statement))
      (statements.map (node symbols?)) := by
  induction statements with
  | nil =>
      exact .nil
  | cons statement rest ih =>
      exact statement.spans.append ih

theorem Program.spans (program : Program) :
    Spans [.nonterminal .program] [program.node symbols?] := by
  have hbody : Spans [.nonterminal .statements]
      [Production.statements.node (program.statements.map (Statement.node symbols?))] :=
    .ofRule (.statements program.further.length) (Statement.spans_all program.statements)
  have hrest := hbody.append (program.closing.spans (program.stop.spans .nil))
  refine .ofRule .program ?_
  exact program.void.spans (program.main.spans (program.left.spans
    (program.right.spans (program.opening.spans hrest))))

end Spans

end SimpleC
