import SimpleC.Proofs.DerivationTree.Phrase
import SimpleC.Proofs.Phrase.Unique

/-!
# The only derivation tree

The tree of a phrase keeps its `else`s exactly if every `else` of the phrase is at
the nearest conditional. Conversely, every derivation is the tree of a phrase, up
to types. Since there is one program only with given tokens that has its `else`s
at the nearest conditionals, there is one derivation tree only that keeps them.
-/

namespace SimpleC

open Grammar

variable {symbols? : Option SymbolTable} {next : List Token}

section KeepsElses

@[simp] theorem Operand.keepsElses_node (value : Operand) :
    (value.node symbols?).KeepsElses next := by
  simp [node]

@[simp] theorem Expression.keepsElses_node (phrase : Expression) :
    (phrase.node symbols?).KeepsElses next := by
  cases phrase with
  | single | binary =>
      simp [node, parts, Sign.node, Production.node]

@[simp] theorem Expression.keepsElses_conditionNode (phrase : Expression) :
    (phrase.conditionNode symbols?).KeepsElses next := by
  simp [conditionNode]

@[simp] theorem Printed.keepsElses_node (printed : Printed) :
    (printed.node symbols?).KeepsElses next := by
  cases printed with
  | endOfLine | value =>
      simp [node, Production.node]

/-- A conditional keeps its `else`s if its parts do and, without a part for `else`, none
follows. -/
theorem Guard.keepsElses_node (guard : Guard) (branch : Node) (parts : List Node) :
    (Production.statement.node [Production.conditional.node (guard.nodes symbols? ++
        [Production.thenPart.node [branch], Production.elsePart.node parts])]).KeepsElses next ↔
      (parts = [] → BeginsWithoutElse next) ∧
        branch.KeepsElses (parts.flatMap Node.leaves ++ next) ∧ Node.KeepElses next parts := by
  have hlacks : (Production.conditional.node (guard.nodes symbols? ++
      [Production.thenPart.node [branch], Production.elsePart.node parts])).LacksElse ↔
        parts = [] := by
    simp [Production.node, nodes, Expression.conditionNode]
  rw [Production.node, Node.keepsElses_inner, Node.keepElses_cons]
  simp only [Production.node, Node.keepsElses_inner] at hlacks ⊢
  rw [hlacks]
  simp [nodes]

/-- A statement keeps its `else`s where it stands if every `else` in it is at the nearest
conditional and none that follows would be at a conditional in it. -/
theorem Statement.keepsElses_node (statement : Statement) :
    (statement.node symbols?).KeepsElses next ↔
      statement.NearestElse ∧ (statement.endsOpen = true → BeginsWithoutElse next) := by
  induction statement generalizing next with
  | empty | declaration | input | output | assignment =>
      simp [node, Production.node, NearestElse, endsOpen]
  | conditional guard thenPart ih =>
      rw [node, guard.keepsElses_node, List.flatMap_nil, List.nil_append, ih]
      simp only [NearestElse, endsOpen, Node.keepElses_nil, and_true, true_implies]
      constructor
      · rintro ⟨hnext, hthen, _⟩
        exact ⟨hthen, hnext⟩
      · rintro ⟨hthen, hnext⟩
        exact ⟨hnext, hthen, fun _ => hnext⟩
  | alternative guard thenPart word elsePart ihthen ihelse =>
      -- an `else` follows the first branch, which therefore must not end open
      have hthen := @ihthen (word.token :: (elsePart.tokens ++ next))
      rw [beginsWithoutElse_cons, word.isSpelled_token] at hthen
      rw [node, guard.keepsElses_node]
      simp only [List.flatMap_cons, List.flatMap_nil, Node.leaves_leaf, leaves_node,
        List.append_nil, List.cons_append, List.nil_append, Node.keepElses_cons,
        Node.keepsElses_leaf, Node.keepElses_nil, hthen, ihelse, NearestElse, endsOpen]
      simp [and_assoc, and_left_comm]

/-- What follows a statement in a program begins with no `else`. -/
theorem Statement.beginsWithoutElse_row
    (further : List Statement)
    (closing : Word "\x7d")
    (tail : List Token) :
    BeginsWithoutElse (further.flatMap tokens ++ closing.token :: tail) := by
  obtain ⟨token, rest, htokens, hother⟩ := exists_no_else further closing tail
  rw [htokens, beginsWithoutElse_cons]
  exact hother

theorem Statement.keepElses_row
    (closing : Word "\x7d")
    (tail : List Token)
    (statements : List Statement) :
    Node.KeepElses (closing.token :: tail) (statements.map (node symbols?)) ↔
      ∀ statement ∈ statements, statement.NearestElse := by
  induction statements with
  | nil =>
      simp
  | cons statement rest ih =>
      have hnext : BeginsWithoutElse
          ((rest.map (node symbols?)).flatMap Node.leaves ++ closing.token :: tail) := by
        simpa [List.flatMap_map] using beginsWithoutElse_row rest closing tail
      rw [List.map_cons, Node.keepElses_cons, statement.keepsElses_node, ih,
        List.forall_mem_cons]
      simp only [hnext, implies_true, and_true]

theorem Program.keepsElses_node (program : Program) :
    (program.node symbols?).KeepsElses [] ↔ program.NearestElse := by
  have hrow : Node.KeepElses [program.closing.token, program.stop.token]
      (program.statements.map (Statement.node symbols?)) ↔ _ :=
    Statement.keepElses_row program.closing [program.stop.token] program.statements
  simpa [node, Production.node, NearestElse] using hrow

end KeepsElses

namespace Grammar

/-- The tree is, up to types, the tree of a phrase of the production. -/
def Depicts : Production → Node → Prop
  | .program, tree => ∃ program : Program, tree.eraseTypes = program.node none
  | .statements, tree =>
      ∃ (first : Statement) (further : List Statement),
        tree.eraseTypes =
          Production.statements.node ((first :: further).map (Statement.node none))
  | .statement, tree => ∃ statement : Statement, tree.eraseTypes = statement.node none
  | .empty, tree | .declaration, tree | .input, tree | .output, tree | .assignment, tree
  | .conditional, tree =>
      ∃ statement : Statement,
        Production.statement.node [tree.eraseTypes] = statement.node none
  | .outputValue, tree => ∃ printed : Printed, tree.eraseTypes = printed.node none
  | .condition, tree => ∃ phrase : Expression, tree.eraseTypes = phrase.conditionNode none
  | .thenPart, tree =>
      ∃ statement : Statement,
        tree.eraseTypes = Production.thenPart.node [statement.node none]
  | .elsePart, tree =>
      tree.eraseTypes = Production.elsePart.node [] ∨
        ∃ (word : Word "else") (statement : Statement),
          tree.eraseTypes =
            Production.elsePart.node [.leaf word.token, statement.node none]
  | .expression, tree => ∃ phrase : Expression, tree.eraseTypes = phrase.node none
  | .value, tree => ∃ value : Operand, tree.eraseTypes = value.node none
  | .operator, tree => ∃ sign : Sign, tree.eraseTypes = sign.node

/-- The trees are, up to types, the trees of phrases of the constituents. -/
def DepictAll : List Constituent → List Node → Prop
  | [], nodes => nodes = []
  | .terminal wanted :: rest, nodes =>
      ∃ (terminal : Terminal wanted) (tail : List Node),
        nodes = .leaf terminal.token :: tail ∧ DepictAll rest tail
  | .nonterminal production :: rest, nodes =>
      ∃ tree tail, nodes = tree :: tail ∧ Depicts production tree ∧ DepictAll rest tail

theorem exists_statements_of_depictAll
    (count : Nat)
    (nodes : List Node)
    (hdepict : DepictAll (List.replicate count (.nonterminal .statement)) nodes) :
    ∃ statements : List Statement,
      statements.length = count ∧
        nodes.map Node.eraseTypes = statements.map (Statement.node none) := by
  induction count generalizing nodes with
  | zero =>
      have hnil : nodes = [] := hdepict
      exact ⟨[], rfl, by rw [hnil]; rfl⟩
  | succ count ih =>
      obtain ⟨tree, tail, rfl, ⟨statement, hstatement⟩, hrest⟩ := hdepict
      obtain ⟨statements, hlength, htail⟩ := ih tail hrest
      exact ⟨statement :: statements, by simp [hlength], by simp [hstatement, htail]⟩

/-- The trees of phrases are closed under the rules. -/
theorem depicts_of_rule
    {production : Production}
    {body : List Constituent}
    {type? : Option ValueType}
    {children : List Node}
    (hrule : Rule production body)
    (hdepict : DepictAll body children) :
    Depicts production (.inner production.name type? children) := by
  cases hrule with
  | program =>
      obtain ⟨void, _, rfl, main, _, rfl, left, _, rfl, right, _, rfl, opening, _, rfl,
        _, _, rfl, ⟨first, further, hstatements⟩, closing, _, rfl, stop, _, rfl, rfl⟩ := hdepict
      exact ⟨⟨void, main, left, right, opening, first, further, closing, stop⟩,
        by simp [hstatements, Program.node, Program.statements, Production.node]⟩
  | statements further =>
      obtain ⟨statements, hlength, hnodes⟩ := exists_statements_of_depictAll _ children hdepict
      obtain ⟨first, rest, rfl⟩ := List.exists_cons_of_length_eq_add_one hlength
      exact ⟨first, rest, by rw [Node.eraseTypes_inner, hnodes]; rfl⟩
  | statement hform =>
      obtain ⟨tree, _, rfl, hform', rfl⟩ := hdepict
      have hstatement : (Node.inner Production.statement.name type? [tree]).eraseTypes =
          Production.statement.node [tree.eraseTypes] := by
        simp [Production.node]
      simp only [List.mem_cons, List.not_mem_nil, or_false] at hform
      rcases hform with rfl | rfl | rfl | rfl | rfl | rfl <;>
        exact hform'.imp fun _ h => hstatement.trans h
  | empty =>
      obtain ⟨semicolon, _, rfl, rfl⟩ := hdepict
      exact ⟨.empty semicolon, by simp [Statement.node, Production.node]⟩
  | declaration hword =>
      obtain ⟨type, hnumeric, rfl⟩ := Declarator.exists_of_mem hword
      obtain ⟨word, _, rfl, name, _, rfl, semicolon, _, rfl, rfl⟩ := hdepict
      exact ⟨.declaration ⟨type, hnumeric, word⟩ name semicolon,
        by simp [Statement.node, Production.node]⟩
  | input =>
      obtain ⟨word, _, rfl, arrows, _, rfl, name, _, rfl, semicolon, _, rfl, rfl⟩ := hdepict
      exact ⟨.input word arrows name semicolon, by simp [Statement.node, Production.node]⟩
  | output =>
      obtain ⟨word, _, rfl, arrows, _, rfl, _, _, rfl, ⟨printed, hprinted⟩,
        semicolon, _, rfl, rfl⟩ := hdepict
      exact ⟨.output word arrows printed semicolon,
        by simp [Statement.node, Production.node, hprinted]⟩
  | printedValue =>
      obtain ⟨_, _, rfl, ⟨value, hvalue⟩, rfl⟩ := hdepict
      exact ⟨.value value, by simp [Printed.node, Production.node, hvalue]⟩
  | endOfLine =>
      obtain ⟨word, _, rfl, rfl⟩ := hdepict
      exact ⟨.endOfLine word, by simp [Printed.node, Production.node]⟩
  | assignment =>
      obtain ⟨name, _, rfl, equals, _, rfl, _, _, rfl, ⟨value, hvalue⟩,
        semicolon, _, rfl, rfl⟩ := hdepict
      exact ⟨.assignment name equals value semicolon,
        by simp [Statement.node, Production.node, hvalue]⟩
  | conditional =>
      obtain ⟨opening, _, rfl, left, _, rfl, _, _, rfl, ⟨condition, hcondition⟩,
        right, _, rfl, _, _, rfl, ⟨thenPart, hthen⟩, _, _, rfl, helse, rfl⟩ := hdepict
      rcases helse with helse | ⟨word, elsePart, helse⟩
      · exact ⟨.conditional ⟨opening, left, condition, right⟩ thenPart,
          by simp [Statement.node, Guard.nodes, Production.node, hcondition, hthen, helse]⟩
      · exact ⟨.alternative ⟨opening, left, condition, right⟩ thenPart word elsePart,
          by simp [Statement.node, Guard.nodes, Production.node, hcondition, hthen, helse]⟩
  | condition =>
      obtain ⟨_, _, rfl, ⟨phrase, hphrase⟩, rfl⟩ := hdepict
      exact ⟨phrase, by simp [Expression.conditionNode, Expression.type?, hphrase]⟩
  | thenPart =>
      obtain ⟨_, _, rfl, ⟨statement, hstatement⟩, rfl⟩ := hdepict
      exact ⟨statement, by simp [Production.node, hstatement]⟩
  | otherwise =>
      obtain ⟨word, _, rfl, _, _, rfl, ⟨statement, hstatement⟩, rfl⟩ := hdepict
      exact .inr ⟨word, statement, by simp [Production.node, hstatement]⟩
  | noElse =>
      have hnil : children = [] := hdepict
      exact .inl (by simp [Production.node, hnil])
  | binary =>
      obtain ⟨_, _, rfl, ⟨left, hleft⟩, _, _, rfl, ⟨sign, hsign⟩, _, _, rfl,
        ⟨right, hright⟩, rfl⟩ := hdepict
      exact ⟨.binary left sign right,
        by simp [Expression.node, Expression.parts, Expression.type?, hleft, hsign, hright]⟩
  | single =>
      obtain ⟨_, _, rfl, ⟨value, hvalue⟩, rfl⟩ := hdepict
      exact ⟨.single value,
        by simp [Expression.node, Expression.parts, Expression.type?, hvalue]⟩
  | @value word hword =>
      cases word with
      | terminal wanted =>
          obtain ⟨terminal, _, rfl, rfl⟩ := hdepict
          obtain ⟨value, hvalue⟩ := Operand.exists_of_mem hword terminal
          exact ⟨value, by simp [Operand.node, Operand.type?, hvalue]⟩
      | nonterminal production =>
          simp [valueTerminals] at hword
  | operator hword =>
      obtain ⟨operator, rfl⟩ := Sign.exists_of_mem hword
      obtain ⟨word, _, rfl, rfl⟩ := hdepict
      exact ⟨⟨operator, word⟩, by simp [Sign.node, Production.node]⟩

theorem depictAll_of_spans
    {body : List Constituent}
    {nodes : List Node}
    (h : Spans body nodes) :
    DepictAll body nodes := by
  induction h with
  | nil =>
      rfl
  | @terminal wanted token rest nodes haccepts _ ih =>
      exact ⟨⟨token, haccepts⟩, nodes, rfl, ih⟩
  | nonterminal hrule _ _ ihbody ihrest =>
      exact ⟨_, _, rfl, depicts_of_rule hrule ihbody, ihrest⟩

end Grammar

/-- The tree of a program is a derivation of its tokens, if every `else` is at the nearest
conditional. -/
theorem Program.isDerivation_node (program : Program) (hnearest : program.NearestElse) :
    IsDerivation (program.node symbols?) program.tokens where
  root := .nonterminal .program none _
  complete := by simpa using program.spans.complete
  leaves := program.leaves_node
  nearestElse := by
    intro node after hoccurs hlacks
    simpa using program.keepsElses_node.mpr hnearest node after hoccurs hlacks

/-- A derivation of tokens is, up to types, the tree of a program with these tokens. -/
theorem Grammar.IsDerivation.exists_program
    {tree : Node}
    {tokens : List Token}
    (h : IsDerivation tree tokens) :
    ∃ program : Program,
      program.NearestElse ∧ program.tokens = tokens ∧ tree.eraseTypes = program.node none := by
  obtain ⟨_, _, htree, ⟨program, hprogram⟩, hrest⟩ :=
    depictAll_of_spans (h.root.spans tree h.complete)
  obtain ⟨rfl, rfl⟩ := List.cons.inj htree
  refine ⟨program, ?_, ?_, hprogram⟩
  · rw [← @Program.keepsElses_node none program, ← hprogram, Node.keepsElses_eraseTypes]
    intro node after hoccurs hlacks
    rw [List.append_nil]
    exact h.nearestElse node after hoccurs hlacks
  · rw [← @Program.leaves_node none program, ← hprogram, Node.leaves_eraseTypes, h.leaves]

/-- Up to types, tokens have at most one derivation. -/
theorem Grammar.IsDerivation.eraseTypes_eq
    {left right : Node}
    {tokens : List Token}
    (hleft : IsDerivation left tokens)
    (hright : IsDerivation right tokens) :
    left.eraseTypes = right.eraseTypes := by
  obtain ⟨program, hnearest, htokens, htree⟩ := hleft.exists_program
  obtain ⟨program', hnearest', htokens', htree'⟩ := hright.exists_program
  have hsame := Program.eq_of_tokens hnearest hnearest' (htokens.trans htokens'.symm)
  rw [htree, htree', hsame]

end SimpleC
