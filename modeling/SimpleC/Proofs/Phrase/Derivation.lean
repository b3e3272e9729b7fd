import SimpleC.Proofs.Grammar.Derivation
import SimpleC.Proofs.Phrase.NearestElse

/-!
# Derivations and phrases

A list of tokens is derivable exactly if it is the list of tokens of a program.
One direction derives each phrase by recursion on it. The other reads a phrase
off a derivation: the phrases of a production are closed under its rules.

Together with regrouping, every derivable list of tokens is a program in which
each `else` belongs to the nearest conditional that is open.
-/

namespace SimpleC

open Grammar

/-- A terminal derives its token in front of what the rest derives. -/
theorem Terminal.derives
    {wanted : Expectation}
    (terminal : Terminal wanted)
    {rest : List Constituent}
    {tokens : List Token}
    (hrest : Derives rest tokens) :
    Derives (.terminal wanted :: rest) (terminal.token :: tokens) :=
  .terminal terminal.accepted hrest

/-- What is expected of a value is what the grammar names as values. -/
theorem Grammar.mem_valueTerminals
    {token : Token}
    {wanted : Expectation}
    (h : token.valueExpectation? = some wanted) :
    .terminal wanted ∈ valueTerminals := by
  rcases Token.eq_of_valueExpectation? h with ⟨hpayload, _, rfl⟩ | ⟨spelling, hbool, _, rfl⟩
  · cases hkind : token.kind <;>
      simp_all [valueTerminals, payload, TokenKind.hasPayload]
  · simpa [valueTerminals, bare, boolSpellings] using hbool

/-- A value is one of the tokens that the grammar names as values. -/
theorem Operand.exists_terminal (value : Operand) :
    ∃ wanted, .terminal wanted ∈ valueTerminals ∧ wanted.accepts value.token = true := by
  obtain ⟨wanted, hwanted⟩ := Option.isSome_iff_exists.mp value.isValue
  exact ⟨wanted, mem_valueTerminals hwanted, Token.accepts_of_valueExpectation? hwanted⟩

/-- The operators of the grammar are the operators of expressions. -/
theorem operatorTerminals_eq :
    operatorTerminals = Operator.all.map (fun operator => bare operator.spelling) :=
  rfl

theorem Operand.derives (value : Operand) :
    Derives [.nonterminal .value] [value.token] := by
  obtain ⟨wanted, hmem, haccepts⟩ := value.exists_terminal
  exact .ofRule (.value hmem) (.ofTerminal haccepts)

theorem Sign.derives (sign : Sign) :
    Derives [.nonterminal .operator] [sign.word.token] := by
  have hmem : bare sign.operator.spelling ∈ operatorTerminals := by
    rw [operatorTerminals_eq]
    exact List.mem_map_of_mem (Operator.mem_all sign.operator)
  exact .ofRule (.operator hmem) (.ofTerminal sign.word.accepted)

theorem Expression.derives (expression : Expression) :
    Derives [.nonterminal .expression] expression.tokens := by
  cases expression with
  | single value =>
      exact .ofRule .single value.derives
  | binary left sign right =>
      exact .ofRule .binary (left.derives.append (sign.derives.append right.derives))

/-- The condition of a conditional statement is derivable. -/
theorem Expression.derives_condition (expression : Expression) :
    Derives [.nonterminal .condition] expression.tokens :=
  .ofRule .condition expression.derives

theorem Printed.derives (printed : Printed) :
    Derives [.nonterminal .outputValue] [printed.token] := by
  cases printed with
  | endOfLine word =>
      exact .ofRule .endOfLine (.ofTerminal word.accepted)
  | value operand =>
      exact .ofRule .printedValue operand.derives

/-- The word of a declaration is one of the two that the grammar names. -/
theorem Declarator.bare_mem (declarator : Declarator) :
    bare declarator.type.name ∈ [bare "int", bare "real"] := by
  obtain ⟨type, hnumeric, _⟩ := declarator
  cases type with
  | int | real =>
      simp [ValueType.name]
  | str | bool =>
      simp [ValueType.isNumeric] at hnumeric

/-- A statement of one of the six forms is a statement. -/
theorem Grammar.Derives.ofForm
    (form : Production)
    {tokens : List Token}
    (hform : form ∈
      [Production.empty, .declaration, .input, .output, .assignment, .conditional])
    (hderives : Derives [.nonterminal form] tokens) :
    Derives [.nonterminal .statement] tokens :=
  .ofRule (.statement hform) hderives

/-- A conditional statement is derived from its head and its two parts. -/
theorem Guard.derives
    (guard : Guard)
    {thenPart elsePart : List Token}
    (hthen : Derives [.nonterminal .statement] thenPart)
    (helse : Derives [.nonterminal .elsePart] elsePart) :
    Derives [.nonterminal .statement] (guard.tokens ++ (thenPart ++ elsePart)) := by
  have hparts : Derives [.nonterminal .thenPart, .nonterminal .elsePart]
      (thenPart ++ elsePart) :=
    (Derives.ofRule .thenPart hthen).append helse
  have hcondition := guard.condition.derives_condition.append (guard.right.derives hparts)
  have hhead := guard.opening.derives (guard.left.derives hcondition)
  refine .ofForm .conditional (by simp) (.ofRule .conditional ?_)
  simpa [Guard.tokens] using hhead

theorem Statement.derives (statement : Statement) :
    Derives [.nonterminal .statement] statement.tokens := by
  induction statement with
  | empty semicolon =>
      exact .ofForm .empty (by simp) (.ofRule .empty (semicolon.derives .nil))
  | declaration declarator name semicolon =>
      exact .ofForm .declaration (by simp)
        (.ofRule (.declaration declarator.bare_mem)
          (declarator.word.derives (name.derives (semicolon.derives .nil))))
  | input word arrows name semicolon =>
      exact .ofForm .input (by simp)
        (.ofRule .input
          (word.derives (arrows.derives (name.derives (semicolon.derives .nil)))))
  | output word arrows printed semicolon =>
      exact .ofForm .output (by simp)
        (.ofRule .output
          (word.derives (arrows.derives (printed.derives.append (semicolon.derives .nil)))))
  | assignment name equals value semicolon =>
      exact .ofForm .assignment (by simp)
        (.ofRule .assignment
          (name.derives (equals.derives (value.derives.append (semicolon.derives .nil)))))
  | conditional guard thenPart ih =>
      have hderives := guard.derives ih (.ofRule .noElse .nil)
      simpa [tokens] using hderives
  | alternative guard thenPart word elsePart ihthen ihelse =>
      exact guard.derives ihthen (.ofRule .otherwise (word.derives ihelse))

/-- Statements in a row are derived one after the other. -/
theorem Statement.derives_all (statements : List Statement) :
    Derives (List.replicate statements.length (.nonterminal .statement))
      (statements.flatMap tokens) := by
  induction statements with
  | nil =>
      exact .nil
  | cons statement rest ih =>
      exact statement.derives.append ih

/-- A program is derivable. -/
theorem Program.derivable (program : Program) : Derivable program.tokens := by
  have hbody : Derives [.nonterminal .statements] program.body :=
    .ofRule (.statements program.further.length) (Statement.derives_all program.statements)
  have hrest := hbody.append (program.closing.derives (program.stop.derives .nil))
  refine .ofRule .program ?_
  exact program.void.derives (program.main.derives (program.left.derives
    (program.right.derives (program.opening.derives hrest))))

/-- A value among the terminals that the grammar names is an operand. -/
theorem Operand.exists_of_mem
    {wanted : Expectation}
    (hmem : .terminal wanted ∈ valueTerminals)
    (terminal : Terminal wanted) :
    ∃ value : Operand, value.token = terminal.token := by
  obtain ⟨token, haccepts⟩ := terminal
  refine ⟨⟨token, ?_⟩, rfl⟩
  cases wanted with
  | ofKind kind =>
      have hkind : token.kind = kind := by
        simpa [Expectation.accepts] using haccepts
      have hpayload : kind.hasPayload = true := by
        cases kind <;> simp_all [valueTerminals, TokenKind.hasPayload]
      simp [Token.valueExpectation?, Token.spelling?, hkind, hpayload]
  | spelled spelling =>
      have hspelling : token.spelling? = some spelling := by
        simpa [Expectation.accepts, Token.isSpelled] using haccepts
      have hbool : spelling ∈ boolSpellings := by
        simpa [valueTerminals, boolSpellings] using hmem
      simp [Token.valueExpectation?, hspelling, hbool]

/-- A word that the grammar names as an operator is a sign. -/
theorem Sign.exists_of_mem
    {word : Constituent}
    (hmem : word ∈ operatorTerminals) :
    ∃ operator : Operator, word = bare operator.spelling := by
  rw [operatorTerminals_eq] at hmem
  obtain ⟨operator, _, hword⟩ := List.mem_map.mp hmem
  exact ⟨operator, hword.symm⟩

/-- The word of a declaration names the type of its variable. -/
theorem Declarator.exists_of_mem
    {word : Constituent}
    (hmem : word ∈ [bare "int", bare "real"]) :
    ∃ type : ValueType, type.isNumeric = true ∧ word = bare type.name := by
  simp only [List.mem_cons, List.not_mem_nil, or_false] at hmem
  rcases hmem with rfl | rfl
  · exact ⟨.int, rfl, rfl⟩
  · exact ⟨.real, rfl, rfl⟩

namespace Grammar

/-- The lists of tokens that the phrases of a production have. -/
def Covers : Production → List Token → Prop
  | .program, tokens => ∃ program : Program, program.tokens = tokens
  | .statements, tokens =>
      ∃ (first : Statement) (further : List Statement),
        (first :: further).flatMap Statement.tokens = tokens
  | .statement, tokens | .empty, tokens | .declaration, tokens | .input, tokens
  | .output, tokens | .assignment, tokens | .conditional, tokens
  | .thenPart, tokens => ∃ statement : Statement, statement.tokens = tokens
  | .outputValue, tokens => ∃ printed : Printed, [printed.token] = tokens
  | .condition, tokens | .expression, tokens =>
      ∃ expression : Expression, expression.tokens = tokens
  | .elsePart, tokens =>
      tokens = [] ∨
        ∃ (word : Word "else") (statement : Statement), word.token :: statement.tokens = tokens
  | .value, tokens => ∃ value : Operand, [value.token] = tokens
  | .operator, tokens => ∃ sign : Sign, [sign.word.token] = tokens

/-- The lists of tokens that consecutive phrases have. -/
def CoversAll : List Constituent → List Token → Prop
  | [], tokens => tokens = []
  | .terminal wanted :: rest, tokens =>
      ∃ (terminal : Terminal wanted) (tail : List Token),
        tokens = terminal.token :: tail ∧ CoversAll rest tail
  | .nonterminal production :: rest, tokens =>
      ∃ part tail, tokens = part ++ tail ∧ Covers production part ∧ CoversAll rest tail

/-- Several statements in a row are covered by as many phrases. -/
theorem exists_statements_of_coversAll
    (count : Nat)
    (tokens : List Token)
    (hcovers : CoversAll (List.replicate count (.nonterminal .statement)) tokens) :
    ∃ statements : List Statement,
      statements.length = count ∧ statements.flatMap Statement.tokens = tokens := by
  induction count generalizing tokens with
  | zero =>
      exact ⟨[], rfl, hcovers.symm⟩
  | succ count ih =>
      obtain ⟨_, tail, rfl, ⟨statement, rfl⟩, hrest⟩ := hcovers
      obtain ⟨statements, hlength, rfl⟩ := ih tail hrest
      exact ⟨statement :: statements, by simp [hlength], by simp⟩

/-- The phrases of a production are closed under its rules. -/
theorem covers_of_rule
    {production : Production}
    {body : List Constituent}
    {tokens : List Token}
    (hrule : Rule production body)
    (hcovers : CoversAll body tokens) :
    Covers production tokens := by
  cases hrule with
  | program =>
      obtain ⟨void, _, rfl, main, _, rfl, left, _, rfl, right, _, rfl, opening, _, rfl,
        _, _, rfl, ⟨first, further, rfl⟩, closing, _, rfl, stop, _, rfl, rfl⟩ := hcovers
      exact ⟨⟨void, main, left, right, opening, first, further, closing, stop⟩, rfl⟩
  | statements further =>
      obtain ⟨statements, hlength, rfl⟩ := exists_statements_of_coversAll _ tokens hcovers
      obtain ⟨first, rest, rfl⟩ := List.exists_cons_of_length_eq_add_one hlength
      exact ⟨first, rest, rfl⟩
  | statement hform =>
      obtain ⟨_, _, rfl, hform', rfl⟩ := hcovers
      simp only [List.mem_cons, List.not_mem_nil, or_false] at hform
      rcases hform with rfl | rfl | rfl | rfl | rfl | rfl <;> simpa [Covers] using hform'
  | empty =>
      obtain ⟨semicolon, _, rfl, rfl⟩ := hcovers
      exact ⟨.empty semicolon, rfl⟩
  | declaration hword =>
      obtain ⟨type, hnumeric, rfl⟩ := Declarator.exists_of_mem hword
      obtain ⟨word, _, rfl, name, _, rfl, semicolon, _, rfl, rfl⟩ := hcovers
      exact ⟨.declaration ⟨type, hnumeric, word⟩ name semicolon, rfl⟩
  | input =>
      obtain ⟨word, _, rfl, arrows, _, rfl, name, _, rfl, semicolon, _, rfl, rfl⟩ := hcovers
      exact ⟨.input word arrows name semicolon, rfl⟩
  | output =>
      obtain ⟨word, _, rfl, arrows, _, rfl, _, _, rfl, ⟨printed, rfl⟩,
        semicolon, _, rfl, rfl⟩ := hcovers
      exact ⟨.output word arrows printed semicolon, rfl⟩
  | printedValue =>
      obtain ⟨_, _, rfl, ⟨value, rfl⟩, rfl⟩ := hcovers
      exact ⟨.value value, rfl⟩
  | endOfLine =>
      obtain ⟨word, _, rfl, rfl⟩ := hcovers
      exact ⟨.endOfLine word, rfl⟩
  | assignment =>
      obtain ⟨name, _, rfl, equals, _, rfl, _, _, rfl, ⟨value, rfl⟩,
        semicolon, _, rfl, rfl⟩ := hcovers
      exact ⟨.assignment name equals value semicolon, rfl⟩
  | conditional =>
      obtain ⟨opening, _, rfl, left, _, rfl, _, _, rfl, ⟨condition, rfl⟩, right, _, rfl,
        _, _, rfl, ⟨thenPart, rfl⟩, _, _, rfl, helse, rfl⟩ := hcovers
      rcases helse with rfl | ⟨word, elsePart, rfl⟩
      · exact ⟨.conditional ⟨opening, left, condition, right⟩ thenPart,
          by simp [Statement.tokens, Guard.tokens]⟩
      · exact ⟨.alternative ⟨opening, left, condition, right⟩ thenPart word elsePart,
          by simp [Statement.tokens, Guard.tokens]⟩
  | condition =>
      obtain ⟨_, _, rfl, ⟨expression, rfl⟩, rfl⟩ := hcovers
      exact ⟨expression, by simp⟩
  | thenPart =>
      obtain ⟨_, _, rfl, ⟨statement, rfl⟩, rfl⟩ := hcovers
      exact ⟨statement, by simp⟩
  | otherwise =>
      obtain ⟨word, _, rfl, _, _, rfl, ⟨statement, rfl⟩, rfl⟩ := hcovers
      exact .inr ⟨word, statement, by simp⟩
  | noElse =>
      exact .inl hcovers
  | binary =>
      obtain ⟨_, _, rfl, ⟨left, rfl⟩, _, _, rfl, ⟨sign, rfl⟩, _, _, rfl, ⟨right, rfl⟩,
        rfl⟩ := hcovers
      exact ⟨.binary left sign right, rfl⟩
  | single =>
      obtain ⟨_, _, rfl, ⟨value, rfl⟩, rfl⟩ := hcovers
      exact ⟨.single value, rfl⟩
  | @value word hword =>
      cases word with
      | terminal wanted =>
          obtain ⟨terminal, _, rfl, rfl⟩ := hcovers
          obtain ⟨value, hvalue⟩ := Operand.exists_of_mem hword terminal
          exact ⟨value, by rw [hvalue]⟩
      | nonterminal production =>
          simp [valueTerminals] at hword
  | operator hword =>
      obtain ⟨operator, rfl⟩ := Sign.exists_of_mem hword
      obtain ⟨word, _, rfl, rfl⟩ := hcovers
      exact ⟨⟨operator, word⟩, rfl⟩

/-- What is derived from constituents is made of their phrases. -/
theorem coversAll_of_derives
    {constituents : List Constituent}
    {tokens : List Token}
    (hderives : Derives constituents tokens) :
    CoversAll constituents tokens := by
  induction hderives with
  | nil =>
      rfl
  | @terminal wanted token rest tokens haccepts _ ih =>
      exact ⟨⟨token, haccepts⟩, tokens, rfl, ih⟩
  | nonterminal hrule _ _ ihbody ihrest =>
      exact ⟨_, _, rfl, covers_of_rule hrule ihbody, ihrest⟩

/-- Exactly the tokens of programs are derivable. -/
theorem derivable_iff_exists_program (tokens : List Token) :
    Derivable tokens ↔ ∃ program : Program, program.tokens = tokens := by
  constructor
  · intro hderivable
    obtain ⟨_, _, rfl, ⟨program, rfl⟩, rfl⟩ := coversAll_of_derives hderivable
    exact ⟨program, by simp⟩
  · rintro ⟨program, rfl⟩
    exact program.derivable

/-- A derivable list of tokens is a program in which each `else` belongs to the
nearest conditional that is open. -/
theorem derivable_iff_exists_nearestElse (tokens : List Token) :
    Derivable tokens ↔
      ∃ program : Program, program.NearestElse ∧ program.tokens = tokens := by
  rw [derivable_iff_exists_program]
  constructor
  · rintro ⟨program, rfl⟩
    exact ⟨program.regroup, program.nearestElse_regroup, program.tokens_regroup⟩
  · rintro ⟨program, _, htokens⟩
    exact ⟨program, htokens⟩

end Grammar

end SimpleC
