import Mathlib.Data.List.Basic
import SimpleC.Proofs.Course.Expressions
import SimpleC.Proofs.Course.Past

/-!
# What leads to a mark

The steps of a production that lead to each of its marks. They tell with their tokens what
is asked: it is about the name, the values or the expression that were read just before. In
front of a condition, the production around it has read the opening of the conditional.
-/

namespace SimpleC

/-- The steps of a production up to a mark, and what is asked there. -/
inductive Production.Marks : Production → List Step → Demand → Prop
  | declaration (declarator : Declarator) (name : Identifier) (semicolon : Word ";") :
      Marks declaration
        [.read declarator.word.token, .read name.token, .read semicolon.token]
        (.declaration declarator.type name.token.text)
  | input (word : Word "cin") (arrows : Word ">>") (name : Identifier) :
      Marks input [.read word.token, .read arrows.token, .read name.token]
        (.lookup name.token.text)
  /-- The target of an assignment is looked up before the value is read. -/
  | target (name : Identifier) :
      Marks assignment [.read name.token] (.lookup name.token.text)
  | assignment (name : Identifier) (equals : Word "=") (phrase : Expression) :
      Marks assignment
        (.read name.token :: .check (.lookup name.token.text) :: .read equals.token ::
          phrase.steps)
        (.assignment name.token.text phrase)
  | condition (phrase : Expression) :
      Marks condition phrase.steps (.condition phrase)
  | operation (left : Operand) (sign : Sign) (right : Operand) :
      Marks expression (left.steps ++ .read sign.word.token :: right.steps)
        (.operation left sign right)
  | value (operand : Operand) :
      Marks value [.read operand.token] (.value operand)

/-- What is asked is told by the tokens that were read. -/
theorem Production.Marks.demand?_eq
    {production : Production}
    {steps : List Step}
    {demand : Demand}
    (h : production.Marks steps demand) :
    production.demand? (Step.tokens steps) = some demand := by
  cases h with
  | declaration declarator name semicolon =>
      have htype : ValueType.ofDeclarator? declarator.type.name = some declarator.type :=
        ValueType.ofDeclarator?_eq_some_iff.mpr ⟨declarator.numeric, rfl⟩
      simp [demand?, htype]
  | input | target =>
      rfl
  | assignment name equals phrase =>
      simp [demand?, phrase.ofTokens?_tokens]
  | condition phrase =>
      simp [demand?, phrase.ofTokens?_tokens]
  | operation left sign right =>
      simp [demand?, left.ofToken?_token, sign.ofToken?_token, right.ofToken?_token]
  | value operand =>
      simp [demand?, operand.ofToken?_token]

theorem Production.Marks.checks_eq
    {production : Production}
    {steps : List Step}
    {demand : Demand}
    (h : production.Marks steps demand) :
    production.checks (Step.tokens steps) = [.step (.check demand)] := by
  rw [checks, h.demand?_eq]
  rfl

/-- Whether nothing is asked at the item, nor at those that it may be replaced by. -/
def Item.isSilent : Item → Bool
  | check => false
  | choice place => place ≠ .operation ∧ place ≠ .operand
  | token _ | phrase _ => true

section Choices

variable
    {choice : Choice}
    {token : Token}
    {more : List Item}

/-- Only about values and operators something is asked at once. -/
theorem Choice.isSilent_of_items
    (hchoice : (Item.choice choice).isSilent = true)
    (hmore : choice.items token = .ok more) :
    ∀ item ∈ more, item.isSilent = true := by
  cases choice with
  | operation | operand =>
      cases hchoice
  | further | printed | otherwise =>
      simp only [items] at hmore
      split at hmore <;> cases hmore <;> decide
  | form | declarator | sign =>
      simp only [items] at hmore
      split at hmore <;> cases hmore
      simp [Item.isSilent]

/-- No choice leads to a condition. -/
theorem Choice.condition_notMem_of_items (hmore : choice.items token = .ok more) :
    ∀ item ∈ more, item ≠ .phrase .condition := by
  cases choice with
  | further | printed | otherwise | operation =>
      simp only [items] at hmore
      split at hmore <;> cases hmore <;> decide
  | form =>
      simp only [items] at hmore
      split at hmore
      · rename_i form _
        cases hmore
        cases form <;> decide
      · cases hmore
  | declarator | operand | sign =>
      simp only [items] at hmore
      split at hmore <;> cases hmore
      simp

/-- The word that a declaration begins with. -/
theorem Choice.exists_declarator_of_items (hmore : Choice.declarator.items token = .ok more) :
    ∃ type : ValueType, type.isNumeric = true ∧ more = [.word type.name] := by
  simp only [items] at hmore
  split at hmore
  · rename_i type htype
    cases hmore
    obtain ⟨spelling, _, hdeclarator⟩ := Option.bind_eq_some_iff.mp htype
    exact ⟨type, (ValueType.ofDeclarator?_eq_some_iff.mp hdeclarator).1, rfl⟩
  · cases hmore

/-- What is expected of a value. -/
theorem Choice.exists_operand_of_items (hmore : Choice.operand.items token = .ok more) :
    ∃ wanted, token.valueExpectation? = some wanted ∧ more = [.token wanted, .check] := by
  simp only [items] at hmore
  split at hmore
  · rename_i wanted hwanted
    cases hmore
    exact ⟨wanted, hwanted, rfl⟩
  · cases hmore

end Choices

/-- What is expected of one value is accepted of values only. -/
theorem Token.valueExpectation?_of_accepts
    {token other : Token}
    {wanted : Expectation}
    (hwanted : token.valueExpectation? = some wanted)
    (haccepts : wanted.accepts other = true) :
    other.valueExpectation? = some wanted := by
  rcases Token.eq_of_valueExpectation? hwanted with
    ⟨hpayload, _, rfl⟩ | ⟨spelling, hbool, _, rfl⟩
  · have hkind : other.kind = token.kind := by
      simpa [Expectation.accepts] using haccepts
    simp [valueExpectation?, spelling?, hkind, hpayload]
  · have hspelling : other.spelling? = some spelling := by
      simpa [Expectation.accepts, isSpelled] using haccepts
    simp [valueExpectation?, hspelling, hbool]

/-- The items of a production before a mark, with the choices among them made. -/
inductive Production.Front : Production → List Item → Prop
  | declaration {type : ValueType}
      (hnumeric : type.isNumeric = true) :
      Front declaration [.word type.name, .identifier, .word ";"]
  | input :
      Front input [.word "cin", .word ">>", .identifier]
  | target :
      Front assignment [.identifier]
  | assignment :
      Front assignment [.identifier, .check, .word "=", .phrase .expression]
  | condition :
      Front condition [.phrase .expression]
  | operation :
      Front expression [.phrase .value, .phrase .operator, .phrase .value]
  | value {token : Token} {wanted : Expectation}
      (hwanted : token.valueExpectation? = some wanted) :
      Front value [.token wanted]

namespace Production

variable
    {production : Production}
    {begun ahead : List Token}
    {items front : List Item}
    {past : List Move}

/-- What stands before the only mark of items without choices. -/
theorem front_eq
    {earlier later : List Item}
    (hmade : Choice.Made (earlier ++ .check :: later) (front ++ .check :: items))
    (hearlier : ∀ item ∈ earlier, item.isChoice = false ∧ item ≠ .check)
    (hlater : ∀ item ∈ later, item.isChoice = false ∧ item ≠ .check) :
    front = earlier := by
  have hitems : earlier ++ .check :: later = front ++ .check :: items := by
    refine (hmade.eq ?_).symm
    rw [List.forall_mem_append, List.forall_mem_cons]
    exact ⟨fun item hitem => (hearlier item hitem).1, rfl, fun item hitem => (hlater item hitem).1⟩
  refine ((List.append_cons_inj_of_notMem ?_ ?_).mp hitems).1.symm
  · exact fun hcheck => (hearlier _ hcheck).2 rfl
  · exact fun hcheck => (hlater _ hcheck).2 rfl

/-- Where nothing is asked at the items of a production, there is no mark. -/
theorem false_of_silent
    (hmade : Choice.Made production.items (front ++ .check :: items))
    (hsilent : ∀ item ∈ production.items, item.isSilent = true) :
    False := by
  have hall := hmade.forall_mem (fun _ _ _ => Choice.isSilent_of_items) hsilent
  cases hall .check (List.mem_append_right _ List.mem_cons_self)

theorem front_of_assignment
    (hmade : Choice.Made assignment.items (front ++ .check :: items)) :
    Front assignment front := by
  have hitems : front ++ .check :: items =
      [.identifier, .check, .word "=", .phrase .expression, .check, .word ";"] :=
    hmade.eq (by decide)
  rcases List.append_eq_cons_iff.mp hitems with ⟨_, hcheck⟩ | ⟨front, rfl, hrest⟩
  · cases hcheck
  rcases List.cons_eq_append_iff.mp hrest with ⟨rfl, _⟩ | ⟨front, rfl, hlast⟩
  · exact .target
  have hmade : Choice.Made ([.word "=", .phrase .expression] ++ .check :: [.word ";"])
      (front ++ .check :: items) := hlast ▸ .refl _
  cases front_eq hmade (by decide) (by decide)
  exact .assignment

theorem front_of_declaration
    (hmade : Choice.Made declaration.items (front ++ .check :: items))
    (hchoices : ∀ item ∈ front, item.isChoice = false) :
    Front declaration front := by
  generalize hothers : front ++ .check :: items = others at hmade
  have hmade : Choice.Made [.choice .declarator, .identifier, .word ";", .check] others := hmade
  cases hmade with
  | cons =>
      rcases List.append_eq_cons_iff.mp hothers with ⟨_, hcheck⟩ | ⟨front, rfl, _⟩
      · cases hcheck
      · cases hchoices _ List.mem_cons_self
  | choice hmore hrest =>
      obtain ⟨type, hnumeric, rfl⟩ := Choice.exists_declarator_of_items hmore
      subst hothers
      have hrest : Choice.Made ([.word type.name, .identifier, .word ";"] ++ .check :: [])
          (front ++ .check :: items) := hrest
      cases front_eq hrest (by simp [Item.isChoice]) (List.forall_mem_nil _)
      exact .declaration hnumeric

theorem front_of_value
    (hmade : Choice.Made value.items (front ++ .check :: items)) :
    Front value front := by
  generalize hothers : front ++ .check :: items = others at hmade
  have hmade : Choice.Made [.choice .operand] others := hmade
  cases hmade with
  | cons _ hrest =>
      cases hrest
      have hcheck : Item.check ∈ [Item.choice .operand] :=
        hothers ▸ List.mem_append_right _ List.mem_cons_self
      simp at hcheck
  | choice hmore hrest =>
      obtain ⟨wanted, hwanted, rfl⟩ := Choice.exists_operand_of_items hmore
      subst hothers
      have hrest : Choice.Made ([.token wanted] ++ .check :: []) (front ++ .check :: items) := hrest
      cases front_eq hrest (by simp [Item.isChoice]) (List.forall_mem_nil _)
      exact .value hwanted

/-- The ways in which an expression goes on after its first value. -/
theorem made_operation
    {others : List Item}
    (hmade : Choice.Made [.choice .operation] others) :
    others = [.choice .operation] ∨ others = [] ∨
      others = [.phrase .operator, .phrase .value, .check] := by
  cases hmade with
  | cons _ hrest =>
      cases hrest
      exact .inl rfl
  | choice hmore hrest =>
      simp only [Choice.items] at hmore
      split at hmore <;> cases hmore
      · exact .inr (.inr (hrest.eq (by decide)))
      · cases hrest
        exact .inr (.inl rfl)

theorem front_of_expression
    (hmade : Choice.Made expression.items (front ++ .check :: items)) :
    Front expression front := by
  generalize hothers : front ++ .check :: items = others at hmade
  have hcheck : .check ∈ others := hothers ▸ List.mem_append_right _ List.mem_cons_self
  cases hmade with
  | cons _ hoperation =>
      rcases made_operation hoperation with rfl | rfl | rfl
      · simp at hcheck
      · simp at hcheck
      · have hmade : Choice.Made
            ([.phrase .value, .phrase .operator, .phrase .value] ++ .check :: [])
            (front ++ .check :: items) := hothers ▸ .refl _
        cases front_eq hmade (by decide) (List.forall_mem_nil _)
        exact .operation

/-- What stands before the marks of a right-hand side. -/
theorem front_of_made
    (hmade : Choice.Made production.items (front ++ .check :: items))
    (hchoices : ∀ item ∈ front, item.isChoice = false) :
    production.Front front := by
  cases production with
  | program | statements | statement | empty | output | outputValue | conditional | thenPart
  | elsePart | operator =>
      exact (false_of_silent hmade (by decide)).elim
  | declaration =>
      exact front_of_declaration hmade hchoices
  | input =>
      have hmade : Choice.Made ([.word "cin", .word ">>", .identifier] ++ .check :: [.word ";"])
          (front ++ .check :: items) := hmade
      cases front_eq hmade (by decide) (by decide)
      exact .input
  | assignment =>
      exact front_of_assignment hmade
  | condition =>
      have hmade : Choice.Made ([.phrase .expression] ++ .check :: [])
          (front ++ .check :: items) := hmade
      cases front_eq hmade (by decide) (by decide)
      exact .condition
  | expression =>
      exact front_of_expression hmade
  | value =>
      exact front_of_value hmade

section Ends

variable {moves : List Move}

/-- A course of an expression that comes to its end is one of a whole expression. -/
theorem exists_expression
    (hcourse : Course expression [] expression.items begun moves (some ahead)) :
    ∃ phrase : Expression, Move.stepsAll moves = phrase.steps :=
  hcourse.expression_steps.exists_eq

theorem exists_operand
    (hcourse : Course value [] value.items begun moves (some ahead)) :
    ∃ operand : Operand, Move.stepsAll moves = operand.steps := by
  rcases hcourse.reads_value with ⟨_, _, hrest⟩ | ⟨operand, hsteps, _⟩
  · cases hrest
  · exact ⟨operand, hsteps⟩

theorem exists_sign
    (hcourse : Course operator [] operator.items begun moves (some ahead)) :
    ∃ sign : Sign, Move.stepsAll moves = [.read sign.word.token] := by
  have hchoice : Course operator [] [.choice .sign] begun moves (some ahead) := hcourse
  cases hchoice with
  | choice hmore hcourse =>
      simp only [Choice.items] at hmore
      split at hmore <;> cases hmore
      obtain ⟨word, _, _, hword, hcourse⟩ := hcourse.exists_terminal
      rw [hcourse.steps_of_done] at hword
      exact ⟨⟨_, word⟩, hword⟩

end Ends

/-- The steps up to a mark are those of the items before it. -/
theorem exists_marks_of_front
    (hfront : production.Front front)
    (hcourse : Course production [] front begun past (some ahead)) :
    ∃ demand, production.Marks (Move.stepsAll past) demand := by
  cases hfront with
  | declaration hnumeric =>
      obtain ⟨word, _, _, hword, hcourse⟩ := hcourse.exists_terminal
      obtain ⟨name, _, _, hname, hcourse⟩ := hcourse.exists_terminal
      obtain ⟨semicolon, _, _, hsemicolon, hcourse⟩ := hcourse.exists_terminal
      rw [hword, hname, hsemicolon, hcourse.steps_of_done]
      exact ⟨_, .declaration ⟨_, hnumeric, word⟩ name semicolon⟩
  | input =>
      obtain ⟨word, _, _, hword, hcourse⟩ := hcourse.exists_terminal
      obtain ⟨arrows, _, _, harrows, hcourse⟩ := hcourse.exists_terminal
      obtain ⟨name, _, _, hname, hcourse⟩ := hcourse.exists_terminal
      rw [hword, harrows, hname, hcourse.steps_of_done]
      exact ⟨_, .input word arrows name⟩
  | target =>
      obtain ⟨name, _, _, hname, hcourse⟩ := hcourse.exists_terminal
      rw [hname, hcourse.steps_of_done]
      exact ⟨_, .target name⟩
  | assignment =>
      obtain ⟨name, _, _, hname, hcourse⟩ := hcourse.exists_terminal
      cases hcourse with
      | check hcourse =>
          obtain ⟨equals, _, _, hequals, hcourse⟩ := hcourse.exists_terminal
          obtain ⟨_, _, _, hinside, hphrase, hcourse⟩ := hcourse.exists_phrase
          obtain ⟨phrase, hphrase⟩ := exists_expression hphrase
          rw [hname, Move.stepsAll_append, hequals, hinside, hphrase, hcourse.steps_of_done,
            List.append_nil]
          exact ⟨_, .assignment name equals phrase⟩
  | condition =>
      obtain ⟨_, _, _, hinside, hphrase, hcourse⟩ := hcourse.exists_phrase
      obtain ⟨phrase, hphrase⟩ := exists_expression hphrase
      rw [hinside, hphrase, hcourse.steps_of_done, List.append_nil]
      exact ⟨_, .condition phrase⟩
  | operation =>
      obtain ⟨_, _, _, hfirst, hleft, hcourse⟩ := hcourse.exists_phrase
      obtain ⟨_, _, _, hsecond, hsign, hcourse⟩ := hcourse.exists_phrase
      obtain ⟨_, _, _, hthird, hright, hcourse⟩ := hcourse.exists_phrase
      obtain ⟨left, hleft⟩ := exists_operand hleft
      obtain ⟨sign, hsign⟩ := exists_sign hsign
      obtain ⟨right, hright⟩ := exists_operand hright
      rw [hfirst, hleft, hsecond, hsign, hthird, hright, hcourse.steps_of_done, List.append_nil]
      exact ⟨_, .operation left sign right⟩
  | value hwanted =>
      obtain ⟨operand, _, _, hread, hcourse⟩ := hcourse.exists_terminal
      rw [hread, hcourse.steps_of_done]
      have hvalue := Token.valueExpectation?_of_accepts hwanted operand.accepted
      exact ⟨_, .value ⟨_, by rw [hvalue]; rfl⟩⟩

/-- At a mark something is asked about what was read before it. -/
theorem Past.exists_marks (h : production.Past past (.check :: items) ahead) :
    ∃ demand, production.Marks (Move.stepsAll past) demand := by
  obtain ⟨front, begun, hchoices, hmade, hcourse⟩ := h
  exact exists_marks_of_front (front_of_made hmade hchoices) hcourse

/-- Only conditionals have conditions. -/
theorem eq_conditional_of_made
    (hmade : Choice.Made production.items (front ++ .phrase .condition :: items)) :
    production = .conditional := by
  by_contra hother
  have hnone : ∀ item ∈ production.items, item ≠ .phrase .condition := by
    revert hother
    cases production <;> decide
  have hall := hmade.forall_mem (fun _ _ _ _ => Choice.condition_notMem_of_items) hnone
  exact hall _ (List.mem_append_right _ List.mem_cons_self) rfl

/-- In front of a condition, a conditional was opened. -/
theorem Past.exists_opening (h : production.Past past (.phrase .condition :: items) ahead) :
    ∃ (opening : Word "if") (left : Word "("),
      Move.stepsAll past = [.read opening.token, .read left.token] := by
  obtain ⟨front, begun, _, hmade, hcourse⟩ := h
  cases eq_conditional_of_made hmade
  have hitems : [.word "if", .word "("] ++ .phrase .condition ::
      [.word ")", .phrase .thenPart, .phrase .elsePart] = front ++ .phrase .condition :: items :=
    (hmade.eq (by decide)).symm
  have hfront := ((List.append_cons_inj_of_notMem (by decide) (by decide)).mp hitems).1
  subst hfront
  obtain ⟨opening, _, _, hopening, hcourse⟩ := hcourse.exists_terminal
  obtain ⟨left, _, _, hleft, hcourse⟩ := hcourse.exists_terminal
  rw [hopening, hleft, hcourse.steps_of_done]
  exact ⟨opening, left, rfl⟩

end Production

end SimpleC
