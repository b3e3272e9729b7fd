import SimpleC.Proofs.Course.Parts
import SimpleC.Proofs.Phrase.Basic

/-!
# What a production has done

A production that goes on with some items has come there from the first item of its
right-hand side: its past is a course of the items before them, once the choices that it
met are made. So whatever is asked at a mark can be told from the right-hand side.
-/

namespace SimpleC

/-- Whether the next token decides about the item. -/
def Item.isChoice : Item → Bool
  | choice _ => true
  | token _ | phrase _ | check => false

/-- The items become the others as some of the choices among them are made. -/
inductive Choice.Made : List Item → List Item → Prop
  | nil :
      Made [] []
  | cons (item : Item) {items others : List Item}
      (hrest : Made items others) :
      Made (item :: items) (item :: others)
  | choice {choice : Choice} {token : Token} {more items others : List Item}
      (hmore : choice.items token = .ok more)
      (hrest : Made (more ++ items) others) :
      Made (.choice choice :: items) others

namespace Choice

variable {items others front rest more : List Item}

theorem Made.refl (items : List Item) : Made items items := by
  induction items with
  | nil =>
      exact .nil
  | cons item rest ih =>
      exact .cons item ih

theorem Made.append_left (h : Made items others) (front : List Item) :
    Made (front ++ items) (front ++ others) := by
  induction front with
  | nil =>
      exact h
  | cons item front ih =>
      exact .cons item ih

/-- One more choice is made. -/
theorem Made.choose
    {choice : Choice}
    {token : Token}
    (h : Made items (front ++ .choice choice :: rest))
    (hmore : choice.items token = .ok more) :
    Made items (front ++ (more ++ rest)) := by
  generalize hothers : front ++ .choice choice :: rest = others at h
  induction h generalizing front with
  | nil =>
      simp at hothers
  | cons item hrest ih =>
      cases front with
      | nil =>
          cases hothers
          exact .choice hmore (hrest.append_left more)
      | cons head front =>
          cases hothers
          exact .cons item (ih rfl)
  | choice hfirst _ ih =>
      exact .choice hfirst (ih hothers)

/-- Where there is no choice, the items stay as they are. -/
theorem Made.eq
    (h : Made items others)
    (hitems : ∀ item ∈ items, item.isChoice = false) :
    others = items := by
  induction h with
  | nil =>
      rfl
  | cons item _ ih =>
      rw [List.forall_mem_cons] at hitems
      rw [ih hitems.2]
  | choice =>
      rw [List.forall_mem_cons] at hitems
      cases hitems.1

/-- What holds of the items and of all that choices put in their place stays. -/
theorem Made.forall_mem
    {Holds : Item → Prop}
    (h : Made items others)
    (hchoices : ∀ choice token more, Holds (.choice choice) → choice.items token = .ok more →
      ∀ item ∈ more, Holds item)
    (hitems : ∀ item ∈ items, Holds item) :
    ∀ item ∈ others, Holds item := by
  induction h with
  | nil =>
      exact hitems
  | cons item _ ih =>
      rw [List.forall_mem_cons] at hitems ⊢
      exact ⟨hitems.1, ih hitems.2⟩
  | choice hmore _ ih =>
      rw [List.forall_mem_cons] at hitems
      refine ih ?_
      rw [List.forall_mem_append]
      exact ⟨hchoices _ _ _ hitems.1 hmore, hitems.2⟩

end Choice

section Past

variable
    {production : Production}
    {read begun ahead middle rest : List Token}
    {items front : List Item}
    {past moves : List Move}
    {rest? : Option (List Token)}

/-- A course goes on with further items after the ones that it has come to the end of. -/
theorem Course.append
    (h : Course production read front begun past (some middle))
    (hrest : Course production (read ++ Move.tokens past) items middle moves rest?) :
    Course production read (front ++ items) begun (past ++ moves) rest? := by
  generalize hmiddle : some middle = middle? at h
  induction h with
  | done =>
      cases hmiddle
      simpa using hrest
  | token haccepts _ ih =>
      exact .token haccepts (ih (by simpa using hrest) hmiddle)
  | @check production read _ _ _ _ _ ih =>
      rw [List.append_assoc]
      exact .check (ih (by simpa using hrest) hmiddle)
  | choice hmore _ ih =>
      have hcourse := ih hrest hmiddle
      rw [List.append_assoc] at hcourse
      exact .choice hmore hcourse
  | phrase hinner _ _ ih =>
      exact .phrase hinner (ih (by simpa using hrest) hmiddle)
  | unexpected | missing | refused | undecided | broken =>
      cases hmiddle

/-- A course that comes to its end has read the token that it begins with. -/
theorem Course.exists_terminal
    {wanted : Expectation}
    (h : Course production read (.token wanted :: items) ahead moves (some rest)) :
    ∃ (terminal : Terminal wanted) (later : List Token) (further : List Move),
      Move.stepsAll moves = .read terminal.token :: Move.stepsAll further ∧
        Course production (read ++ [terminal.token]) items later further (some rest) := by
  cases h with
  | token haccepts hrest =>
      exact ⟨⟨_, haccepts⟩, _, _, rfl, hrest⟩

/-- A course that comes to its end has come to the end of the phrase that it begins with. -/
theorem Course.exists_phrase
    {inner : Production}
    (h : Course production read (.phrase inner :: items) ahead moves (some rest)) :
    ∃ (middle : List Token) (inside further : List Move),
      Move.stepsAll moves = Move.stepsAll inside ++ Move.stepsAll further ∧
        Course inner [] inner.items ahead inside (some middle) ∧
        Course production (read ++ Move.tokens inside) items middle further (some rest) := by
  cases h with
  | phrase hinner hrest =>
      exact ⟨_, _, _, rfl, hinner, hrest⟩

theorem Course.steps_of_done (h : Course production read [] ahead moves (some rest)) :
    Move.stepsAll moves = [] := by
  cases h
  rfl

/-- The production has made these moves from its first item on, and it goes on with the items
on the tokens ahead. The choices that it met are made. -/
def Production.Past
    (production : Production)
    (past : List Move)
    (items : List Item)
    (ahead : List Token) : Prop :=
  ∃ front begun, (∀ item ∈ front, item.isChoice = false) ∧
    Choice.Made production.items (front ++ items) ∧
      Course production [] front begun past (some ahead)

namespace Production

theorem Past.start (production : Production) (ahead : List Token) :
    production.Past [] production.items ahead :=
  ⟨[], ahead, List.forall_mem_nil _, .refl _, .done⟩

/-- One item further. -/
theorem Past.append
    {item : Item}
    (h : production.Past past (item :: items) ahead)
    (hitem : item.isChoice = false)
    (hcourse : Course production (Move.tokens past) [item] ahead moves (some rest)) :
    production.Past (past ++ moves) items rest := by
  obtain ⟨front, begun, hchoices, hmade, hbegun⟩ := h
  refine ⟨front ++ [item], begun, ?_, by simpa using hmade, hbegun.append hcourse⟩
  rw [List.forall_mem_append, List.forall_mem_singleton]
  exact ⟨hchoices, hitem⟩

theorem Past.token
    {wanted : Expectation}
    {token : Token}
    (h : production.Past past (.token wanted :: items) (token :: ahead))
    (haccepts : wanted.accepts token = true) :
    production.Past (past ++ [.step (.read token)]) items ahead :=
  h.append rfl (.token haccepts .done)

theorem Past.check (h : production.Past past (.check :: items) ahead) :
    production.Past (past ++ production.checks (Move.tokens past)) items ahead := by
  have hcheck : Course production (Move.tokens past) [.check] ahead _ (some ahead) :=
    .check .done
  rw [List.append_nil] at hcheck
  exact h.append rfl hcheck

theorem Past.choice
    {choice : Choice}
    {token : Token}
    {more : List Item}
    (h : production.Past past (.choice choice :: items) ahead)
    (hmore : choice.items token = .ok more) :
    production.Past past (more ++ items) ahead := by
  obtain ⟨front, begun, hchoices, hmade, hcourse⟩ := h
  exact ⟨front, begun, hchoices, hmade.choose hmore, hcourse⟩

theorem Past.phrase
    {inner : Production}
    (h : production.Past past (.phrase inner :: items) ahead)
    (hinner : Course inner [] inner.items ahead moves (some rest)) :
    production.Past (past ++ [.within inner moves]) items rest :=
  h.append rfl (.phrase hinner .done)

end Production

end Past

end SimpleC
