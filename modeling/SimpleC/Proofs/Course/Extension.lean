import SimpleC.Proofs.Course.Run

/-!
# Courses on longer inputs

A course decides on one token at a time. So it stays as it is when more tokens follow,
unless it was broken off because there was no further token; then the moves on the longer
input begin with the same moves. In particular a course is told by its tokens.
-/

namespace SimpleC

namespace Move

/-- The moves were broken off for want of a token, at which the others go on. -/
inductive Prolonged : List Move → List Move → Prop
  | missing (moves : List Move) :
      Prolonged [.step (.stop .endOfInput)] moves
  | cons (move : Move) {moves further : List Move}
      (hrest : Prolonged moves further) :
      Prolonged (move :: moves) (move :: further)
  | within (production : Production) {moves further : List Move}
      (hmoves : Prolonged moves further)
      (rest : List Move) :
      Prolonged [.within production moves] (.within production further :: rest)

theorem Prolonged.append_left
    {moves further : List Move}
    (h : Prolonged moves further)
    (first : List Move) :
    Prolonged (first ++ moves) (first ++ further) := by
  induction first with
  | nil =>
      exact h
  | cons move rest ih =>
      exact .cons move ih

/-- What moves on some tokens become when more tokens follow. -/
inductive Extended
    (ahead more : List Token)
    (moves : List Move)
    (rest? : Option (List Token)) :
    List Move → Option (List Token) → Prop
  | same :
      Extended ahead more moves rest? moves (rest?.map (· ++ more))
  | prolonged {further : List Move} {further? : Option (List Token)}
      (hmore : more ≠ [])
      (hrest : rest? = none)
      (htokens : tokens moves = ahead)
      (hprolonged : Prolonged moves further) :
      Extended ahead more moves rest? further further?

end Move

section Extension

variable
    {production : Production}
    {read ahead more : List Token}
    {items : List Item}
    {moves further : List Move}
    {rest? further? : Option (List Token)}

/-- Moves for want of a token stay as they are only if no tokens follow. -/
theorem Move.extended_missing
    (hempty : more = [] → further = [.step (.stop .endOfInput)] ∧ further? = none) :
    Extended [] more [.step (.stop .endOfInput)] none further further? := by
  by_cases hmore : more = []
  · obtain ⟨rfl, rfl⟩ := hempty hmore
    exact .same
  · exact .prolonged hmore rfl rfl (.missing further)

/-- Moves that come first stay as they are. -/
theorem Move.Extended.append_left
    (h : Extended ahead more moves rest? further further?)
    (first : List Move) :
    Extended (tokens first ++ ahead) more (first ++ moves) rest? (first ++ further) further? := by
  cases h with
  | same =>
      exact .same
  | prolonged hmore hrest htokens hprolonged =>
      exact .prolonged hmore hrest (by rw [tokens_append, htokens]) (hprolonged.append_left first)

/-- A course is the same on a longer input, or it was broken off for want of a token. -/
theorem Course.extended
    (h : Course production read items ahead moves rest?)
    (hlonger : Course production read items (ahead ++ more) further further?) :
    Move.Extended ahead more moves rest? further further? := by
  induction h generalizing further further? with
  | done =>
      cases hlonger with
      | done =>
          exact .same
  | token haccepts _ ih =>
      cases hlonger with
      | token _ hrest =>
          exact (ih hrest).append_left [.step (.read _)]
      | unexpected hrefused =>
          rw [haccepts] at hrefused
          cases hrefused
  | unexpected hrefused =>
      cases hlonger with
      | token haccepts =>
          rw [haccepts] at hrefused
          cases hrefused
      | unexpected =>
          exact .same
  | missing =>
      refine Move.extended_missing ?_
      rintro rfl
      cases hlonger with
      | missing =>
          exact ⟨rfl, rfl⟩
  | @check production read _ _ _ _ _ ih =>
      cases hlonger with
      | check hrest =>
          have hextended := (ih hrest).append_left (production.checks read)
          rwa [Production.tokens_checks, List.nil_append] at hextended
  | choice hmore _ ih =>
      cases hlonger with
      | choice hother hrest =>
          cases hmore.symm.trans hother
          exact ih hrest
      | refused hother =>
          cases hmore.symm.trans hother
  | refused hmore =>
      cases hlonger with
      | choice hother =>
          cases hmore.symm.trans hother
      | refused hother =>
          cases hmore.symm.trans hother
          exact .same
  | undecided =>
      refine Move.extended_missing ?_
      rintro rfl
      cases hlonger with
      | undecided =>
          exact ⟨rfl, rfl⟩
  | @phrase _ inner _ _ _ _ moves _ _ hinner _ ihinner ih =>
      cases hlonger with
      | phrase hphrase hrest =>
          cases ihinner hphrase with
          | same =>
              have hextended := (ih hrest).append_left [.within inner moves]
              rwa [Move.tokens_within, Move.tokens_nil, List.append_nil,
                ← hinner.ahead_eq rfl] at hextended
          | prolonged _ hnone =>
              cases hnone
      | broken hbroken =>
          cases ihinner hbroken with
          | prolonged _ hnone =>
              cases hnone
  | broken hinner ihinner =>
      cases hlonger with
      | phrase hphrase =>
          cases ihinner hphrase with
          | prolonged hmore _ htokens hprolonged =>
              exact .prolonged hmore rfl (by simpa using htokens) (hprolonged.within _ _)
      | broken hbroken =>
          cases ihinner hbroken with
          | same =>
              exact .same
          | prolonged hmore _ htokens hprolonged =>
              exact .prolonged hmore rfl (by simpa using htokens) (hprolonged.within _ _)

end Extension

/-- The moves on a whole input when more tokens follow: they are the same, or there were no
tokens left over before, or they were broken off for want of a token. -/
theorem WholeCourse.extended
    {tokens more : List Token}
    {moves further : List Move}
    (h : WholeCourse tokens moves)
    (hlonger : WholeCourse (tokens ++ more) further) :
    further = moves ∨
      (∃ token tail, more = token :: tail ∧ Move.tokens moves = tokens ∧
        further = moves ++ [.step (.stop (.trailing token))]) ∨
      (more ≠ [] ∧ Move.tokens moves = tokens ∧ Move.Prolonged moves further) := by
  obtain ⟨inner, rest?, hcourse, rfl⟩ := wholeCourse_iff.mp h
  obtain ⟨longer, further?, hother, rfl⟩ := wholeCourse_iff.mp hlonger
  cases hcourse.extended hother with
  | prolonged hmore hrest htokens hprolonged =>
      subst hrest
      exact .inr (.inr ⟨hmore, by simpa [Move.afterProgram] using htokens, hprolonged.within _ _⟩)
  | same =>
      cases rest? with
      | none =>
          exact .inl rfl
      | some rest =>
          cases rest with
          | cons token rest =>
              exact .inl rfl
          | nil =>
              cases more with
              | nil =>
                  exact .inl rfl
              | cons token tail =>
                  have htokens := hcourse.ahead_eq rfl
                  exact .inr (.inl ⟨token, tail, rfl, by simpa [Move.afterProgram] using htokens.symm,
                    rfl⟩)

/-- The moves on a whole input are told by its tokens. -/
theorem WholeCourse.unique
    {tokens : List Token}
    {moves further : List Move}
    (h : WholeCourse tokens moves)
    (hother : WholeCourse tokens further) :
    further = moves := by
  rw [← List.append_nil tokens] at hother
  rcases h.extended hother with hsame | ⟨_, _, hmore, _⟩ | ⟨hmore, _⟩
  · exact hsame
  · cases hmore
  · exact absurd rfl hmore

/-- A run performs the moves on its tokens. -/
theorem WholeCourse.recognize_eq
    {tokens : List Token}
    {moves : List Move}
    (h : WholeCourse tokens moves)
    (switches : Switches)
    (symbols : SymbolTable) :
    recognize switches symbols tokens =
        .ofResult (Move.performAll switches moves (.start tokens symbols)) ∧
      (Step.outcome switches (Move.stepsAll moves) ⟨symbols, []⟩).Tells
        (recognize switches symbols tokens) := by
  obtain ⟨further, hcourse, hperformed⟩ := exists_moves tokens
  cases h.unique hcourse
  exact hperformed switches symbols

end SimpleC
