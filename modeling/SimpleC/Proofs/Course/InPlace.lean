import SimpleC.Proofs.Course.Marks

/-!
# Steps in their place

Each step of a recognition belongs where it stands: a token is read from the tokens ahead,
what is asked is about the tokens that were read just before, and a recognition stops at the
next token or, if there is none, at the end. This is shown once, along the course; whatever
a run amounts to can then be told from its steps in a row.
-/

namespace SimpleC

/-- The steps end with the opening of a conditional. -/
def Step.OpensConditional (steps : List Step) : Prop :=
  ∃ (before : List Step) (opening : Word "if") (left : Word "("),
    steps = before ++ [read opening.token, read left.token]

/-- The steps are in their place after those of the past, with these tokens ahead. A stop is
the last one. -/
inductive Step.InPlace : List Step → List Token → List Step → Prop
  | done {past : List Step} {ahead : List Token} :
      InPlace past ahead []
  | read {past rest : List Step} {ahead : List Token} {token : Token}
      (hrest : InPlace (past ++ [.read token]) ahead rest) :
      InPlace past (token :: ahead) (.read token :: rest)
  /-- A production has come to one of its marks, and a condition is one of a conditional. -/
  | check {past earlier own rest : List Step} {ahead : List Token}
      {production : Production} {demand : Demand}
      (hpast : past = earlier ++ own)
      (hmarks : production.Marks own demand)
      (hopening : production = .condition → OpensConditional earlier)
      (hrest : InPlace (past ++ [.check demand]) ahead rest) :
      InPlace past ahead (.check demand :: rest)
  | stop {past : List Step} {ahead : List Token} {violation : Violation}
      (hstops : violation.StopsAt ahead) :
      InPlace past ahead [.stop violation]

/-- Steps in a row are in their place if each part of them is. -/
theorem Step.InPlace.append
    {past left right : List Step}
    {middle : List Token}
    (hleft : InPlace past (tokens left ++ middle) left)
    (hlasts : ∀ violation, .stop violation ∉ left)
    (hright : InPlace (past ++ left) middle right) :
    InPlace past (tokens left ++ middle) (left ++ right) := by
  generalize hahead : tokens left ++ middle = ahead at hleft
  induction hleft with
  | done =>
      cases hahead
      simpa using hright
  | read _ ih =>
      cases hahead
      exact .read (ih (by simpa using hlasts) (by simpa using hright) rfl)
  | check hpast hmarks hopening _ ih =>
      exact .check hpast hmarks hopening
        (ih (by simpa using hlasts) (by simpa using hright) hahead)
  | stop =>
      exact absurd List.mem_cons_self (hlasts _)

section Courses

variable
    {production : Production}
    {read ahead tokens : List Token}
    {items : List Item}
    {past moves : List Move}
    {earlier : List Step}
    {rest? : Option (List Token)}

/-- A production that enters a condition has opened a conditional. -/
theorem Production.Past.opensConditional
    {inner : Production}
    (h : production.Past past (.phrase inner :: items) ahead)
    (earlier : List Step)
    (hinner : inner = .condition) :
    Step.OpensConditional (earlier ++ Move.stepsAll past) := by
  subst hinner
  obtain ⟨opening, left, hsteps⟩ := h.exists_opening
  exact ⟨earlier, opening, left, by rw [hsteps]⟩

/-- The steps of a course are in their place after the past of its production. -/
theorem Course.inPlace
    (h : Course production read items ahead moves rest?)
    (hpast : production.Past past items ahead)
    (hread : read = Move.tokens past)
    (hopening : production = .condition → Step.OpensConditional earlier) :
    Step.InPlace (earlier ++ Move.stepsAll past) ahead (Move.stepsAll moves) := by
  induction h generalizing past earlier with
  | done =>
      exact .done
  | unexpected | missing | undecided =>
      exact .stop (by constructor)
  | refused hmore =>
      exact .stop (Choice.stopsAt_of_items hmore _)
  | token haccepts _ ih =>
      have hrest := ih (hpast.token haccepts) (by simp [hread]) hopening
      exact .read (by simpa using hrest)
  | check _ ih =>
      obtain ⟨demand, hmarks⟩ := hpast.exists_marks
      have hrest := ih hpast.check (by simp [hread]) hopening
      rw [Move.tokens, hmarks.checks_eq] at hrest
      rw [hread, Move.tokens, hmarks.checks_eq]
      exact .check rfl hmarks hopening (by simpa using hrest)
  | choice hmore _ ih =>
      exact ih (hpast.choice hmore) hread hopening
  | phrase hinner _ ihinner ih =>
      have hphrase := ihinner (.start _ _) rfl (hpast.opensConditional earlier)
      have hrest := ih (hpast.phrase hinner) (by simp [hread]) hopening
      rw [hinner.ahead_eq rfl, Move.tokens] at hphrase ⊢
      rw [Move.stepsAll_within]
      exact Step.InPlace.append (by simpa using hphrase) hinner.stop_notMem (by simpa using hrest)
  | broken hinner ih =>
      have hphrase := ih (.start _ _) rfl (hpast.opensConditional earlier)
      simpa using hphrase

/-- The steps on a whole input are in their place. -/
theorem WholeCourse.inPlace (h : WholeCourse tokens moves) :
    Step.InPlace [] tokens (Move.stepsAll moves) := by
  obtain ⟨inner, rest?, hcourse, rfl⟩ := wholeCourse_iff.mp h
  have hprogram : Step.InPlace ([] ++ Move.stepsAll []) tokens (Move.stepsAll inner) :=
    hcourse.inPlace (.start _ _) rfl nofun
  rw [Move.stepsAll_within]
  cases rest? with
  | none =>
      simpa [Move.afterProgram] using hprogram
  | some rest =>
      rw [hcourse.ahead_eq rfl] at hprogram ⊢
      refine hprogram.append hcourse.stop_notMem ?_
      cases rest with
      | nil =>
          exact .done
      | cons token rest =>
          exact .stop (.trailing token rest)

end Courses

end SimpleC
