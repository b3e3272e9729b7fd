import SimpleC.Proofs.Recognizer.StatementReadings
import SimpleC.Run

/-!
# Reading programs

A program in which every `else` belongs to the nearest open conditional is read
to its end, whatever the switches. The outcome is that of its obligations: the
same violation or none, the same variables and the same warnings; and the
derivation that is recorded is the one of the program.
-/

namespace SimpleC

namespace Recognizer

variable {switches : Switches} {tail : List Token}

/-- Statements in a row are read up to the brace that closes them. -/
theorem reads_repeated
    (switches : Switches)
    (depth : Nat)
    (tail : List Token)
    (closing : Word "\x7d")
    (further : List Statement)
    (hnearest : ∀ statement ∈ further, statement.NearestElse)
    (hdepth : (further.flatMap Statement.tokens).length ≤ depth) :
    ∀ count, (further.flatMap Statement.tokens).length < count →
      Reads switches (further.flatMap Statement.tokens ++ closing.token :: tail)
        (closing.token :: tail) (fun _ _ => True)
        (fun symbols => further.map (Statement.node (switches.typesUnder symbols)))
        (repeated (statement switches depth) count)
        (switches.checks (further.flatMap Statement.obligations)) := by
  induction further with
  | nil =>
      intro count hcount
      cases count with
      | zero =>
          simp at hcount
      | succ count =>
          have hclosing : StatementForm.ofToken? closing.token = none :=
            StatementForm.ofToken?_of_spelling? closing.spelling?_token
          refine Reads.peek_bind ?_
          rw [hclosing]
          exact .pure trivial
  | cons next further ih =>
      intro count hcount
      cases count with
      | zero =>
          omega
      | succ count =>
          obtain ⟨rest, htokens⟩ := next.exists_tokens_eq
          have hpositive : 0 < next.tokens.length := by
            simp [htokens]
          simp only [List.flatMap_cons, List.length_append] at hdepth hcount
          have hnext := reads_statement switches depth next
            (further.flatMap Statement.tokens ++ closing.token :: tail) (by omega)
            (hnearest next List.mem_cons_self) fun _ => Statement.exists_no_else further closing tail
          have hfurther := ih (fun statement hstatement =>
            hnearest statement (List.mem_cons_of_mem next hstatement)) (by omega) count
            (by omega)
          have hread := Reads.bind hnext fun _ _ _ => hfurther
          rw [List.flatMap_cons, List.flatMap_cons, Switches.checks_append, List.append_assoc]
          rw [htokens, List.cons_append] at hread ⊢
          refine Reads.peek_bind ?_
          rw [next.ofToken?_first]
          exact hread

/-- A row of statements is read up to the brace that closes it. -/
theorem reads_statements
    {bound : Nat}
    (closing : Word "\x7d")
    (program : Program)
    (hnearest : program.NearestElse)
    (hbound : program.body.length < bound) :
    Reads switches (program.body ++ closing.token :: tail) (closing.token :: tail)
      (fun _ _ => True)
      (fun symbols => [Production.statements.node
        (program.statements.map (Statement.node (switches.typesUnder symbols)))])
      (statements switches bound) (switches.checks program.obligations) := by
  obtain ⟨_, _, _, _, _, first, further, _, _⟩ := program
  simp only [Program.body, Program.statements, List.flatMap_cons, List.length_append] at hbound
  have hfirst := reads_statement switches bound first
    (further.flatMap Statement.tokens ++ closing.token :: tail) (by omega)
    (hnearest first List.mem_cons_self) fun _ => Statement.exists_no_else further closing tail
  have hfurther := reads_repeated switches bound tail closing further
    (fun statement hstatement => hnearest statement (List.mem_cons_of_mem first hstatement))
    (by omega) bound (by omega)
  simp only [Program.body, Program.obligations, Program.statements, List.flatMap_cons,
    List.append_assoc, Switches.checks_append]
  refine Reads.plain .statements ?_
  exact Reads.bind hfirst fun _ _ _ => hfurther

theorem reads_program
    {bound : Nat}
    (phrase : Program)
    (hnearest : phrase.NearestElse)
    (hbound : phrase.body.length < bound) :
    Reads switches (phrase.tokens ++ tail) tail (fun _ _ => True)
      (fun symbols => [phrase.node (switches.typesUnder symbols)])
      (program switches bound) (switches.checks phrase.obligations) := by
  have hstatements : ∀ tail, Reads switches (phrase.body ++ phrase.closing.token :: tail)
      (phrase.closing.token :: tail) (fun _ _ => True)
      (fun symbols => [Production.statements.node
        (phrase.statements.map (Statement.node (switches.typesUnder symbols)))])
      (statements switches bound) (switches.checks phrase.obligations) :=
    fun tail => reads_statements phrase.closing phrase hnearest hbound
  unfold Program.tokens
  simp only [List.cons_append, List.append_assoc, List.nil_append]
  refine Reads.plain .program ?_
  refine Reads.expect_bind phrase.void ?_
  refine Reads.expect_bind phrase.main ?_
  refine Reads.expect_bind phrase.left ?_
  refine Reads.expect_bind phrase.right ?_
  refine Reads.expect_bind phrase.opening ?_
  exact (hstatements _).bind_read fun _ _ =>
    .expect_bind phrase.closing (.expect phrase.stop)

/-- A program is read to its end, and nothing follows it. -/
theorem reads_wholeInput
    (switches : Switches)
    {bound : Nat}
    (phrase : Program)
    (hnearest : phrase.NearestElse)
    (hbound : phrase.body.length < bound) :
    Reads switches phrase.tokens [] (fun _ _ => True)
      (fun symbols => [phrase.node (switches.typesUnder symbols)])
      (wholeInput switches bound) (switches.checks phrase.obligations) := by
  have hprogram : Reads switches (phrase.tokens ++ []) [] (fun _ _ => True)
      (fun symbols => [phrase.node (switches.typesUnder symbols)])
      (program switches bound) (switches.checks phrase.obligations) :=
    reads_program phrase hnearest hbound
  rw [List.append_nil] at hprogram
  refine hprogram.bind_read fun _ _ => ?_
  intro state hahead
  have hend : nothingMore state = .ok () state := by
    have hget : (get : Recognizer State) state = .ok state state := rfl
    rw [nothingMore, bind_of_ok hget, hahead]
    rfl
  rw [hend]
  exact .ok trivial hahead (.refl _) (by simp)

end Recognizer

/-- The run of a program agrees with the outcome of its obligations. -/
def Run.Agrees (run : Run) (switches : Switches) (phrase : Program) :
    EStateM.Result Violation Findings Unit → Prop
  | .ok _ findings =>
      run.stop? = none ∧ run.symbols = findings.symbols ∧ run.warnings = findings.warnings ∧
        run.tree? =
          if switches.record then some (phrase.node (switches.typesUnder findings.symbols))
          else none
  | .error violation findings =>
      run.stop? = some (.violation violation) ∧ run.symbols = findings.symbols ∧
        run.warnings = findings.warnings

/-- The run of a program does what its obligations ask for. -/
theorem recognize_agrees
    (switches : Switches)
    (symbols : SymbolTable)
    (phrase : Program)
    (hnearest : phrase.NearestElse) :
    (recognize switches symbols phrase.tokens).Agrees switches phrase
      (switches.checks phrase.obligations ⟨symbols, []⟩) := by
  have hbound : phrase.body.length < phrase.tokens.length + 1 := by
    simp only [Program.tokens, List.length_cons, List.length_append]
    omega
  have hended := Recognizer.reads_wholeInput switches phrase hnearest hbound
    (.start phrase.tokens symbols) rfl
  rw [show (State.start phrase.tokens symbols).findings = ⟨symbols, []⟩ from rfl] at hended
  unfold recognize
  generalize Recognizer.wholeInput switches (phrase.tokens.length + 1)
    (.start phrase.tokens symbols) = ended,
    switches.checks phrase.obligations ⟨symbols, []⟩ = checked at hended ⊢
  cases hended with
  | error =>
      exact ⟨rfl, rfl, rfl⟩
  | @ok _ _ after _ _ _ hnodes =>
      refine ⟨rfl, rfl, rfl, ?_⟩
      have hchildren := hnodes after.symbols (.refl _)
      show after.children[0]? = _
      rw [← Array.getElem?_toList, hchildren]
      unfold Switches.recorded
      split
      · rfl
      · rfl

/-- A program is accepted exactly if its obligations are met. -/
theorem recognize_isSuccess_iff
    (switches : Switches)
    (symbols : SymbolTable)
    (phrase : Program)
    (hnearest : phrase.NearestElse) :
    (recognize switches symbols phrase.tokens).isSuccess = true ↔
      ∃ findings, switches.checks phrase.obligations ⟨symbols, []⟩ = .ok () findings := by
  have hagrees := recognize_agrees switches symbols phrase hnearest
  unfold Run.isSuccess
  cases hchecks : switches.checks phrase.obligations ⟨symbols, []⟩ with
  | ok _ findings =>
      rw [hchecks] at hagrees
      simp [hagrees.1]
  | error violation findings =>
      rw [hchecks] at hagrees
      simp [hagrees.1]

end SimpleC
