import SimpleC.Proofs.Grammar.Derivation
import SimpleC.Token.Wire

/-!
# The grammar is productive

Something can be derived from every production, so that whatever is missing of a derivation
can be filled in.
-/

namespace SimpleC

namespace Grammar

/-- Something can be derived from the constituents. -/
def Productive (body : List Constituent) : Prop :=
  ∃ tokens, Derives body tokens

/-- There is a token for every expectation. -/
theorem exists_accepted (wanted : Expectation) : ∃ token, wanted.accepts token = true := by
  cases wanted with
  | spelled spelling =>
      exact ⟨.bare spelling, by simp [Expectation.accepts, Token.isSpelled_eq_true_iff, Token.bare]⟩
  | ofKind kind =>
      exact ⟨⟨kind, ""⟩, by simp [Expectation.accepts]⟩

/-- Something can be derived from constituents if it can be from each production in them. -/
theorem productive_of_forall
    {body : List Constituent}
    (h : ∀ production, .nonterminal production ∈ body → Productive [.nonterminal production]) :
    Productive body := by
  induction body with
  | nil =>
      exact ⟨[], .nil⟩
  | cons constituent rest ih =>
      obtain ⟨tokens, htokens⟩ := ih fun production hmem =>
        h production (List.mem_cons_of_mem _ hmem)
      cases constituent with
      | terminal wanted =>
          obtain ⟨token, haccepts⟩ := exists_accepted wanted
          exact ⟨_, .terminal haccepts htokens⟩
      | nonterminal production =>
          obtain ⟨part, hpart⟩ := h production List.mem_cons_self
          exact ⟨_, hpart.append htokens⟩

theorem Productive.ofRule
    {production : Production}
    {body : List Constituent}
    (hrule : Rule production body)
    (hbody : Productive body) :
    Productive [.nonterminal production] := by
  obtain ⟨tokens, htokens⟩ := hbody
  exact ⟨_, .ofRule hrule htokens⟩

/-- A production with a right-hand side of terminals. -/
theorem Productive.ofTerminals
    {production : Production}
    {body : List Constituent}
    (hrule : Rule production body)
    (hterminals : ∀ production, .nonterminal production ∉ body) :
    Productive [.nonterminal production] :=
  .ofRule hrule (productive_of_forall fun other hmem => absurd hmem (hterminals other))

/-- The shortest statement is empty. -/
theorem productive_statement : Productive [.nonterminal .statement] :=
  .ofRule (.statement (by decide)) (.ofTerminals .empty (by simp))

theorem productive_expression : Productive [.nonterminal .expression] := by
  have hliteral : payload .intLiteral ∈ valueTerminals := by decide
  exact .ofRule .single (.ofTerminals (.value hliteral) (by simp))

/-- Something can be derived from each production. -/
theorem productive_production (production : Production) :
    Productive [.nonterminal production] := by
  have hstatements : Productive [.nonterminal .statements] :=
    .ofRule (.statements 0) productive_statement
  have houtput : Productive [.nonterminal .outputValue] := .ofTerminals .endOfLine (by simp)
  have hcondition : Productive [.nonterminal .condition] :=
    .ofRule .condition productive_expression
  have hthen : Productive [.nonterminal .thenPart] := .ofRule .thenPart productive_statement
  have helse : Productive [.nonterminal .elsePart] := .ofTerminals .noElse (by simp)
  cases production with
  | program =>
      exact .ofRule .program (productive_of_forall (by simpa using hstatements))
  | statements =>
      exact hstatements
  | statement =>
      exact productive_statement
  | empty =>
      exact .ofTerminals .empty (by simp)
  | declaration =>
      have hword : bare "int" ∈ [bare "int", bare "real"] := by decide
      exact .ofTerminals (.declaration hword) (by simp)
  | input =>
      exact .ofTerminals .input (by simp)
  | output =>
      exact .ofRule .output (productive_of_forall (by simpa using houtput))
  | outputValue =>
      exact houtput
  | assignment =>
      exact .ofRule .assignment (productive_of_forall (by simpa using productive_expression))
  | conditional =>
      exact .ofRule .conditional
        (productive_of_forall (by simpa using ⟨hcondition, hthen, helse⟩))
  | condition =>
      exact hcondition
  | thenPart =>
      exact hthen
  | elsePart =>
      exact helse
  | expression =>
      exact productive_expression
  | value =>
      have hliteral : payload .intLiteral ∈ valueTerminals := by decide
      exact .ofTerminals (.value hliteral) (by simp)
  | operator =>
      have hsign : bare "+" ∈ operatorTerminals := by decide
      exact .ofTerminals (.operator hsign) (by simp)

/-- Something can be derived from all constituents. -/
theorem productive (body : List Constituent) : Productive body :=
  productive_of_forall fun production _ => productive_production production

end Grammar

end SimpleC
