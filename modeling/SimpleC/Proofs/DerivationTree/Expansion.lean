import SimpleC.Proofs.Course.Basic
import SimpleC.Proofs.Phrase.Derivation

/-!
# Expansions

The constituents that the items of a production become once the next tokens have
decided its choices. The expansions of the items of a production are right-hand sides
of its rule, and choices that were not reached can be taken in some way.
-/

namespace SimpleC

namespace Grammar

/-- The items become these constituents by some choices. -/
inductive Expands : List Item → List Constituent → Prop
  | nil :
      Expands [] []
  | token {wanted : Expectation} {items : List Item} {body : List Constituent}
      (hrest : Expands items body) :
      Expands (.token wanted :: items) (.terminal wanted :: body)
  | phrase {production : Production} {items : List Item} {body : List Constituent}
      (hrest : Expands items body) :
      Expands (.phrase production :: items) (.nonterminal production :: body)
  | check {items : List Item} {body : List Constituent}
      (hrest : Expands items body) :
      Expands (.check :: items) body
  | choice {choice : Choice} {token : Token} {more items : List Item}
      {body : List Constituent}
      (hmore : choice.items token = .ok more)
      (hrest : Expands (more ++ items) body) :
      Expands (.choice choice :: items) body

section Inversion

variable {items : List Item} {body : List Constituent}

@[simp] theorem expands_nil : Expands [] body ↔ body = [] := by
  constructor
  · intro h
    cases h
    rfl
  · rintro rfl
    exact .nil

@[simp] theorem expands_token {wanted : Expectation} :
    Expands (.token wanted :: items) body ↔
      ∃ rest, Expands items rest ∧ body = .terminal wanted :: rest := by
  constructor
  · intro h
    cases h with
    | token hrest =>
        exact ⟨_, hrest, rfl⟩
  · rintro ⟨rest, hrest, rfl⟩
    exact .token hrest

@[simp] theorem expands_phrase {production : Production} :
    Expands (.phrase production :: items) body ↔
      ∃ rest, Expands items rest ∧ body = .nonterminal production :: rest := by
  constructor
  · intro h
    cases h with
    | phrase hrest =>
        exact ⟨_, hrest, rfl⟩
  · rintro ⟨rest, hrest, rfl⟩
    exact .phrase hrest

@[simp] theorem expands_check : Expands (.check :: items) body ↔ Expands items body := by
  constructor
  · intro h
    cases h with
    | check hrest =>
        exact hrest
  · exact .check

theorem expands_choice {choice : Choice} :
    Expands (.choice choice :: items) body ↔
      ∃ token more, choice.items token = .ok more ∧ Expands (more ++ items) body := by
  constructor
  · intro h
    cases h with
    | choice hmore hrest =>
        exact ⟨_, _, hmore, hrest⟩
  · rintro ⟨token, more, hmore, hrest⟩
    exact .choice hmore hrest

end Inversion

/-- Each choice can be taken in a way that leaves no further choice. -/
theorem exists_expands (items : List Item) : ∃ body, Expands items body := by
  induction items with
  | nil =>
      exact ⟨[], .nil⟩
  | cons item rest ih =>
      obtain ⟨body, hbody⟩ := ih
      cases item with
      | token wanted =>
          exact ⟨_, .token hbody⟩
      | phrase production =>
          exact ⟨_, .phrase hbody⟩
      | check =>
          exact ⟨_, .check hbody⟩
      | choice choice =>
          have hends : ∀ token more, choice.items token = .ok more →
              (∃ body, Expands (more ++ rest) body) →
                ∃ body, Expands (.choice choice :: rest) body := by
            rintro token more hmore ⟨body, hmoreBody⟩
            exact ⟨body, .choice hmore hmoreBody⟩
          cases choice with
          | further | otherwise | operation =>
              exact hends (.bare "\x7d") [] rfl ⟨_, hbody⟩
          | form =>
              exact hends (.bare ";") [.phrase .empty] rfl ⟨_, .phrase hbody⟩
          | declarator =>
              exact hends (.bare "int") [.word "int"] rfl ⟨_, .token hbody⟩
          | printed =>
              exact hends (.bare "endl") [.word "endl"] rfl ⟨_, .token hbody⟩
          | operand =>
              exact hends ⟨.intLiteral, "0"⟩ [.token (.ofKind .intLiteral), .check] rfl
                ⟨_, .token (.check hbody)⟩
          | sign =>
              exact hends (.bare "+") [.word "+"] rfl ⟨_, .token hbody⟩

/-- Any number of statements may follow a statement. -/
theorem exists_replicate_of_expands
    {body : List Constituent}
    (h : Expands [.choice .further] body) :
    ∃ further, body = List.replicate further (.nonterminal .statement) := by
  induction body with
  | nil =>
      exact ⟨0, rfl⟩
  | cons head rest ih =>
      obtain ⟨token, more, hmore, hrest⟩ := expands_choice.mp h
      simp only [Choice.items] at hmore
      split at hmore
      · cases hmore
        simp only [List.cons_append, List.nil_append, expands_phrase, List.cons.injEq] at hrest
        obtain ⟨_, hfurther, rfl, rfl⟩ := hrest
        obtain ⟨further, rfl⟩ := ih hfurther
        exact ⟨further + 1, rfl⟩
      · cases hmore
        simp at hrest

/-- The expansions of the items of a production are right-hand sides of its rule. -/
theorem rule_of_expands
    {production : Production}
    {body : List Constituent}
    (h : Expands production.items body) :
    Rule production body := by
  cases production with
  | program | empty | input | output | assignment | conditional | condition | thenPart =>
      simp only [Production.items, expands_token, expands_phrase, expands_check, expands_nil,
        exists_eq_left] at h
      subst h
      constructor
  | statements =>
      simp only [Production.items, expands_phrase] at h
      obtain ⟨rest, hrest, rfl⟩ := h
      obtain ⟨further, rfl⟩ := exists_replicate_of_expands hrest
      exact .statements further
  | statement =>
      obtain ⟨token, more, hmore, hrest⟩ := expands_choice.mp h
      simp only [Choice.items] at hmore
      split at hmore
      · rename_i form _
        cases hmore
        simp only [List.cons_append, List.nil_append, expands_phrase, expands_nil,
          exists_eq_left] at hrest
        subst hrest
        exact .statement (by cases form <;> decide)
      · cases hmore
  | declaration =>
      obtain ⟨token, more, hmore, hrest⟩ := expands_choice.mp h
      simp only [Choice.items] at hmore
      split at hmore
      · rename_i type htype
        cases hmore
        obtain ⟨spelling, _, hdeclarator⟩ := Option.bind_eq_some_iff.mp htype
        have hnumeric := (ValueType.ofDeclarator?_eq_some_iff.mp hdeclarator).1
        simp only [List.cons_append, List.nil_append, expands_token, expands_check, expands_nil,
          exists_eq_left] at hrest
        subst hrest
        refine .declaration ?_
        cases type with
        | int | real =>
            decide
        | str | bool =>
            cases hnumeric
      · cases hmore
  | outputValue =>
      obtain ⟨token, more, hmore, hrest⟩ := expands_choice.mp h
      simp only [Choice.items] at hmore
      split at hmore <;> cases hmore <;>
        simp only [List.cons_append, List.nil_append, expands_token, expands_phrase, expands_nil,
          exists_eq_left] at hrest <;> subst hrest
      · exact .endOfLine
      · exact .printedValue
  | elsePart =>
      obtain ⟨token, more, hmore, hrest⟩ := expands_choice.mp h
      simp only [Choice.items] at hmore
      split at hmore <;> cases hmore <;>
        simp only [List.cons_append, List.nil_append, expands_token, expands_phrase, expands_nil,
          exists_eq_left] at hrest <;> subst hrest
      · exact .otherwise
      · exact .noElse
  | expression =>
      simp only [Production.items, expands_phrase] at h
      obtain ⟨rest, hrest, rfl⟩ := h
      obtain ⟨token, more, hmore, hrest⟩ := expands_choice.mp hrest
      simp only [Choice.items] at hmore
      split at hmore <;> cases hmore <;>
        simp only [List.cons_append, List.nil_append, expands_phrase, expands_check, expands_nil,
          exists_eq_left] at hrest <;> subst hrest
      · exact .binary
      · exact .single
  | value =>
      obtain ⟨token, more, hmore, hrest⟩ := expands_choice.mp h
      simp only [Choice.items] at hmore
      split at hmore
      · rename_i hwanted
        cases hmore
        simp only [List.cons_append, List.nil_append, expands_token, expands_check, expands_nil,
          exists_eq_left] at hrest
        subst hrest
        exact .value (mem_valueTerminals hwanted)
      · cases hmore
  | operator =>
      obtain ⟨token, more, hmore, hrest⟩ := expands_choice.mp h
      simp only [Choice.items] at hmore
      split at hmore
      · rename_i operator _
        cases hmore
        simp only [List.cons_append, List.nil_append, expands_token, expands_nil,
          exists_eq_left] at hrest
        subst hrest
        refine .operator ?_
        rw [operatorTerminals_eq]
        exact List.mem_map_of_mem (Operator.mem_all operator)
      · cases hmore

end Grammar

end SimpleC
