import SimpleC.Proofs.Course.TypePhases

/-!
# Symbol tables that grow alike

A recognition from a larger symbol table on adds the same variables to it. What is asked has
the same answer under both tables, unless a variable is missing that only the larger one has
from the beginning. A declaration is new under both tables or under none, as long as its name
is not that of such a variable.
-/

namespace SimpleC

/-- The same variables were added to both symbol tables. -/
def SymbolTable.GrownAlike (symbols larger table other : SymbolTable) : Prop :=
  ∃ added, table.entries = symbols.entries ++ added ∧ other.entries = larger.entries ++ added

theorem SymbolTable.Within.names_subset
    {table larger : SymbolTable}
    (h : table.Within larger) :
    table.names ⊆ larger.names :=
  List.map_subset _ h

section Tables

variable
    {symbols larger table other : SymbolTable}
    {name : String}

namespace SymbolTable.GrownAlike

theorem refl (symbols larger : SymbolTable) : symbols.GrownAlike larger symbols larger :=
  ⟨[], by simp, by simp⟩

theorem within
    (h : symbols.GrownAlike larger table other)
    (hwithin : symbols.Within larger) :
    table.Within other := by
  obtain ⟨added, htable, hother⟩ := h
  intro symbol hsymbol
  rw [htable, List.mem_append] at hsymbol
  rw [hother, List.mem_append]
  rcases hsymbol with hold | hadded
  · exact .inl (hwithin hold)
  · exact .inr hadded

/-- A name that is declared on the larger side only is declared there from the beginning. -/
theorem mem_names
    (h : symbols.GrownAlike larger table other)
    (hname : name ∈ other.names) :
    name ∈ table.names ∨ name ∈ larger.names := by
  obtain ⟨added, htable, hother⟩ := h
  rw [names, hother, List.map_append, List.mem_append] at hname
  rcases hname with hold | hadded
  · exact .inr hold
  · left
    rw [names, htable, List.map_append, List.mem_append]
    exact .inr hadded

/-- Variables that are declared stay so. -/
theorem mem_names_of_mem
    (h : symbols.GrownAlike larger table other)
    (hname : name ∈ symbols.names) :
    name ∈ table.names := by
  obtain ⟨added, htable, _⟩ := h
  rw [names, htable, List.map_append, List.mem_append]
  exact .inl hname

theorem mem_names_iff
    (h : symbols.GrownAlike larger table other)
    (hwithin : symbols.Within larger)
    (hname : name ∈ larger.names → name ∈ symbols.names) :
    name ∈ other.names ↔ name ∈ table.names := by
  constructor
  · intro hother
    rcases h.mem_names hother with htable | hlarger
    · exact htable
    · exact h.mem_names_of_mem (hname hlarger)
  · intro htable
    exact (h.within hwithin).names_subset htable

theorem declare
    {extended extended' : SymbolTable}
    {type : ValueType}
    (h : symbols.GrownAlike larger table other)
    (hdeclare : table.declare name type = .ok extended)
    (hother : other.declare name type = .ok extended') :
    symbols.GrownAlike larger extended extended' := by
  obtain ⟨added, htable, hlarger⟩ := h
  refine ⟨added ++ [⟨name, type⟩], ?_, ?_⟩
  · rw [(entries_of_declare hdeclare).2, htable, List.append_assoc]
  · rw [(entries_of_declare hother).2, hlarger, List.append_assoc]

end SymbolTable.GrownAlike

/-- What is asked has the same ruling under a larger table. -/
theorem Demand.ruling_of_within (hwithin : table.Within larger) (demand : Demand) :
    larger.SameUnlessUndefined (demand.ruling table) (demand.ruling larger) := by
  cases demand with
  | declaration type name =>
      exact .refl _
  | lookup name =>
      exact (hwithin.lookup name).map _
  | value operand =>
      exact (operand.typing_of_within hwithin).map _
  | operation left sign right =>
      refine (Expression.typing_of_within hwithin (.binary left sign right)).bind fun _ => ?_
      exact .refl _
  | assignment name phrase =>
      refine (hwithin.lookup name).bind fun _ => ?_
      exact (phrase.typing_of_within hwithin).bind fun _ => .refl _
  | condition phrase =>
      exact (phrase.typing_of_within hwithin).bind fun _ => .refl _

end Tables

/-- The answers to a demand on both sides: both tables grow alike and the warnings are the
same, or both answers are the same violation, or a variable is missing that only the larger
table has from the beginning. -/
inductive SymbolTable.AnsweredAlike (symbols larger : SymbolTable) :
    Except Violation (SymbolTable × List Warning) →
      Except Violation (SymbolTable × List Warning) → Prop
  | ok {table other : SymbolTable} {warnings : List Warning}
      (hgrown : symbols.GrownAlike larger table other) :
      AnsweredAlike symbols larger (.ok (table, warnings)) (.ok (other, warnings))
  | error (violation : Violation) :
      AnsweredAlike symbols larger (.error violation) (.error violation)
  | undefined {name : String} {answer : Except Violation (SymbolTable × List Warning)}
      (hbound : name ∈ larger.names)
      (hnew : name ∉ symbols.names) :
      AnsweredAlike symbols larger (.error (.undefined name)) answer

section Answers

variable
    {symbols larger table other : SymbolTable}
    {switches : Switches}

/-- A declaration is answered alike, if its name is no name of the larger table only. -/
theorem SymbolTable.GrownAlike.answer_declaration
    {name : String}
    (h : symbols.GrownAlike larger table other)
    (hwithin : symbols.Within larger)
    (hname : switches.declare = true → name ∈ larger.names → name ∈ symbols.names)
    (type : ValueType) :
    symbols.AnsweredAlike larger ((Demand.declaration type name).answer switches table)
      ((Demand.declaration type name).answer switches other) := by
  rw [Demand.answer_declaration, Demand.answer_declaration]
  cases hdeclare : switches.declare with
  | false =>
      exact .ok h
  | true =>
      have hsame := h.mem_names_iff hwithin (hname hdeclare)
      rw [if_pos rfl, if_pos rfl]
      by_cases hbound : name ∈ table.names
      · rw [declare_of_mem hbound, declare_of_mem (hsame.mpr hbound)]
        exact .error _
      · obtain ⟨extended, hextended⟩ := exists_declare_of_notMem hbound type
        obtain ⟨extended', hextended'⟩ := exists_declare_of_notMem (mt hsame.mp hbound) type
        rw [hextended, hextended']
        exact .ok (h.declare hextended hextended')

/-- What is asked is answered alike on both sides. -/
theorem SymbolTable.GrownAlike.answer
    {demand : Demand}
    (h : symbols.GrownAlike larger table other)
    (hwithin : symbols.Within larger)
    (hdeclared : ∀ type name, demand = .declaration type name → switches.declare = true →
      name ∈ larger.names → name ∈ symbols.names) :
    symbols.AnsweredAlike larger (demand.answer switches table)
      (demand.answer switches other) := by
  cases hkind : demand.isDeclaration with
  | true =>
      obtain ⟨type, name, rfl⟩ := Demand.eq_declaration hkind
      exact h.answer_declaration hwithin (hdeclared type name rfl) type
  | false =>
      cases htypes : switches.checkTypes with
      | false =>
          rw [Demand.answer_of_no_types hkind htypes, Demand.answer_of_no_types hkind htypes]
          exact .ok h
      | true =>
          rw [Demand.answer_of_types hkind htypes, Demand.answer_of_types hkind htypes]
          rcases demand.ruling_of_within (h.within hwithin) with hsame | ⟨name, hname, hmissing⟩
          · rw [← hsame]
            cases demand.ruling table with
            | ok warnings =>
                exact .ok h
            | error violation =>
                exact .error violation
          · have hnew := (Demand.ofTypes_of_ruling hmissing).notMem_names
            rw [hmissing]
            refine .undefined ?_ fun hold => hnew (h.mem_names_of_mem hold)
            exact (h.mem_names hname).resolve_left hnew

end Answers

end SimpleC
