import SimpleC.TypeRules

/-!
# Larger symbol tables

A symbol table lies within another one if all its variables are variables of
the other. Names are declared once only, so that what is looked up in the
smaller table is found unchanged in the larger one: a variable never changes its
type as long as tables only grow.
-/

namespace SimpleC

namespace SymbolTable

/-- All variables of the table are variables of the other one. -/
def Within (table larger : SymbolTable) : Prop :=
  table.entries ⊆ larger.entries

theorem Within.refl (table : SymbolTable) : table.Within table :=
  List.Subset.refl _

theorem Within.trans
    {small table large : SymbolTable}
    (hsmall : small.Within table)
    (hlarge : table.Within large) :
    small.Within large :=
  List.Subset.trans hsmall hlarge

theorem within_of_declare
    {table extended : SymbolTable}
    {name : String}
    {type : ValueType}
    (h : table.declare name type = .ok extended) :
    table.Within extended := by
  intro symbol hsymbol
  rw [(entries_of_declare h).2]
  exact List.mem_append_left _ hsymbol

/-- A name that is declared cannot be declared again. -/
theorem declare_of_mem
    {table : SymbolTable}
    {name : String}
    (hname : name ∈ table.names)
    (type : ValueType) :
    table.declare name type = .error (.redefined name) :=
  (declare_eq_error_iff table name type _).mpr ⟨hname, rfl⟩

/-- A new name can be declared. -/
theorem exists_declare_of_notMem
    {table : SymbolTable}
    {name : String}
    (hname : name ∉ table.names)
    (type : ValueType) :
    ∃ extended, table.declare name type = .ok extended :=
  ⟨_, dif_neg hname⟩

/-- What is found under a name is the variable of that name. -/
theorem find?_eq_some_iff
    {table : SymbolTable}
    {name : String}
    {symbol : Symbol} :
    table.find? name = some symbol ↔ symbol ∈ table.entries ∧ symbol.name = name := by
  obtain ⟨entries, hnodup⟩ := table
  unfold find?
  constructor
  · intro h
    exact ⟨List.mem_of_find?_eq_some h, by simpa using List.find?_some h⟩
  · rintro ⟨hmem, rfl⟩
    induction entries with
    | nil =>
        cases hmem
    | cons head rest ih =>
        simp only [List.map_cons, List.nodup_cons] at hnodup
        rcases List.mem_cons.mp hmem with rfl | hrest
        · simp
        · have hne : head.name ≠ symbol.name := by
            intro hname
            exact hnodup.1 (hname ▸ List.mem_map_of_mem hrest)
          simpa [List.find?_cons, hne] using ih hnodup.2 hrest

/-- Nothing is found exactly if the name is not declared. -/
theorem find?_eq_none_iff {table : SymbolTable} {name : String} :
    table.find? name = none ↔ name ∉ table.names := by
  constructor
  · intro hnone hname
    obtain ⟨symbol, hmem, rfl⟩ := List.mem_map.mp hname
    rw [find?_eq_some_iff.mpr ⟨hmem, rfl⟩] at hnone
    cases hnone
  · intro hnew
    rw [Option.eq_none_iff_forall_not_mem]
    intro symbol hfound
    obtain ⟨hmem, rfl⟩ := find?_eq_some_iff.mp hfound
    exact hnew (List.mem_map_of_mem hmem)

/-- Looking a name up succeeds exactly with the variable of that name. -/
theorem lookup_eq_ok_iff
    {table : SymbolTable}
    {name : String}
    {symbol : Symbol} :
    table.lookup name = .ok symbol ↔ symbol ∈ table.entries ∧ symbol.name = name := by
  rw [← find?_eq_some_iff]
  unfold lookup
  cases table.find? name with
  | some found =>
      simp
  | none =>
      simp

/-- Looking a name up fails exactly if the name is not declared. -/
theorem lookup_eq_error_iff
    {table : SymbolTable}
    {name : String}
    {violation : Violation} :
    table.lookup name = .error violation ↔
      name ∉ table.names ∧ violation = .undefined name := by
  rw [← find?_eq_none_iff]
  unfold lookup
  cases table.find? name with
  | some symbol =>
      simp
  | none =>
      simp [eq_comm]

/-- Two answers, one under a table and one under a larger one: they are the same,
unless the first is that a variable of the larger table is not declared. -/
def SameUnlessUndefined {α : Type} (larger : SymbolTable) (early late : Except Violation α) :
    Prop :=
  early = late ∨ ∃ name ∈ larger.names, early = .error (.undefined name)

section SameUnlessUndefined

variable {α β : Type} {table larger : SymbolTable} {early late : Except Violation α}

theorem SameUnlessUndefined.refl (answer : Except Violation α) :
    larger.SameUnlessUndefined answer answer :=
  .inl rfl

/-- An answer that is no violation stays under a larger table. -/
theorem SameUnlessUndefined.eq_ok
    (h : larger.SameUnlessUndefined early late)
    {answer : α}
    (hearly : early = .ok answer) :
    late = .ok answer := by
  rcases h with rfl | ⟨name, _, hundefined⟩
  · exact hearly
  · rw [hundefined] at hearly
    cases hearly

/-- Answers that are the same up to that are the same in what is made of them. -/
theorem SameUnlessUndefined.map
    (h : larger.SameUnlessUndefined early late)
    (change : α → β) :
    larger.SameUnlessUndefined (early.map change) (late.map change) := by
  rcases h with rfl | ⟨name, hname, rfl⟩
  · exact .refl _
  · exact .inr ⟨name, hname, rfl⟩

/-- Answers that depend on each other are the same as long as each of them is. -/
theorem SameUnlessUndefined.bind
    {next following : α → Except Violation β}
    (h : larger.SameUnlessUndefined early late)
    (hnext : ∀ answer, larger.SameUnlessUndefined (next answer) (following answer)) :
    larger.SameUnlessUndefined (early >>= next) (late >>= following) := by
  rcases h with rfl | ⟨name, hname, rfl⟩
  · cases early with
    | ok answer =>
        exact hnext answer
    | error violation =>
        exact .inl rfl
  · exact .inr ⟨name, hname, rfl⟩

/-- What is looked up in a larger table is the same, unless it is declared there only. -/
theorem Within.lookup (hwithin : table.Within larger) (name : String) :
    larger.SameUnlessUndefined (table.lookup name) (larger.lookup name) := by
  cases hlookup : table.lookup name with
  | ok symbol =>
      obtain ⟨hmem, hname⟩ := lookup_eq_ok_iff.mp hlookup
      exact .inl (lookup_eq_ok_iff.mpr ⟨hwithin hmem, hname⟩).symm
  | error violation =>
      obtain ⟨_, rfl⟩ := lookup_eq_error_iff.mp hlookup
      by_cases hname : name ∈ larger.names
      · exact .inr ⟨name, hname, rfl⟩
      · exact .inl (lookup_eq_error_iff.mpr ⟨hname, rfl⟩).symm

/-- The type of a value under a larger table is the same, unless it is a variable
that is declared there only. -/
theorem Within.value (hwithin : table.Within larger) (token : Token) :
    larger.SameUnlessUndefined (TypeRules.value table token) (TypeRules.value larger token) := by
  unfold TypeRules.value
  cases token.kind with
  | identifier =>
      exact (hwithin.lookup token.text).map Symbol.type
  | _ =>
      exact .refl _

end SameUnlessUndefined

end SymbolTable

end SimpleC
