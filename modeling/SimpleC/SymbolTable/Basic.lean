import SimpleC.Violation

/-!
# The symbol table

All variables of a program share one scope. The table keeps them in the order
of their declarations; no name occurs twice in it, and an entry is never
changed or removed.
-/

namespace SimpleC

/-- A declared variable. -/
structure Symbol where
  name : String
  type : ValueType
  deriving DecidableEq, Inhabited

/-- A variable on display. -/
def Symbol.describe (symbol : Symbol) : String :=
  "Symbol(" ++ symbol.name ++ ", " ++ symbol.type.name ++ ")"

/-- The declared variables in the order of their declarations. -/
structure SymbolTable where
  entries : List Symbol
  names_nodup : (entries.map Symbol.name).Nodup
  deriving DecidableEq

namespace SymbolTable

/-- The table without variables. -/
def empty : SymbolTable :=
  ⟨[], by simp⟩

instance : Inhabited SymbolTable :=
  ⟨empty⟩

/-- The declared names, in order. -/
def names (table : SymbolTable) : List String :=
  table.entries.map Symbol.name

/-- How many variables are declared. -/
def size (table : SymbolTable) : Nat :=
  table.entries.length

/-- Whether a name is declared. -/
def contains (table : SymbolTable) (name : String) : Bool :=
  table.names.contains name

/-- The variable of the given name. -/
def find? (table : SymbolTable) (name : String) : Option Symbol :=
  table.entries.find? (fun symbol => symbol.name = name)

/-- The variable of the given name, which has to be declared. -/
def lookup (table : SymbolTable) (name : String) : Except Violation Symbol :=
  match table.find? name with
  | some symbol => .ok symbol
  | none => .error (.undefined name)

/-- The table with one more variable at its end, whose name has to be new. -/
def declare (table : SymbolTable) (name : String) (type : ValueType) :
    Except Violation SymbolTable :=
  if h : name ∈ table.names then
    .error (.redefined name)
  else
    .ok
      { entries := table.entries ++ [⟨name, type⟩]
        names_nodup := by
          have hold := table.names_nodup
          rw [List.map_append, List.nodup_append]
          refine ⟨hold, by simp, ?_⟩
          intro a ha b hb hab
          simp only [List.map_cons, List.map_nil, List.mem_singleton] at hb
          exact h (hb ▸ hab ▸ ha) }

/-- Declares a list of variables from the first to the last. -/
def declareAll (table : SymbolTable) (symbols : List Symbol) : Except Violation SymbolTable :=
  symbols.foldlM (fun table symbol => table.declare symbol.name symbol.type) table

/-- The table that results from the given declarations. -/
def ofList (symbols : List Symbol) : Except Violation SymbolTable :=
  empty.declareAll symbols

/-- A table on display. -/
def describe (table : SymbolTable) : String :=
  let bindings := table.entries.map (fun symbol => symbol.name ++ ": " ++ symbol.type.name)
  "SymbolTable(\x7b" ++ String.intercalate ", " bindings ++ "\x7d)"

/-- The length of the longest name. -/
def nameWidth (table : SymbolTable) : Nat :=
  (table.names.map String.length).foldl max 0

/-- One line of the listing. -/
def listingLine (width : Nat) (symbol : Symbol) : String :=
  String.ofList (symbol.name.toList.rightpad width ' ') ++ " : " ++ symbol.type.name

/-- The variables in the order of their declarations, one on a line, with the types
aligned. -/
def listing (table : SymbolTable) : String :=
  if table.entries.isEmpty then
    "(no variables)"
  else
    String.intercalate "\n" (table.entries.map (listingLine table.nameWidth))

/-- Tables with the same variables in the same order are equal. -/
theorem ext_entries {left right : SymbolTable} (h : left.entries = right.entries) :
    left = right := by
  cases left
  cases right
  cases h
  rfl

/-- Declaring fails exactly on a name that is declared. -/
theorem declare_eq_error_iff (table : SymbolTable) (name : String) (type : ValueType)
    (violation : Violation) :
    table.declare name type = .error violation ↔
      name ∈ table.names ∧ violation = .redefined name := by
  unfold declare
  split <;> simp_all [eq_comm]

/-- A new variable is added at the end. -/
theorem entries_of_declare {table extended : SymbolTable} {name : String} {type : ValueType}
    (h : table.declare name type = .ok extended) :
    name ∉ table.names ∧ extended.entries = table.entries ++ [⟨name, type⟩] := by
  unfold declare at h
  split at h
  · simp at h
  · rename_i hnew
    cases h
    exact ⟨hnew, rfl⟩

end SymbolTable

end SimpleC
