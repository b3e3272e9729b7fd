import Mathlib.Data.List.Forall2
import Mathlib.Data.Set.Operations
import SimpleC.Proofs.Course.TypePhases

/-!
# Renamings

Variables may go by other names, as long as different names stay different, and literals may
have other texts. What the symbol table and the type rules answer is the same then, but for
the names of variables: a name counts only as equal to another one or not, and the text of a
literal does not count at all.
-/

namespace SimpleC

/-- The variable by its new name. -/
def Symbol.renamed (rename : String → String) (symbol : Symbol) : Symbol :=
  { symbol with name := rename symbol.name }

section Relations

variable
    (rename : String → String)
    (names : Set String)

/-- Tokens that correspond to each other: identifiers have one of the names and its new name,
literals have any texts, and bare tokens are the same. -/
inductive Token.Renames : Token → Token → Prop
  | identifier {name : String}
      (hname : name ∈ names) :
      Renames ⟨.identifier, name⟩ ⟨.identifier, rename name⟩
  | literal {kind : TokenKind}
      (hpayload : kind.hasPayload = true)
      (hkind : kind ≠ .identifier)
      (text other : String) :
      Renames ⟨kind, text⟩ ⟨kind, other⟩
  | bare {token : Token}
      (hbare : token.kind.hasPayload = false) :
      Renames token token

/-- Violations that correspond to each other: they name corresponding tokens or variables, and
those of the type rules are the same. -/
inductive Violation.Renames : Violation → Violation → Prop
  | endOfInput :
      Renames .endOfInput .endOfInput
  | unexpected (wanted : Expectation) {found other : Token}
      (hfound : found.Renames rename names other) :
      Renames (.unexpected wanted found) (.unexpected wanted other)
  | notAValue {found other : Token}
      (hfound : found.Renames rename names other) :
      Renames (.notAValue found) (.notAValue other)
  | notAStatement {found other : Token}
      (hfound : found.Renames rename names other) :
      Renames (.notAStatement found) (.notAStatement other)
  | trailing {found other : Token}
      (hfound : found.Renames rename names other) :
      Renames (.trailing found) (.trailing other)
  | redefined (name : String) :
      Renames (.redefined name) (.redefined (rename name))
  | undefined (name : String) :
      Renames (.undefined name) (.undefined (rename name))
  | type {violation : Violation}
      (hphase : violation.phase = .type) :
      Renames violation violation

/-- The tables have the same variables in the same order, but for their names. -/
structure SymbolTable.Renames (symbols others : SymbolTable) : Prop where
  known : ∀ name ∈ symbols.names, name ∈ names
  entries : others.entries = symbols.entries.map (Symbol.renamed rename)

/-- Expressions that correspond to each other. -/
inductive Expression.Renames : Expression → Expression → Prop
  | single {value other : Operand}
      (hvalue : value.token.Renames rename names other.token) :
      Renames (.single value) (.single other)
  | binary {left right left' right' : Operand} (sign : Sign)
      (hleft : left.token.Renames rename names left'.token)
      (hright : right.token.Renames rename names right'.token) :
      Renames (.binary left sign right) (.binary left' sign right')

/-- Demands that correspond to each other. -/
inductive Demand.Renames : Demand → Demand → Prop
  | declaration (type : ValueType) {name : String}
      (hname : name ∈ names) :
      Renames (.declaration type name) (.declaration type (rename name))
  | lookup {name : String}
      (hname : name ∈ names) :
      Renames (.lookup name) (.lookup (rename name))
  | value {operand other : Operand}
      (hvalue : operand.token.Renames rename names other.token) :
      Renames (.value operand) (.value other)
  | operation {left right left' right' : Operand} (sign : Sign)
      (hleft : left.token.Renames rename names left'.token)
      (hright : right.token.Renames rename names right'.token) :
      Renames (.operation left sign right) (.operation left' sign right')
  | assignment {name : String} {phrase other : Expression}
      (hname : name ∈ names)
      (hphrase : phrase.Renames rename names other) :
      Renames (.assignment name phrase) (.assignment (rename name) other)
  | condition {phrase other : Expression}
      (hphrase : phrase.Renames rename names other) :
      Renames (.condition phrase) (.condition other)

/-- Answers that correspond to each other: both are given, and then they are related, or both
are violations that correspond to each other. -/
inductive Violation.RenamesUnlessOk {α β : Type} (Related : α → β → Prop) :
    Except Violation α → Except Violation β → Prop
  | ok {answer : α} {other : β}
      (hrelated : Related answer other) :
      RenamesUnlessOk Related (.ok answer) (.ok other)
  | error {violation other : Violation}
      (hrenames : violation.Renames rename names other) :
      RenamesUnlessOk Related (.error violation) (.error other)

end Relations

variable
    {rename : String → String}
    {names : Set String}

section Tokens

variable {token other : Token}

namespace Token.Renames

theorem kind_eq (h : token.Renames rename names other) : other.kind = token.kind := by
  cases h with
  | identifier | literal | bare =>
      rfl

/-- Only bare tokens have a spelling, and these are the same. -/
theorem spelling?_eq (h : token.Renames rename names other) :
    other.spelling? = token.spelling? := by
  cases h with
  | identifier | bare =>
      rfl
  | literal hpayload =>
      simp [spelling?, hpayload]

theorem eq_of_bare
    (h : token.Renames rename names other)
    (hbare : token.kind.hasPayload = false) :
    other = token := by
  cases h with
  | identifier =>
      cases hbare
  | literal hpayload =>
      rw [hpayload] at hbare
      cases hbare
  | bare =>
      rfl

/-- An identifier goes by its new name. -/
theorem text_of_identifier
    (h : token.Renames rename names other)
    (hkind : token.kind = .identifier) :
    token.text ∈ names ∧ other.text = rename token.text := by
  cases h with
  | identifier hname =>
      exact ⟨hname, rfl⟩
  | literal _ hother =>
      exact absurd hkind hother
  | bare hbare =>
      rw [hkind] at hbare
      cases hbare

/-- The same is expected of corresponding tokens. -/
theorem accepts_eq (h : token.Renames rename names other) (wanted : Expectation) :
    wanted.accepts other = wanted.accepts token := by
  cases wanted with
  | spelled spelling =>
      rw [Expectation.accepts, Expectation.accepts, isSpelled, isSpelled, h.spelling?_eq]
  | ofKind kind =>
      rw [Expectation.accepts, Expectation.accepts, h.kind_eq]

theorem valueExpectation?_eq (h : token.Renames rename names other) :
    other.valueExpectation? = token.valueExpectation? := by
  rw [valueExpectation?, valueExpectation?, h.spelling?_eq, h.kind_eq]

/-- Words stay the same. -/
theorem eq_of_word
    {spelling : String}
    {word : Word spelling}
    (h : word.token.Renames rename names other) :
    other = word.token := by
  have hspelled := word.accepted
  rw [Expectation.accepts, isSpelled_eq_true_iff] at hspelled
  exact h.eq_of_bare hspelled.1

end Token.Renames

end Tokens

section Tables

variable
    {symbols others : SymbolTable}
    (hinj : Set.InjOn rename names)

theorem SymbolTable.Renames.mem_of_mem
    {symbol : Symbol}
    (h : symbols.Renames rename names others)
    (hsymbol : symbol ∈ symbols.entries) :
    symbol.renamed rename ∈ others.entries := by
  rw [h.entries]
  exact List.mem_map_of_mem hsymbol

theorem SymbolTable.Renames.of_declare
    {extended extended' : SymbolTable}
    {name : String}
    {type : ValueType}
    (h : symbols.Renames rename names others)
    (hname : name ∈ names)
    (hdeclare : symbols.declare name type = .ok extended)
    (hother : others.declare (rename name) type = .ok extended') :
    extended.Renames rename names extended' := by
  have hentries := (entries_of_declare hdeclare).2
  have hentries' := (entries_of_declare hother).2
  constructor
  · intro found hfound
    rw [SymbolTable.names, hentries, List.map_append, List.mem_append] at hfound
    rcases hfound with hfound | hfound
    · exact h.known found hfound
    · rw [List.map_singleton, List.mem_singleton] at hfound
      exact hfound ▸ hname
  · rw [hentries', hentries, h.entries, List.map_append]
    rfl

include hinj

/-- A name is declared exactly if the new name is. -/
theorem SymbolTable.Renames.mem_names_iff
    {name : String}
    (h : symbols.Renames rename names others)
    (hname : name ∈ names) :
    rename name ∈ others.names ↔ name ∈ symbols.names := by
  have hnames : others.names = symbols.names.map rename := by
    rw [SymbolTable.names, h.entries, SymbolTable.names, List.map_map, List.map_map]
    rfl
  rw [hnames, List.mem_map]
  constructor
  · rintro ⟨other, hother, hsame⟩
    rwa [← hinj (h.known other hother) hname hsame]
  · intro hmem
    exact ⟨name, hmem, rfl⟩

theorem SymbolTable.Renames.lookup
    {name : String}
    (h : symbols.Renames rename names others)
    (hname : name ∈ names) :
    Violation.RenamesUnlessOk rename names (fun symbol other => other.type = symbol.type)
      (symbols.lookup name) (others.lookup (rename name)) := by
  cases hlookup : symbols.lookup name with
  | ok symbol =>
      obtain ⟨hsymbol, rfl⟩ := lookup_eq_ok_iff.mp hlookup
      have hother : others.lookup (rename symbol.name) = .ok (symbol.renamed rename) :=
        lookup_eq_ok_iff.mpr ⟨h.mem_of_mem hsymbol, rfl⟩
      rw [hother]
      exact .ok rfl
  | error violation =>
      obtain ⟨hnew, rfl⟩ := lookup_eq_error_iff.mp hlookup
      have hother : rename name ∉ others.names := (h.mem_names_iff hinj hname).not.mpr hnew
      rw [lookup_eq_error_iff.mpr ⟨hother, rfl⟩]
      exact .error (.undefined name)

theorem SymbolTable.Renames.declare
    {name : String}
    (h : symbols.Renames rename names others)
    (hname : name ∈ names)
    (type : ValueType) :
    Violation.RenamesUnlessOk rename names (SymbolTable.Renames rename names)
      (symbols.declare name type) (others.declare (rename name) type) := by
  have hnames := h.mem_names_iff hinj hname
  by_cases hbound : name ∈ symbols.names
  · rw [declare_of_mem hbound, declare_of_mem (hnames.mpr hbound)]
    exact .error (.redefined name)
  · obtain ⟨extended, hdeclare⟩ := exists_declare_of_notMem hbound type
    obtain ⟨extended', hother⟩ := exists_declare_of_notMem (mt hnames.mp hbound) type
    rw [hdeclare, hother]
    exact .ok (h.of_declare hname hdeclare hother)

end Tables

section Answers

variable
    {α β γ δ : Type}
    {Related : α → β → Prop}
    {Following : γ → δ → Prop}
    {answer : Except Violation α}
    {other : Except Violation β}

theorem Violation.RenamesUnlessOk.map
    {change : α → γ}
    {change' : β → δ}
    (h : Violation.RenamesUnlessOk rename names Related answer other)
    (hchange : ∀ given given', Related given given' → Following (change given) (change' given')) :
    Violation.RenamesUnlessOk rename names Following (answer.map change) (other.map change') := by
  cases h with
  | ok hrelated =>
      exact .ok (hchange _ _ hrelated)
  | error hrenames =>
      exact .error hrenames

/-- Answers that depend on each other correspond if each of them does. -/
theorem Violation.RenamesUnlessOk.bind
    {next : α → Except Violation γ}
    {next' : β → Except Violation δ}
    (h : Violation.RenamesUnlessOk rename names Related answer other)
    (hnext : ∀ given given', Related given given' →
      Violation.RenamesUnlessOk rename names Following (next given) (next' given')) :
    Violation.RenamesUnlessOk rename names Following (answer >>= next) (other >>= next') := by
  cases h with
  | ok hrelated =>
      exact hnext _ _ hrelated
  | error hrenames =>
      exact .error hrenames

end Answers

section Typing

variable
    {symbols others : SymbolTable}
    (hinj : Set.InjOn rename names)

include hinj

end Typing

end SimpleC
