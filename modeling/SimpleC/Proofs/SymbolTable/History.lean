import SimpleC.Proofs.Checking.Passes
import SimpleC.SymbolTable.Family

/-!
# The history of symbol tables

A family of symbol tables starts without tables, and everything in it goes back to
an operation: a table is made with some variables, and those that are declared in
it afterwards follow in order. This module reads the contents of every table off
the operations and their answers, and shows that what is answered about a table is
what its contents say.
-/

namespace SimpleC

namespace SymbolTable

variable {table extended : SymbolTable} {symbols : List Symbol} {name : String}

theorem eq_iff_entries_eq {left right : SymbolTable} :
    left = right ↔ left.entries = right.entries :=
  ⟨congrArg entries, ext_entries⟩

theorem names_of_declare
    {type : ValueType}
    (h : table.declare name type = .ok extended) :
    extended.names = table.names ++ [name] := by
  simp [names, (entries_of_declare h).2]

/-- Declaring succeeds if no name comes up twice, and adds the variables at the end. -/
theorem declareAll_eq_ok_iff :
    table.declareAll symbols = .ok extended ↔ extended.entries = table.entries ++ symbols := by
  induction symbols generalizing table with
  | nil =>
      constructor
      · intro h
        cases h
        simp
      · intro h
        rw [List.append_nil] at h
        rw [ext_entries h]
        rfl
  | cons symbol rest ih =>
      rw [declareAll_cons, except_bind_eq_ok]
      constructor
      · rintro ⟨middle, hdeclare, hrest⟩
        rw [ih.mp hrest, (entries_of_declare hdeclare).2, List.append_assoc]
        rfl
      · intro h
        have hnew : symbol.name ∉ table.names := by
          have hnodup := extended.names_nodup
          rw [h, List.map_append, List.nodup_append] at hnodup
          intro hmem
          exact hnodup.2.2 _ hmem _ (by simp) rfl
        obtain ⟨middle, hdeclare⟩ := exists_declare_of_notMem hnew symbol.type
        refine ⟨middle, hdeclare, ih.mpr ?_⟩
        rw [h, (entries_of_declare hdeclare).2, List.append_assoc]
        rfl

/-- Declaring fails at the first name that is declared already, in the table or among
the variables before. -/
theorem declareAll_eq_error_iff {violation : Violation} :
    table.declareAll symbols = .error violation ↔
      ∃ before symbol after, symbols = before ++ symbol :: after ∧
        (table.names ++ before.map Symbol.name).Nodup ∧
        symbol.name ∈ table.names ++ before.map Symbol.name ∧
        violation = .redefined symbol.name := by
  induction symbols generalizing table with
  | nil =>
      constructor
      · intro h
        cases h
      · rintro ⟨before, symbol, after, h, _⟩
        simp at h
  | cons symbol rest ih =>
      rw [declareAll_cons]
      by_cases hname : symbol.name ∈ table.names
      · rw [declare_of_mem hname]
        constructor
        · intro h
          cases h
          refine ⟨[], symbol, rest, rfl, ?_, by simpa using hname, rfl⟩
          simpa [names] using table.names_nodup
        · rintro ⟨before, _, after, h, hnodup, _, rfl⟩
          cases before with
          | nil =>
              cases h
              rfl
          | cons first before =>
              cases h
              rw [List.nodup_append] at hnodup
              exact absurd rfl (hnodup.2.2 _ hname _ (by simp))
      · obtain ⟨middle, hdeclare⟩ := exists_declare_of_notMem hname symbol.type
        rw [hdeclare]
        show middle.declareAll rest = .error violation ↔ _
        rw [ih, names_of_declare hdeclare]
        constructor
        · rintro ⟨before, repeated, after, rfl, hnodup, hmem, hviolation⟩
          exact ⟨symbol :: before, repeated, after, rfl, by simpa using hnodup,
            by simpa using hmem, hviolation⟩
        · rintro ⟨before, repeated, after, h, hnodup, hmem, hviolation⟩
          cases before with
          | nil =>
              cases h
              exact absurd (by simpa using hmem) hname
          | cons first before =>
              cases h
              exact ⟨before, repeated, after, rfl, by simpa using hnodup, by simpa using hmem,
                hviolation⟩

end SymbolTable

namespace SymbolTables

/-- The operations, each with its answer. -/
def transcript (tables : SymbolTables) (operations : List Operation) :
    List (Operation × Answer) :=
  operations.zip (tables.performAll operations).1

/-- The variable that is declared in the table of the given number, if it is that
what succeeded. -/
def declared? (number : Nat) : Operation × Answer → Option Symbol
  | (.declare table name type, .symbol _) => if table = number then some ⟨name, type⟩ else none
  | _ => none

/-- The variables that were declared in the table of the given number, in order. -/
def declared (number : Nat) (transcript : List (Operation × Answer)) : List Symbol :=
  transcript.filterMap (declared? number)

/-- What a table holds at the start: the variables it is made from, or those of the
table that is copied. -/
def Operation.initial? (tables : SymbolTables) : Operation → Option (List Symbol)
  | .create symbols => some symbols
  | .copy number => tables[number]?.map SymbolTable.entries
  | .declare .. | .lookup .. | .contains .. | .entries .. | .size .. | .equal ..
  | .differ .. => none

/-- The answers that tell of a failure. -/
def Answer.isFailure : Answer → Bool
  | .violation _ | .missing _ => true
  | .created _ | .symbol _ | .truth _ | .symbols _ | .count _ => false

/-- What one operation can do: it makes one more table, it declares a variable in one of
them, or it leaves them as they are. -/
inductive Step (tables : SymbolTables) : Operation → Answer → SymbolTables → Prop
  | made {making : Operation} {added : SymbolTable}
      (hinitial : making.initial? tables = some added.entries) :
      Step tables making (.created tables.length) (tables ++ [added])
  | declared {target : Nat} {name : String} {type : ValueType} {found extended : SymbolTable}
      (hfound : tables[target]? = some found)
      (hdeclare : found.declare name type = .ok extended) :
      Step tables (.declare target name type) (.symbol ⟨name, type⟩)
        (tables.set target extended)
  | unchanged {operation : Operation} {answer : Answer}
      (hdeclared : ∀ number, declared? number (operation, answer) = none) :
      Step tables operation answer tables

/-- A table was made by one of the operations and holds what it held then, followed
by the variables that were declared in it since. -/
def Grew (start : SymbolTables) (operations : List Operation) (number : Nat)
    (entries : List Symbol) : Prop :=
  ∃ earlier making later initial,
    start.transcript operations = earlier ++ (making, .created number) :: later ∧
      making.initial? (start.performAll (earlier.map Prod.fst)).2 = some initial ∧
      entries = initial ++ declared number later

/-- Whatever happens next, a table keeps what it holds, followed by the variables that
are declared in it; its names are found with the same types. -/
def Lasts (tables : SymbolTables) (number : Nat) (entries : List Symbol) : Prop :=
  ∀ operations, ∃ later, (tables.performAll operations).2[number]? = some later ∧
    later.entries = entries ++ declared number (tables.transcript operations) ∧
    ∀ symbol ∈ entries, later.lookup symbol.name = .ok symbol

/-- What is answered about a table is what the variables in it say. -/
structure AnswersFrom (tables : SymbolTables) (number : Nat) (entries : List Symbol) :
    Prop where
  declare_redefined_iff : ∀ name type,
    (tables.perform (.declare number name type)).1 = .violation (.redefined name) ↔
      name ∈ entries.map Symbol.name
  declare_new : ∀ name type, name ∉ entries.map Symbol.name →
    (tables.perform (.declare number name type)).1 = .symbol ⟨name, type⟩
  lookup_undefined_iff : ∀ name,
    (tables.perform (.lookup number name)).1 = .violation (.undefined name) ↔
      name ∉ entries.map Symbol.name
  lookup_symbol_iff : ∀ name symbol,
    (tables.perform (.lookup number name)).1 = .symbol symbol ↔
      symbol ∈ entries ∧ symbol.name = name
  contains_eq : ∀ name,
    (tables.perform (.contains number name)).1 = .truth (name ∈ entries.map Symbol.name)
  size_eq : (tables.perform (.size number)).1 = .count entries.length
  entries_eq : (tables.perform (.entries number)).1 = .symbols entries
  equal_eq : ∀ other second, tables[other]? = some second →
    (tables.perform (.equal number other)).1 = .truth (entries = second.entries)
  differ_eq : ∀ other second, tables[other]? = some second →
    (tables.perform (.differ number other)).1 = .truth (entries ≠ second.entries)

/-- The operation adds a table that holds the variables, and answers with its number. -/
def Makes (tables : SymbolTables) (making : Operation) (entries : List Symbol) : Prop :=
  ∃ added, added.entries = entries ∧
    tables.perform making = (.created tables.length, tables ++ [added])

/-- A table is made from variables exactly if no name comes up twice; otherwise the
first name that does is reported. -/
structure CreatesFrom (tables : SymbolTables) (symbols : List Symbol) : Prop where
  makes_iff : tables.Makes (.create symbols) symbols ↔ (symbols.map Symbol.name).Nodup
  redefined_iff : ∀ name,
    (tables.perform (.create symbols)).1 = .violation (.redefined name) ↔
      ∃ before symbol after, symbols = before ++ symbol :: after ∧
        (before.map Symbol.name).Nodup ∧ symbol.name ∈ before.map Symbol.name ∧
        symbol.name = name

section

variable {tables : SymbolTables} {number : Nat} {table : SymbolTable}

theorem transcript_cons (operation : Operation) (rest : List Operation) :
    tables.transcript (operation :: rest) =
      (operation, (tables.perform operation).1) ::
        (tables.perform operation).2.transcript rest :=
  rfl

theorem declared_cons (event : Operation × Answer) (rest : List (Operation × Answer)) :
    declared number (event :: rest) = (declared? number event).toList ++ declared number rest := by
  rw [declared, List.filterMap_cons]
  cases declared? number event with
  | none =>
      rfl
  | some symbol =>
      rfl

theorem ask_of_some (h : tables[number]? = some table) (question : SymbolTable → Answer) :
    ask tables number question = question table := by
  simp [ask, h]

theorem declared?_created (operation : Operation) (made : Nat) :
    declared? number (operation, .created made) = none := by
  cases operation <;> rfl

theorem step_perform (tables : SymbolTables) (operation : Operation) :
    tables.Step operation (tables.perform operation).1 (tables.perform operation).2 := by
  cases operation with
  | create symbols =>
      simp only [perform]
      cases hmade : SymbolTable.ofList symbols with
      | ok added =>
          have hentries : added.entries = [] ++ symbols :=
            SymbolTable.declareAll_eq_ok_iff.mp hmade
          exact .made (by rw [hentries]; rfl)
      | error violation =>
          exact .unchanged fun _ => rfl
  | copy source =>
      simp only [perform]
      cases hsource : tables[source]? with
      | some added =>
          exact .made (by rw [Operation.initial?, hsource]; rfl)
      | none =>
          exact .unchanged fun _ => rfl
  | declare target name type =>
      simp only [perform]
      cases hfound : tables[target]? with
      | none =>
          exact .unchanged fun _ => rfl
      | some found =>
          simp only
          cases hdeclare : found.declare name type with
          | ok extended =>
              exact .declared hfound hdeclare
          | error violation =>
              exact .unchanged fun _ => rfl
  | lookup | contains | entries | size | equal | differ =>
      exact .unchanged fun _ => rfl

namespace Step

variable {operation : Operation} {answer : Answer} {after : SymbolTables}

/-- A table keeps what it holds, followed by what the operation declares there. -/
theorem exists_entries
    (hstep : tables.Step operation answer after)
    (h : tables[number]? = some table) :
    ∃ later, after[number]? = some later ∧
      later.entries = table.entries ++ (declared? number (operation, answer)).toList := by
  have hbound : number < tables.length := (List.getElem?_eq_some_iff.mp h).1
  cases hstep with
  | made =>
      rw [declared?_created, List.getElem?_append_left hbound]
      exact ⟨table, h, by simp⟩
  | unchanged hdeclared =>
      rw [hdeclared]
      exact ⟨table, h, by simp⟩
  | @declared target _ _ _ extended hfound hdeclare =>
      by_cases hsame : target = number
      · subst hsame
        cases hfound.symm.trans h
        refine ⟨extended, List.getElem?_set_self hbound, ?_⟩
        simpa [declared?] using (SymbolTable.entries_of_declare hdeclare).2
      · exact ⟨table, by rwa [List.getElem?_set_ne hsame], by simp [declared?, hsame]⟩

/-- A table that was not there before was made by the operation. -/
theorem initial_eq
    (hstep : tables.Step operation answer after)
    (hnone : tables[number]? = none)
    (h : after[number]? = some table) :
    answer = .created number ∧ operation.initial? tables = some table.entries := by
  have hmissing : tables.length ≤ number := List.getElem?_eq_none_iff.mp hnone
  cases hstep with
  | made hinitial =>
      have hbound : number < tables.length + 1 := by
        simpa using (List.getElem?_eq_some_iff.mp h).1
      obtain rfl : tables.length = number := by omega
      rw [List.getElem?_concat_length] at h
      cases h
      exact ⟨rfl, hinitial⟩
  | declared =>
      rw [List.getElem?_eq_none (by simpa using hmissing)] at h
      cases h
  | unchanged =>
      cases hnone.symm.trans h

/-- An operation that fails leaves the tables as they are. -/
theorem eq_of_isFailure
    (hstep : tables.Step operation answer after)
    (h : answer.isFailure = true) :
    after = tables := by
  cases hstep with
  | made | declared =>
      cases h
  | unchanged =>
      rfl

end Step

/-- A table keeps what it holds, followed by what the operations declare there. -/
theorem exists_performAll
    (h : tables[number]? = some table)
    (operations : List Operation) :
    ∃ later, (tables.performAll operations).2[number]? = some later ∧
      later.entries = table.entries ++ declared number (tables.transcript operations) := by
  induction operations generalizing tables table with
  | nil =>
      exact ⟨table, h, by simp [transcript, declared]⟩
  | cons operation rest ih =>
      obtain ⟨middle, hmiddle, hentries⟩ := (step_perform tables operation).exists_entries h
      obtain ⟨later, hlater, hrest⟩ := ih hmiddle
      refine ⟨later, hlater, ?_⟩
      rw [hrest, hentries, transcript_cons, declared_cons, List.append_assoc]

/-- A table that the operations bring about was made by one of them. -/
theorem grew_of_performAll
    {operations : List Operation}
    (hnone : tables[number]? = none)
    (h : (tables.performAll operations).2[number]? = some table) :
    tables.Grew operations number table.entries := by
  induction operations generalizing tables with
  | nil =>
      cases hnone.symm.trans h
  | cons operation rest ih =>
      cases hmade : (tables.perform operation).2[number]? with
      | none =>
          obtain ⟨earlier, making, later, initial, htranscript, hinitial, hentries⟩ := ih hmade h
          refine ⟨(operation, (tables.perform operation).1) :: earlier, making, later, initial,
            ?_, hinitial, hentries⟩
          rw [transcript_cons, htranscript]
          rfl
      | some made =>
          obtain ⟨hanswer, hinitial⟩ := (step_perform tables operation).initial_eq hnone hmade
          obtain ⟨last, hlast, hentries⟩ := exists_performAll hmade rest
          cases hlast.symm.trans h
          refine ⟨[], operation, (tables.perform operation).2.transcript rest, made.entries,
            ?_, hinitial, hentries⟩
          rw [transcript_cons, hanswer]
          rfl

theorem lasts_of_some (h : tables[number]? = some table) :
    tables.Lasts number table.entries := by
  intro operations
  obtain ⟨later, hlater, hentries⟩ := exists_performAll h operations
  refine ⟨later, hlater, hentries, ?_⟩
  intro symbol hsymbol
  exact SymbolTable.lookup_eq_ok_iff.mpr ⟨hentries ▸ List.mem_append_left _ hsymbol, rfl⟩

theorem answersFrom_of_some (h : tables[number]? = some table) :
    tables.AnswersFrom number table.entries where
  declare_redefined_iff name type := by
    simp only [perform, h]
    cases hdeclare : table.declare name type with
    | error violation =>
        obtain ⟨hname, rfl⟩ := (SymbolTable.declare_eq_error_iff ..).mp hdeclare
        exact iff_of_true rfl hname
    | ok extended =>
        exact iff_of_false (by simp) (SymbolTable.entries_of_declare hdeclare).1
  declare_new name type hname := by
    obtain ⟨extended, hdeclare⟩ := SymbolTable.exists_declare_of_notMem hname type
    simp only [perform, h, hdeclare]
  lookup_undefined_iff name := by
    simp only [perform, ask_of_some h]
    cases hlookup : table.lookup name with
    | error violation =>
        obtain ⟨hname, rfl⟩ := SymbolTable.lookup_eq_error_iff.mp hlookup
        exact iff_of_true rfl hname
    | ok symbol =>
        obtain ⟨hsymbol, rfl⟩ := SymbolTable.lookup_eq_ok_iff.mp hlookup
        exact iff_of_false (by simp) (not_not_intro (List.mem_map_of_mem hsymbol))
  lookup_symbol_iff name symbol := by
    simp only [perform, ask_of_some h, ← SymbolTable.lookup_eq_ok_iff]
    cases table.lookup name with
    | error violation =>
        simp
    | ok found =>
        simp
  contains_eq name := by
    simp [perform, ask_of_some h, SymbolTable.contains, SymbolTable.names]
  size_eq := by
    simp only [perform, ask_of_some h, SymbolTable.size]
  entries_eq := by
    simp only [perform, ask_of_some h]
  equal_eq other second hother := by
    simp only [perform, ask_of_some h, ask_of_some hother, SymbolTable.eq_iff_entries_eq]
  differ_eq other second hother := by
    simp only [perform, ask_of_some h, ask_of_some hother, ne_eq, SymbolTable.eq_iff_entries_eq]

/-- A copy holds what the table holds that is copied. -/
theorem makes_copy (h : tables[number]? = some table) :
    tables.Makes (.copy number) table.entries :=
  ⟨table, rfl, by rw [perform, h]⟩

theorem createsFrom (tables : SymbolTables) (symbols : List Symbol) :
    tables.CreatesFrom symbols where
  makes_iff := by
    constructor
    · rintro ⟨added, rfl, -⟩
      exact added.names_nodup
    · intro hnodup
      have hmade : SymbolTable.ofList symbols = .ok ⟨symbols, hnodup⟩ :=
        SymbolTable.declareAll_eq_ok_iff.mpr rfl
      exact ⟨⟨symbols, hnodup⟩, rfl, by rw [perform, hmade]⟩
  redefined_iff name := by
    have hfailed : (tables.perform (.create symbols)).1 = .violation (.redefined name) ↔
        SymbolTable.ofList symbols = .error (.redefined name) := by
      rw [perform]
      cases SymbolTable.ofList symbols with
      | ok table =>
          simp
      | error violation =>
          simp
    rw [hfailed, SymbolTable.ofList, SymbolTable.declareAll_eq_error_iff]
    simp only [Violation.redefined.injEq, eq_comm]
    rfl

end

/-- At every point, each table holds the variables that it was made with and those that
were declared in it since, under names that differ, and keeps them for good. What is
answered about it agrees with that, and it can be copied. Tables are made as long as no name
comes up twice, and an operation that fails changes no table. -/
theorem tables_follow_from_history (operations : List Operation) :
    let tables := (performAll [] operations).2
    (∀ number table, tables[number]? = some table →
      (table.entries.map Symbol.name).Nodup ∧
      Grew [] operations number table.entries ∧
      tables.Lasts number table.entries ∧
      tables.AnswersFrom number table.entries ∧
      tables.Makes (.copy number) table.entries) ∧
    (∀ symbols, tables.CreatesFrom symbols) ∧
    (∀ operation, (tables.perform operation).1.isFailure = true →
      (tables.perform operation).2 = tables) := by
  refine ⟨?_, createsFrom _, fun operation => (step_perform _ operation).eq_of_isFailure⟩
  intro number table h
  exact ⟨table.names_nodup, grew_of_performAll rfl h, lasts_of_some h, answersFrom_of_some h,
    makes_copy h⟩

/-- A table, a copy of it that goes on by itself, and a variable that is there already. -/
def copyAndDeclare : List Operation :=
  [.create [⟨"x", .int⟩], .copy 0, .declare 1 "y" .real, .declare 1 "x" .real]

/-- The copy holds what the table held, and then the variable that was declared in it; a copy of
the copy holds both. What failed has changed nothing. -/
theorem tables_follow_from_history_of_copy :
    let tables := (performAll [] copyAndDeclare).2
    (∃ table, tables[0]? = some table ∧ tables.AnswersFrom 0 [⟨"x", .int⟩]) ∧
    (∃ copy, tables[1]? = some copy ∧ Grew [] copyAndDeclare 1 [⟨"x", .int⟩, ⟨"y", .real⟩] ∧
      tables.Makes (.copy 1) [⟨"x", .int⟩, ⟨"y", .real⟩]) ∧
    (tables.perform (.declare 1 "x" .real)).1.isFailure = true ∧
    (tables.perform (.declare 1 "x" .real)).2 = tables := by
  intro tables
  obtain ⟨htables, -, hfailed⟩ := tables_follow_from_history copyAndDeclare
  have hfirst : tables[0]? = some ⟨[⟨"x", .int⟩], by decide⟩ := by
    decide
  have hsecond : tables[1]? = some ⟨[⟨"x", .int⟩, ⟨"y", .real⟩], by decide⟩ := by
    decide
  have hfailure : (tables.perform (.declare 1 "x" .real)).1.isFailure = true := by
    decide
  obtain ⟨-, -, -, hanswers, -⟩ := htables 0 _ hfirst
  obtain ⟨-, hgrew, -, -, hmakes⟩ := htables 1 _ hsecond
  exact ⟨⟨_, hfirst, hanswers⟩, ⟨_, hsecond, hgrew, hmakes⟩, hfailure, hfailed _ hfailure⟩

end SymbolTables

end SimpleC
