import SimpleC.SymbolTable.Basic

/-!
# Families of symbol tables

Several tables live side by side, numbered in the order of their making. A table
is made from a list of declarations or as a copy of another one; declaring a
variable in one of them leaves the others as they are.
-/

namespace SimpleC

/-- The tables that were made so far. -/
abbrev SymbolTables := List SymbolTable

namespace SymbolTables

/-- What can be asked of a family of tables. Tables are given by their numbers. -/
inductive Operation where
  | create (symbols : List Symbol)
  | copy (table : Nat)
  | declare (table : Nat) (name : String) (type : ValueType)
  | lookup (table : Nat) (name : String)
  | contains (table : Nat) (name : String)
  | entries (table : Nat)
  | size (table : Nat)
  | equal (left right : Nat)
  | differ (left right : Nat)
  deriving DecidableEq

/-- What a family of tables answers. -/
inductive Answer where
  /-- The number of a new table. -/
  | created (table : Nat)
  | symbol (symbol : Symbol)
  | truth (value : Bool)
  | symbols (entries : List Symbol)
  | count (size : Nat)
  | violation (violation : Violation)
  /-- There is no table of the given number. -/
  | missing (table : Nat)
  deriving DecidableEq

/-- The answer to a question about one table. -/
def ask (tables : SymbolTables) (number : Nat) (question : SymbolTable → Answer) : Answer :=
  match tables[number]? with
  | some table => question table
  | none => .missing number

/-- The answer to one operation and the tables after it. An operation that fails
leaves every table as it is. -/
def perform (tables : SymbolTables) : Operation → Answer × SymbolTables
  | .create symbols =>
      match SymbolTable.ofList symbols with
      | .ok table => (.created tables.length, tables ++ [table])
      | .error violation => (.violation violation, tables)
  | .copy number =>
      match tables[number]? with
      | some table => (.created tables.length, tables ++ [table])
      | none => (.missing number, tables)
  | .declare number name type =>
      match tables[number]? with
      | some table =>
          match table.declare name type with
          | .ok extended => (.symbol ⟨name, type⟩, tables.set number extended)
          | .error violation => (.violation violation, tables)
      | none => (.missing number, tables)
  | .lookup number name =>
      (ask tables number (fun table =>
        match table.lookup name with
        | .ok symbol => .symbol symbol
        | .error violation => .violation violation), tables)
  | .contains number name => (ask tables number (fun table => .truth (table.contains name)), tables)
  | .entries number => (ask tables number (fun table => .symbols table.entries), tables)
  | .size number => (ask tables number (fun table => .count table.size), tables)
  | .equal left right =>
      (ask tables left (fun first => ask tables right (fun second => .truth (first = second))),
        tables)
  | .differ left right =>
      (ask tables left (fun first => ask tables right (fun second => .truth (first ≠ second))),
        tables)

/-- The answers to a list of operations, and the tables after them. -/
def performAll (tables : SymbolTables) : List Operation → List Answer × SymbolTables
  | [] => ([], tables)
  | operation :: rest =>
      let (answer, after) := perform tables operation
      let (answers, last) := performAll after rest
      (answer :: answers, last)

end SymbolTables

end SimpleC
