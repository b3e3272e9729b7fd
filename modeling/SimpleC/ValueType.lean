/-!
# Types of values

The four types that an expression can have. Variables are declared with the
numeric ones only.
-/

namespace SimpleC

/-- The types of values. -/
inductive ValueType where
  | int
  | real
  | str
  | bool
  deriving DecidableEq, Inhabited

namespace ValueType

/-- Every type, in the order in which listings name them. -/
def all : List ValueType :=
  [int, real, str, bool]

/-- The name of a type in messages and listings. -/
def name : ValueType → String
  | int => "int"
  | real => "real"
  | str => "str"
  | bool => "bool"

/-- Whether arithmetic is defined on the type. -/
def isNumeric : ValueType → Bool
  | int | real => true
  | str | bool => false

/-- The type that a declaration with the given word gives to its variable. -/
def ofDeclarator? (word : String) : Option ValueType :=
  if word = "int" then
    some int
  else if word = "real" then
    some real
  else
    none

/-- Different types have different names. -/
theorem name_injective {left right : ValueType} (h : left.name = right.name) :
    left = right := by
  cases left <;> cases right <;> simp_all [name]

/-- A declaration gives its variable the numeric type that its word names. -/
theorem ofDeclarator?_eq_some_iff {word : String} {type : ValueType} :
    ofDeclarator? word = some type ↔ type.isNumeric = true ∧ word = type.name := by
  unfold ofDeclarator?
  split
  · cases type <;> simp_all [isNumeric, name]
  · split
    · cases type <;> simp_all [isNumeric, name]
    · cases type <;> simp_all [isNumeric, name]

end ValueType

end SimpleC
