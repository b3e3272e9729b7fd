/-!
# Operators of expressions

Five arithmetic operators and six comparisons. An expression holds at most one
of them, so none binds tighter than another.
-/

namespace SimpleC

/-- The operators that may stand between two values. -/
inductive Operator where
  | plus
  | minus
  | times
  | divide
  | power
  | less
  | lessEqual
  | greater
  | greaterEqual
  | equal
  | notEqual
  deriving DecidableEq, Inhabited

namespace Operator

/-- Every operator, arithmetic ones first. -/
def all : List Operator :=
  [plus, minus, times, divide, power, less, lessEqual, greater, greaterEqual, equal, notEqual]

/-- How an operator is written. -/
def spelling : Operator → String
  | plus => "+"
  | minus => "-"
  | times => "*"
  | divide => "/"
  | power => "^"
  | less => "<"
  | lessEqual => "<="
  | greater => ">"
  | greaterEqual => ">="
  | equal => "=="
  | notEqual => "!="

/-- Whether the operator computes a number; the others compare. -/
def isArithmetic : Operator → Bool
  | plus | minus | times | divide | power => true
  | less | lessEqual | greater | greaterEqual | equal | notEqual => false

/-- The operator that is written in the given way. -/
def ofSpelling? (spelling : String) : Option Operator :=
  all.find? (fun operator => operator.spelling = spelling)

/-- No operator is missing from the list of all. -/
theorem mem_all (operator : Operator) : operator ∈ all := by
  cases operator <;> simp [all]

/-- Different operators are written differently. -/
theorem spelling_injective {left right : Operator} (h : left.spelling = right.spelling) :
    left = right := by
  cases left <;> cases right <;> simp_all [spelling]

/-- Exactly the spelling of an operator is read as that operator. -/
theorem ofSpelling?_eq_some_iff {spelling : String} {operator : Operator} :
    ofSpelling? spelling = some operator ↔ operator.spelling = spelling := by
  unfold ofSpelling?
  constructor
  · intro h
    simpa using List.find?_some h
  · rintro rfl
    cases hfound : all.find? (fun other => other.spelling = operator.spelling) with
    | none =>
        have hnone := List.find?_eq_none.mp hfound operator (mem_all operator)
        simp at hnone
    | some other =>
        have hsame := List.find?_some hfound
        simp only [decide_eq_true_eq] at hsame
        rw [spelling_injective hsame]

end Operator

end SimpleC
