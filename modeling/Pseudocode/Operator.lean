/-!
# Operators

The operators of expressions and their spelling.
-/

set_option autoImplicit false

namespace Pseudocode

/-- An operator that stands before its operand. -/
inductive UnaryOp where
  | not
  | plus
  | minus
deriving DecidableEq, Inhabited

/-- An operator that stands between its operands. -/
inductive BinaryOp where
  | and
  | or
  | equal
  | notEqual
  | greater
  | greaterEqual
  | less
  | lessEqual
  | add
  | subtract
  | join
  | multiply
  | divide
  | modulo
  | power
deriving DecidableEq, Inhabited

namespace UnaryOp

/-- Every operator once. -/
def all : List UnaryOp := [not, plus, minus]

/-- How the operator is written. -/
def spelling : UnaryOp → String
  | not => "NOT"
  | plus => "+"
  | minus => "-"

/-- The operator with the given spelling. -/
def ofSpelling? (text : String) : Option UnaryOp :=
  all.find? fun op => op.spelling == text

end UnaryOp

namespace BinaryOp

/-- Every operator once. -/
def all : List BinaryOp :=
  [and, or, equal, notEqual, greater, greaterEqual, less, lessEqual, add, subtract, join,
    multiply, divide, modulo, power]

/-- How the operator is written. -/
def spelling : BinaryOp → String
  | and => "AND"
  | or => "OR"
  | equal => "=="
  | notEqual => "!="
  | greater => ">"
  | greaterEqual => ">="
  | less => "<"
  | lessEqual => "<="
  | add => "+"
  | subtract => "-"
  | join => "&"
  | multiply => "*"
  | divide => "/"
  | modulo => "%"
  | power => "^"

/-- The operator with the given spelling. -/
def ofSpelling? (text : String) : Option BinaryOp :=
  all.find? fun op => op.spelling == text

end BinaryOp

end Pseudocode
