import Pseudocode.Operator.Meaning
import Pseudocode.Table
import Pseudocode.Tree

/-!
# Values of expressions

The value of an expression depends on a table only, and computing it changes
nothing. Operands are computed from left to right, all of them, also those of
the logical operators; the first error is the error of the whole.

`Expr.visited` lists the expressions that this comes to, in order. It stops
where the computation does.
-/

set_option autoImplicit false

namespace Pseudocode

/-- A value as an index. -/
def Value.index : Value → Except RuntimeError Integer
  | .integer n => .ok n
  | _ => .error .indexNotInteger

namespace Expr

/-- The value of an expression. -/
def eval (table : Table) : Expr → Except RuntimeError Value
  | literal l => .ok l.value
  | name n => table.read n
  | element n index => do
    let position ← (← index.eval table).index
    table.readAt n position
  | unary op operand => do
    op.apply (← operand.eval table)
  | binary op left right => do
    let a ← left.eval table
    let b ← right.eval table
    op.apply a b

/-- The expressions that are looked at to find the value of an expression. -/
def visited (table : Table) : Expr → List Expr
  | literal l => [literal l]
  | name n => [name n]
  | element n index => element n index :: index.visited table
  | unary op operand => unary op operand :: operand.visited table
  | binary op left right =>
    binary op left right ::
      (left.visited table ++
        match left.eval table with
        | .ok _ => right.visited table
        | .error _ => [])

end Expr

end Pseudocode
