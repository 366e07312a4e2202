import Pseudocode.Number.Conversion
import Pseudocode.Operator
import Pseudocode.Value

/-!
# What operators compute

A binary operator looks at its operands as a pair. `Operands.of` sorts the pairs
of values once: two integers stay integers, any other two numbers become
floats, characters and strings become texts, and every operator is then defined
on the sorted pair. The logical operators are the exception; they take the truth
of each operand on its own.
-/

set_option autoImplicit false

namespace Pseudocode

/-- A pair of values, sorted by what an operator can do with it. -/
inductive Operands where
  | integers (a b : Integer)
  | floats (a b : Float)
  | texts (a b : String)
  | booleans (a b : Bool)
  /-- Two values with nothing in common. -/
  | mixed

namespace Operands

/-- Sorts a pair of values. -/
def of (left right : Value) : Operands :=
  match left, right with
  | .integer a, .integer b => integers a b
  | .boolean a, .boolean b => booleans a b
  | left, right =>
    match left.number?, right.number? with
    | some a, some b => floats a b
    | _, _ =>
      match left.text?, right.text? with
      | some a, some b => texts a b
      | _, _ => mixed

/-! ## Arithmetic -/

/-- An operation on two numbers, exact on integers. -/
def arithmetic (exact : Integer → Integer → Except RuntimeError Integer)
    (approximate : Float → Float → Float) : Operands → Except RuntimeError Value
  | integers a b => .integer <$> exact a b
  | floats a b => .ok (.float (approximate a b))
  | _ => .error .invalidExpression

/-- A checked operation on integers. -/
def checked (operation : Integer → Integer → Option Integer) (a b : Integer) :
    Except RuntimeError Integer :=
  demand (operation a b) .overflow

/-- A checked operation on integers that has no answer for the divisor zero. -/
def divided (operation : Integer → Integer → Option Integer) (a b : Integer) :
    Except RuntimeError Integer :=
  if b.val = 0 then .error .divisionByZero else checked operation a b

/-- The remainder of two integers. -/
def modulo : Operands → Except RuntimeError Value
  | integers a b => .integer <$> divided Integer.remainder? a b
  | _ => .error .invalidExpression

/-! ## Text -/

/-- The first text followed by the second. -/
def join : Operands → Except RuntimeError Value
  | texts a b => .ok (.string (a ++ b))
  | _ => .error .invalidExpression

/-! ## Comparison -/

/-- Whether the operands are equal. Operands with nothing in common are not. -/
def equal : Operands → Bool
  | integers a b => a == b
  | floats a b => a == b
  | texts a b => a == b
  | booleans a b => a == b
  | mixed => false

/-- Compares by the order of numbers, or by the order of characters in texts. -/
def ordered (integer : Int → Int → Bool) (float : Float → Float → Bool)
    (text : String → String → Bool) : Operands → Except RuntimeError Value
  | integers a b => .ok (.boolean (integer a.val b.val))
  | floats a b => .ok (.boolean (float a b))
  | texts a b => .ok (.boolean (text a b))
  | _ => .error .invalidExpression

end Operands

namespace BinaryOp

/-- The value of an operator at two values. -/
def apply (op : BinaryOp) (left right : Value) : Except RuntimeError Value :=
  match op with
  | and => do
    let a ← left.condition
    let b ← right.condition
    return .boolean (a && b)
  | or => do
    let a ← left.condition
    let b ← right.condition
    return .boolean (a || b)
  | equal => .ok (.boolean (Operands.of left right).equal)
  | notEqual => .ok (.boolean (!(Operands.of left right).equal))
  | greater =>
    (Operands.of left right).ordered (fun a b => decide (b < a)) (fun a b => decide (b < a))
      (fun a b => decide (b < a))
  | greaterEqual =>
    (Operands.of left right).ordered (fun a b => decide (b ≤ a)) (fun a b => decide (b ≤ a))
      (fun a b => !decide (a < b))
  | less =>
    (Operands.of left right).ordered (fun a b => decide (a < b)) (fun a b => decide (a < b))
      (fun a b => decide (a < b))
  | lessEqual =>
    (Operands.of left right).ordered (fun a b => decide (a ≤ b)) (fun a b => decide (a ≤ b))
      (fun a b => !decide (b < a))
  | add => (Operands.of left right).arithmetic (Operands.checked Integer.add?) (· + ·)
  | subtract => (Operands.of left right).arithmetic (Operands.checked Integer.sub?) (· - ·)
  | multiply => (Operands.of left right).arithmetic (Operands.checked Integer.mul?) (· * ·)
  | divide => (Operands.of left right).arithmetic (Operands.divided Integer.quotient?) (· / ·)
  | modulo => (Operands.of left right).modulo
  | power => (Operands.of left right).arithmetic (Operands.checked Integer.pow?) Float.pow
  | join => (Operands.of left right).join

end BinaryOp

namespace UnaryOp

/-- The value of an operator at a value. -/
def apply (op : UnaryOp) (value : Value) : Except RuntimeError Value :=
  match op, value with
  | not, value => do
    let holds ← value.condition
    return .boolean (!holds)
  | plus, value => .ok value
  | minus, .integer n => .integer <$> demand n.neg? .overflow
  | minus, .float x => .ok (.float (-x))
  | minus, _ => .error .invalidExpression

end UnaryOp

end Pseudocode
