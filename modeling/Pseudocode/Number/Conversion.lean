import Pseudocode.Error.Runtime
import Pseudocode.Number.Binary

/-!
# Conversions of numbers that can fail

The partial conversions between numbers, each with the error that a program
sees when its number has no counterpart.
-/

set_option autoImplicit false

namespace Pseudocode.Integer

/-- A float cut off toward zero. It overflows outside the range of the integers,
and so do the infinities and NaN. -/
def truncating (x : Float) : Except RuntimeError Integer :=
  demand (ofFloat? x) .overflow

/-- An exponent as a natural number. Too large an exponent overflows whatever
the base. -/
def exponent (e : Integer) : Except RuntimeError Nat :=
  demand e.toExponent? .overflow

/-- The place of the element with the given index in a row. -/
def offset (index : Integer) (length : Nat) : Except RuntimeError Nat :=
  demand (index.toOffset? length) (.indexOutOfBounds index)

/-- The length of an array of the given size. -/
def arrayLength (size : Integer) : Except RuntimeError Nat :=
  demand size.toLength? .invalidArraySize

end Pseudocode.Integer
