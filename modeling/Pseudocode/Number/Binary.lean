import Pseudocode.Number.Integer

/-!
# Floats as binary fractions

A finite float is a sign, a whole mantissa and a power of two. `Binary.ofFloat`
takes the three from the bits of a float, and both conversions between floats
and integers are stated on them: a float is cut off to an integer by exact
division, and an integer becomes the nearest float.
-/

set_option autoImplicit false

namespace Pseudocode

/-- A float taken apart. -/
inductive Binary where
  /-- Not a number. -/
  | nan
  /-- An infinity. -/
  | infinite (negative : Bool)
  /-- The number `mantissa * 2 ^ exponent`, with its sign. -/
  | finite (negative : Bool) (mantissa : Nat) (exponent : Int)
deriving DecidableEq

namespace Binary

/-- Reads the sign, the eleven bits of the exponent and the 52 bits of the
fraction. The smallest exponent has no leading one before its fraction. -/
def ofFloat (x : Float) : Binary :=
  let bits : Nat := x.toBits.toNat
  let negative := bits / Nat.pow 2 63 % 2 == 1
  let scale : Nat := bits / Nat.pow 2 52 % 2048
  let fraction : Nat := bits % Nat.pow 2 52
  if scale = 2047 then
    if fraction = 0 then infinite negative else nan
  else if scale = 0 then finite negative fraction (-1074)
  else finite negative (fraction + Nat.pow 2 52) ((scale : Int) - 1075)

/-- The whole part of `mantissa * 2 ^ exponent`. -/
def wholePart (mantissa : Nat) (exponent : Int) : Nat :=
  if 0 ≤ exponent then mantissa * Nat.pow 2 exponent.toNat
  else mantissa / Nat.pow 2 (-exponent).toNat

/-- The number cut off toward zero, if it is finite. -/
def truncate? : Binary → Option Int
  | finite negative mantissa exponent =>
    let whole : Int := wholePart mantissa exponent
    some (if negative then -whole else whole)
  | _ => none

end Binary

namespace Integer

/-- The nearest float; of two equally near ones that with the even mantissa. -/
def toFloat (a : Integer) : Float := Float.ofInt a.val

/-- A float cut off toward zero, if the result is an integer of the range. -/
def ofFloat? (x : Float) : Option Integer :=
  (Binary.ofFloat x).truncate?.bind ofInt?

end Integer

end Pseudocode
