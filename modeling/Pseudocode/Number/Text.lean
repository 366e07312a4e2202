import Pseudocode.Number.Shortest

/-!
# The text of a float

A float is written with the digits of its shortest decimal. Where the point goes
is a matter of style: from `10 ^ -6` up to below `10 ^ 21` the number is written
out, without a point when it is whole; outside that span one digit stands before
the point and a signed power of ten follows.
-/

set_option autoImplicit false

namespace Pseudocode

namespace Decimal

/-- How decimals are written. -/
structure Style where
  /-- The smallest and the largest number of digits before the point for which a
  number is written out; a negative number of digits counts zeros after it. -/
  leastPoint : Int
  mostPoint : Int
  /-- What stands between the digits and the power of ten, by its sign. -/
  risingMark : String
  fallingMark : String

/-- Numbers from `10 ^ -6` up to below `10 ^ 21` are written out. -/
def Style.plain : Style where
  leastPoint := -5
  mostPoint := 21
  risingMark := "e+"
  fallingMark := "e-"

/-- The digits with the point after the first `point` of them, filled up with
zeros on the side where digits are missing. -/
def positional (digits : List Char) (point : Int) : String :=
  if point ≤ 0 then
    String.ofList ('0' :: '.' :: (List.replicate (-point).toNat '0' ++ digits))
  else if digits.length ≤ point.toNat then
    String.ofList (digits ++ List.replicate (point.toNat - digits.length) '0')
  else
    String.ofList (digits.take point.toNat ++ '.' :: digits.drop point.toNat)

/-- One digit before the point, and the power of ten that it stands for. -/
def scientific (style : Style) (digits : List Char) (power : Int) : String :=
  let mantissa := positional digits 1
  if power < 0 then mantissa ++ style.fallingMark ++ toString power.natAbs
  else mantissa ++ style.risingMark ++ toString power.natAbs

/-- The text of a decimal other than zero. -/
def text (style : Style) (decimal : Decimal) : String :=
  let digits := Nat.toDigits 10 decimal.digits
  let point := digits.length + decimal.exponent
  if style.leastPoint ≤ point ∧ point ≤ style.mostPoint then positional digits point
  else scientific style digits (point - 1)

end Decimal

namespace Binary

/-- The text of a float. Zero is written without its sign. -/
def text : Binary → String
  | nan => "NaN"
  | infinite negative => if negative then "-Infinity" else "Infinity"
  | finite negative mantissa exponent =>
    if mantissa = 0 then "0"
    else
      let magnitude := (Shortest.decimal mantissa exponent).text .plain
      if negative then "-" ++ magnitude else magnitude

end Binary

end Pseudocode
