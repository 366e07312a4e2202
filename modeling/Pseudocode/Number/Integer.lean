/-!
# Integers of 64 bits

The integers of the language are the whole numbers from `-2^63` to `2^63 - 1`.
An integer is a number of `Int` together with the proof that it lies in that
range, so arithmetic is done exactly in `Int` and then brought back by
`Integer.ofInt?`, which fails outside the range. Nothing wraps around.

The main statement of this module is `Integer.ofInt?_eq_some_iff`: bringing a
number back succeeds exactly on the numbers of the range and changes none of
them.
-/

set_option autoImplicit false

namespace Pseudocode

/-- A whole number of the 64-bit range. -/
structure Integer where
  /-- The number itself. -/
  val : Int
  least_le : -9223372036854775808 ≤ val
  le_greatest : val ≤ 9223372036854775807
deriving DecidableEq

namespace Integer

/-- A number that an integer can hold. -/
def Fits (n : Int) : Prop := -9223372036854775808 ≤ n ∧ n ≤ 9223372036854775807

instance (n : Int) : Decidable (Fits n) :=
  inferInstanceAs (Decidable (_ ∧ _))

/-- The integer with the given value, if it lies in the range. -/
def ofInt? (n : Int) : Option Integer :=
  if fits : Fits n then some ⟨n, fits.1, fits.2⟩ else none

instance : Inhabited Integer := ⟨⟨0, by decide, by decide⟩⟩

/-- The integer zero. -/
def zero : Integer := ⟨0, by decide, by decide⟩

/-- The integer one. -/
def one : Integer := ⟨1, by decide, by decide⟩

@[ext]
theorem ext {a b : Integer} (same : a.val = b.val) : a = b := by
  cases a
  cases b
  simp_all

/-- Every integer holds a number of the range. -/
theorem fits_val (a : Integer) : Fits a.val := ⟨a.least_le, a.le_greatest⟩

/-- A number is brought back exactly when it is the value of an integer. -/
theorem ofInt?_eq_some_iff {n : Int} {a : Integer} : ofInt? n = some a ↔ a.val = n := by
  constructor
  · intro found
    by_cases fits : Fits n
    · simp only [ofInt?, fits, dite_true, Option.some.injEq] at found
      rw [← found]
    · simp [ofInt?, fits] at found
  · intro same
    subst same
    have fits := a.fits_val
    simp [ofInt?, fits]

/-- Bringing a number back fails exactly outside the range. -/
theorem ofInt?_eq_none_iff {n : Int} : ofInt? n = none ↔ ¬ Fits n := by
  by_cases fits : Fits n <;> simp [ofInt?, fits]

/-! ## Checked arithmetic

Each operation computes in `Int` and answers `none` when the result leaves the
range. -/

/-- The sum. -/
def add? (a b : Integer) : Option Integer := ofInt? (a.val + b.val)

/-- The difference. -/
def sub? (a b : Integer) : Option Integer := ofInt? (a.val - b.val)

/-- The product. -/
def mul? (a b : Integer) : Option Integer := ofInt? (a.val * b.val)

/-- The opposite number. -/
def neg? (a : Integer) : Option Integer := ofInt? (-a.val)

/-- The quotient, rounded toward zero, for a divisor other than zero. -/
def quotient? (a b : Integer) : Option Integer := ofInt? (a.val.tdiv b.val)

/-- The remainder with the sign of the dividend, for a divisor other than
zero. It is defined where the quotient is. -/
def remainder? (a b : Integer) : Option Integer :=
  (a.quotient? b).bind fun _ => ofInt? (a.val.tmod b.val)

/-- The largest exponent that a power may have. -/
def maxExponent : Nat := 4294967295

/-- An exponent as a natural number, if a power may have it. -/
def toExponent? (e : Integer) : Option Nat :=
  if 0 ≤ e.val ∧ e.val ≤ maxExponent then some e.val.toNat else none

/-- The power with a natural exponent. Beyond 64 only the parity of the
exponent matters: the powers of -1, 0 and 1 depend on nothing else, and the
powers of any other base have left the range. -/
def powNat? (base : Integer) (exponent : Nat) : Option Integer :=
  ofInt? (base.val.pow (if exponent ≤ 64 then exponent else 64 + exponent % 2))

/-- The power with a negative exponent, cut off to a whole number. The
exponent is read in double precision, where every number from `2^53` on is
even; this shows for the base -1 only. Zero has no such power. -/
def powNegative? (base exponent : Integer) : Option Integer :=
  if base.val = 0 then none
  else if base.val = 1 then some one
  else if base.val = -1 then
    ofInt? (if exponent.val % 2 ≠ 0 ∧ exponent.val.natAbs < Nat.pow 2 53 then -1 else 1)
  else some zero

/-- The power of two integers. -/
def pow? (base exponent : Integer) : Option Integer :=
  if exponent.val < 0 then base.powNegative? exponent
  else exponent.toExponent?.bind base.powNat?

/-! ## Positions and lengths -/

/-- The place of an element from its position, which counts from one, in a row
of the given length. -/
def toOffset? (index : Integer) (length : Nat) : Option Nat :=
  if 1 ≤ index.val ∧ index.val ≤ length then some (index.val.toNat - 1) else none

/-- The length of a row that has at least one element. -/
def toLength? (size : Integer) : Option Nat :=
  if 0 < size.val then some size.val.toNat else none

/-! ## Text -/

/-- The decimal digits, after a minus sign for a number below zero. -/
def text (a : Integer) : String := toString a.val

end Integer

end Pseudocode
