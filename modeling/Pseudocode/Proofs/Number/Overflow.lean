import Pseudocode.Proofs.Number.Operator

/-!
# Overflow

An operator on integers overflows where its exact value lies outside of the range, and
nearly nowhere else (`BinaryOp.overflows_iff`). The exceptions are `BinaryOp.Withheld`.
The least integer has no remainder for the divisor -1, because it has no quotient for it,
and exponents of more than 32 bits are refused, although the powers of -1, 0 and 1 never
grow. In both cases the exact value is -1, 0 or 1.
-/

set_option autoImplicit false

namespace Pseudocode

namespace Integer

variable {base exponent : Integer}

/-- The powers of -1, 0 and 1 stay in the range. -/
theorem fits_pow {base : Int} (small : base.natAbs ≤ 1) (exponent : Nat) :
    Fits (base.pow exponent) := by
  have bounded : (base.pow exponent).natAbs ≤ 1 := by
    calc (base.pow exponent).natAbs = base.natAbs.pow exponent := Int.natAbs_pow base exponent
      _ ≤ Nat.pow 1 exponent := Nat.pow_le_pow_left small exponent
      _ = 1 := Nat.one_pow exponent
  rw [Fits]
  omega

/-- A power that is not computed has left the range, unless its base is -1, 0 or 1. -/
theorem pow?_eq_none_iff (upward : 0 ≤ exponent.val) :
    base.pow? exponent = none ↔ ¬ Fits (base.val.pow exponent.val.toNat) ∨
      (base.val.natAbs ≤ 1 ∧ maxExponent < exponent.val) := by
  rw [pow?_eq upward]
  by_cases small : exponent.val ≤ maxExponent
  · rw [if_pos small, ofInt?_eq_none_iff]
    exact (or_iff_left fun beyond => Int.not_lt.2 small beyond.2).symm
  · have many : 64 ≤ exponent.val.toNat := by
      rw [maxExponent] at small
      omega
    rw [if_neg small]
    by_cases stays : base.val.natAbs ≤ 1
    · exact iff_of_true rfl (.inr ⟨stays, Int.not_le.1 small⟩)
    · exact iff_of_true rfl (.inl (not_fits_pow (Nat.not_le.1 stays) many))

end Integer

namespace BinaryOp

variable {op : BinaryOp}

/-- The operands for which an integer is not computed although it is the exact value. -/
def Withheld : BinaryOp → Int → Int → Prop
  | modulo, a, b => a = -9223372036854775808 ∧ b = -1
  | power, a, b => a.natAbs ≤ 1 ∧ Integer.maxExponent < b
  | _, _, _ => False

/-- The least integer is a multiple of -1, and all powers of one are one. Neither is
computed. -/
theorem overflow_of_exact_integer :
    (∃ a b : Integer, a.val = -9223372036854775808 ∧ b.val = -1 ∧
      modulo.exactValue? a.val b.val = some 0 ∧ Integer.Fits 0 ∧
      modulo.apply (.integer a) (.integer b) = .error .overflow) ∧
    ∃ a b : Integer, a.val = 1 ∧ b.val = 4294967296 ∧
      power.exactValue? a.val b.val = some 1 ∧ Integer.Fits 1 ∧
      power.apply (.integer a) (.integer b) = .error .overflow := by
  constructor
  · exact ⟨⟨-9223372036854775808, by decide, by decide⟩, ⟨-1, by decide, by decide⟩, rfl, rfl,
      rfl, by decide, rfl⟩
  · have ones : power.exactValue? 1 4294967296 = some 1 :=
      congrArg some (Int.one_pow (n := 4294967296))
    exact ⟨.one, ⟨4294967296, by decide, by decide⟩, rfl, rfl, ones, by decide, rfl⟩

theorem fits_of_withheld {a b n : Int} (withheld : op.Withheld a b)
    (exact : op.exactValue? a b = some n) : Integer.Fits n := by
  cases op with
  | modulo =>
      obtain ⟨rfl, rfl⟩ := withheld
      cases exact
      decide
  | power =>
      obtain ⟨-, value⟩ := Option.ite_none_left_eq_some.1 exact
      cases value
      exact Integer.fits_pow withheld.1 _
  | _ => cases withheld

/-- An operator with an exact value overflows if the value does not fit or is withheld. -/
theorem apply_eq_overflow_iff {a b : Integer} {n : Int}
    (exact : op.exactValue? a.val b.val = some n) :
    op.apply (.integer a) (.integer b) = .error .overflow ↔
      ¬ Integer.Fits n ∨ op.Withheld a.val b.val := by
  cases op with
  | add | subtract | multiply =>
      cases exact
      refine map_eq_error.trans (demand_eq_error.trans ?_)
      simp [Integer.add?, Integer.sub?, Integer.mul?, Integer.ofInt?_eq_none_iff, Withheld]
  | divide =>
      obtain ⟨nonzero, value⟩ := Option.ite_none_left_eq_some.1 exact
      cases value
      rw [(division_error (by simp [divisions]) a b).2, Integer.fits_tdiv_iff nonzero]
      simp [Withheld]
  | modulo =>
      obtain ⟨nonzero, value⟩ := Option.ite_none_left_eq_some.1 exact
      cases value
      rw [(division_error (by simp [divisions]) a b).2]
      simp [Withheld, Integer.fits_tmod nonzero]
  | power =>
      obtain ⟨upward, value⟩ := Option.ite_none_left_eq_some.1 exact
      cases value
      refine map_eq_error.trans (demand_eq_error.trans ?_)
      simp [Integer.pow?_eq_none_iff (Int.not_lt.1 upward), Withheld]
  | _ => cases exact

/-- **Overflow means that the exact value does not fit.** Two kinds of operands are the only
exceptions, and they are exceptions indeed, since their values fit. -/
theorem overflows_iff {a b : Integer} (integral : op ∈ BinaryOp.integral)
    (nonzero : op ∈ divisions → b.val ≠ 0) (upward : op = .power → 0 ≤ b.val) :
    ∃ n, op.exactValue? a.val b.val = some n ∧
      (op.apply (.integer a) (.integer b) = .error .overflow ↔
        ¬ Integer.Fits n ∨ op.Withheld a.val b.val) ∧
      (op.Withheld a.val b.val → Integer.Fits n) := by
  obtain ⟨n, exact⟩ := exists_exactValue? (a := a.val) integral nonzero upward
  exact ⟨n, exact, apply_eq_overflow_iff exact, fun withheld => fits_of_withheld withheld exact⟩

/-- The thirtieth power of ten does not fit. -/
theorem power_of_ten_overflows :
    ∃ a b : Integer, a.val = 10 ∧ b.val = 30 ∧ power ∈ BinaryOp.integral ∧
      power.apply (.integer a) (.integer b) = .error .overflow := by
  let ten : Integer := ⟨10, by decide, by decide⟩
  let thirty : Integer := ⟨30, by decide, by decide⟩
  have integral : power ∈ BinaryOp.integral := by decide
  obtain ⟨n, exact, overflows, -⟩ := overflows_iff (a := ten) (b := thirty) integral (by decide)
    (by decide)
  obtain rfl : 1000000000000000000000000000000 = n := Option.some.inj exact
  exact ⟨ten, thirty, rfl, rfl, integral, overflows.2 (.inl (by decide))⟩

end BinaryOp

end Pseudocode
