import Pseudocode.Proofs.Number.Operator
import Pseudocode.Proofs.Number.Rounding

/-!
# Powers with negative exponents

The power of two integers with a negative exponent is a fraction, which is cut off to an integer.
Floats are used for it: both integers are converted, the power of the floats is taken, and the
result is cut off. As far as powers of floats are known (`PowerLaws`) this is the fraction cut
off, but for one case (`BinaryOp.power_negative`). An odd exponent of more than 53 binary digits
is converted to an even number, so that the power of -1 becomes 1.
-/

set_option autoImplicit false

namespace Pseudocode

/-! ## Cutting off fractions -/

/-- A fraction cut off toward zero. -/
def cutOff (q : ℚ) : Int := if 0 ≤ q then ⌊q⌋ else ⌈q⌉

theorem cutOff_neg (q : ℚ) : cutOff (-q) = -cutOff q := by
  rcases lt_trichotomy q 0 with negative | rfl | positive
  · rw [cutOff, cutOff, if_pos (by linarith), if_neg (by linarith), Int.floor_neg]
  · simp [cutOff]
  · rw [cutOff, cutOff, if_neg (by linarith), if_pos positive.le, Int.ceil_neg]

theorem cutOff_intCast (n : Int) : cutOff n = n := by simp [cutOff]

theorem cutOff_of_abs_lt_one {q : ℚ} (small : |q| < 1) : cutOff q = 0 := by
  obtain ⟨low, high⟩ := abs_lt.1 small
  by_cases upward : 0 ≤ q
  · rw [cutOff, if_pos upward, Int.floor_eq_zero_iff]
    exact ⟨upward, high⟩
  · rw [cutOff, if_neg upward, Int.ceil_eq_zero_iff]
    exact ⟨low, (not_le.1 upward).le⟩

namespace Binary

theorem floor_eq_wholePart (m : Nat) (e : Int) : ⌊(m * 2 ^ e : ℚ)⌋ = wholePart m e := by
  rw [wholePart]
  split
  · rename_i upward
    lift e to ℕ using upward
    have whole : (m * 2 ^ (e : Int) : ℚ) = (m * Nat.pow 2 e : Nat) := by
      rw [zpow_natCast, Nat.pow_eq, Nat.cast_mul, Nat.cast_pow, Nat.cast_ofNat]
    rw [whole, Int.floor_natCast, Int.toNat_natCast]
  · rename_i downward
    obtain ⟨k, rfl⟩ : ∃ k : Nat, e = -k := ⟨(-e).toNat, by omega⟩
    have fraction : (m * 2 ^ (-k : Int) : ℚ) = (m : ℚ) / (Nat.pow 2 k : Nat) := by
      rw [zpow_neg, zpow_natCast, Nat.pow_eq, Nat.cast_pow, Nat.cast_ofNat, div_eq_mul_inv]
    rw [fraction, Rat.floor_natCast_div_natCast, Int.neg_neg, Int.toNat_natCast]
    rfl

/-- A float is cut off to the number it stands for, cut off. -/
theorem truncate?_eq (x : Binary) : x.truncate? = x.value?.map cutOff := by
  cases x with
  | nan => rfl
  | infinite negative => rfl
  | finite negative m e =>
      have positive : cutOff (m * 2 ^ e) = wholePart m e := by
        have upward : (0 : ℚ) ≤ m * 2 ^ e :=
          mul_nonneg (Nat.cast_nonneg m) (zpow_nonneg zero_le_two e)
        rw [cutOff, if_pos upward, floor_eq_wholePart]
      cases negative with
      | false => simp [truncate?, value?, positive]
      | true => simp [truncate?, value?, cutOff_neg, positive]

end Binary

/-! ## Powers of fractions -/

/-- The powers of -1 and 1 depend on the parity of the exponent alone. -/
theorem zpow_of_unit {base : Int} (unit : base.natAbs = 1) (exponent : Int) :
    (base : ℚ) ^ exponent = if exponent % 2 ≠ 0 then (base : ℚ) else 1 := by
  obtain rfl | rfl : base = 1 ∨ base = -1 := by omega
  · simp
  · by_cases even : exponent % 2 = 0
    · have isEven : Even exponent := Int.even_iff.2 even
      simp [even, isEven.neg_one_zpow]
    · have isOdd : Odd exponent := Int.odd_iff.2 (by omega)
      simp [even, isOdd.neg_one_zpow]

theorem cutOff_zpow_of_unit {base : Int} (unit : base.natAbs = 1) (exponent : Int) :
    cutOff ((base : ℚ) ^ exponent) = if exponent % 2 ≠ 0 then base else 1 := by
  rw [zpow_of_unit unit, apply_ite cutOff, cutOff_intCast, ← Int.cast_one, cutOff_intCast]

/-- The powers of all other bases but zero are between -1 and 1. -/
theorem cutOff_zpow_of_large {base exponent : Int} (large : 2 ≤ base.natAbs)
    (downward : exponent < 0) : cutOff ((base : ℚ) ^ exponent) = 0 := by
  apply cutOff_of_abs_lt_one
  have atLeast : (2 : ℚ) ≤ |(base : ℚ)| := by
    rw [← Int.cast_abs, Int.abs_eq_natAbs]
    exact_mod_cast large
  rw [abs_zpow]
  exact zpow_lt_one_of_neg₀ (by linarith) downward

/-! ## Powers of floats -/

open Binary (ofFloat floatValue?)

/-- What is known of the power of two floats. -/
structure PowerLaws (pow : Float → Float → Float) : Prop where
  /-- The powers of -1 and 1 with whole exponents are exact. -/
  unit : ∀ {x y : Float} {base exponent : Int}, floatValue? x = some (base : ℚ) →
    floatValue? y = some (exponent : ℚ) → base.natAbs = 1 →
      floatValue? (pow x y) = some ((base : ℚ) ^ exponent)
  /-- The powers of larger bases with negative exponents are below one. -/
  small : ∀ {x y : Float} {base exponent : Int}, floatValue? x = some (base : ℚ) →
    floatValue? y = some (exponent : ℚ) → 2 ≤ base.natAbs → exponent ≤ -1 →
      ∃ q, floatValue? (pow x y) = some q ∧ |q| < 1
  /-- The powers of zero with negative exponents are infinite. -/
  infinite : ∀ {x y : Float} {exponent : Int}, floatValue? x = some 0 →
    floatValue? y = some (exponent : ℚ) → exponent ≤ -1 →
      ∃ negative, ofFloat (pow x y) = .infinite negative

/-- The least that a power with these laws has to do. -/
def roughPower (x y : Float) : Float :=
  match floatValue? x with
  | none => x
  | some q =>
    if q = 0 then Float.ofBits 0x7FF0000000000000
    else if |q| ≠ 1 then Integer.zero.toFloat
    else if (ofFloat y).truncate?.all (· % 2 = 0) then Integer.one.toFloat
    else x

theorem roughPower_laws : PowerLaws roughPower where
  unit := by
    intro x y base exponent isBase isExponent unit
    have one : floatValue? Integer.one.toFloat = some 1 := by
      have value := Integer.toFloat_of_small (by decide : Integer.one.val.natAbs < 2 ^ 53)
      rwa [show Integer.one.val = 1 from rfl, Int.cast_one] at value
    have nonzero : (base : ℚ) ≠ 0 := by exact_mod_cast (by omega : base ≠ 0)
    have size : ¬ |(base : ℚ)| ≠ 1 := by
      rw [← Int.cast_abs, Int.abs_eq_natAbs, unit]
      simp
    have whole : (ofFloat y).truncate? = some exponent := by
      rw [Binary.truncate?_eq, ← floatValue?, isExponent, Option.map_some, cutOff_intCast]
    simp only [roughPower, isBase, if_neg nonzero, if_neg size, whole, Option.all_some,
      decide_eq_true_eq]
    rw [zpow_of_unit unit]
    by_cases even : exponent % 2 = 0
    · rw [if_pos even, if_neg (not_not.2 even), one]
    · rw [if_neg even, if_pos even, isBase]
  small := by
    intro x y base exponent isBase _ large _
    have nonzero : (base : ℚ) ≠ 0 := by exact_mod_cast (by omega : base ≠ 0)
    have size : |(base : ℚ)| ≠ 1 := by
      rw [← Int.cast_abs, Int.abs_eq_natAbs]
      exact_mod_cast (by omega : base.natAbs ≠ 1)
    simp only [roughPower, isBase, if_neg nonzero, if_pos size]
    exact ⟨0, Integer.zero_value, by simp⟩
  infinite := by
    intro x y exponent isBase _ _
    have found : roughPower x y = Float.ofBits 0x7FF0000000000000 := by
      simp only [roughPower, isBase, if_pos]
    rw [found]
    exact ⟨false, by decide +kernel⟩

theorem Integer.ofFloat?_eq (x : Float) :
    ofFloat? x = (floatValue? x).bind fun q => ofInt? (cutOff q) := by
  rw [ofFloat?, Binary.truncate?_eq, ← floatValue?, Option.bind_map]
  rfl

/-- **The power with a negative exponent is computed as with floats.** -/
theorem PowerLaws.ofFloat?_pow {pow : Float → Float → Float} (laws : PowerLaws pow)
    {base exponent : Integer} (downward : exponent.val < 0) :
    Integer.ofFloat? (pow base.toFloat exponent.toFloat) = base.powNegative? exponent := by
  obtain ⟨x, baseValue, baseRounded⟩ := base.toFloat_value
  obtain ⟨y, exponentValue, exponentRounded⟩ := exponent.toFloat_value
  have negative : y ≤ -1 := exponentRounded.neg_of_neg downward
  rw [Integer.ofFloat?_eq]
  by_cases zero : base.val = 0
  · have isZero : x = 0 := by rw [baseRounded.exact (by omega), zero]
    subst isZero
    obtain ⟨sign, infinite⟩ := laws.infinite baseValue exponentValue negative
    rw [floatValue?, infinite, Integer.powNegative?, if_pos zero]
    rfl
  by_cases large : 2 ≤ base.val.natAbs
  · obtain ⟨q, value, small⟩ := laws.small baseValue exponentValue
      (baseRounded.natAbs_ge_two large) negative
    rw [value, Option.bind_some, cutOff_of_abs_lt_one small, Integer.powNegative?, if_neg zero,
      if_neg (by omega), if_neg (by omega)]
    rfl
  · have unit : base.val.natAbs = 1 := by omega
    obtain rfl : x = base.val := baseRounded.exact (by omega)
    rw [laws.unit baseValue exponentValue unit, Option.bind_some, cutOff_zpow_of_unit unit,
      Integer.powNegative?, if_neg zero]
    obtain one | minusOne : base.val = 1 ∨ base.val = -1 := by omega
    · rw [if_pos one, one, ite_self]
      rfl
    · have notOne : base.val ≠ 1 := by omega
      rw [if_neg notOne, if_pos minusOne, minusOne]
      simp only [exponentRounded.odd_iff]
      rfl

/-! ## Powers of integers -/

theorem neg_one_pow_natAbs (n : Int) : (-1 : Int) ^ n.natAbs = if n % 2 ≠ 0 then -1 else 1 := by
  by_cases even : n % 2 = 0
  · have isEven : Even n.natAbs := Int.natAbs_even.2 (Int.even_iff.2 even)
    rw [isEven.neg_one_pow, if_neg (not_not.2 even)]
  · have isOdd : Odd n.natAbs := Int.natAbs_odd.2 (Int.odd_iff.2 (by omega))
    rw [isOdd.neg_one_pow, if_pos even]

/-- Only zero has no powers with negative exponents. -/
theorem Integer.exists_powNegative {base : Integer} (nonzero : base.val ≠ 0)
    (exponent : Integer) :
    ∃ r : Integer, base.powNegative? exponent = some r ∧
      (2 ≤ base.val.natAbs → r.val = 0) ∧ (base.val = 1 → r.val = 1) ∧
      (base.val = -1 →
        r.val = if exponent.val.natAbs ≤ 2 ^ 53 then (-1) ^ exponent.val.natAbs else 1) := by
  rw [powNegative?, if_neg nonzero]
  by_cases one : base.val = 1
  · rw [if_pos one]
    exact ⟨.one, rfl, by omega, fun _ => rfl, by omega⟩
  rw [if_neg one]
  by_cases minusOne : base.val = -1
  · rw [if_pos minusOne, neg_one_pow_natAbs, Nat.pow_eq]
    by_cases odd : exponent.val % 2 ≠ 0 ∧ exponent.val.natAbs < 2 ^ 53
    · rw [if_pos odd, if_pos odd.2.le, if_pos odd.1]
      exact ⟨⟨-1, by decide, by decide⟩, rfl, by omega, by omega, fun _ => rfl⟩
    · rw [if_neg odd]
      refine ⟨.one, rfl, by omega, fun _ => rfl, fun _ => ?_⟩
      change 1 = _
      split_ifs <;> omega
  · rw [if_neg minusOne]
    exact ⟨zero, rfl, fun _ => rfl, fun is => absurd is one, fun is => absurd is minusOne⟩

namespace BinaryOp

/-- **A power with a negative exponent is the fraction, cut off.** It is what the power of the
converted integers comes to, whatever the power of floats is beyond its laws. Zero has no such
powers. For an odd exponent of more than 53 digits the power of -1 is not -1 but 1. -/
theorem power_negative {pow : Float → Float → Float} (laws : PowerLaws pow) {b e : Integer}
    (downward : e.val < 0) :
    power.apply (.integer b) (.integer e) =
        Value.integer <$> Integer.truncating (pow b.toFloat e.toFloat) ∧
      (b.val = 0 → power.apply (.integer b) (.integer e) = .error .overflow) ∧
      (b.val ≠ 0 → ∃ r : Integer, power.apply (.integer b) (.integer e) = .ok (.integer r) ∧
        (2 ≤ b.val.natAbs → r.val = 0) ∧ (b.val = 1 → r.val = 1) ∧
        (b.val = -1 → r.val = if e.val.natAbs ≤ 2 ^ 53 then (-1) ^ e.val.natAbs else 1) ∧
        (r.val = cutOff ((b.val : ℚ) ^ e.val) ↔
          ¬ (b.val = -1 ∧ e.val % 2 ≠ 0 ∧ 2 ^ 53 < e.val.natAbs))) := by
  have computed : power.apply (.integer b) (.integer e) =
      Value.integer <$> demand (b.powNegative? e) .overflow := by
    change Value.integer <$> demand (b.pow? e) .overflow = _
    rw [Integer.pow?, if_pos downward]
  refine ⟨?_, fun zero => ?_, fun nonzero => ?_⟩
  · rw [computed, Integer.truncating, laws.ofFloat?_pow downward]
  · rw [computed, Integer.powNegative?, if_pos zero]
    rfl
  · obtain ⟨r, found, large, one, minusOne⟩ := Integer.exists_powNegative nonzero e
    refine ⟨r, by rw [computed, found]; rfl, large, one, minusOne, ?_⟩
    by_cases big : 2 ≤ b.val.natAbs
    · rw [cutOff_zpow_of_large big downward, large big]
      exact iff_of_true rfl (by omega)
    · have unit : b.val.natAbs = 1 := by omega
      rw [cutOff_zpow_of_unit unit]
      obtain is | is : b.val = 1 ∨ b.val = -1 := by omega
      · rw [one is, is, ite_self]
        exact iff_of_true rfl (by omega)
      · rw [minusOne is, is, neg_one_pow_natAbs]
        by_cases even : e.val % 2 = 0
        · simp [even]
        · simp [even]

/-- It is 1 although the exponent is odd. -/
theorem power_of_large_odd :
    ∃ b e : Integer, b.val = -1 ∧ e.val = -9007199254740993 ∧
      power.apply (.integer b) (.integer e) = .ok (.integer .one) ∧
      cutOff ((b.val : ℚ) ^ e.val) = -1 := by
  refine ⟨⟨-1, by decide, by decide⟩, ⟨-9007199254740993, by decide, by decide⟩, rfl, rfl, rfl, ?_⟩
  rw [cutOff_zpow_of_unit rfl]
  rfl

/-- The largest odd exponent that is still known to be odd. -/
theorem power_of_small_odd :
    PowerLaws roughPower ∧ ∃ b e : Integer, b.val = -1 ∧ e.val = -9007199254740991 ∧ e.val < 0 ∧
      power.apply (.integer b) (.integer e) =
        Value.integer <$> Integer.truncating (roughPower b.toFloat e.toFloat) ∧
      ∃ r : Integer, power.apply (.integer b) (.integer e) = .ok (.integer r) ∧
        r.val = cutOff ((b.val : ℚ) ^ e.val) := by
  let minusOne : Integer := ⟨-1, by decide, by decide⟩
  let odd : Integer := ⟨-9007199254740991, by decide, by decide⟩
  have downward : odd.val < 0 := by decide
  obtain ⟨same, -, value⟩ := power_negative roughPower_laws (b := minusOne) downward
  obtain ⟨r, found, -, -, -, exact⟩ := value (by decide)
  refine ⟨roughPower_laws, minusOne, odd, rfl, rfl, downward, same, r, found, exact.2 ?_⟩
  decide

end BinaryOp

end Pseudocode
