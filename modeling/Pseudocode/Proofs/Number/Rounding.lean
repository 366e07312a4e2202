import Mathlib
import Pseudocode.Number.Conversion

/-!
# Integers as floats

A float has 53 binary digits. Integers of up to 53 digits are floats, and larger ones are
rounded to their first 53 digits, which makes them even. So a conversion keeps the sign of an
integer, it keeps small integers as they are, and it forgets whether a large integer was odd
(`Integer.toFloat_value`).

Floats are made by rounding and then packing the digits into a word. Here both are looked at for
the floats with all of their 53 digits (`Binary.Normal`), which are those that nonzero integers
are converted to.
-/

set_option autoImplicit false

namespace Pseudocode

open Float.Model Float.Model.UnpackedFloat

namespace Binary

variable {m : Nat} {e : Int}

/-! ## Binary digits -/

theorem log2_mul_two_pow (nonzero : m ≠ 0) (k : Nat) : (m * 2 ^ k).log2 = m.log2 + k := by
  have positive : m * 2 ^ k ≠ 0 := Nat.mul_ne_zero nonzero (Nat.two_pow_pos k).ne'
  rw [Nat.log2_eq_iff positive]
  constructor
  · rw [Nat.pow_add]
    exact Nat.mul_le_mul_right _ (Nat.log2_self_le nonzero)
  · rw [Nat.add_right_comm, Nat.pow_add]
    exact Nat.mul_lt_mul_of_pos_right Nat.lt_log2_self (Nat.two_pow_pos k)

/-- A word is split into its sign, its scale and its fraction. -/
theorem word_parts {sign scale fraction : Nat} (bit : sign < 2) (short : scale < 2048)
    (small : fraction < 2 ^ 52) :
    (sign * 2 ^ 63 + scale * 2 ^ 52 + fraction) / Nat.pow 2 63 % 2 = sign ∧
      (sign * 2 ^ 63 + scale * 2 ^ 52 + fraction) / Nat.pow 2 52 % 2048 = scale ∧
      (sign * 2 ^ 63 + scale * 2 ^ 52 + fraction) % Nat.pow 2 52 = fraction := by
  simp only [Nat.pow_eq]
  omega

/-- A mantissa with 53 binary digits and an exponent that fits. -/
structure Normal (mantissa : Nat) (exponent : Int) : Prop where
  least : 2 ^ 52 ≤ mantissa
  short : mantissa < 2 ^ 53
  low : -1074 ≤ exponent
  high : exponent ≤ 971

namespace Normal

theorem pos (normal : Normal m e) : 0 < m := Nat.lt_of_lt_of_le (by decide) normal.least

theorem log2_eq (normal : Normal m e) : m.log2 = 52 :=
  (Nat.log2_eq_iff normal.pos.ne').2 ⟨normal.least, normal.short⟩

/-! ## Packing -/

/-- The float with the given sign and digits. -/
def float (normal : Normal m e) (sign : Sign) : Float :=
  .ofModel (.pack (.finite sign m e normal.pos))

/-- The first digit is not stored. -/
theorem pack_eq (normal : Normal m e) (sign : Sign) :
    UnpackedFloat.pack .binary64 (.finite sign m e normal.pos) =
      packComponents .binary64 sign (BitVec.ofNat 11 (e + 1075).toNat) (BitVec.ofNat 52 m) := by
  have digits : m.log2 + 1 = 53 := by rw [normal.log2_eq]
  obtain ⟨_, _, low, high⟩ := normal
  have small : ¬ 2 ^ 11 ≤ (e + 1023 + 52).toNat + 1 := by omega
  have bias : e + 1023 + 52 = e + 1075 := by omega
  change (if 2 ^ 11 ≤ (e + 1023 + 52).toNat + 1 then _ else if m.log2 + 1 = 53 then
      packComponents .binary64 sign (BitVec.ofNat 11 (e + 1023 + 52).toNat) (BitVec.ofNat 52 m)
    else _) = _
  rw [if_neg small, if_pos digits, bias]

theorem toNat_scale (normal : Normal m e) :
    (BitVec.ofNat 11 (e + 1075).toNat).toNat = (e + 1075).toNat := by
  obtain ⟨_, _, low, high⟩ := normal
  rw [BitVec.toNat_ofNat]
  omega

theorem toNat_fraction (normal : Normal m e) : (BitVec.ofNat 52 m).toNat = m - 2 ^ 52 := by
  obtain ⟨least, short, _, _⟩ := normal
  rw [BitVec.toNat_ofNat]
  omega

theorem toNat_toBits (normal : Normal m e) (sign : Sign) :
    (normal.float sign).toBits.toNat =
      sign.toBitVec.toNat * 2 ^ 63 + (e + 1075).toNat * 2 ^ 52 + (m - 2 ^ 52) := by
  change (UnpackedFloat.pack .binary64 (.finite sign m e normal.pos)).toNat = _
  rw [normal.pack_eq, packComponents, BitVec.toNat_append,
    ← Nat.shiftLeft_add_eq_or_of_lt (BitVec.isLt _), BitVec.toNat_append,
    ← Nat.shiftLeft_add_eq_or_of_lt (BitVec.isLt _), normal.toNat_scale, normal.toNat_fraction,
    Nat.shiftLeft_eq, Nat.shiftLeft_eq]
  omega

/-- The digits are found again in the word. -/
theorem ofFloat_float (normal : Normal m e) (sign : Sign) :
    ofFloat (normal.float sign) = .finite (sign == .negative) m e := by
  have bits := normal.toNat_toBits sign
  have negative : (sign.toBitVec.toNat == 1) = (sign == .negative) := by cases sign <;> rfl
  obtain ⟨least, short, low, high⟩ := normal
  obtain ⟨top, scale, fraction⟩ := word_parts sign.toBitVec.isLt
    (by omega : (e + 1075).toNat < 2048) (by omega : m - 2 ^ 52 < 2 ^ 52)
  have mantissa : m - 2 ^ 52 + Nat.pow 2 52 = m := Nat.sub_add_cancel least
  have exponent : ((e + 1075).toNat : Int) - 1075 = e := by omega
  rw [ofFloat, bits, top, scale, fraction, mantissa, exponent, negative, if_neg (by omega),
    if_neg (by omega)]

theorem unpack_float (normal : Normal m e) (sign : Sign) :
    (normal.float sign).toModel.unpack = .finite sign m e normal.pos := by
  have scale := normal.toNat_scale
  have mantissa : (1#1 ++ BitVec.ofNat 52 m).toNat = m := by
    rw [BitVec.toNat_append, ← Nat.shiftLeft_add_eq_or_of_lt (BitVec.isLt _),
      normal.toNat_fraction]
    have least := normal.least
    change 1 <<< 52 + _ = _
    omega
  have packed := normal.pack_eq sign
  obtain ⟨_, _, low, high⟩ := normal
  have notLargest : BitVec.ofNat 11 (e + 1075).toNat ≠ -1#11 := by
    intro largest
    have is : (e + 1075).toNat = 2047 := scale.symm.trans (congrArg BitVec.toNat largest)
    omega
  have notLeast : BitVec.ofNat 11 (e + 1075).toNat ≠ 0#11 := by
    intro least
    have is : (e + 1075).toNat = 0 := scale.symm.trans (congrArg BitVec.toNat least)
    omega
  have exponent : ((e + 1075).toNat : Int) - (1023 + 52) = e := by omega
  change UnpackedFloat.unpack .binary64 (UnpackedFloat.pack .binary64 _) = _
  rw [packed, UnpackedFloat.unpack]
  simp only [unpackMantissa_packComponents, unpackExponent_packComponents,
    unpackSign_packComponents]
  rw [if_neg notLargest, if_neg notLeast]
  simp only [scale, mantissa, Sign.ofBitVec_toBitVec]
  congr 1

theorem neg_float (normal : Normal m e) :
    Float.neg (normal.float .positive) = normal.float .negative := by
  change Float.ofModel (.pack (normal.float .positive).toModel.unpack.neg) = _
  rw [normal.unpack_float]
  rfl

end Normal

/-! ## Rounding -/

theorem mantissa_shiftRight (extended : ExtendedMantissa) (n : Nat) :
    (extended >>> n).mantissa = extended.mantissa / 2 ^ n := by
  change (n.repeat ExtendedMantissa.shiftRightOne extended).mantissa = _
  induction n with
  | zero => simp [Nat.repeat]
  | succ n ih =>
      rw [Nat.repeat, ExtendedMantissa.shiftRightOne, ih, Nat.div_div_eq_div_mul, Nat.pow_succ]

/-- If only zeros are cut off, nothing is lost. -/
theorem shiftRight_of_dvd {n : Nat} (divides : 2 ^ n ∣ m) :
    ExtendedMantissa.mk m false false >>> n = ⟨m / 2 ^ n, false, false⟩ := by
  change n.repeat ExtendedMantissa.shiftRightOne ⟨m, false, false⟩ = _
  induction n with
  | zero => simp [Nat.repeat]
  | succ n ih =>
      have fewer : 2 ^ n ∣ m := Nat.dvd_trans (Nat.pow_dvd_pow 2 (Nat.le_succ n)) divides
      have even : m / 2 ^ n % 2 = 0 := by
        obtain ⟨k, rfl⟩ := divides
        rw [Nat.pow_succ, Nat.mul_assoc, Nat.mul_div_cancel_left _ (Nat.two_pow_pos n)]
        exact Nat.mul_mod_right 2 k
      rw [Nat.repeat, ih fewer, ExtendedMantissa.shiftRightOne, even, Nat.div_div_eq_div_mul,
        Nat.pow_succ]
      rfl

theorem roundedMantissa_near (extended : ExtendedMantissa) :
    extended.roundedMantissa = extended.mantissa ∨
      extended.roundedMantissa = extended.mantissa + 1 := by
  obtain ⟨m, round, sticky⟩ := extended
  cases round with
  | false => cases sticky <;> exact .inl rfl
  | true =>
      cases sticky with
      | false =>
          -- Halfway between two numbers the even one is taken.
          change m + m % 2 = m ∨ m + m % 2 = m + 1
          omega
      | true => exact .inr rfl

/-- The first 53 digits of a number, rounded. -/
def leading (m : Nat) : Nat :=
  (ExtendedMantissa.mk m false false >>> (m.log2 - 52)).roundedMantissa

theorem leading_of_dvd (divides : 2 ^ (m.log2 - 52) ∣ m) :
    leading m = m / 2 ^ (m.log2 - 52) := by
  rw [leading, shiftRight_of_dvd divides]
  rfl

/-- They are 53 digits, unless rounding up gives one more. -/
theorem leading_bounds (long : 52 ≤ m.log2) : 2 ^ 52 ≤ leading m ∧ leading m ≤ 2 ^ 53 := by
  have nonzero : m ≠ 0 := by
    rintro rfl
    simp at long
  have least : 2 ^ 52 ≤ m / 2 ^ (m.log2 - 52) := by
    rw [Nat.le_div_iff_mul_le (Nat.two_pow_pos _), ← Nat.pow_add, Nat.add_sub_cancel' long]
    exact Nat.log2_self_le nonzero
  have short : m / 2 ^ (m.log2 - 52) < 2 ^ 53 := by
    rw [Nat.div_lt_iff_lt_mul (Nat.two_pow_pos _), ← Nat.pow_add,
      show 53 + (m.log2 - 52) = m.log2 + 1 by omega]
    exact Nat.lt_log2_self
  have near := roundedMantissa_near (ExtendedMantissa.mk m false false >>> (m.log2 - 52))
  simp only [mantissa_shiftRight] at near
  rw [leading]
  omega

/-- In that case the digits are shifted once more, and again nothing is lost. -/
theorem exists_carry {digits : Nat} (least : 2 ^ 52 ≤ digits) (most : digits ≤ 2 ^ 53) :
    ∃ mantissa carry, digits.log2 = 52 + carry ∧ digits / 2 ^ carry = mantissa ∧
      mantissa * 2 ^ carry = digits ∧ carry ≤ 1 ∧ 2 ^ 52 ≤ mantissa ∧ mantissa < 2 ^ 53 := by
  by_cases short : digits < 2 ^ 53
  · have log : digits.log2 = 52 := (Nat.log2_eq_iff (by omega)).2 ⟨least, short⟩
    exact ⟨digits, 0, log, by simp, by simp, by simp, least, short⟩
  · obtain rfl : digits = 2 ^ 53 := by omega
    exact ⟨2 ^ 52, 1, Nat.log2_two_pow, by simp⟩

/-- All digits but the first 53 are cut off. -/
theorem shiftToTargetExponent_eq (long : 52 ≤ m.log2) (low : -1074 ≤ e) :
    shiftToTargetExponent .binary64 m e .exact =
      (ExtendedMantissa.mk m false false >>> (m.log2 - 52), e + (m.log2 - 52 : Nat)) := by
  have target : Format.binary64.targetExponent (totalExponent m e) = e + (m.log2 - 52 : Nat) := by
    change max ((m.log2 : Int) + 1 + e - 53) (-1074) = _
    omega
  have shift : (e + (m.log2 - 52 : Nat) - e).toNat = m.log2 - 52 := by omega
  rw [shiftToTargetExponent, target, shiftToExponent, shift]
  rfl

/-- A number of at least 53 digits is rounded to its leading ones. -/
theorem roundWithAccuracy_eq (sign : Sign) (long : 52 ≤ m.log2) (low : -1074 ≤ e) :
    ∃ mantissa carry pos, roundWithAccuracy .binary64 sign m e .exact =
        .finite sign mantissa (e + (m.log2 - 52 : Nat) + (carry : Nat)) pos ∧
      2 ^ 52 ≤ mantissa ∧ mantissa < 2 ^ 53 ∧ carry ≤ 1 ∧ mantissa * 2 ^ carry = leading m := by
  obtain ⟨least, most⟩ := leading_bounds long
  obtain ⟨mantissa, carry, log, quotient, product, small, least, short⟩ := exists_carry least most
  have nonzero : mantissa ≠ 0 := by omega
  have first : (ExtendedMantissa.mk m false false >>> (m.log2 - 52)).roundedMantissa = leading m :=
    rfl
  have second := shiftToTargetExponent_eq (by omega : 52 ≤ (leading m).log2)
    (by omega : -1074 ≤ e + (m.log2 - 52 : Nat))
  have shift : (leading m).log2 - 52 = carry := by omega
  refine ⟨mantissa, carry, Nat.pos_of_ne_zero nonzero, ?_, least, short, small, product⟩
  rw [roundWithAccuracy, shiftToTargetExponent_eq long low]
  simp only [first, second, mantissa_shiftRight, shift, quotient, dif_neg nonzero]

/-- A number that has only zeros after its first 53 digits stays as it is. -/
theorem Normal.roundWithAccuracy_eq (normal : Normal m e) (sign : Sign) (zeros : Nat)
    (low : -1074 ≤ e - zeros) :
    roundWithAccuracy .binary64 sign (m * 2 ^ zeros) (e - zeros) .exact =
      .finite sign m e normal.pos := by
  have log : (m * 2 ^ zeros).log2 = 52 + zeros := by
    rw [log2_mul_two_pow normal.pos.ne', normal.log2_eq]
  have shift : (m * 2 ^ zeros).log2 - 52 = zeros := by omega
  have cut : leading (m * 2 ^ zeros) = m := by
    have divides : 2 ^ ((m * 2 ^ zeros).log2 - 52) ∣ m * 2 ^ zeros := by
      rw [shift]
      exact Nat.dvd_mul_left ..
    rw [leading_of_dvd divides, shift, Nat.mul_div_cancel _ (Nat.two_pow_pos _)]
  obtain ⟨mantissa, carry, _, rounded, least, _, small, product⟩ :=
    Binary.roundWithAccuracy_eq sign (by omega : 52 ≤ (m * 2 ^ zeros).log2) low
  have short := normal.short
  obtain rfl | rfl : carry = 0 ∨ carry = 1 := by omega
  · obtain rfl : mantissa = m := by simpa [cut] using product
    rw [rounded, shift]
    simp
  · omega

/-! ## Natural numbers -/

theorem Normal.float_mul_one (normal : Normal m e) (low : -1022 ≤ e) (sign : Sign) :
    normal.float sign * Float.ofBits 0x3FF0000000000000 = normal.float sign := by
  have one : (Float.ofBits 0x3FF0000000000000).toModel.unpack =
      .finite .positive (2 ^ 52) (-52) (Nat.two_pow_pos 52) := rfl
  have same : sign * .positive = sign := by cases sign <;> rfl
  have rounded := normal.roundWithAccuracy_eq sign 52 (by omega)
  change Float.ofModel (.pack (UnpackedFloat.mul .binary64 (normal.float sign).toModel.unpack _)) =
    _
  rw [normal.unpack_float, one, UnpackedFloat.mul, same]
  exact congrArg (fun unpacked => Float.ofModel (.pack unpacked)) rounded

/-- A number of up to 53 digits gets all of them from zeros behind the point. -/
theorem normal_of_log2 {n k : Nat} (positive : 0 < n) (rest : n.log2 + k = 52) :
    Normal (n * 2 ^ k) (-k) := by
  have nonzero : n * 2 ^ k ≠ 0 := (Nat.mul_pos positive (Nat.two_pow_pos k)).ne'
  have digits : (n * 2 ^ k).log2 = 52 := by rw [log2_mul_two_pow positive.ne', rest]
  obtain ⟨least, short⟩ := (Nat.log2_eq_iff nonzero).1 digits
  exact ⟨least, short, by omega, by omega⟩

theorem toFloat_toUInt64 {n k : Nat} (positive : 0 < n) (small : n < 2 ^ 53)
    (rest : n.log2 + k = 52) :
    n.toUInt64.toFloat = (normal_of_log2 positive rest).float .positive := by
  have same : n.toUInt64.toNat = n := Nat.mod_eq_of_lt (by omega)
  have above : compare (n : Int) 0 = .gt := Int.compare_eq_gt.2 (by omega)
  have target : Format.binary64.targetExponent (totalExponent n 0) = -k := by
    change max ((n.log2 : Int) + 1 + 0 - 53) (-1074) = _
    omega
  have shift : (- -(k : Int)).toNat = k := by omega
  have rounded := (normal_of_log2 positive rest).roundWithAccuracy_eq .positive 0 (by omega)
  rw [Nat.pow_zero, Nat.mul_one, Int.ofNat_zero, Int.sub_zero] at rounded
  change Float.ofModel (.pack (UnpackedFloat.normalize .binary64 (n.toUInt64.toNat : Int) 0
    .positive)) = _
  rw [same, UnpackedFloat.normalize, above]
  simp only [Int.toNat_natCast, UnpackedFloat.round, target, decreaseExponent, Int.zero_sub,
    shift, Nat.shiftLeft_eq]
  exact congrArg (fun unpacked => Float.ofModel (.pack unpacked)) rounded

/-- Numbers of up to 53 digits are converted exactly. -/
theorem ofNat_small {n : Nat} (positive : 0 < n) (small : n < 2 ^ 53) :
    ∃ k : Nat, ∃ normal : Normal (n * 2 ^ k) (-k), Float.ofNat n = normal.float .positive := by
  have log : n.log2 < 53 := (Nat.log2_lt positive.ne').2 small
  obtain ⟨k, rest⟩ : ∃ k, n.log2 + k = 52 := ⟨52 - n.log2, by omega⟩
  have fast : Float.ofNat n = n.toUInt64.toFloat * Float.ofBits 0x3FF0000000000000 := by
    change Float.ofScientific n false 0 = _
    rw [Float.ofScientific, dif_pos ⟨small, Nat.zero_le 22⟩]
    rfl
  refine ⟨k, normal_of_log2 positive rest, ?_⟩
  rw [fast, toFloat_toUInt64 positive small rest, Normal.float_mul_one _ (by omega)]

/-- Of larger numbers only the exponent is known, and that is enough to see that what they are
converted to is even. -/
theorem ofNat_large {n : Nat} (large : 2 ^ 53 ≤ n) (fits : n < 2 ^ 64) :
    ∃ m, ∃ k : Nat, ∃ normal : Normal m k, 1 ≤ k ∧ Float.ofNat n = normal.float .positive := by
  have nonzero : n ≠ 0 := by omega
  have log : 53 ≤ n.log2 := (Nat.le_log2 nonzero).2 large
  have most : n.log2 < 64 := (Nat.log2_lt nonzero).2 fits
  have longer : (n * 2 ^ 53).log2 = n.log2 + 53 := log2_mul_two_pow nonzero 53
  have slow : Float.ofNat n =
      .ofModel (.pack (roundWithAccuracy .binary64 .positive (n * 2 ^ 53) (-53) .exact)) := by
    have atLeast : ¬ (0 : Int) < -(2 ^ 11 + n.log2) := by omega
    change Float.ofScientific n false 0 = _
    rw [Float.ofScientific, dif_neg (by omega)]
    change Float.ofModel (.pack (UnpackedFloat.ofScientific .binary64 n 0)) = _
    rw [UnpackedFloat.ofScientific, dif_neg nonzero, if_neg (by decide), if_neg atLeast,
      if_pos (Int.le_refl 0), ← Nat.shiftLeft_eq, ← Nat.mul_one (n <<< 53)]
    rfl
  obtain ⟨m, carry, pos, rounded, least, short, small, -⟩ :=
    roundWithAccuracy_eq .positive (by omega : 52 ≤ (n * 2 ^ 53).log2) (by decide : -1074 ≤ -53)
  have exponent : (-53 : Int) + ((n * 2 ^ 53).log2 - 52 : Nat) + carry =
      (n.log2 - 52 + carry : Nat) := by
    omega
  refine ⟨m, n.log2 - 52 + carry, ⟨least, short, by omega, by omega⟩, by omega, ?_⟩
  rw [slow, rounded]
  simp only [exponent, Normal.float]

/-! ## The values of floats -/

/-- The number that a binary fraction stands for, if it is finite. -/
def value? : Binary → Option ℚ
  | finite negative mantissa exponent =>
    some (if negative then -(mantissa * 2 ^ exponent) else mantissa * 2 ^ exponent)
  | _ => none

/-- The number that a float stands for, if it is finite. -/
def floatValue? (x : Float) : Option ℚ := (ofFloat x).value?

theorem Normal.value_positive (normal : Normal m e) :
    floatValue? (normal.float .positive) = some (m * 2 ^ e : ℚ) := by
  rw [floatValue?, normal.ofFloat_float]
  rfl

theorem Normal.value_negative (normal : Normal m e) :
    floatValue? (normal.float .negative) = some (-(m * 2 ^ e) : ℚ) := by
  rw [floatValue?, normal.ofFloat_float]
  rfl

end Binary

/-- What rounding to 53 binary digits keeps of an integer. -/
structure Rounded (n value : Int) : Prop where
  sign : value.sign = n.sign
  exact : n.natAbs < 2 ^ 53 → value = n
  even : 2 ^ 53 ≤ n.natAbs → 2 ∣ value
  large : 2 ^ 53 ≤ n.natAbs → 2 ^ 53 ≤ value.natAbs

namespace Rounded

variable {n value : Int}

theorem neg (rounded : Rounded n value) : Rounded (-n) (-value) where
  sign := by rw [Int.sign_neg, Int.sign_neg, rounded.sign]
  exact small := by rw [rounded.exact (by rwa [Int.natAbs_neg] at small)]
  even large := Int.dvd_neg.2 (rounded.even (by rwa [Int.natAbs_neg] at large))
  large large := by
    rw [Int.natAbs_neg] at large ⊢
    exact rounded.large large

theorem natAbs_ge_two (rounded : Rounded n value) (large : 2 ≤ n.natAbs) : 2 ≤ value.natAbs := by
  by_cases small : n.natAbs < 2 ^ 53
  · rwa [rounded.exact small]
  · have := rounded.large (Nat.not_lt.1 small)
    omega

theorem neg_of_neg (rounded : Rounded n value) (negative : n < 0) : value ≤ -1 := by
  have sign := rounded.sign
  rw [Int.sign_eq_neg_one_of_neg negative, Int.sign_eq_neg_one_iff_neg] at sign
  omega

/-- The parity is that of a number of up to 53 digits, and even otherwise. -/
theorem odd_iff (rounded : Rounded n value) :
    value % 2 ≠ 0 ↔ n % 2 ≠ 0 ∧ n.natAbs < 2 ^ 53 := by
  by_cases small : n.natAbs < 2 ^ 53
  · rw [rounded.exact small]
    exact ⟨fun odd => ⟨odd, small⟩, fun both => both.1⟩
  · have even := rounded.even (Nat.not_lt.1 small)
    omega

end Rounded

theorem ofNat_value {n : Nat} (positive : 0 < n) (fits : n < 2 ^ 64) :
    ∃ m e, ∃ normal : Binary.Normal m e, ∃ value : Nat, Float.ofNat n = normal.float .positive ∧
      (m * 2 ^ e : ℚ) = value ∧ Rounded n value := by
  by_cases small : n < 2 ^ 53
  · obtain ⟨k, normal, converted⟩ := Binary.ofNat_small positive small
    have value : (((n * 2 ^ k : Nat) : ℚ) * 2 ^ (-k : Int)) = n := by
      rw [zpow_neg, zpow_natCast, Nat.cast_mul, Nat.cast_pow, Nat.cast_ofNat]
      exact mul_inv_cancel_right₀ (pow_ne_zero k two_ne_zero) _
    exact ⟨_, _, normal, n, converted, value, rfl, fun _ => rfl, by omega, by omega⟩
  · obtain ⟨m, k, normal, one, converted⟩ := Binary.ofNat_large (Nat.not_lt.1 small) fits
    have value : (m * 2 ^ (k : Int) : ℚ) = (m * 2 ^ k : Nat) := by
      rw [zpow_natCast, Nat.cast_mul, Nat.cast_pow, Nat.cast_ofNat]
    have even : 2 ∣ m * 2 ^ k := Dvd.dvd.mul_left (dvd_pow_self 2 (by omega)) m
    have large : 2 ^ 52 * 2 ^ 1 ≤ m * 2 ^ k :=
      Nat.mul_le_mul normal.least (Nat.pow_le_pow_right (by decide) one)
    refine ⟨m, k, normal, m * 2 ^ k, converted, value, ?_, by omega, fun _ => by omega, by omega⟩
    rw [Int.sign_eq_one_of_pos (by omega), Int.sign_eq_one_of_pos (by omega)]

theorem Integer.zero_value : Binary.floatValue? zero.toFloat = some 0 := by
  have digits : Binary.ofFloat zero.toFloat = .finite false 0 (-1074) := by decide +kernel
  rw [Binary.floatValue?, digits]
  simp [Binary.value?]

/-- **Conversion keeps the sign of an integer, and its parity up to 53 digits.** -/
theorem Integer.toFloat_value (a : Integer) :
    ∃ value : Int, Binary.floatValue? a.toFloat = some (value : ℚ) ∧ Rounded a.val value := by
  by_cases isZero : a.val = 0
  · obtain rfl : a = zero := Integer.ext isZero
    exact ⟨0, zero_value, rfl, fun _ => rfl, fun _ => Int.dvd_zero 2, id⟩
  · obtain ⟨n, least, greatest⟩ := a
    simp only [toFloat] at isZero ⊢
    obtain ⟨k, rfl | rfl⟩ := n.eq_nat_or_neg
    · obtain ⟨m, e, normal, value, converted, same, rounded⟩ :=
        ofNat_value (by omega : 0 < k) (by omega)
      refine ⟨value, ?_, rounded⟩
      change Binary.floatValue? (Float.ofNat k) = _
      rw [converted, normal.value_positive, same, Int.cast_natCast]
    · obtain ⟨m, e, normal, value, converted, same, rounded⟩ :=
        ofNat_value (by omega : 0 < k) (by omega)
      obtain ⟨k, rfl⟩ : ∃ j, k = j + 1 := ⟨k - 1, by omega⟩
      refine ⟨-value, ?_, rounded.neg⟩
      change Binary.floatValue? (Float.neg (Float.ofNat (k + 1))) = _
      rw [converted, normal.neg_float, normal.value_negative, same, Int.cast_neg,
        Int.cast_natCast]

theorem Integer.toFloat_of_small {a : Integer} (small : a.val.natAbs < 2 ^ 53) :
    Binary.floatValue? a.toFloat = some (a.val : ℚ) := by
  obtain ⟨value, found, rounded⟩ := a.toFloat_value
  rw [found, rounded.exact small]

end Pseudocode
