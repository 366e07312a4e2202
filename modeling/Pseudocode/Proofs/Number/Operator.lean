import Pseudocode.Proofs.Typing.Evaluation

/-!
# Exact operators

Integers are bounded, but the operators compute with them as if they were not: the result is
the exact one or there is none. `UnaryOp.exactValue?` and `BinaryOp.exactValue?` are the
operators on numbers without bounds. What is computed is exact
(`BinaryOp.exactValue?_of_apply`), and what is exact and an integer is computed
(`BinaryOp.apply_of_exactValue?`).

There are a few exceptions at the edge. A power with a negative exponent is cut off to a whole
number. An exponent has to be below `2^32`, also for the bases -1, 0 and 1. And the remainder
of the least integer and -1, which is zero, is not computed, because the quotient would be too
large: quotients and remainders exist for the same operands (`BinaryOp.divide_modulo`).
-/

set_option autoImplicit false

namespace Pseudocode

/-! ## Powers, quotients and remainders -/

namespace Integer

variable {a b : Integer}

/-- The powers of all bases but -1, 0 and 1 leave the range. -/
theorem not_fits_pow {base : Int} (large : 2 ≤ base.natAbs) {exponent : Nat}
    (many : 64 ≤ exponent) : ¬ Fits (base.pow exponent) := by
  have most : Nat.pow 2 64 ≤ (base.pow exponent).natAbs := by
    calc Nat.pow 2 64 ≤ Nat.pow 2 exponent := Nat.pow_le_pow_right (by decide) many
      _ ≤ base.natAbs.pow exponent := Nat.pow_le_pow_left large exponent
      _ = (base.pow exponent).natAbs := (Int.natAbs_pow base exponent).symm
  have size : Nat.pow 2 64 = 18446744073709551616 := rfl
  rintro ⟨low, high⟩
  omega

/-- The powers of -1, 0 and 1 depend on the parity of the exponent only. -/
theorem pow_eq_of_parity {base : Int} (small : base.natAbs ≤ 1) {exponent : Nat}
    (many : 64 < exponent) : base.pow (64 + exponent % 2) = base.pow exponent := by
  by_cases zero : base = 0
  · subst zero
    exact (Int.zero_pow (by omega)).trans (Int.zero_pow (by omega)).symm
  · have square : base.pow 2 = 1 := by
      obtain rfl | rfl : base = 1 ∨ base = -1 := by omega
      all_goals rfl
    have split : 2 * (exponent / 2 - 32) + (64 + exponent % 2) = exponent := by omega
    have squares : base.pow (2 * (exponent / 2 - 32)) = 1 := by
      calc base.pow (2 * (exponent / 2 - 32))
          = (base.pow 2).pow (exponent / 2 - 32) := Int.pow_mul
        _ = Int.pow 1 (exponent / 2 - 32) := by rw [square]
        _ = 1 := Int.one_pow
    calc base.pow (64 + exponent % 2)
        = base.pow (2 * (exponent / 2 - 32)) * base.pow (64 + exponent % 2) := by
          rw [squares, Int.one_mul]
      _ = base.pow (2 * (exponent / 2 - 32) + (64 + exponent % 2)) := (Int.pow_add ..).symm
      _ = base.pow exponent := by rw [split]

/-- The power is exact for every exponent. -/
theorem powNat?_eq (base : Integer) (exponent : Nat) :
    base.powNat? exponent = ofInt? (base.val.pow exponent) := by
  by_cases few : exponent ≤ 64
  · rw [powNat?, if_pos few]
  · rw [powNat?, if_neg few]
    by_cases small : base.val.natAbs ≤ 1
    · rw [pow_eq_of_parity small (by omega)]
    · have leaves : ∀ other : Nat, 64 ≤ other → ofInt? (base.val.pow other) = none := by
        intro other many
        exact ofInt?_eq_none_iff.2 (not_fits_pow (by omega) many)
      rw [leaves _ (by omega), leaves exponent (by omega)]

theorem pow?_eq {base exponent : Integer} (upward : 0 ≤ exponent.val) :
    base.pow? exponent =
      if exponent.val ≤ maxExponent then ofInt? (base.val.pow exponent.val.toNat) else none := by
  rw [pow?, if_neg (Int.not_lt.2 upward), toExponent?]
  by_cases small : exponent.val ≤ maxExponent
  · rw [if_pos ⟨upward, small⟩, if_pos small, Option.bind_some, powNat?_eq]
  · rw [if_neg fun both => small both.2, if_neg small, Option.bind_none]

/-- Only the least integer has a quotient that is too large. -/
theorem fits_tdiv_iff (nonzero : b.val ≠ 0) :
    Fits (a.val.tdiv b.val) ↔ ¬ (a.val = -9223372036854775808 ∧ b.val = -1) := by
  have least := a.least_le
  have greatest := a.le_greatest
  by_cases opposite : b.val = -1
  · rw [opposite, Int.tdiv_neg, Int.tdiv_one, Fits]
    omega
  · by_cases same : b.val = 1
    · rw [same, Int.tdiv_one, Fits]
      omega
    · have half : (a.val.tdiv b.val).natAbs ≤ a.val.natAbs / 2 := by
        rw [Int.natAbs_tdiv]
        exact Nat.div_le_div_left (by omega) (by decide)
      rw [Fits]
      omega

/-- A remainder is smaller than its divisor. -/
theorem fits_tmod (nonzero : b.val ≠ 0) : Fits (a.val.tmod b.val) := by
  have smaller : (a.val.tmod b.val).natAbs < b.val.natAbs := by
    rw [Int.natAbs_tmod]
    exact Nat.mod_lt _ (by omega)
  have least := b.least_le
  have greatest := b.le_greatest
  rw [Fits]
  omega

theorem quotient?_eq_none_iff (nonzero : b.val ≠ 0) :
    a.quotient? b = none ↔ a.val = -9223372036854775808 ∧ b.val = -1 := by
  rw [quotient?, ofInt?_eq_none_iff, fits_tdiv_iff nonzero]
  exact Decidable.not_not

/-- There is a remainder exactly where there is a quotient. -/
theorem remainder?_eq_none_iff (nonzero : b.val ≠ 0) :
    a.remainder? b = none ↔ a.quotient? b = none := by
  cases divides : a.quotient? b with
  | none => simp [remainder?, divides]
  | some quotient =>
      have fits : Fits (a.val.tmod b.val) := fits_tmod nonzero
      simp [remainder?, divides, ofInt?_eq_none_iff, fits]

theorem remainder?_eq_some_iff {remainder : Integer} :
    a.remainder? b = some remainder ↔
      a.quotient? b ≠ none ∧ remainder.val = a.val.tmod b.val := by
  cases divides : a.quotient? b with
  | none => simp [remainder?, divides]
  | some quotient => simp [remainder?, divides, ofInt?_eq_some_iff]

end Integer

namespace Operands

variable {operation : Integer → Integer → Option Integer} {a b n : Integer}

theorem divided_eq_ok_iff :
    divided operation a b = .ok n ↔ b.val ≠ 0 ∧ operation a b = some n := by
  by_cases zero : b.val = 0
  · simp [divided, zero]
  · rw [divided, if_neg zero, checked, demand_eq_ok]
    simp [zero]

/-- Division by zero is the error for the divisor zero only. -/
theorem divided_eq_divisionByZero_iff :
    divided operation a b = .error .divisionByZero ↔ b.val = 0 := by
  by_cases zero : b.val = 0
  · simp [divided, zero]
  · rw [divided, if_neg zero, checked, demand_eq_error]
    simp [zero]

theorem divided_eq_overflow_iff :
    divided operation a b = .error .overflow ↔ b.val ≠ 0 ∧ operation a b = none := by
  by_cases zero : b.val = 0
  · simp [divided, zero]
  · rw [divided, if_neg zero, checked, demand_eq_error]
    simp [zero]

/-- An operation that is undefined just where the quotient is overflows for one pair. -/
theorem divided_overflows_iff
    (undefined : b.val ≠ 0 → (operation a b = none ↔ a.quotient? b = none)) :
    divided operation a b = .error .overflow ↔ a.val = -9223372036854775808 ∧ b.val = -1 := by
  rw [divided_eq_overflow_iff]
  constructor
  · rintro ⟨nonzero, none⟩
    exact (Integer.quotient?_eq_none_iff nonzero).1 ((undefined nonzero).1 none)
  · intro extreme
    have nonzero : b.val ≠ 0 := by omega
    exact ⟨nonzero, (undefined nonzero).2 ((Integer.quotient?_eq_none_iff nonzero).2 extreme)⟩

end Operands

/-! ## Operators -/

/-- An integer as a value comes from that integer. -/
theorem map_integer_eq_ok {result : Except RuntimeError Integer} {r : Integer} :
    Value.integer <$> result = .ok (.integer r) ↔ result = .ok r := by
  rw [map_eq_ok]
  constructor
  · rintro ⟨n, computed, same⟩
    rwa [← Value.integer.inj same]
  · intro computed
    exact ⟨r, computed, rfl⟩

/-- The exact value of an operator on numbers without bounds. -/
def UnaryOp.exactValue? : UnaryOp → Int → Option Int
  | plus, n => some n
  | minus, n => some (-n)
  | not, _ => none

/-- The operators on integers that give integers. -/
def BinaryOp.integral : List BinaryOp := .modulo :: BinaryOp.numerical

/-- The exact value of an operator on numbers without bounds. Quotients are rounded toward
zero, and a remainder has the sign of the dividend. -/
def BinaryOp.exactValue? : BinaryOp → Int → Int → Option Int
  | add, a, b => some (a + b)
  | subtract, a, b => some (a - b)
  | multiply, a, b => some (a * b)
  | divide, a, b => if b = 0 then none else some (a.tdiv b)
  | modulo, a, b => if b = 0 then none else some (a.tmod b)
  | power, a, b => if b < 0 then none else some (a.pow b.toNat)
  | _, _, _ => none

/-- An operator gives an integer on an integer only, and it is the exact one. -/
theorem UnaryOp.exactValue?_of_apply {op : UnaryOp} {operand : Value} {r : Integer}
    (found : op.apply operand = .ok (.integer r)) :
    ∃ n, operand = .integer n ∧ op.exactValue? n.val = some r.val := by
  cases op with
  | not =>
      obtain ⟨_, _, isBoolean⟩ := bind_eq_ok.1 found
      cases isBoolean
  | plus => exact ⟨r, Except.ok.inj found, rfl⟩
  | minus =>
      cases operand with
      | integer n =>
          have computed := demand_eq_ok.1 (map_integer_eq_ok.1 found)
          have value := Integer.ofInt?_eq_some_iff.1 computed
          exact ⟨n, rfl, congrArg some value.symm⟩
      | _ => cases found

/-- The exact value is computed if it is an integer. -/
theorem UnaryOp.apply_of_exactValue? {op : UnaryOp} {a r : Integer}
    (exact : op.exactValue? a.val = some r.val) : op.apply (.integer a) = .ok (.integer r) := by
  cases op with
  | not => cases exact
  | plus =>
      obtain rfl : a = r := Integer.ext (Option.some.inj exact)
      rfl
  | minus =>
      have computed : a.neg? = some r := Integer.ofInt?_eq_some_iff.2 (Option.some.inj exact).symm
      exact map_integer_eq_ok.2 (demand_eq_ok.2 computed)

namespace BinaryOp

variable {op : BinaryOp}

/-- Only two integers can give an integer. -/
theorem integers_of_type? {left right : DataType} (typed : op.type? left right = some .integer) :
    left = .integer ∧ right = .integer := by
  refine Classical.byContradiction fun apart => ?_
  cases op with
  | add | subtract | multiply | divide | power =>
      obtain ⟨_, _, isFloat⟩ := DataType.arithmetic_eq_some_iff.1 typed
      rw [if_neg apart] at isFloat
      cases isFloat
  | modulo => simp [BinaryOp.type?, apart] at typed
  | _ => simp [BinaryOp.type?] at typed

theorem integers_of_apply {left right : Value} {r : Integer}
    (found : op.apply left right = .ok (.integer r)) :
    ∃ a b, left = .integer a ∧ right = .integer b := by
  obtain ⟨isLeft, isRight⟩ := integers_of_type? (op.apply_type found)
  cases left with
  | integer a =>
      cases right with
      | integer b => exact ⟨a, b, rfl, rfl⟩
      | _ => cases isRight
  | _ => cases isLeft

/-- If an operator gives an integer, it is the exact one. -/
theorem exactValue?_of_apply {a b r : Integer}
    (found : op.apply (.integer a) (.integer b) = .ok (.integer r))
    (upward : op = .power → 0 ≤ b.val) : op.exactValue? a.val b.val = some r.val := by
  cases op with
  | add | subtract | multiply =>
      have value := Integer.ofInt?_eq_some_iff.1 (demand_eq_ok.1 (map_integer_eq_ok.1 found))
      exact congrArg some value.symm
  | divide =>
      obtain ⟨nonzero, computed⟩ := Operands.divided_eq_ok_iff.1 (map_integer_eq_ok.1 found)
      have value := Integer.ofInt?_eq_some_iff.1 computed
      exact Option.ite_none_left_eq_some.2 ⟨nonzero, congrArg some value.symm⟩
  | modulo =>
      obtain ⟨nonzero, computed⟩ := Operands.divided_eq_ok_iff.1 (map_integer_eq_ok.1 found)
      obtain ⟨_, value⟩ := Integer.remainder?_eq_some_iff.1 computed
      exact Option.ite_none_left_eq_some.2 ⟨nonzero, congrArg some value.symm⟩
  | power =>
      have computed := demand_eq_ok.1 (map_integer_eq_ok.1 found)
      rw [Integer.pow?_eq (upward rfl)] at computed
      obtain ⟨_, inRange⟩ := Option.ite_none_right_eq_some.1 computed
      have value := Integer.ofInt?_eq_some_iff.1 inRange
      exact Option.ite_none_left_eq_some.2 ⟨Int.not_lt.2 (upward rfl), congrArg some value.symm⟩
  | _ => cases found

/-- The exact value is computed if it is an integer, but for the remainders of a division by
-1 and for large exponents. -/
theorem apply_of_exactValue? {a b r : Integer} (exact : op.exactValue? a.val b.val = some r.val)
    (apart : op = .modulo → b.val ≠ -1) (small : op = .power → b.val ≤ Integer.maxExponent) :
    op.apply (.integer a) (.integer b) = .ok (.integer r) := by
  cases op with
  | add | subtract | multiply =>
      have computed := Integer.ofInt?_eq_some_iff.2 (Option.some.inj exact).symm
      exact map_integer_eq_ok.2 (demand_eq_ok.2 computed)
  | divide =>
      obtain ⟨nonzero, value⟩ := Option.ite_none_left_eq_some.1 exact
      have computed := Integer.ofInt?_eq_some_iff.2 (Option.some.inj value).symm
      exact map_integer_eq_ok.2 (Operands.divided_eq_ok_iff.2 ⟨nonzero, computed⟩)
  | modulo =>
      obtain ⟨nonzero, value⟩ := Option.ite_none_left_eq_some.1 exact
      have divides : a.quotient? b ≠ none := by
        rw [Ne, Integer.quotient?_eq_none_iff nonzero]
        exact fun least => apart rfl least.2
      have computed := Integer.remainder?_eq_some_iff.2 ⟨divides, (Option.some.inj value).symm⟩
      exact map_integer_eq_ok.2 (Operands.divided_eq_ok_iff.2 ⟨nonzero, computed⟩)
  | power =>
      obtain ⟨upward, value⟩ := Option.ite_none_left_eq_some.1 exact
      have computed : a.pow? b = some r := by
        rw [Integer.pow?_eq (Int.not_lt.1 upward), if_pos (small rfl)]
        exact Integer.ofInt?_eq_some_iff.2 (Option.some.inj value).symm
      exact map_integer_eq_ok.2 (demand_eq_ok.2 computed)
  | _ => cases exact

/-- The operators that divide. -/
def divisions : List BinaryOp := [.divide, .modulo]

/-- An operator on integers has an exact value, unless it divides by zero or takes a power with
a negative exponent. -/
theorem exists_exactValue? {a b : Int} (integral : op ∈ BinaryOp.integral)
    (nonzero : op ∈ divisions → b ≠ 0) (upward : op = .power → 0 ≤ b) :
    ∃ n, op.exactValue? a b = some n := by
  simp only [BinaryOp.integral, numerical, List.mem_cons, List.not_mem_nil, or_false] at integral
  rcases integral with rfl | rfl | rfl | rfl | rfl | rfl
  · exact ⟨_, if_neg (nonzero (by simp [divisions]))⟩
  · exact ⟨_, rfl⟩
  · exact ⟨_, rfl⟩
  · exact ⟨_, rfl⟩
  · exact ⟨_, if_neg (nonzero (by simp [divisions]))⟩
  · exact ⟨_, if_neg (Int.not_lt.2 (upward rfl))⟩

/-- An operator that divides fails for the divisor zero, and for the one pair with a quotient
that is too large. -/
theorem division_error (isDivision : op ∈ divisions) (a b : Integer) :
    (op.apply (.integer a) (.integer b) = .error .divisionByZero ↔ b.val = 0) ∧
      (op.apply (.integer a) (.integer b) = .error .overflow ↔
        a.val = -9223372036854775808 ∧ b.val = -1) := by
  simp only [divisions, List.mem_cons, List.not_mem_nil, or_false] at isDivision
  rcases isDivision with rfl | rfl
  · exact ⟨map_eq_error.trans Operands.divided_eq_divisionByZero_iff,
      map_eq_error.trans (Operands.divided_overflows_iff fun _ => Iff.rfl)⟩
  · exact ⟨map_eq_error.trans Operands.divided_eq_divisionByZero_iff,
      map_eq_error.trans (Operands.divided_overflows_iff Integer.remainder?_eq_none_iff)⟩

/-- Both of them fail on the same pairs, with the same error. From the quotient and the
remainder of all others the dividend is found again. -/
theorem divide_modulo (a b : Integer) :
    (∃ error, divide.apply (.integer a) (.integer b) = .error error ∧
        modulo.apply (.integer a) (.integer b) = .error error) ∨
      ∃ quotient remainder : Integer,
        divide.apply (.integer a) (.integer b) = .ok (.integer quotient) ∧
        modulo.apply (.integer a) (.integer b) = .ok (.integer remainder) ∧
        a.val = quotient.val * b.val + remainder.val := by
  by_cases zero : b.val = 0
  · have fails {operation : Integer → Integer → Option Integer} :
        Operands.divided operation a b = .error .divisionByZero :=
      Operands.divided_eq_divisionByZero_iff.2 zero
    exact .inl ⟨_, map_eq_error.2 fails, map_eq_error.2 fails⟩
  · cases divides : a.quotient? b with
    | none =>
        have undefined := (Integer.remainder?_eq_none_iff zero).2 divides
        exact .inl ⟨_, map_eq_error.2 (Operands.divided_eq_overflow_iff.2 ⟨zero, divides⟩),
          map_eq_error.2 (Operands.divided_eq_overflow_iff.2 ⟨zero, undefined⟩)⟩
    | some quotient =>
        cases leaves : a.remainder? b with
        | none =>
            have undefined := (Integer.remainder?_eq_none_iff zero).1 leaves
            rw [divides] at undefined
            cases undefined
        | some remainder =>
            refine .inr ⟨quotient, remainder,
              map_integer_eq_ok.2 (Operands.divided_eq_ok_iff.2 ⟨zero, divides⟩),
              map_integer_eq_ok.2 (Operands.divided_eq_ok_iff.2 ⟨zero, leaves⟩), ?_⟩
            rw [Integer.ofInt?_eq_some_iff.1 divides, (Integer.remainder?_eq_some_iff.1 leaves).2,
              Int.tdiv_mul_add_tmod]

end BinaryOp

end Pseudocode
