import Pseudocode.Proofs.Number.Operator

/-!
# Exact expressions

`Expr.exactValue?` is the value of an expression of integers in arithmetic without bounds. Nothing
wraps around on the way to the value of an expression, so an integer that it is computed to is
the exact one, as long as no power with a negative exponent was cut off. Conversely an
expression of integers is computed if its exact value and those of all expressions in it are
integers (`Expr.eval_exact`).

The first statement is about all expressions. That an expression is computed to an integer
already shows that it is made of integers, since the operators on integers give integers for
nothing else.
-/

set_option autoImplicit false

namespace Pseudocode

/-- The number that was read, if it is one. -/
def number? : Except RuntimeError Value → Option Int
  | .ok (.integer n) => some n.val
  | _ => none

namespace Expr

/-- The exact value of an expression, computed without bounds. Positions are those of the
table. -/
def exactValue? (table : Table) : Expr → Option Int
  | literal (.integer n) => some n.val
  | literal _ => none
  | name n => number? (table.read n)
  | element n index => (index.exactValue? table).bind fun position =>
    (Integer.ofInt? position).bind fun position => number? (table.readAt n position)
  | unary op operand => (operand.exactValue? table).bind op.exactValue?
  | binary op left right =>
    (left.exactValue? table).bind fun a => (right.exactValue? table).bind (op.exactValue? a)

/-- Expressions of integers, variables and elements of arrays with operators on integers. -/
def isIntegral : Expr → Bool
  | literal (.integer _) => true
  | literal _ => false
  | name _ => true
  | element _ index => index.isIntegral
  | unary op operand => op ≠ .not && operand.isIntegral
  | binary op left right => op ∈ BinaryOp.integral && (left.isIntegral && right.isIntegral)

/-- No power in an expression has a negative exponent. -/
def PowersUp (table : Table) (expr : Expr) : Prop :=
  ∀ base exponent, binary .power base exponent ∈ expr.parts →
    ∀ n, exponent.eval table = .ok (.integer n) → 0 ≤ n.val

/-- Nothing in an expression leaves the bounds within which integers are computed. -/
structure Bounded (table : Table) (expr : Expr) : Prop where
  /-- Variables have values. -/
  assigned : ∀ n, name n ∈ expr.parts → ∃ value, table.read n = .ok (.integer value)
  /-- Positions are those of elements with values. -/
  inBounds : ∀ n index, element n index ∈ expr.parts →
    ∀ position : Integer, index.exactValue? table = some position.val →
      ∃ value, table.readAt n position = .ok (.integer value)
  /-- Exact values are in the range of integers. -/
  inRange : ∀ part ∈ expr.parts, ∀ n, part.exactValue? table = some n → Integer.Fits n
  /-- Nothing is divided by zero. -/
  nonzero : ∀ op ∈ BinaryOp.divisions, ∀ left right, binary op left right ∈ expr.parts →
    right.exactValue? table ≠ some 0
  /-- There are no remainders of a division by -1. -/
  apart : ∀ left right, binary .modulo left right ∈ expr.parts → right.exactValue? table ≠ some (-1)
  /-- Powers have exponents that they may have. -/
  exponents : ∀ base exponent, binary .power base exponent ∈ expr.parts →
    ∀ n, exponent.exactValue? table = some n → 0 ≤ n ∧ n ≤ 4294967295

variable {table : Table} {expr inner : Expr}

theorem PowersUp.mono (upward : expr.PowersUp table) (inside : inner.parts ⊆ expr.parts) :
    inner.PowersUp table :=
  fun base exponent isPart => upward base exponent (inside isPart)

theorem Bounded.mono (bounded : expr.Bounded table) (inside : inner.parts ⊆ expr.parts) :
    inner.Bounded table where
  assigned n isPart := bounded.assigned n (inside isPart)
  inBounds n index isPart := bounded.inBounds n index (inside isPart)
  inRange part isPart := bounded.inRange part (inside isPart)
  nonzero op isDivision left right isPart :=
    bounded.nonzero op isDivision left right (inside isPart)
  apart left right isPart := bounded.apart left right (inside isPart)
  exponents base exponent isPart := bounded.exponents base exponent (inside isPart)

theorem Bounded.exists_integer (bounded : expr.Bounded table) {n : Int}
    (exact : expr.exactValue? table = some n) : ∃ r : Integer, r.val = n := by
  obtain ⟨low, high⟩ := bounded.inRange expr (mem_parts expr) n exact
  exact ⟨⟨n, low, high⟩, rfl⟩

theorem eval_unary {operand : Expr} {value : Value} (evaluated : operand.eval table = .ok value)
    (op : UnaryOp) : (unary op operand).eval table = op.apply value := by
  rw [eval, evaluated]
  rfl

theorem eval_binary {left right : Expr} {a b : Value} (first : left.eval table = .ok a)
    (second : right.eval table = .ok b) (op : BinaryOp) :
    (binary op left right).eval table = op.apply a b := by
  rw [eval, first, second]
  rfl

theorem exactValue?_name {n : String} {value : Integer}
    (read : table.read n = .ok (.integer value)) :
    (name n).exactValue? table = some value.val := by
  rw [exactValue?, read]
  rfl

theorem exactValue?_element {n : String} {index : Expr} {position value : Integer}
    (exact : index.exactValue? table = some position.val)
    (read : table.readAt n position = .ok (.integer value)) :
    (element n index).exactValue? table = some value.val := by
  have inRange : Integer.ofInt? position.val = some position := Integer.ofInt?_eq_some_iff.2 rfl
  rw [exactValue?, exact, Option.bind_some, inRange, Option.bind_some, read]
  rfl

/-- An integer that an expression was computed to is its exact value. -/
theorem exactValue?_of_eval (upward : expr.PowersUp table) {r : Integer}
    (found : expr.eval table = .ok (.integer r)) : expr.exactValue? table = some r.val := by
  induction expr generalizing r with
  | literal l =>
      cases l with
      | integer n =>
          obtain rfl := Value.integer.inj (Except.ok.inj found)
          rfl
      | _ => cases found
  | name n => exact exactValue?_name found
  | element n index ih =>
      obtain ⟨value, indexed, rest⟩ := bind_eq_ok.1 found
      obtain ⟨position, isIndex, read⟩ := bind_eq_ok.1 rest
      obtain rfl : value = .integer position := by
        cases value with
        | integer i => exact congrArg Value.integer (Except.ok.inj isIndex)
        | _ => cases isIndex
      exact exactValue?_element (ih (upward.mono (parts_subset_element n index)) indexed) read
  | unary op operand ih =>
      obtain ⟨value, evaluated, applied⟩ := bind_eq_ok.1 found
      obtain ⟨n, rfl, exact⟩ := UnaryOp.exactValue?_of_apply applied
      rw [exactValue?, ih (upward.mono (parts_subset_unary op operand)) evaluated]
      exact exact
  | binary op left right ihLeft ihRight =>
      obtain ⟨first, evaluatedLeft, rest⟩ := bind_eq_ok.1 found
      obtain ⟨second, evaluatedRight, applied⟩ := bind_eq_ok.1 rest
      -- Nothing is known of the types in the table, but only integers lead to an integer.
      obtain ⟨a, b, rfl, rfl⟩ := BinaryOp.integers_of_apply applied
      rw [exactValue?, ihLeft (upward.mono (parts_subset_left op left right)) evaluatedLeft,
        ihRight (upward.mono (parts_subset_right op left right)) evaluatedRight]
      refine BinaryOp.exactValue?_of_apply applied ?_
      rintro rfl
      exact upward left right (mem_parts _) b evaluatedRight

/-- An expression of integers that stays within bounds is computed. -/
theorem eval_of_bounded (integral : expr.isIntegral = true) (bounded : expr.Bounded table) :
    ∃ r, expr.eval table = .ok (.integer r) ∧ expr.exactValue? table = some r.val := by
  -- An operator has an exact value first, and this one is computed because it is in range.
  induction expr with
  | literal l =>
      cases l with
      | integer n => exact ⟨n, rfl, rfl⟩
      | _ => cases integral
  | name n =>
      obtain ⟨value, read⟩ := bounded.assigned n (mem_parts _)
      exact ⟨value, read, exactValue?_name read⟩
  | element n index ih =>
      obtain ⟨position, indexed, exact⟩ :=
        ih integral (bounded.mono (parts_subset_element n index))
      obtain ⟨value, read⟩ := bounded.inBounds n index (mem_parts _) position exact
      refine ⟨value, ?_, exactValue?_element exact read⟩
      rw [eval, indexed]
      exact read
  | unary op operand ih =>
      obtain ⟨arithmetic, integral⟩ := Bool.and_eq_true_iff.1 integral
      obtain ⟨a, evaluated, exact⟩ := ih integral (bounded.mono (parts_subset_unary op operand))
      obtain ⟨n, applies⟩ : ∃ n, op.exactValue? a.val = some n := by
        cases op with
        | not => cases arithmetic
        | plus | minus => exact ⟨_, rfl⟩
      have whole : (unary op operand).exactValue? table = some n := by
        rw [exactValue?, exact]
        exact applies
      obtain ⟨r, rfl⟩ := bounded.exists_integer whole
      refine ⟨r, ?_, whole⟩
      rw [eval_unary evaluated, UnaryOp.apply_of_exactValue? applies]
  | binary op left right ihLeft ihRight =>
      obtain ⟨arithmetic, integral⟩ := Bool.and_eq_true_iff.1 integral
      obtain ⟨integralLeft, integralRight⟩ := Bool.and_eq_true_iff.1 integral
      obtain ⟨a, evaluatedLeft, exactLeft⟩ :=
        ihLeft integralLeft (bounded.mono (parts_subset_left op left right))
      obtain ⟨b, evaluatedRight, exactRight⟩ :=
        ihRight integralRight (bounded.mono (parts_subset_right op left right))
      have nonzero : op ∈ BinaryOp.divisions → b.val ≠ 0 := fun isDivision zero =>
        bounded.nonzero op isDivision left right (mem_parts _) (zero ▸ exactRight)
      have apart : op = .modulo → b.val ≠ -1 := by
        rintro rfl minusOne
        exact bounded.apart left right (mem_parts _) (minusOne ▸ exactRight)
      have exponents : op = .power → 0 ≤ b.val ∧ b.val ≤ Integer.maxExponent := by
        rintro rfl
        exact bounded.exponents left right (mem_parts _) b.val exactRight
      obtain ⟨n, applies⟩ := BinaryOp.exists_exactValue? (of_decide_eq_true arithmetic) nonzero
        fun isPower => (exponents isPower).1
      have whole : (binary op left right).exactValue? table = some n := by
        rw [exactValue?, exactLeft, exactRight]
        exact applies
      obtain ⟨r, rfl⟩ := bounded.exists_integer whole
      refine ⟨r, ?_, whole⟩
      rw [eval_binary evaluatedLeft evaluatedRight]
      exact BinaryOp.apply_of_exactValue? applies apart fun isPower => (exponents isPower).2

/-- **Arithmetic on integers is exact.** If an expression is computed to an integer and no
power in it has a negative exponent, this is its value in arithmetic without bounds. An
expression of integers is computed if nothing in it leaves the bounds. A division of integers
fails as one by zero just if the divisor is zero, and with an overflow just if the least integer
is divided by -1; it has both a quotient and a remainder or none of them, and the dividend is
the product of quotient and divisor plus the remainder. -/
theorem eval_exact (table : Table) (expr : Expr) :
    (expr.PowersUp table → ∀ r, expr.eval table = .ok (.integer r) →
        expr.exactValue? table = some r.val) ∧
      (expr.isIntegral = true → expr.Bounded table →
        ∃ r, expr.eval table = .ok (.integer r) ∧ expr.exactValue? table = some r.val) ∧
      ∀ (left right : Expr) (a b : Integer), left.eval table = .ok (.integer a) →
        right.eval table = .ok (.integer b) →
        (∀ op ∈ BinaryOp.divisions,
          ((binary op left right).eval table = .error .divisionByZero ↔ b.val = 0) ∧
          ((binary op left right).eval table = .error .overflow ↔
            a.val = -9223372036854775808 ∧ b.val = -1)) ∧
        ((∃ error, (binary .divide left right).eval table = .error error ∧
            (binary .modulo left right).eval table = .error error) ∨
          ∃ quotient remainder : Integer,
            (binary .divide left right).eval table = .ok (.integer quotient) ∧
            (binary .modulo left right).eval table = .ok (.integer remainder) ∧
            a.val = quotient.val * b.val + remainder.val) := by
  refine ⟨fun upward r found => exactValue?_of_eval upward found, eval_of_bounded, ?_⟩
  intro left right a b first second
  simp only [eval_binary first second]
  exact ⟨fun op isDivision => BinaryOp.division_error isDivision a b, BinaryOp.divide_modulo a b⟩

/-- The least integer, as a power of -2. -/
def least : Expr := .binary .power (.name "n") (.literal (.integer ⟨63, by decide, by decide⟩))

/-- One, as the first element of an array. -/
def firstElement : Expr := .element "a" (.literal (.integer .one))

/-- No step of dividing the one by the other leaves the bounds. -/
theorem least_bounded : (binary .divide least firstElement).Bounded Table.halfFull where
  assigned n isPart := by
    obtain rfl : n = "n" := by simpa [least, firstElement, parts] using isPart
    exact ⟨_, rfl⟩
  inBounds n index isPart position exact := by
    obtain ⟨rfl, rfl⟩ : n = "a" ∧ index = .literal (.integer .one) := by
      simpa [least, firstElement, parts] using isPart
    obtain rfl : position = .one := Integer.ext (Option.some.inj exact).symm
    exact ⟨_, rfl⟩
  inRange part isPart n exact := by
    have values : (binary .divide least firstElement).parts.map (exactValue? Table.halfFull) =
        [some (-9223372036854775808), some (-9223372036854775808), some (-2), some 63, some 1,
          some 1] := rfl
    have listed := List.mem_map.2 ⟨part, isPart, exact⟩
    simp only [values, List.mem_cons, Option.some.injEq, List.not_mem_nil, or_false] at listed
    rw [Integer.Fits]
    omega
  nonzero op isDivision left right isPart := by
    obtain ⟨-, -, rfl⟩ | ⟨-, -, rfl⟩ : op = .divide ∧ left = least ∧ right = firstElement ∨
        op = .power ∧ left = .name "n" ∧
          right = .literal (.integer ⟨63, by decide, by decide⟩) := by
      simpa [least, firstElement, parts] using isPart
    all_goals decide
  apart left right isPart := by simp [least, firstElement, parts] at isPart
  exponents base exponent isPart n exact := by
    obtain ⟨-, rfl⟩ : base = .name "n" ∧
        exponent = .literal (.integer ⟨63, by decide, by decide⟩) := by
      simpa [least, firstElement, parts] using isPart
    obtain rfl := Option.some.inj exact
    decide

theorem least_powersUp : (binary .divide least firstElement).PowersUp Table.halfFull := by
  intro base exponent isPart n found
  obtain ⟨-, rfl⟩ : base = .name "n" ∧
      exponent = .literal (.integer ⟨63, by decide, by decide⟩) := by
    simpa [least, firstElement, parts] using isPart
  obtain rfl := Value.integer.inj (Except.ok.inj found)
  decide

/-- The least integer can be divided by one, but not by -1, and then there is no remainder
either. -/
theorem least_eval_exact :
    let table := Table.halfFull
    let quotient := binary .divide least firstElement
    let opposite := unary .minus firstElement
    quotient.PowersUp table ∧ quotient.isIntegral = true ∧ quotient.Bounded table ∧
      (∃ r, quotient.eval table = .ok (.integer r) ∧ r.val = -9223372036854775808) ∧
      ∃ error, (binary .divide least opposite).eval table = .error error ∧
        (binary .modulo least opposite).eval table = .error error := by
  intro table quotient opposite
  have integral : quotient.isIntegral = true := by decide
  obtain ⟨isExact, computes, divides⟩ := eval_exact table quotient
  obtain ⟨r, computed, -⟩ := computes integral least_bounded
  have value : some (-9223372036854775808) = some r.val := isExact least_powersUp r computed
  refine ⟨least_powersUp, integral, least_bounded, ⟨r, computed, (Option.some.inj value).symm⟩, ?_⟩
  have first : least.eval table = .ok (.integer ⟨-9223372036854775808, by decide, by decide⟩) := rfl
  have second : opposite.eval table = .ok (.integer ⟨-1, by decide, by decide⟩) := rfl
  obtain ⟨-, fails | ⟨result, remainder, quotient, -⟩⟩ := divides least opposite _ _ first second
  · exact fails
  · cases quotient

end Expr

end Pseudocode
