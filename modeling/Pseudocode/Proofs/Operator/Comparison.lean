import Pseudocode.Operator.Meaning
import Pseudocode.Proofs.Text.Order

/-!
# Comparisons

Whether two values are equal and which of them comes first is found by two functions, after the
values were sorted into a pair of operands. Where both are integers, or both have a text, the
six comparisons agree with one linear order (`Value.ComparesAs`): that of the numbers, or that
of the texts by their code points. Everything that is expected of comparisons follows from that.

Equality is defined for all values and symmetric, since exchanging two values exchanges the
operands (`Operands.of_swap`). An order is asked for in vain where the values are neither two
numbers nor two texts.
-/

set_option autoImplicit false

namespace Pseudocode

/-! ## Operands -/

namespace Operands

/-- The same operands in the other order. -/
def swap : Operands → Operands
  | integers a b => integers b a
  | floats a b => floats b a
  | texts a b => texts b a
  | booleans a b => booleans b a
  | mixed => mixed

/-- The operands come in some order. -/
def isOrdered : Operands → Bool
  | integers _ _ | floats _ _ | texts _ _ => true
  | booleans _ _ | mixed => false

theorem of_swap (left right : Value) : of right left = (of left right).swap := by
  cases left <;> cases right <;> rfl

theorem isOrdered_of (left right : Value) :
    (of left right).isOrdered = (left.type.isNumeric && right.type.isNumeric ||
      left.type.isTextual && right.type.isTextual) := by
  cases left <;> cases right <;> rfl

theorem of_texts {left right : Value} {s t : String} (isLeft : left.text? = some s)
    (isRight : right.text? = some t) : of left right = texts s t := by
  cases left <;> cases isLeft <;> cases right <;> cases isRight <;> rfl

/-- Floats are the same if they are so the other way round, also the two zeros, and NaN is the
same as nothing either way. -/
theorem beq_comm_float (x y : Float) : (x == y) = (y == x) := by
  change Float.Model.UnpackedFloat.beq _ _ = Float.Model.UnpackedFloat.beq _ _
  rw [Bool.eq_iff_iff, Float.Model.UnpackedFloat.beq_iff_ne_notANumber_and_eq,
    Float.Model.UnpackedFloat.beq_iff_ne_notANumber_and_eq]
  grind

theorem equal_swap (operands : Operands) : operands.swap.equal = operands.equal := by
  cases operands with
  | integers a b => exact BEq.comm
  | floats a b => exact beq_comm_float b a
  | texts a b => exact BEq.comm
  | booleans a b => exact BEq.comm
  | mixed => rfl

section Ordered

variable {integer : Int → Int → Bool} {float : Float → Float → Bool} {text : String → String → Bool}
  {operands : Operands}

theorem ordered_of_isOrdered (isOrdered : operands.isOrdered = true) :
    ∃ answer, operands.ordered integer float text = .ok (.boolean answer) := by
  cases operands with
  | integers | floats | texts => exact ⟨_, rfl⟩
  | booleans | mixed => cases isOrdered

theorem ordered_of_not (unordered : operands.isOrdered = false) :
    operands.ordered integer float text = .error .invalidExpression := by
  cases operands with
  | integers | floats | texts => cases unordered
  | booleans | mixed => rfl

end Ordered

end Operands

/-! ## Comparisons in a linear order -/

namespace BinaryOp

/-- The operators that ask for an order. -/
def ordering : List BinaryOp := [less, lessEqual, greater, greaterEqual]

/-- A comparison of two values is true. -/
def Holds (op : BinaryOp) (left right : Value) : Prop := op.apply left right = .ok (.boolean true)

end BinaryOp

namespace Value

/-- Two integers, or two values that have a text. -/
def Comparable (left right : Value) : Prop :=
  (left.type = .integer ∧ right.type = .integer) ∨
    (left.type.isTextual = true ∧ right.type.isTextual = true)

theorem text?_of_isTextual {value : Value} (textual : value.type.isTextual = true) :
    ∃ text, value.text? = some text := by
  cases value with
  | character | string => exact ⟨_, rfl⟩
  | integer | float | boolean | array => cases textual

theorem integer_of_type {value : Value} (whole : value.type = .integer) :
    ∃ n, value = .integer n := by
  cases value with
  | integer n => exact ⟨n, rfl⟩
  | float | character | string | boolean | array => cases whole

/-- Values that can be compared have a place in one of two orders. -/
theorem Comparable.places {left right : Value} (comparable : left.Comparable right) :
    (∃ a b, left = .integer a ∧ right = .integer b) ∨
      ∃ s t, left.text? = some s ∧ right.text? = some t := by
  rcases comparable with ⟨isLeft, isRight⟩ | ⟨isLeft, isRight⟩
  · obtain ⟨a, rfl⟩ := integer_of_type isLeft
    obtain ⟨b, rfl⟩ := integer_of_type isRight
    exact .inl ⟨a, b, rfl, rfl⟩
  · obtain ⟨s, isLeft⟩ := text?_of_isTextual isLeft
    obtain ⟨t, isRight⟩ := text?_of_isTextual isRight
    exact .inr ⟨s, t, isLeft, isRight⟩

/-- The six comparisons of two values are those of two elements of a linear order. -/
structure ComparesAs {α : Type} [LinearOrder α] (left right : Value) (a b : α) : Prop where
  less : BinaryOp.less.apply left right = .ok (.boolean (decide (a < b)))
  lessEqual : BinaryOp.lessEqual.apply left right = .ok (.boolean (decide (a ≤ b)))
  greater : BinaryOp.greater.apply left right = .ok (.boolean (decide (b < a)))
  greaterEqual : BinaryOp.greaterEqual.apply left right = .ok (.boolean (decide (b ≤ a)))
  equal : BinaryOp.equal.apply left right = .ok (.boolean (decide (a = b)))

theorem comparesAs_integers (a b : Integer) :
    ComparesAs (.integer a) (.integer b) a.val b.val where
  less := rfl
  lessEqual := rfl
  greater := rfl
  greaterEqual := rfl
  equal := by
    have same : (a == b) = decide (a.val = b.val) := by
      rw [Bool.eq_iff_iff, beq_iff_eq, decide_eq_true_iff]
      exact ⟨congrArg Integer.val, Integer.ext⟩
    exact congrArg (fun answer => Except.ok (Value.boolean answer)) same

theorem comparesAs_texts {left right : Value} {s t : String} (isLeft : left.text? = some s)
    (isRight : right.text? = some t) : ComparesAs left right s t := by
  have sorted := Operands.of_texts isLeft isRight
  -- The texts are not asked for `≤` but for the opposite of `<`.
  have negated : ∀ a b : String, (!decide (a < b)) = decide (b ≤ a) := fun a b => by
    rw [← decide_not, decide_eq_decide]
    exact not_lt
  constructor
  all_goals simp only [BinaryOp.apply, sorted, Operands.ordered, Operands.equal, negated]
  rw [Bool.beq_eq_decide_eq]

namespace ComparesAs

variable {α : Type} [LinearOrder α] {left right : Value} {a b : α}

theorem less_iff (compares : ComparesAs left right a b) :
    BinaryOp.less.Holds left right ↔ a < b := by
  rw [BinaryOp.Holds, compares.less]
  simp

theorem equal_iff (compares : ComparesAs left right a b) :
    BinaryOp.equal.Holds left right ↔ a = b := by
  rw [BinaryOp.Holds, compares.equal]
  simp

/-- Values that are compared in a linear order are compared consistently. -/
theorem consistent (compares : ComparesAs left right a b) (back : ComparesAs right left b a) :
    ∃ before same after : Bool,
      BinaryOp.less.apply left right = .ok (.boolean before) ∧
      BinaryOp.equal.apply left right = .ok (.boolean same) ∧
      BinaryOp.greater.apply left right = .ok (.boolean after) ∧
      [before, same, after].count true = 1 ∧
      BinaryOp.lessEqual.apply left right = .ok (.boolean !after) ∧
      BinaryOp.greaterEqual.apply left right = .ok (.boolean !before) ∧
      BinaryOp.greater.apply right left = .ok (.boolean before) := by
  refine ⟨_, _, _, compares.less, compares.equal, compares.greater, ?_, ?_, ?_, back.greater⟩
  · rcases lt_trichotomy a b with less | rfl | greater
    · simp [less, less.ne, less.not_gt]
    · simp
    · simp [greater, greater.ne', greater.not_gt]
  · rw [compares.lessEqual, ← decide_not]
    simp
  · rw [compares.greaterEqual, ← decide_not]
    simp

end ComparesAs

/-- The order is transitive, whether characters and strings are mixed or not. -/
theorem less_trans {first second third : Value} (one : first.Comparable second)
    (two : second.Comparable third) (near : BinaryOp.less.Holds first second)
    (next : BinaryOp.less.Holds second third) : BinaryOp.less.Holds first third := by
  rcases one.places with ⟨a, b, rfl, rfl⟩ | ⟨s, t, isFirst, isSecond⟩
  · rcases two.places with ⟨_, c, same, rfl⟩ | ⟨_, _, textual, _⟩
    · cases same
      rw [(comparesAs_integers _ _).less_iff] at near next ⊢
      exact lt_trans near next
    · cases textual
  · rcases two.places with ⟨_, _, rfl, _⟩ | ⟨t', u, isSecond', isThird⟩
    · cases isSecond
    · cases isSecond.symm.trans isSecond'
      rw [(comparesAs_texts isFirst isSecond).less_iff] at near
      rw [(comparesAs_texts isSecond isThird).less_iff] at next
      exact (comparesAs_texts isFirst isThird).less_iff.2 (lt_trans near next)

end Value

namespace BinaryOp

open Value

/-- An operator that asks for an order has its own comparisons of numbers and texts. -/
theorem ordering_apply {op : BinaryOp} (asks : op ∈ ordering) :
    ∃ integer float text, ∀ left right,
      op.apply left right = (Operands.of left right).ordered integer float text := by
  simp only [ordering, List.mem_cons, List.not_mem_nil, or_false] at asks
  rcases asks with rfl | rfl | rfl | rfl
  all_goals exact ⟨_, _, _, fun _ _ => by rw [apply]⟩

/-- **Comparisons are those of one order.** Of two integers and of two texts exactly one comes
first or both are equal, and all comparisons say the same about it. Characters and strings are
compared by the code points of their texts, which is the order of their bytes. Any two values can
be tested for equality, and any other two than numbers and texts have no order. -/
theorem comparisons_consistent :
    (∀ left right : Value, left.Comparable right →
      ∃ before same after : Bool,
        less.apply left right = .ok (.boolean before) ∧
        equal.apply left right = .ok (.boolean same) ∧
        greater.apply left right = .ok (.boolean after) ∧
        [before, same, after].count true = 1 ∧
        lessEqual.apply left right = .ok (.boolean !after) ∧
        greaterEqual.apply left right = .ok (.boolean !before) ∧
        greater.apply right left = .ok (.boolean before)) ∧
    (∀ first second third : Value, first.Comparable second → second.Comparable third →
      less.Holds first second → less.Holds second third → less.Holds first third) ∧
    (∀ a b : Integer, less.Holds (.integer a) (.integer b) ↔ a.val < b.val) ∧
    (∀ (left right : Value) (s t : String), left.text? = some s → right.text? = some t →
      (less.Holds left right ↔ List.Lex (· < ·) (codePoints s) (codePoints t)) ∧
      (less.Holds left right ↔ Before s t) ∧ (equal.Holds left right ↔ s = t)) ∧
    (∀ left right : Value, ∃ same : Bool,
      equal.apply left right = .ok (.boolean same) ∧
      notEqual.apply left right = .ok (.boolean !same) ∧
      equal.apply right left = .ok (.boolean same)) ∧
    ∀ op ∈ ordering, ∀ left right : Value,
      if left.type.isNumeric && right.type.isNumeric ||
          left.type.isTextual && right.type.isTextual then
        ∃ answer, op.apply left right = .ok (.boolean answer)
      else op.apply left right = .error .invalidExpression := by
  refine ⟨?_, ?_, ?_, ?_, ?_, ?_⟩
  · intro left right comparable
    rcases comparable.places with ⟨a, b, rfl, rfl⟩ | ⟨s, t, isLeft, isRight⟩
    · exact (comparesAs_integers a b).consistent (comparesAs_integers b a)
    · exact (comparesAs_texts isLeft isRight).consistent (comparesAs_texts isRight isLeft)
  · intro first second third
    exact less_trans
  · intro a b
    exact (comparesAs_integers a b).less_iff
  · intro left right s t isLeft isRight
    have compares := comparesAs_texts isLeft isRight
    rw [compares.less_iff, compares.equal_iff, before_iff_lt, ← lt_iff_codePoints]
    exact ⟨Iff.rfl, Iff.rfl, Iff.rfl⟩
  · intro left right
    refine ⟨_, rfl, rfl, ?_⟩
    rw [apply, Operands.of_swap, Operands.equal_swap]
  · intro op asks left right
    obtain ⟨integer, float, text, known⟩ := ordering_apply asks
    rw [known, ← Operands.isOrdered_of]
    by_cases inOrder : (Operands.of left right).isOrdered = true
    · rw [if_pos inOrder]
      exact Operands.ordered_of_isOrdered inOrder
    · rw [if_neg inOrder]
      exact Operands.ordered_of_not (Bool.eq_false_iff.2 inOrder)

/-- A character of three bytes comes before a string whose character has four, and before every
longer string that starts in the same way. -/
theorem wide_characters_consistent :
    let first : Value := .character '\uffff'
    let second : Value := .string "😀"
    let third : Value := .string "😀!"
    first.Comparable second ∧ second.Comparable third ∧ less.Holds first second ∧
      less.Holds second third ∧ less.Holds first third ∧ Before "\uffff" "😀!" ∧
      greaterEqual.apply first third = .ok (.boolean false) := by
  intro first second third
  have one : first.Comparable second := .inr ⟨rfl, rfl⟩
  have two : second.Comparable third := .inr ⟨rfl, rfl⟩
  obtain ⟨consistent, transitive, _, texts, _⟩ := comparisons_consistent
  have near : less.Holds first second := (texts first second _ _ rfl rfl).1.2 (by decide)
  have next : less.Holds second third := (texts second third _ _ rfl rfl).1.2 (by decide)
  have far := transitive first second third one two near next
  obtain ⟨before, same, after, isBefore, _, _, _, _, notBefore, _⟩ :=
    consistent first third (.inr ⟨rfl, rfl⟩)
  cases far.symm.trans isBefore
  exact ⟨one, two, near, next, far, (texts first third _ _ rfl rfl).2.1.1 far, notBefore⟩

end BinaryOp

end Pseudocode
