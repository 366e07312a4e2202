import Pseudocode.Evaluation
import Pseudocode.Proofs.Typing.Scope

/-!
# Static types of expressions

An expression has a type in a scope, or it has none and is ill typed. The type is
found from the declarations alone: operators look at the types of their
operands and never at values.

Two statements tie static types to evaluation in a table that conforms to the
scope. A value has the static type of its expression, so only well-typed
expressions have values (`Expr.type?_of_eval`). A well-typed expression that has
no value lacks it because of its data: something was never written, an index is
out of bounds, or integer arithmetic has no answer
(`Expr.isValueError_of_eval`).
-/

set_option autoImplicit false

namespace Pseudocode

/-! ## Types of operators -/

/-- The type of an operation on two numbers. Only two integers give an
integer. -/
def DataType.arithmetic (left right : DataType) : Option DataType :=
  if left = .integer ∧ right = .integer then some .integer
  else if left.isNumeric ∧ right.isNumeric then some .float
  else none

/-- The type of an operator at an operand of the given type. -/
def UnaryOp.type? : UnaryOp → DataType → Option DataType
  | not, type => if type = .array then none else some .boolean
  | plus, type => some type
  | minus, type => if type.isNumeric then some type else none

/-- The type of an operator at operands of the given types. -/
def BinaryOp.type? (op : BinaryOp) (left right : DataType) : Option DataType :=
  match op with
  | add | subtract | multiply | divide | power => left.arithmetic right
  | modulo => if left = .integer ∧ right = .integer then some .integer else none
  | join => if left.isTextual ∧ right.isTextual then some .string else none
  | equal | notEqual => some .boolean
  | greater | greaterEqual | less | lessEqual =>
    if (left.isNumeric ∧ right.isNumeric) ∨ (left.isTextual ∧ right.isTextual) then some .boolean
    else none
  | and | or => if left = .array ∨ right = .array then none else some .boolean

/-- The type of an expression in a scope. -/
def Expr.type? (scope : Scope) : Expr → Option DataType
  | literal l => some l.value.type
  | name n => (scope n).map Signature.whole
  | element n index =>
    match scope n, index.type? scope with
    | some (.array type), some .integer => some type
    | _, _ => none
  | unary op operand => (operand.type? scope).bind op.type?
  | binary op left right =>
    (left.type? scope).bind fun first => (right.type? scope).bind (op.type? first)

/-- The errors that a well-typed expression can have. -/
def RuntimeError.isValueError : RuntimeError → Bool
  | unassigned _ | indexOutOfBounds _ | overflow | divisionByZero => true
  | _ => false

/-! ## Sorted operands -/

namespace Operands

variable {operation : Integer → Integer → Option Integer} {a b : Integer} {cause : RuntimeError}

theorem checked_error (failed : checked operation a b = .error cause) :
    cause.isValueError = true := by
  rw [(demand_eq_error.1 failed).2]
  rfl

theorem divided_error (failed : divided operation a b = .error cause) :
    cause.isValueError = true := by
  unfold divided at failed
  by_cases zero : b.val = 0
  · rw [if_pos zero] at failed
    cases failed
    rfl
  · rw [if_neg zero] at failed
    exact checked_error failed

end Operands

/-- What the sort of a pair of operands says about their types. -/
def Operands.Sorts (left right : DataType) : Operands → Prop
  | integers _ _ => left = .integer ∧ right = .integer
  | floats _ _ => left.isNumeric ∧ right.isNumeric ∧ ¬ (left = .integer ∧ right = .integer)
  | texts _ _ => left.isTextual ∧ right.isTextual
  | booleans _ _ => left = .boolean ∧ right = .boolean
  | mixed => ¬ (left.isNumeric ∧ right.isNumeric) ∧ ¬ (left.isTextual ∧ right.isTextual)

/-- Operands are sorted by their types. -/
theorem Operands.sorts_of (left right : Value) :
    (Operands.of left right).Sorts left.type right.type := by
  cases left <;> cases right <;>
    simp [Operands.of, Operands.Sorts, Value.number?, Value.text?, Value.type,
      DataType.isNumeric, DataType.isTextual]

namespace Operands.Sorts

variable {left right : DataType} {operands : Operands} {value : Value} {error : RuntimeError}

theorem not_numeric_of_texts {a b : String} (sorts : (texts a b).Sorts left right) :
    ¬ (left.isNumeric ∧ right.isNumeric) := by
  obtain ⟨textual, _⟩ := sorts
  cases left <;> simp_all [DataType.isNumeric, DataType.isTextual]

theorem not_textual_of_floats {a b : Float} (sorts : (floats a b).Sorts left right) :
    ¬ (left.isTextual ∧ right.isTextual) := by
  obtain ⟨numeric, _, _⟩ := sorts
  cases left <;> simp_all [DataType.isNumeric, DataType.isTextual]

/-! ### Arithmetic -/

section Arithmetic

variable {exact : Integer → Integer → Except RuntimeError Integer}
  {approximate : Float → Float → Float}

theorem arithmetic_type (sorts : operands.Sorts left right)
    (found : operands.arithmetic exact approximate = .ok value) :
    left.arithmetic right = some value.type := by
  cases operands with
  | integers a b =>
      obtain ⟨n, _, rfl⟩ := map_eq_ok.1 found
      exact if_pos sorts
  | floats a b =>
      cases found
      obtain ⟨first, second, apart⟩ := sorts
      rw [DataType.arithmetic, if_neg apart, if_pos ⟨first, second⟩]
      rfl
  | _ => cases found

/-- Operands that arithmetic takes fail only where the integers do. -/
theorem arithmetic_error (sorts : operands.Sorts left right) {type : DataType}
    (typed : left.arithmetic right = some type)
    (fails : ∀ a b cause, exact a b = .error cause → cause.isValueError = true)
    (failed : operands.arithmetic exact approximate = .error error) :
    error.isValueError = true := by
  have numeric : left.isNumeric ∧ right.isNumeric := by
    by_cases integers : left = .integer ∧ right = .integer
    · obtain ⟨rfl, rfl⟩ := integers
      exact ⟨rfl, rfl⟩
    · by_cases numeric : left.isNumeric ∧ right.isNumeric
      · exact numeric
      · simp [DataType.arithmetic, integers, numeric] at typed
  cases operands with
  | integers a b => exact fails a b error (map_eq_error.1 failed)
  | floats a b => cases failed
  | texts a b => exact absurd numeric sorts.not_numeric_of_texts
  | booleans a b =>
      obtain ⟨rfl, rfl⟩ := sorts
      simp [DataType.isNumeric] at numeric
  | mixed => exact absurd numeric sorts.1

end Arithmetic

theorem modulo_type (sorts : operands.Sorts left right) (found : operands.modulo = .ok value) :
    BinaryOp.modulo.type? left right = some value.type := by
  cases operands with
  | integers a b =>
      obtain ⟨n, _, rfl⟩ := map_eq_ok.1 found
      exact if_pos sorts
  | _ => cases found

theorem modulo_error (sorts : operands.Sorts left right) {type : DataType}
    (typed : BinaryOp.modulo.type? left right = some type)
    (failed : operands.modulo = .error error) : error.isValueError = true := by
  by_cases integers : left = .integer ∧ right = .integer
  · obtain ⟨rfl, rfl⟩ := integers
    cases operands with
    | integers a b => exact divided_error (map_eq_error.1 failed)
    | floats a b => exact absurd ⟨rfl, rfl⟩ sorts.2.2
    | texts a b => exact absurd ⟨rfl, rfl⟩ sorts.not_numeric_of_texts
    | booleans a b => cases sorts.1
    | mixed => exact absurd ⟨rfl, rfl⟩ sorts.1
  · simp [BinaryOp.type?, integers] at typed

/-! ### Text -/

theorem join_type (sorts : operands.Sorts left right) (found : operands.join = .ok value) :
    BinaryOp.join.type? left right = some value.type := by
  cases operands with
  | texts a b =>
      cases found
      exact if_pos sorts
  | _ => cases found

theorem join_error (sorts : operands.Sorts left right) {type : DataType}
    (typed : BinaryOp.join.type? left right = some type) : operands.join ≠ .error error := by
  have textual : left.isTextual ∧ right.isTextual := by
    by_cases textual : left.isTextual ∧ right.isTextual
    · exact textual
    · simp [BinaryOp.type?, textual] at typed
  intro failed
  cases operands with
  | texts a b => cases failed
  | integers a b =>
      obtain ⟨rfl, rfl⟩ := sorts
      simp [DataType.isTextual] at textual
  | floats a b => exact sorts.not_textual_of_floats textual
  | booleans a b =>
      obtain ⟨rfl, rfl⟩ := sorts
      simp [DataType.isTextual] at textual
  | mixed => exact sorts.2 textual

/-! ### Order -/

section Order

variable {integer : Int → Int → Bool} {float : Float → Float → Bool}
  {text : String → String → Bool}

theorem ordered_type (sorts : operands.Sorts left right)
    (found : operands.ordered integer float text = .ok value) :
    ((left.isNumeric ∧ right.isNumeric) ∨ (left.isTextual ∧ right.isTextual)) ∧
      value.type = .boolean := by
  cases operands with
  | integers a b =>
      cases found
      obtain ⟨rfl, rfl⟩ := sorts
      exact ⟨.inl ⟨rfl, rfl⟩, rfl⟩
  | floats a b =>
      cases found
      exact ⟨.inl ⟨sorts.1, sorts.2.1⟩, rfl⟩
  | texts a b =>
      cases found
      exact ⟨.inr sorts, rfl⟩
  | _ => cases found

theorem ordered_error (sorts : operands.Sorts left right)
    (comparable : (left.isNumeric ∧ right.isNumeric) ∨ (left.isTextual ∧ right.isTextual)) :
    operands.ordered integer float text ≠ .error error := by
  intro failed
  cases operands with
  | booleans a b =>
      obtain ⟨rfl, rfl⟩ := sorts
      simp [DataType.isNumeric, DataType.isTextual] at comparable
  | mixed =>
      rcases comparable with numeric | textual
      · exact sorts.1 numeric
      · exact sorts.2 textual
  | _ => cases failed

end Order

end Operands.Sorts

/-! ## Operators at values -/

/-- Every value but an array has a truth. -/
theorem Value.condition_eq_ok {value : Value} (scalar : value.type ≠ .array) :
    ∃ holds, value.condition = .ok holds := by
  cases value with
  | array slots => exact absurd rfl scalar
  | _ => exact ⟨_, rfl⟩

theorem Value.type_ne_array_of_condition {value : Value} {holds : Bool}
    (found : value.condition = .ok holds) : value.type ≠ .array := by
  cases value with
  | array slots => cases found
  | _ => simp [Value.type]

/-- The value of an operator has the type of the operator. -/
theorem UnaryOp.apply_type {op : UnaryOp} {operand value : Value}
    (found : op.apply operand = .ok value) : op.type? operand.type = some value.type := by
  cases op with
  | not =>
      obtain ⟨holds, condition, same⟩ := bind_eq_ok.1 found
      obtain rfl := Except.ok.inj same
      exact if_neg (Value.type_ne_array_of_condition condition)
  | plus => exact congrArg (some ·.type) (Except.ok.inj found)
  | minus =>
      cases operand with
      | integer n =>
          obtain ⟨opposite, _, rfl⟩ := map_eq_ok.1 found
          rfl
      | float x =>
          obtain rfl := Except.ok.inj found
          rfl
      | _ => cases found

/-- A typed operator fails only on its data. -/
theorem UnaryOp.apply_error {op : UnaryOp} {operand : Value} {type : DataType}
    {error : RuntimeError} (typed : op.type? operand.type = some type)
    (failed : op.apply operand = .error error) : error.isValueError = true := by
  cases op with
  | not =>
      by_cases array : operand.type = .array
      · simp [UnaryOp.type?, array] at typed
      · obtain ⟨holds, condition⟩ := Value.condition_eq_ok array
        rw [UnaryOp.apply, condition] at failed
        cases failed
  | plus => cases failed
  | minus =>
      cases operand with
      | integer n =>
          rw [(demand_eq_error.1 (map_eq_error.1 failed)).2]
          rfl
      | float x => cases failed
      | _ => cases typed

namespace BinaryOp

variable {left right value : Value} {type : DataType} {error : RuntimeError}

/-- The logical operators take the truth of both operands. -/
theorem logical_type {combine : Bool → Bool → Bool}
    (found : (do
      let a ← left.condition
      let b ← right.condition
      return .boolean (combine a b)) = Except.ok value) :
    (if left.type = .array ∨ right.type = .array then none else some DataType.boolean) =
      some value.type := by
  obtain ⟨a, first, rest⟩ := bind_eq_ok.1 found
  obtain ⟨b, second, same⟩ := bind_eq_ok.1 rest
  obtain rfl := Except.ok.inj same
  refine if_neg ?_
  rintro (array | array)
  · exact Value.type_ne_array_of_condition first array
  · exact Value.type_ne_array_of_condition second array

theorem logical_error {combine : Bool → Bool → Bool}
    (typed : (if left.type = .array ∨ right.type = .array then none else some DataType.boolean) =
      some type) :
    (do
      let a ← left.condition
      let b ← right.condition
      return .boolean (combine a b)) ≠ (Except.error error : Except RuntimeError Value) := by
  by_cases array : left.type = .array ∨ right.type = .array
  · rw [if_pos array] at typed
    cases typed
  · obtain ⟨isLeft, isRight⟩ := not_or.1 array
    obtain ⟨a, first⟩ := Value.condition_eq_ok isLeft
    obtain ⟨b, second⟩ := Value.condition_eq_ok isRight
    rw [first, second]
    intro failed
    cases failed

theorem comparable_of_typed {left right type : DataType}
    (typed : (if (left.isNumeric ∧ right.isNumeric) ∨ (left.isTextual ∧ right.isTextual)
      then some DataType.boolean else none) = some type) :
    (left.isNumeric ∧ right.isNumeric) ∨ (left.isTextual ∧ right.isTextual) := by
  refine Classical.byContradiction fun apart => ?_
  rw [if_neg apart] at typed
  cases typed

/-- The value of an operator has the type of the operator. -/
theorem apply_type {op : BinaryOp} (found : op.apply left right = .ok value) :
    op.type? left.type right.type = some value.type := by
  have sorts := Operands.sorts_of left right
  cases op with
  | and | or => exact logical_type found
  | equal | notEqual =>
      obtain rfl := Except.ok.inj found
      rfl
  | greater | greaterEqual | less | lessEqual =>
      rw [BinaryOp.apply] at found
      obtain ⟨comparable, isBoolean⟩ := sorts.ordered_type found
      rw [isBoolean]
      exact if_pos comparable
  | add | subtract | multiply | divide | power => exact sorts.arithmetic_type found
  | modulo => exact sorts.modulo_type found
  | join => exact sorts.join_type found

/-- A typed operator fails only on its data. -/
theorem apply_error {op : BinaryOp} (typed : op.type? left.type right.type = some type)
    (failed : op.apply left right = .error error) : error.isValueError = true := by
  have sorts := Operands.sorts_of left right
  cases op with
  | and | or => exact absurd failed (logical_error typed)
  | equal | notEqual => cases failed
  | greater | greaterEqual | less | lessEqual =>
      rw [BinaryOp.apply] at failed
      exact absurd failed (sorts.ordered_error (comparable_of_typed typed))
  | add | subtract | multiply | power =>
      exact sorts.arithmetic_error typed (fun _ _ _ => Operands.checked_error) failed
  | divide => exact sorts.arithmetic_error typed (fun _ _ _ => Operands.divided_error) failed
  | modulo => exact sorts.modulo_error typed failed
  | join => exact absurd failed (sorts.join_error typed)

end BinaryOp

/-! ## Expressions -/

namespace Expr

variable {scope : Scope} {table : Table} {expr : Expr}

/-- Only elements of arrays have a type, at an integer. -/
theorem element_typed {name : String} {index : Expr} {type : DataType}
    (typed : (element name index).type? scope = some type) :
    scope name = some (.array type) ∧ index.type? scope = some .integer := by
  unfold Expr.type? at typed
  split at typed
  · rename_i declared position
    obtain rfl := Option.some.inj typed
    exact ⟨declared, position⟩
  · cases typed

/-- **A value has the static type of its expression.** -/
theorem type?_of_eval (conforms : table.Conforms scope) {value : Value}
    (found : expr.eval table = .ok value) : expr.type? scope = some value.type := by
  induction expr generalizing value with
  | literal l =>
      obtain rfl := Except.ok.inj found
      rfl
  | name n =>
      obtain ⟨signature, declared, typed⟩ := conforms.read_type found
      rw [Expr.type?, declared, Option.map_some, typed]
  | element n index ih =>
      obtain ⟨position, indexed, read⟩ := bind_eq_ok.1 found
      obtain ⟨place, isIndex⟩ : ∃ place, position.index = .ok place := by
        obtain ⟨place, isIndex, _⟩ := bind_eq_ok.1 read
        exact ⟨place, isIndex⟩
      cases position with
      | integer n => rw [Expr.type?, conforms.readAt_type read, ih indexed, Value.type]
      | _ => cases isIndex
  | unary op operand ih =>
      obtain ⟨inner, evaluated, applied⟩ := bind_eq_ok.1 found
      rw [Expr.type?, ih evaluated]
      exact op.apply_type applied
  | binary op left right ihLeft ihRight =>
      obtain ⟨a, first, rest⟩ := bind_eq_ok.1 found
      obtain ⟨b, second, applied⟩ := bind_eq_ok.1 rest
      rw [Expr.type?, ihLeft first, ihRight second]
      exact op.apply_type applied

/-- An index that was typed as an integer is one. -/
theorem integer_of_eval (conforms : table.Conforms scope) (typed : expr.type? scope = some .integer)
    {value : Value} (found : expr.eval table = .ok value) : ∃ n, value = .integer n := by
  have same : some value.type = some .integer := (type?_of_eval conforms found).symm.trans typed
  cases value with
  | integer n => exact ⟨n, rfl⟩
  | _ => cases same

/-- **A well-typed expression fails only on its data.** -/
theorem isValueError_of_eval (conforms : table.Conforms scope) {type : DataType}
    (typed : expr.type? scope = some type) {error : RuntimeError}
    (failed : expr.eval table = .error error) : error.isValueError = true := by
  induction expr generalizing type with
  | literal l => cases failed
  | name n =>
      obtain ⟨signature, declared, _⟩ := Option.map_eq_some_iff.1 typed
      rw [conforms.read_error declared failed]
      rfl
  | element n index ih =>
      obtain ⟨declared, position⟩ := element_typed typed
      rcases bind_eq_error.1 failed with inside | ⟨place, found, read⟩
      · exact ih position inside
      · obtain ⟨n, rfl⟩ := integer_of_eval conforms position found
        rcases conforms.readAt_error declared read with ⟨_, rfl⟩ | ⟨_, rfl⟩ <;> rfl
  | unary op operand ih =>
      obtain ⟨inner, isTyped, applies⟩ := Option.bind_eq_some_iff.1 typed
      rcases bind_eq_error.1 failed with inside | ⟨value, found, applied⟩
      · exact ih isTyped inside
      · obtain rfl : value.type = inner :=
          Option.some.inj ((type?_of_eval conforms found).symm.trans isTyped)
        exact op.apply_error applies applied
  | binary op left right ihLeft ihRight =>
      obtain ⟨first, typedLeft, rest⟩ := Option.bind_eq_some_iff.1 typed
      obtain ⟨second, typedRight, applies⟩ := Option.bind_eq_some_iff.1 rest
      rcases bind_eq_error.1 failed with inside | ⟨a, foundLeft, failed'⟩
      · exact ihLeft typedLeft inside
      · rcases bind_eq_error.1 failed' with inside | ⟨b, foundRight, applied⟩
        · exact ihRight typedRight inside
        · obtain rfl : a.type = first :=
            Option.some.inj ((type?_of_eval conforms foundLeft).symm.trans typedLeft)
          obtain rfl : b.type = second :=
            Option.some.inj ((type?_of_eval conforms foundRight).symm.trans typedRight)
          exact op.apply_error applies applied

end Expr

end Pseudocode
