import Pseudocode.Error.Runtime
import Pseudocode.Number.Text

/-!
# Values

What an expression computes and what a variable holds. The value of a whole
array lists its elements in order; an element that was never written is `none`.

Three views of a value are used by the operators: its number, its text and its
truth. `Value.same` compares two values without any conversion, and
`Value.render` is how a value is printed.
-/

set_option autoImplicit false

namespace Pseudocode

/-- A value. -/
inductive Value where
  | integer (n : Integer)
  | float (x : Float)
  | character (c : Char)
  | string (s : String)
  | boolean (b : Bool)
  | array (slots : List (Option Value))
deriving Inhabited

namespace Value

/-- The type of a value. -/
def type : Value → DataType
  | integer _ => .integer
  | float _ => .float
  | character _ => .character
  | string _ => .string
  | boolean _ => .boolean
  | array _ => .array

/-! ## Views -/

/-- The number of an integer or float. -/
def number? : Value → Option Float
  | integer n => some n.toFloat
  | float x => some x
  | _ => none

/-- The text of a character or string. -/
def text? : Value → Option String
  | character c => some (String.singleton c)
  | string s => some s
  | _ => none

/-- The value as a truth value, where there is a rule for it: a number is true
unless it is zero, a text unless it is empty. Arrays have none and stay as they
are. -/
def truth : Value → Value
  | integer n => boolean (n.val != 0)
  | float x => boolean (x != 0)
  | character _ => boolean true
  | string s => boolean (s != "")
  | boolean b => boolean b
  | array slots => array slots

/-- The truth of a value that has one. -/
def truth? (value : Value) : Option Bool :=
  match value.truth with
  | boolean b => some b
  | _ => none

/-- The number of a value that arithmetic accepts. -/
def number (value : Value) : Except RuntimeError Float :=
  demand value.number? .invalidExpression

/-- Whether a condition holds. -/
def condition (value : Value) : Except RuntimeError Bool :=
  demand value.truth? .invalidExpression

/-! ## Sameness -/

mutual

/-- Whether two values have the same type and the same content. Floats are
compared as numbers, so NaN is not the same as itself and the two zeros are the
same. -/
def same : Value → Value → Bool
  | integer m, integer n => m == n
  | float x, float y => x == y
  | character c, character d => c == d
  | string s, string t => s == t
  | boolean a, boolean b => a == b
  | array slots, array others => sameSlots slots others
  | _, _ => false

/-- Whether two rows of elements agree at every place. -/
def sameSlots : List (Option Value) → List (Option Value) → Bool
  | [], [] => true
  | none :: slots, none :: others => sameSlots slots others
  | some v :: slots, some w :: others => v.same w && sameSlots slots others
  | _, _ => false

end

/-! ## Text -/

mutual

/-- The printed form of a value. An array shows the elements that were
written. -/
def render : Value → String
  | integer n => n.text
  | float x => (Binary.ofFloat x).text
  | character c => String.singleton c
  | string s => s
  | boolean b => if b then "true" else "false"
  | array slots => "[" ++ String.intercalate ", " (renderSlots slots #[]).toList ++ "]"

/-- Adds the printed forms of the written elements to those already known. -/
def renderSlots : List (Option Value) → Array String → Array String
  | [], known => known
  | none :: slots, known => renderSlots slots known
  | some v :: slots, known => renderSlots slots (known.push v.render)

end

/-- The written elements are printed in order, one by one. -/
theorem renderSlots_toList (slots : List (Option Value)) (known : Array String) :
    (renderSlots slots known).toList = known.toList ++ (slots.filterMap id).map render := by
  induction slots generalizing known with
  | nil => simp [renderSlots]
  | cons slot slots ih =>
    cases slot with
    | none => simp [renderSlots, ih]
    | some v => simp [renderSlots, ih]

end Value

end Pseudocode
