import Pseudocode.Number.Conversion
import Pseudocode.Value

/-!
# Symbols

A symbol is what a declared name stands for: a constant, a variable or an array.
A constant or variable has one slot for a value, which is empty until a variable
is first written. An array has a row of such slots.

The declared type of a symbol is the type of the values that its slots may hold.
`DataType.coerce` brings a value to a type where there is a rule for that, and
`Symbol.accept` refuses what has another type afterwards.

For which lengths there is room depends on the machine (`Memory`), and nothing
else depends on it.
-/

set_option autoImplicit false

namespace Pseudocode

/-- Where the values of a symbol are kept. -/
inductive Slot where
  | scalar (value : Option Value)
  | array (elements : Array (Option Value))
deriving Inhabited

/-- What a name stands for. -/
structure Symbol where
  slot : Slot
  type : DataType
  constant : Bool
deriving Inhabited

/-- The memory that rows of slots are taken from. -/
class Memory where
  /-- Whether there is room for a row of the given length. -/
  hasRoom : Nat → Bool

/-- Memory with room for rows up to a length. -/
abbrev Memory.upTo (length : Nat) : Memory := ⟨fun wanted => wanted ≤ length⟩

/-- The memory of a usual machine. -/
instance Memory.usual : Memory := .upTo (Nat.pow 2 28)

/-- The value as one of the given type, where a rule says how: anything with a
truth becomes a boolean, and an integer becomes a float. -/
def DataType.coerce : DataType → Value → Value
  | .boolean, value => value.truth
  | .float, .integer n => .float n.toFloat
  | _, value => value

namespace Symbol

/-! ## Declaring -/

/-- A constant, of the type of its value. -/
def ofConstant (value : Value) : Symbol := ⟨.scalar (some value), value.type, true⟩

/-- A variable without a value. -/
def ofVariable (type : DataType) : Symbol := ⟨.scalar none, type, false⟩

/-- An array without values, if there is room for it. -/
def ofArray [Memory] (type : DataType) (length : Nat) : Except RuntimeError Symbol :=
  if Memory.hasRoom length then .ok ⟨.array (Array.replicate length none), type, false⟩
  else .error .invalidArraySize

/-! ## Looking -/

/-- Whether the symbol is an array. -/
def isArray (symbol : Symbol) : Bool :=
  match symbol.slot with
  | .array _ => true
  | .scalar _ => false

/-- The slots of the array with the given name. -/
def elements (symbol : Symbol) (name : String) : Except RuntimeError (Array (Option Value)) :=
  match symbol.slot with
  | .array elements => .ok elements
  | .scalar _ => .error (.notAnArray name)

/-- The value brought to the declared type, if it can be. -/
def accept (symbol : Symbol) (name : String) (value : Value) : Except RuntimeError Value :=
  let value := symbol.type.coerce value
  if value.type = symbol.type then .ok value
  else .error (.typeMismatch name value.type symbol.type)

/-- The value of the symbol with the given name. An array has the list of its
slots as its value. -/
def read (symbol : Symbol) (name : String) : Except RuntimeError Value :=
  match symbol.slot with
  | .scalar value => demand value (.unassigned name)
  | .array elements => .ok (.array elements.toList)

/-- The value of an element. -/
def readAt (symbol : Symbol) (name : String) (index : Integer) : Except RuntimeError Value := do
  let elements ← symbol.elements name
  let offset ← index.offset elements.size
  demand (elements.getD offset none) (.unassigned s!"{name}[{index.text}]")

/-! ## Writing

These replace the content of a symbol without any test. -/

/-- The symbol with a value. -/
def store (value : Value) : Symbol → Symbol
  | ⟨.scalar _, type, constant⟩ => ⟨.scalar (some value), type, constant⟩
  | symbol => symbol

/-- The symbol with a value in one of its slots. -/
def storeAt (offset : Nat) (value : Value) : Symbol → Symbol
  | ⟨.array elements, type, constant⟩ =>
    ⟨.array (elements.setIfInBounds offset (some value)), type, constant⟩
  | symbol => symbol

/-- The symbol with a row of another length. Slots at the end are dropped or
added; all others keep their values. -/
def setLength (length : Nat) : Symbol → Symbol
  | ⟨.array elements, type, constant⟩ =>
    ⟨.array (elements.take length ++ Array.replicate (length - elements.size) none), type, constant⟩
  | symbol => symbol

/-! ## Text -/

/-- The declared type, marked for arrays. -/
def typeText (symbol : Symbol) : String :=
  symbol.type.name ++ (if symbol.isArray then "[]" else "")

/-- The value of the symbol in the listing of a table. -/
def valueText (symbol : Symbol) : String :=
  match symbol.slot with
  | .scalar (some value) => value.render
  | .scalar none => "NONE"
  | .array elements => (Value.array elements.toList).render

end Symbol

end Pseudocode
