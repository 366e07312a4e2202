/-!
# Types of data

Every value has one of six types, and every variable is declared with one. A
type is named in messages and in the listing of the variables.
-/

set_option autoImplicit false

namespace Pseudocode

/-- The type of a value. Only the value of a whole array has type `array`. -/
inductive DataType where
  | integer
  | float
  | character
  | string
  | boolean
  | array
deriving DecidableEq, Inhabited

namespace DataType

/-- The name of the type in messages. -/
def name : DataType → String
  | integer => "INT_TYPE"
  | float => "FLOAT_TYPE"
  | character => "CHAR_TYPE"
  | string => "STR_TYPE"
  | boolean => "BOOL_TYPE"
  | array => "ARR_TYPE"

/-- The types that arithmetic accepts. -/
def isNumeric : DataType → Bool
  | integer | float => true
  | _ => false

/-- The types that have a text. -/
def isTextual : DataType → Bool
  | character | string => true
  | _ => false

end DataType

end Pseudocode
