/-!
# Errors in tokens

The five ways in which a text can fail to start with a token. Each is reported
with the line on which the failing text starts. They are numbered from zero.
-/

set_option autoImplicit false

namespace Pseudocode

/-- What is wrong with a text that starts with no token. -/
inductive Fault where
  /-- No token starts with this character. -/
  | unknownToken (first : Char)
  /-- A string has no closing quote. -/
  | unterminatedString
  /-- Digits and a point are followed by no digit. -/
  | invalidFloat
  /-- A quote is not followed by one character and a quote. -/
  | invalidCharacter
  /-- The number is too large for an integer. -/
  | invalidInteger
deriving DecidableEq

namespace Fault

/-- The text starts with no token. An empty text counts as the character zero. -/
def unknownText (text : List Char) : Fault :=
  unknownToken (text.headD (Char.ofNat 0))

end Fault

/-- A fault and the line on which it stands. -/
structure LexicalError where
  fault : Fault
  line : Nat
deriving DecidableEq

namespace LexicalError

/-- The number of the error. -/
def code (error : LexicalError) : Nat :=
  match error.fault with
  | .unknownToken _ => 0
  | .unterminatedString => 1
  | .invalidFloat => 2
  | .invalidCharacter => 3
  | .invalidInteger => 4

/-- The full message. -/
def message (error : LexicalError) : String :=
  match error.fault with
  | .unknownToken first => s!"[LEXING ERROR] Unknown TOKEN ({first})."
  | .unterminatedString => "[LEXING ERROR] Expected \" at end of STRING."
  | .invalidFloat => "[LEXING ERROR] Invalid FLOAT format."
  | .invalidCharacter => "[LEXING ERROR] Invalid CHAR format."
  | .invalidInteger => "[LEXING ERROR] Invalid INT format."

end LexicalError

end Pseudocode
