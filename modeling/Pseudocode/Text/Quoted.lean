import Pseudocode.Text.Invisible

/-!
# Quoted text

A text in double quotes, on one line and with every character visible. The quote
itself, the backslash and the usual controls have short escapes; any other
character that cannot be shown is written by its code point.
-/

set_option autoImplicit false

namespace Pseudocode.Quoted

/-- A character inside quotes. -/
def escape (c : Char) : List Char :=
  if c == '"' then ['\\', '"']
  else if c == '\\' then ['\\', '\\']
  else if c == '\n' then ['\\', 'n']
  else if c == '\t' then ['\\', 't']
  else if c == '\r' then ['\\', 'r']
  else if c == Char.ofNat 0 then ['\\', '0']
  else if isInvisible c then "\\u\x7b".toList ++ Nat.toDigits 16 c.toNat ++ "\x7d".toList
  else [c]

/-- The text in quotes. -/
def encode (text : String) : String :=
  String.ofList ('"' :: text.toList.flatMap escape ++ ['"'])

end Pseudocode.Quoted
