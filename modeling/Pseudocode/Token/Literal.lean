import Pseudocode.Token.Lexer
import Pseudocode.Tree

/-!
# Literals from tokens

What the token of a literal stands for. The lexeme of a character or string is
read without its quotes, and the digits of a number are read exactly. A token
that no text gives has no literal, and the error is then the one that its text
would have had.
-/

set_option autoImplicit false

namespace Pseudocode

namespace Literal

/-- The text between two quotes. -/
def unquote? (quote : Char) : List Char → Option (List Char)
  | [] => none
  | first :: rest =>
    if first == quote && rest.getLast? == some quote then some rest.dropLast else none

/-- The float nearest to a decimal with a point. -/
def float? (lexeme : List Char) : Option Float :=
  let whole := lexeme.takeWhile Char.isDigit
  match lexeme.drop whole.length with
  | '.' :: fraction =>
    if whole.isEmpty || fraction.isEmpty || !fraction.all Char.isDigit then none
    else some (Float.ofScientific (Lexer.decimalValue (whole ++ fraction)) true fraction.length)
  | _ => none

/-- The integer that decimal digits stand for. -/
def integer? (lexeme : List Char) : Option Integer :=
  if lexeme.isEmpty || !lexeme.all Char.isDigit then none
  else Integer.ofInt? (Lexer.decimalValue lexeme)

/-- The literal of a token. -/
def ofToken (token : Token) : Except LexicalError Literal :=
  let text := token.lexeme.toList
  let read {α : Type} (value : Option α) (make : α → Literal) (cause : Fault) :
      Except LexicalError Literal :=
    match value with
    | some a => .ok (make a)
    | none => .error ⟨cause, token.line⟩
  match token.kind with
  | .keyword .TRUE => .ok (.boolean true)
  | .keyword .FALSE => .ok (.boolean false)
  | .integer => read (integer? text) .integer .invalidInteger
  | .float => read (float? text) .float .invalidFloat
  | .character => read ((unquote? '\'' text).bind List.head?) .character .invalidCharacter
  | _ => read ((unquote? '"' text).map String.ofList) .string .unterminatedString

end Literal

end Pseudocode
