import Pseudocode.Error.Lexical
import Pseudocode.Number.Integer
import Pseudocode.Token

/-!
# Reading tokens

A program is a row of tokens with gaps of blanks and comments between them.
`front` looks at the beginning of a text and takes the longest gap character,
comment or lexeme there. `lexFrom` goes through the text once: it has a counter
of the characters that still belong to the piece taken last, and looks for a new
piece when the counter is zero. It ends at the end of the text, or at the first
text that starts with no token. What stands behind such a fault is kept, since
reading may go on there.
-/

set_option autoImplicit false

namespace Pseudocode

namespace Lexer

/-! ## Characters -/

/-- The characters that may stand between tokens. -/
def isBlank (c : Char) : Bool := c == ' ' || c == '\t' || c == '\r'

/-- The characters that a name starts with. Only ASCII letters count. -/
def isNameStart (c : Char) : Bool := c.isAlpha || c == '_'

/-- The characters that a name goes on with. -/
def isNamePart (c : Char) : Bool := c.isAlphanum || c == '_'

/-- The number that a row of decimal digits stands for. -/
def decimalValue (digits : List Char) : Nat :=
  digits.foldl (fun value digit => 10 * value + (digit.toNat - '0'.toNat)) 0

/-! ## The front of a text -/

/-- What stands at the beginning of a text. -/
inductive Front where
  /-- Blanks or a comment. -/
  | gap (text : List Char)
  /-- A token with this text. -/
  | lexeme (kind : Kind) (text : List Char)
  /-- No token. -/
  | fault (cause : Fault)

/-- A name or keyword. -/
def word (text : List Char) : Front :=
  let letters := text.takeWhile isNamePart
  match Keyword.ofSpelling? (String.ofList letters) with
  | some keyword => .lexeme (.keyword keyword) letters
  | none => .lexeme .identifier letters

/-- An integer or float. Digits directly before a point must be part of a
float. -/
def number (text : List Char) : Front :=
  let whole := text.takeWhile Char.isDigit
  match text.drop whole.length with
  | '.' :: rest =>
    match rest.takeWhile Char.isDigit with
    | [] => .fault .invalidFloat
    | fraction => .lexeme .float (whole ++ '.' :: fraction)
  | _ =>
    if Integer.Fits (decimalValue whole) then .lexeme .integer whole
    else .fault .invalidInteger

/-- A string, from the text after its opening quote. It reaches to the next
quote, over the ends of lines. -/
def quotedString (text : List Char) : Front :=
  let body := text.takeWhile (· != '"')
  match text.drop body.length with
  | [] => .fault .unterminatedString
  | quote :: _ => .lexeme .string ('"' :: body ++ [quote])

/-- A character, from the text after its opening quote. It may be a quote, but
not the end of a line. -/
def quotedCharacter : List Char → Front
  | c :: '\'' :: _ =>
    if c == '\n' then .fault .invalidCharacter else .lexeme .character ['\'', c, '\'']
  | _ => .fault .invalidCharacter

/-- A mark. -/
def sign (text : List Char) : Front :=
  match Mark.ofFront? text with
  | some mark => .lexeme (.mark mark) mark.spelling.toList
  | none => .fault (.unknownText text)

/-- What a text that begins with the given character begins with. -/
def front (first : Char) (rest : List Char) : Front :=
  if isBlank first then .gap [first]
  else if first == '#' then .gap (first :: rest.takeWhile (· != '\n'))
  else if first == '\n' then .lexeme .newline [first]
  else if isNameStart first then word (first :: rest)
  else if first.isDigit then number (first :: rest)
  else if first == '"' then quotedString rest
  else if first == '\'' then quotedCharacter rest
  else sign (first :: rest)

/-- What is left of a text behind the fault that it begins with. A number is
passed over up to its last digit, and a string without end up to the end of the
text. -/
def afterFault : Fault → List Char → List Char
  | .invalidFloat, text => text.dropWhile Char.isDigit
  | .invalidInteger, text => text.dropWhile Char.isDigit
  | .unterminatedString, _ => []
  | .invalidCharacter, text => text.drop 1
  | .unknownToken _, text => text.drop 1

end Lexer

/-! ## The whole text -/

/-- A place where a text has no token: the error, and the text behind it. -/
structure Break where
  error : LexicalError
  behind : List Char

/-- A text as tokens: those that could be read, and then the line on which the
text ends or the place that stopped the reading. -/
structure Lexed where
  tokens : List Token
  stop : Except Break Nat

/-- The line on which the text ends, or the error that stopped the reading. -/
def Lexed.ending (lexed : Lexed) : Except LexicalError Nat := lexed.stop.mapError Break.error

@[simp]
theorem Lexed.ending_ok (tokens : List Token) (line : Nat) :
    ending ⟨tokens, .ok line⟩ = .ok line := rfl

@[simp]
theorem Lexed.ending_error (tokens : List Token) (fault : Break) :
    ending ⟨tokens, .error fault⟩ = .error fault.error := rfl

theorem Lexed.ending_eq_ok {lexed : Lexed} {line : Nat} :
    lexed.ending = .ok line ↔ lexed.stop = .ok line := by
  obtain ⟨tokens, stop⟩ := lexed
  cases stop <;> simp

namespace Lexer

/-- The tokens of a text that starts on the given line, after passing over the
given number of characters. -/
def lexFrom : Nat → Nat → List Char → Lexed
  | _, line, [] => ⟨[], .ok line⟩
  | passing + 1, line, _ :: rest => lexFrom passing line rest
  | 0, line, first :: rest =>
    match front first rest with
    | .gap text => lexFrom (text.length - 1) line rest
    | .lexeme kind text =>
      let after := lexFrom (text.length - 1) (line + text.count '\n') rest
      { after with tokens := ⟨kind, String.ofList text, line⟩ :: after.tokens }
    | .fault cause => ⟨[], .error ⟨⟨cause, line⟩, afterFault cause (first :: rest)⟩⟩

end Lexer

/-- The tokens of a program. -/
def Lexed.ofSource (source : String) : Lexed := Lexer.lexFrom 0 1 source.toList

end Pseudocode
