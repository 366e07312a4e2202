/-!
# Tokens

The words, marks and literals that a program is written with. A token keeps its
kind, the text it was read from and the line on which that text starts.

Kinds have a name for messages: keywords and marks are named by their spelling,
the other kinds by a description. Blanks and comments have kinds too, although
no token ever has one of them, since they only separate tokens.
-/

set_option autoImplicit false

namespace Pseudocode

/-- A reserved word. -/
inductive Keyword where
  | PROGRAM | BEGIN | END | VARIABLES | CONSTANTS
  | INTEGER | FLOAT | CHARACTER | STRING | BOOLEAN
  | TRUE | FALSE
  | LET | PRINT
  | IF | THEN | ELSE | ENDIF
  | WHILE | DO | ENDWHILE
  | FOR | FROM | TO | STEP | ENDFOR
  | REPEAT | UNTIL | ENDREPEAT
  | SWITCH | CASE | DEFAULT | ENDSWITCH
  | RESIZE
  | AND | OR | NOT
deriving DecidableEq, Inhabited

namespace Keyword

/-- Every keyword once. -/
def all : List Keyword :=
  [PROGRAM, BEGIN, END, VARIABLES, CONSTANTS, INTEGER, FLOAT, CHARACTER, STRING, BOOLEAN, TRUE,
    FALSE, LET, PRINT, IF, THEN, ELSE, ENDIF, WHILE, DO, ENDWHILE, FOR, FROM, TO, STEP, ENDFOR,
    REPEAT, UNTIL, ENDREPEAT, SWITCH, CASE, DEFAULT, ENDSWITCH, RESIZE, AND, OR, NOT]

/-- How the keyword is written. -/
def spelling : Keyword → String
  | PROGRAM => "PROGRAM"
  | BEGIN => "BEGIN"
  | END => "END"
  | VARIABLES => "VARIABLES"
  | CONSTANTS => "CONSTANTS"
  | INTEGER => "INTEGER"
  | FLOAT => "FLOAT"
  | CHARACTER => "CHARACTER"
  | STRING => "STRING"
  | BOOLEAN => "BOOLEAN"
  | TRUE => "TRUE"
  | FALSE => "FALSE"
  | LET => "LET"
  | PRINT => "PRINT"
  | IF => "IF"
  | THEN => "THEN"
  | ELSE => "ELSE"
  | ENDIF => "ENDIF"
  | WHILE => "WHILE"
  | DO => "DO"
  | ENDWHILE => "ENDWHILE"
  | FOR => "FOR"
  | FROM => "FROM"
  | TO => "TO"
  | STEP => "STEP"
  | ENDFOR => "ENDFOR"
  | REPEAT => "REPEAT"
  | UNTIL => "UNTIL"
  | ENDREPEAT => "ENDREPEAT"
  | SWITCH => "SWITCH"
  | CASE => "CASE"
  | DEFAULT => "DEFAULT"
  | ENDSWITCH => "ENDSWITCH"
  | RESIZE => "RESIZE"
  | AND => "AND"
  | OR => "OR"
  | NOT => "NOT"

/-- The keyword that a word spells, in capital letters only. -/
def ofSpelling? (word : String) : Option Keyword :=
  all.find? fun keyword => keyword.spelling == word

end Keyword

/-- A punctuation mark or operator sign. -/
inductive Mark where
  | comma | colon | leftParen | rightParen | leftBracket | rightBracket
  | plus | minus | star | slash | percent | caret | ampersand
  | assign | equal | notEqual | greater | greaterEqual | less | lessEqual
deriving DecidableEq, Inhabited

namespace Mark

/-- Every mark once. A mark comes before the marks it starts with, so the first
one that a text starts with is the longest. -/
def all : List Mark :=
  [equal, notEqual, greaterEqual, lessEqual, comma, colon, leftParen, rightParen, leftBracket,
    rightBracket, plus, minus, star, slash, percent, caret, ampersand, assign, greater, less]

/-- How the mark is written. -/
def spelling : Mark → String
  | comma => ","
  | colon => ":"
  | leftParen => "("
  | rightParen => ")"
  | leftBracket => "["
  | rightBracket => "]"
  | plus => "+"
  | minus => "-"
  | star => "*"
  | slash => "/"
  | percent => "%"
  | caret => "^"
  | ampersand => "&"
  | assign => "="
  | equal => "=="
  | notEqual => "!="
  | greater => ">"
  | greaterEqual => ">="
  | less => "<"
  | lessEqual => "<="

/-- The longest mark that a text starts with. -/
def ofFront? (text : List Char) : Option Mark :=
  all.find? fun mark => mark.spelling.toList.isPrefixOf text

end Mark

/-- The kind of a token. -/
inductive Kind where
  /-- The end of the text. -/
  | eof
  | newline
  | identifier
  | integer
  | float
  | character
  | string
  | mark (mark : Mark)
  | keyword (keyword : Keyword)
  | comment
  | blank
deriving DecidableEq, Inhabited

namespace Kind

/-- Every kind once. -/
def all : List Kind :=
  [eof, newline, identifier, integer, float, character, string, comment, blank] ++
    Mark.all.map mark ++ Keyword.all.map keyword

/-- The name of the kind in messages. -/
def name : Kind → String
  | eof => "EOF"
  | newline => "NEWLINE"
  | identifier => "IDENT"
  | integer => "INT_TYPE"
  | float => "FLOAT_TYPE"
  | character => "CHAR_TYPE"
  | string => "STR_TYPE"
  | mark m => m.spelling
  | keyword k => k.spelling
  | comment => "COMMENT"
  | blank => "WHITESPACE"

/-- The kind with the given name. -/
def ofName? (text : String) : Option Kind :=
  all.find? fun kind => kind.name == text

end Kind

/-- A token. -/
structure Token where
  kind : Kind
  /-- The text of the token, empty at the end of the program. -/
  lexeme : String
  /-- The line on which the text starts, counted from one. -/
  line : Nat
deriving DecidableEq, Inhabited

namespace Token

/-- The token after the last one. -/
def eof (line : Nat) : Token := ⟨.eof, "", line⟩

end Token

end Pseudocode
