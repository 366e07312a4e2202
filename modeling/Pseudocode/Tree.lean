import Pseudocode.DataType
import Pseudocode.Operator
import Pseudocode.Value

/-!
# Program trees

A program declares constants and variables and has a body of statements.
Statements and expressions are trees; they hold no lines, since a program that
could be read needs none.
-/

set_option autoImplicit false

namespace Pseudocode

/-- A value that is written out in a program. -/
inductive Literal where
  | integer (n : Integer)
  | float (x : Float)
  | character (c : Char)
  | string (s : String)
  | boolean (b : Bool)

/-- The value that a literal stands for. -/
def Literal.value : Literal → Value
  | integer n => .integer n
  | float x => .float x
  | character c => .character c
  | string s => .string s
  | boolean b => .boolean b

/-- An expression. -/
inductive Expr where
  | literal (literal : Literal)
  /-- A constant, a variable or a whole array. -/
  | name (name : String)
  /-- An element of an array. -/
  | element (name : String) (index : Expr)
  | unary (op : UnaryOp) (operand : Expr)
  | binary (op : BinaryOp) (left right : Expr)

/-- The name of the sort of an expression. -/
def Expr.category : Expr → String
  | literal _ => "VALUE"
  | name _ | element .. => "SYMBOL"
  | unary .. => "UNARY"
  | binary .. => "BINARY"

/-- A statement. -/
inductive Stmt where
  /-- Writes a variable. -/
  | assign (name : String) (value : Expr)
  /-- Writes an element of an array. -/
  | assignAt (name : String) (index value : Expr)
  /-- Prints values on one line. -/
  | print (values : List Expr)
  | branch (condition : Expr) (yes : List Stmt) (no : Option (List Stmt))
  /-- Repeats its body as long as the condition holds. -/
  | whileLoop (condition : Expr) (body : List Stmt)
  /-- Repeats its body once for each value of a counter. -/
  | forLoop (name : String) (first last step : Expr) (body : List Stmt)
  /-- Repeats its body until the condition holds, at least once. -/
  | repeatLoop (condition : Expr) (body : List Stmt)
  /-- Runs the first case whose value is that of the scrutinee. -/
  | switch (scrutinee : Expr) (cases : List (Expr × List Stmt)) (otherwise : Option (List Stmt))
  /-- Changes the length of an array. -/
  | resize (name : String) (size : Expr)

/-- The name of the sort of a statement. -/
def Stmt.category : Stmt → String
  | assign .. | assignAt .. => "ASSIGN"
  | print _ => "PRINT"
  | branch .. => "IF"
  | whileLoop .. => "WHILE"
  | forLoop .. => "FOR"
  | repeatLoop .. => "REPEAT"
  | switch .. => "SWITCH"
  | resize .. => "RESIZE"

/-- The declaration of a constant. -/
structure Constant where
  name : String
  value : Expr

/-- The declaration of a variable, or of an array when a size is given. -/
structure Variable where
  name : String
  type : DataType
  size : Option Expr

/-- What a program declares. -/
structure Declarations where
  constants : List Constant
  «variables» : List Variable

/-- A program. -/
structure Program where
  name : String
  declarations : Declarations
  body : List Stmt

end Pseudocode
