import Pseudocode.Proofs.Grammar.Derivation
import Pseudocode.Proofs.Token.Lexeme

/-!
# Printing programs

A tree is printed as a row of pieces, each the kind and the text of a token. The
text of a program has a blank after each piece, so that no two of them run
together, and each statement and declaration on a line of its own.

Parentheses stand around an operand only where its operator binds less tightly
than its place allows, and around every negation that is an operand of another
operator than `NOT`. A negation reaches as far as it can, so that what comes
after it would otherwise be read as part of it.

Not every tree has a text. Names have to be words that are not reserved, integers
must not be negative, strings hold no quotes and so on: the tree has to be
`Printable`.
-/

set_option autoImplicit false

namespace Pseudocode

open Grammar

/-! ## Pieces -/

/-- The kind and the text of a token. -/
structure Piece where
  kind : Kind
  text : List Char
deriving DecidableEq

namespace Piece

/-- A keyword. -/
def word (keyword : Keyword) : Piece := ⟨.keyword keyword, keyword.spelling.toList⟩

/-- A mark. -/
def mark (mark : Mark) : Piece := ⟨.mark mark, mark.spelling.toList⟩

/-- A name. -/
def name (name : String) : Piece := ⟨.identifier, name.toList⟩

/-- The end of a line. -/
def newline : Piece := ⟨.newline, ['\n']⟩

/-- A piece and the blank after it, which the end of a line does not need. -/
def written (piece : Piece) : List Char :=
  if piece.kind = .newline then piece.text else piece.text ++ [' ']

end Piece

/-! ## Floats

A float has many spellings, of which none is computed here. Any choice of one for
each float will do. -/

/-- A spelling for each float that has one. -/
structure FloatSpelling where
  spell : Float → List Char
  spells : ∀ x, Literal.IsFloatLiteral x →
    Lexeme .float (spell x) ∧ Literal.float? (spell x) = some x

/-- There are spellings for all floats. -/
noncomputable def FloatSpelling.any : FloatSpelling where
  spell x := open Classical in if found : Literal.IsFloatLiteral x then found.choose else []
  spells x found := by
    rw [dif_pos found]
    exact found.choose_spec

/-! ## Expressions -/

namespace Grammar.Precedence

/-- How tightly operators bind: the higher, the tighter. -/
def rank : Precedence → Nat
  | expression => 0
  | comparison => 1
  | additive => 2
  | multiplicative => 3
  | exponent => 4
  | primary => 5

/-- What may stand to the left of an operator of this precedence. Only comparing
operators and powers do not take their own kind there. -/
def left : Precedence → Precedence
  | comparison => additive
  | exponent => primary
  | level => level

/-- What may stand to the right of an operator of this precedence. Only powers
take their own kind there. -/
def right : Precedence → Precedence
  | expression => comparison
  | comparison => additive
  | additive => multiplicative
  | multiplicative => exponent
  | exponent => exponent
  | primary => primary

end Grammar.Precedence

namespace BinaryOp

/-- The precedence of the expressions that an operator makes. -/
def precedence : BinaryOp → Precedence
  | and | or => .expression
  | equal | notEqual | greater | greaterEqual | less | lessEqual => .comparison
  | add | subtract | join => .additive
  | multiply | divide | modulo => .multiplicative
  | power => .exponent

/-- How an operator is printed. -/
def piece : BinaryOp → Piece
  | and => .word .AND
  | or => .word .OR
  | equal => .mark .equal
  | notEqual => .mark .notEqual
  | greater => .mark .greater
  | greaterEqual => .mark .greaterEqual
  | less => .mark .less
  | lessEqual => .mark .lessEqual
  | add => .mark .plus
  | subtract => .mark .minus
  | join => .mark .ampersand
  | multiply => .mark .star
  | divide => .mark .slash
  | modulo => .mark .percent
  | power => .mark .caret

end BinaryOp

/-- How an operator before its operand is printed. -/
def UnaryOp.piece : UnaryOp → Piece
  | not => .word .NOT
  | plus => .mark .plus
  | minus => .mark .minus

namespace Expr

/-- A negation. -/
def isNot : Expr → Bool
  | unary .not _ => true
  | _ => false

/-- The precedence of an expression. Signs bind most tightly. -/
def precedence : Expr → Precedence
  | binary op _ _ => op.precedence
  | _ => .primary

/-- An expression binds less tightly than its place allows. -/
def looser (expr : Expr) (place : Precedence) : Bool := expr.precedence.rank < place.rank

theorem looser_comparison_of_isNot {expr : Expr} (isNot : expr.isNot = true) :
    expr.looser .comparison = false := by
  cases expr with
  | unary op operand => rfl
  | _ => cases isNot

end Expr

/-- Pieces in parentheses where they are needed. -/
def grouped (needed : Bool) (pieces : List Piece) : List Piece :=
  if needed then .mark .leftParen :: (pieces ++ [.mark .rightParen]) else pieces

section Printing

variable (floats : FloatSpelling)

/-- How a literal is printed. -/
def Literal.piece : Literal → Piece
  | integer n => ⟨.integer, Nat.toDigits 10 n.val.toNat⟩
  | float x => ⟨.float, floats.spell x⟩
  | character c => ⟨.character, ['\'', c, '\'']⟩
  | string s => ⟨.string, '"' :: (s.toList ++ ['"'])⟩
  | boolean true => .word .TRUE
  | boolean false => .word .FALSE

/-- How an expression is printed. -/
def Expr.pieces : Expr → List Piece
  | literal value => [value.piece floats]
  | name symbol => [.name symbol]
  | element symbol index =>
    .name symbol :: .mark .leftBracket :: (index.pieces ++ [.mark .rightBracket])
  | unary .not operand =>
    .word .NOT :: grouped (operand.looser .comparison) operand.pieces
  | unary op operand =>
    op.piece :: grouped (operand.isNot || operand.looser .primary) operand.pieces
  | binary op left right =>
    grouped (left.isNot || left.looser op.precedence.left) left.pieces ++
      op.piece :: grouped (right.isNot || right.looser op.precedence.right) right.pieces

/-- Pieces with commas between them. -/
def commas : List (List Piece) → List Piece
  | [] => []
  | [pieces] => pieces
  | pieces :: others => pieces ++ .mark .comma :: commas others

/-- An index in brackets, if there is one. -/
def indexPieces : Option Expr → List Piece
  | none => []
  | some index => .mark .leftBracket :: (index.pieces floats ++ [.mark .rightBracket])

/-! ## Statements -/

mutual

/-- How a statement is printed. -/
def Stmt.pieces : Stmt → List Piece
  | .assign name value => .word .LET :: .name name :: .mark .assign :: value.pieces floats
  | .assignAt name index value =>
    .word .LET :: .name name :: .mark .leftBracket ::
      (index.pieces floats ++ .mark .rightBracket :: .mark .assign :: value.pieces floats)
  | .print values => .word .PRINT :: commas (values.map (Expr.pieces floats))
  | .branch condition yes no =>
    .word .IF :: (condition.pieces floats ++ .word .THEN :: .newline ::
      (blockPieces yes ++ (otherwisePieces [.word .ELSE] no ++ [.word .ENDIF])))
  | .whileLoop condition body =>
    .word .WHILE :: (condition.pieces floats ++ .word .DO :: .newline ::
      (blockPieces body ++ [.word .ENDWHILE]))
  | .forLoop name first last step body =>
    .word .FOR :: .name name :: .word .FROM :: (first.pieces floats ++ .word .TO ::
      (last.pieces floats ++ .word .STEP :: (step.pieces floats ++ .newline ::
        (blockPieces body ++ [.word .ENDFOR]))))
  | .repeatLoop condition body =>
    .word .REPEAT :: .word .UNTIL :: (condition.pieces floats ++ .newline ::
      (blockPieces body ++ [.word .ENDREPEAT]))
  | .switch scrutinee cases otherwise =>
    .word .SWITCH :: (scrutinee.pieces floats ++ .newline :: (armPieces cases ++
      (otherwisePieces [.word .DEFAULT, .mark .colon] otherwise ++ [.word .ENDSWITCH])))
  | .resize name size => .word .RESIZE :: .name name :: .word .TO :: size.pieces floats

/-- Statements on lines of their own. -/
def blockPieces : List Stmt → List Piece
  | [] => []
  | stmt :: others => stmt.pieces ++ .newline :: blockPieces others

/-- The arms of a choice by value. -/
def armPieces : List (Expr × List Stmt) → List Piece
  | [] => []
  | (value, body) :: others =>
    .word .CASE :: (value.pieces floats ++ .mark .colon :: .newline ::
      (blockPieces body ++ armPieces others))

/-- The block that a statement may have after the given pieces. -/
def otherwisePieces (opening : List Piece) : Option (List Stmt) → List Piece
  | none => []
  | some body => opening ++ .newline :: blockPieces body

end

/-! ## Programs -/

/-- How a constant is declared. -/
def Constant.pieces (constant : Constant) : List Piece :=
  .name constant.name :: .mark .assign :: constant.value.pieces floats

/-- How a variable is declared. -/
def Variable.pieces (var : Variable) : List Piece :=
  .name var.name :: .mark .colon ::
    ((typeWord? var.type).toList.map Piece.word ++ indexPieces floats var.size)

/-- Lines under a heading, unless there are none. -/
def sectionPieces (heading : Keyword) (lines : List (List Piece)) : List Piece :=
  if lines.isEmpty then []
  else .word heading :: .newline :: lines.flatMap fun line => line ++ [.newline]

/-- How a program is printed. -/
def Program.pieces (program : Program) : List Piece :=
  .word .PROGRAM :: .name program.name :: .newline ::
    (sectionPieces .CONSTANTS (program.declarations.constants.map (Constant.pieces floats)) ++
      (sectionPieces .VARIABLES (program.declarations.variables.map (Variable.pieces floats)) ++
        .word .BEGIN :: .newline ::
          (blockPieces floats program.body ++ [.word .END, .newline])))

/-- The text of a program. -/
def Program.print (program : Program) : String :=
  String.ofList ((program.pieces floats).flatMap Piece.written)

end Printing

/-! ## Trees that have a text -/

/-- An expression with names and literals that can be written. -/
def Expr.Printable : Expr → Prop
  | literal value => value.Printable
  | name symbol => IsName symbol.toList
  | element symbol index => IsName symbol.toList ∧ index.Printable
  | unary _ operand => operand.Printable
  | binary _ left right => left.Printable ∧ right.Printable

/-- A statement with names and expressions that can be written. It prints at least
one value if it prints any. -/
inductive Stmt.Printable : Stmt → Prop where
  | assign {name : String} {value : Expr} (isName : IsName name.toList)
      (printed : value.Printable) : Printable (.assign name value)
  | assignAt {name : String} {index value : Expr} (isName : IsName name.toList)
      (placed : index.Printable) (printed : value.Printable) :
      Printable (.assignAt name index value)
  | print {values : List Expr} (some : values ≠ [])
      (printed : ∀ value ∈ values, value.Printable) : Printable (.print values)
  | branch {condition : Expr} {yes : List Stmt} {no : Option (List Stmt)}
      (tested : condition.Printable) (runs : ∀ stmt ∈ yes, Printable stmt)
      (others : ∀ block ∈ no, ∀ stmt ∈ block, Printable stmt) :
      Printable (.branch condition yes no)
  | whileLoop {condition : Expr} {body : List Stmt} (tested : condition.Printable)
      (runs : ∀ stmt ∈ body, Printable stmt) : Printable (.whileLoop condition body)
  | forLoop {name : String} {first last step : Expr} {body : List Stmt}
      (isName : IsName name.toList) (firsts : first.Printable) (lasts : last.Printable)
      (steps : step.Printable) (runs : ∀ stmt ∈ body, Printable stmt) :
      Printable (.forLoop name first last step body)
  | repeatLoop {condition : Expr} {body : List Stmt} (tested : condition.Printable)
      (runs : ∀ stmt ∈ body, Printable stmt) : Printable (.repeatLoop condition body)
  | switch {scrutinee : Expr} {cases : List (Expr × List Stmt)} {otherwise : Option (List Stmt)}
      (switched : scrutinee.Printable) (shown : ∀ arm ∈ cases, arm.1.Printable)
      (runs : ∀ arm ∈ cases, ∀ stmt ∈ arm.2, Printable stmt)
      (others : ∀ block ∈ otherwise, ∀ stmt ∈ block, Printable stmt) :
      Printable (.switch scrutinee cases otherwise)
  | resize {name : String} {size : Expr} (isName : IsName name.toList)
      (printed : size.Printable) : Printable (.resize name size)

/-- A constant that can be declared in a text. -/
structure Constant.Printable (constant : Constant) : Prop where
  isName : IsName constant.name.toList
  printed : constant.value.Printable

/-- A variable that can be declared in a text. There is no word for whole arrays as
a type. -/
structure Variable.Printable (var : Variable) : Prop where
  isName : IsName var.name.toList
  typed : var.type ≠ .array
  sized : ∀ size ∈ var.size, size.Printable

/-- A program that has a text. -/
structure Program.Printable (program : Program) : Prop where
  isName : IsName program.name.toList
  constants : ∀ constant ∈ program.declarations.constants, constant.Printable
  vars : ∀ var ∈ program.declarations.variables, var.Printable
  body : ∀ stmt ∈ program.body, stmt.Printable

end Pseudocode
