import Pseudocode.Grammar.Cursor
import Pseudocode.Token.Literal

/-!
# The grammar of expressions

```text
expression     := comparison ((AND | OR) comparison)*
comparison     := additive ((== | != | > | >= | < | <=) additive)?
additive       := multiplicative ((+ | - | &) multiplicative)*
multiplicative := exponent ((* | / | %) exponent)*
exponent       := primary (^ primary)*
primary        := literal | name | name [ expression ]
                | NOT comparison | (+ | -) primary | ( expression )
```

Operators of one level group from the left, powers from the right, and
comparisons do not chain. `NOT` takes a whole comparison, while a sign takes only
the primary after it.

Every level is a rule on top of the rule for primaries, so that only primaries
contain themselves.
-/

set_option autoImplicit false

namespace Pseudocode

/-- The operator that a token of the given kind stands for between two
operands. -/
def BinaryOp.ofKind? : Kind → Option BinaryOp
  | .keyword .AND => some and
  | .keyword .OR => some or
  | .mark .equal => some equal
  | .mark .notEqual => some notEqual
  | .mark .greater => some greater
  | .mark .greaterEqual => some greaterEqual
  | .mark .less => some less
  | .mark .lessEqual => some lessEqual
  | .mark .plus => some add
  | .mark .minus => some subtract
  | .mark .ampersand => some join
  | .mark .star => some multiply
  | .mark .slash => some divide
  | .mark .percent => some modulo
  | .mark .caret => some power
  | _ => none

namespace Grammar

open Parse

/-- The operators of the given level that a token can stand for. -/
def operatorOf (level : List BinaryOp) (kind : Kind) : Option BinaryOp :=
  (BinaryOp.ofKind? kind).filter (· ∈ level)

/-- The operators that join comparisons. -/
def logical : List BinaryOp := [.and, .or]

/-- The operators that compare. -/
def comparing : List BinaryOp :=
  [.equal, .notEqual, .greater, .greaterEqual, .less, .lessEqual]

/-- The operators that join terms. -/
def adding : List BinaryOp := [.add, .subtract, .join]

/-- The operators that join factors. -/
def multiplying : List BinaryOp := [.multiply, .divide, .modulo]

/-- Operands joined by operators of one level, grouped from the left. -/
def leftChain (level : List BinaryOp) (operand : Parse Expr) : Parse Expr := do
  let first ← operand
  loop (operatorOf level)
    (fun left op => do
      let _ ← advance
      let right ← operand
      return .binary op left right)
    first

/-- The power of a base, grouped from the right. -/
def powers (base : Expr) : List Expr → Expr
  | [] => base
  | exponent :: others => .binary .power base (powers exponent others)

/-- A primary, or a power of primaries. -/
def exponent (primary : Parse Expr) : Parse Expr := do
  let base ← primary
  let exponents ← loop (among [.mark .caret])
    (fun found _ => do
      let _ ← advance
      return found.push (← primary))
    #[]
  return powers base exponents.toList

/-- Factors. -/
def multiplicative (primary : Parse Expr) : Parse Expr :=
  leftChain multiplying (exponent primary)

/-- Terms. -/
def additive (primary : Parse Expr) : Parse Expr :=
  leftChain adding (multiplicative primary)

/-- Terms, or two of them compared. -/
def comparison (primary : Parse Expr) : Parse Expr := do
  let left ← additive primary
  match operatorOf comparing (← kind) with
  | some op =>
    let _ ← advance
    let right ← additive primary
    return .binary op left right
  | none => return left

/-- Comparisons joined by logical operators. -/
def expressionOf (primary : Parse Expr) : Parse Expr :=
  leftChain logical (comparison primary)

/-- The kinds of token that a primary starts with. -/
def primaryStart : List Kind :=
  [.integer, .float, .character, .string, .keyword .TRUE, .keyword .FALSE, .identifier,
    .keyword .NOT, .mark .plus, .mark .minus, .mark .leftParen]

/-- The index after the name of an array, if there is one. -/
def indexOf? (primary : Parse Expr) : Parse (Option Expr) :=
  following? (.mark .leftBracket) do
    let index ← expressionOf primary
    mark .rightBracket
    return index

/-- A name, with an index if one follows. -/
def symbolOf (name : String) (primary : Parse Expr) : Parse Expr := do
  match ← indexOf? primary with
  | some index => return .element name index
  | none => return .name name

/-- The literal of a token that was passed. -/
def literalOf (token : Token) : Parse Expr := fun cursor =>
  match Literal.ofToken token with
  | .ok literal => .ok (.literal literal) cursor
  | .error error => .error (.lexical error) cursor

/-- A primary, given the rule for the primaries inside it. -/
def primaryRule (primary : Parse Expr) : Parse Expr := do
  let token ← expectAny primaryStart
  match token.kind with
  | .identifier => symbolOf token.lexeme primary
  | .keyword .NOT => return .unary .not (← comparison primary)
  | .mark .plus => return .unary .plus (← primary)
  | .mark .minus => return .unary .minus (← primary)
  | .mark .leftParen =>
    let inner ← expressionOf primary
    mark .rightParen
    return inner
  | _ => literalOf token

/-- The smallest complete expression. -/
def primary : Parse Expr := recursive primaryRule

/-- An expression. -/
def expression : Parse Expr := expressionOf primary

/-- The index after the name of an array, if there is one. -/
def index? : Parse (Option Expr) := indexOf? primary

end Grammar

end Pseudocode
