import Pseudocode.Proofs.Grammar.Derivation

/-!
# Expressions from left to right

The rules for expressions say how their tokens are grouped. Without the groups
an expression is a row: operands with signs before them and operators between
them. Since `NOT` takes a whole comparison, a row may be grouped in several ways,
but whether a row can be grouped at all is a matter of counting. A comparison may
hold one comparing operator, and each `NOT` opens one comparison more. In a `Row`
the places before and after an operand carry the number of comparing operators
that may still come.

Every derivation is such a row (`Derives.row`).
-/

set_option autoImplicit false

namespace Pseudocode.Grammar

/-- The operators that bind more tightly than comparing ones. -/
def arithmetic : List BinaryOp := .power :: (multiplying ++ adding)

/-- The parts of a row. -/
inductive Place where
  /-- A literal, a name, or whatever stands between brackets. -/
  | atom
  /-- From an operand on, with a number of comparing operators to come. -/
  | operand (spare : Nat)
  /-- From after an operand on. -/
  | tail (spare : Nat)
  /-- Rows with logical operators between them. -/
  | joined

/-- A row of tokens, whatever its groups. -/
inductive Row : Place → List Token → Prop where
  | literal {token : Token} {value : Literal} (isLiteral : token.kind ∈ literalKinds)
      (stands : Literal.ofToken token = .ok value) : Row .atom [token]
  | name {token : Token} (isName : token.kind = .identifier) : Row .atom [token]
  | element {name opening closing : Token} {inner : List Token}
      (isName : name.kind = .identifier) (opens : opening.kind = .mark .leftBracket)
      (within : Row .joined inner) (closes : closing.kind = .mark .rightBracket) :
      Row .atom (name :: opening :: (inner ++ [closing]))
  | group {opening closing : Token} {inner : List Token} (opens : opening.kind = .mark .leftParen)
      (within : Row .joined inner) (closes : closing.kind = .mark .rightParen) :
      Row .atom (opening :: (inner ++ [closing]))
  | first {spare : Nat} {tokens rest : List Token} (atom : Row .atom tokens)
      (after : Row (.tail spare) rest) : Row (.operand spare) (tokens ++ rest)
  | sign {spare : Nat} {sign : Token} {op : UnaryOp} {rest : List Token}
      (isSign : signOf? sign.kind = some op) (after : Row (.operand spare) rest) :
      Row (.operand spare) (sign :: rest)
  | not {spare : Nat} {word : Token} {rest : List Token} (isNot : word.kind = .keyword .NOT)
      (after : Row (.operand (spare + 1)) rest) : Row (.operand spare) (word :: rest)
  | nothing {spare : Nat} : Row (.tail spare) []
  | operator {spare : Nat} {sign : Token} {op : BinaryOp} {rest : List Token}
      (isSign : BinaryOp.ofKind? sign.kind = some op) (joins : op ∈ arithmetic)
      (after : Row (.operand spare) rest) : Row (.tail spare) (sign :: rest)
  | compare {spare : Nat} {sign : Token} {op : BinaryOp} {rest : List Token}
      (isSign : BinaryOp.ofKind? sign.kind = some op) (compares : op ∈ comparing)
      (after : Row (.operand spare) rest) : Row (.tail (spare + 1)) (sign :: rest)
  | single {tokens : List Token} (within : Row (.operand 1) tokens) : Row .joined tokens
  | join {first second : List Token} {sign : Token} {op : BinaryOp}
      (before : Row (.operand 1) first) (isSign : BinaryOp.ofKind? sign.kind = some op)
      (joins : op ∈ logical) (after : Row .joined second) : Row .joined (first ++ sign :: second)

namespace Place

/-- The same part with more comparing operators to come. -/
def sparing (more : Nat) : Place → Place
  | operand spare => operand (spare + more)
  | tail spare => tail (spare + more)
  | place => place

/-- Parts that can be longer. -/
def IsOpen : Place → Prop
  | operand _ => True
  | tail _ => True
  | _ => False

end Place

namespace Row

variable {place : Place} {tokens rest : List Token}

/-- Comparing operators need not come. -/
theorem sparing (row : Row place tokens) (more : Nat) : Row (place.sparing more) tokens := by
  induction row with
  | literal isLiteral stands => exact .literal isLiteral stands
  | name isName => exact .name isName
  | element isName opens within closes ih => exact .element isName opens within closes
  | group opens within closes ih => exact .group opens within closes
  | first atom after _ ih => exact .first atom ih
  | sign isSign after ih => exact .sign isSign ih
  | not isNot after ih =>
      refine .not isNot ?_
      rwa [Place.sparing, Nat.add_right_comm] at ih
  | nothing => exact .nothing
  | operator isSign joins after ih => exact .operator isSign joins ih
  | @compare spare sign op rest isSign compares after ih =>
      rw [Place.sparing, Nat.add_right_comm]
      exact .compare isSign compares ih
  | single within ih => exact .single within
  | join before isSign joins after => exact .join before isSign joins after

/-- A row goes on with what may come after an operand. The comparing operators in
it are added to those that the row had left. -/
theorem append (row : Row place tokens) (isOpen : place.IsOpen) {more : Nat}
    (after : Row (.tail more) rest) : Row (place.sparing more) (tokens ++ rest) := by
  induction row with
  | literal => cases isOpen
  | name => cases isOpen
  | element => cases isOpen
  | group => cases isOpen
  | first atom _ _ ih =>
      rw [List.append_assoc]
      exact .first atom (ih trivial)
  | sign isSign _ ih => exact .sign isSign (ih trivial)
  | not isNot _ ih =>
      refine .not isNot ?_
      have longer := ih trivial
      rwa [Place.sparing, Nat.add_right_comm] at longer
  | @nothing spare =>
      rw [Place.sparing, Nat.add_comm]
      exact after.sparing spare
  | operator isSign joins _ ih => exact .operator isSign joins (ih trivial)
  | compare isSign compares _ ih =>
      rw [Place.sparing, Nat.add_right_comm]
      exact .compare isSign compares (ih trivial)
  | single => cases isOpen
  | join => cases isOpen

theorem ofAtom (atom : Row .atom tokens) {spare : Nat} : Row (.operand spare) tokens := by
  have row : Row (.operand spare) (tokens ++ []) := .first atom .nothing
  rwa [List.append_nil] at row

/-- Rows are joined at either end. -/
theorem joinLast {first second : List Token} {sign : Token} {op : BinaryOp}
    (before : Row .joined first) (isSign : BinaryOp.ofKind? sign.kind = some op)
    (joins : op ∈ logical) (after : Row (.operand 1) second) :
    Row .joined (first ++ sign :: second) := by
  generalize isJoined : Place.joined = place at before
  induction before with
  | single within => exact .join within isSign joins (.single after)
  | join before isSign' joins' _ _ ih =>
      rw [List.append_assoc]
      exact .join before isSign' joins' (ih isJoined)
  | _ => cases isJoined

end Row

/-- The part of a row that is an expression of the given precedence. -/
def Precedence.place : Precedence → Place
  | .expression => .joined
  | .comparison => .operand 1
  | _ => .operand 0

/-- **Whatever is derived is a row.** -/
theorem Derives.row {level : Precedence} {tokens : List Token} {expr : Expr}
    (derived : Derives level tokens expr) : Row level.place tokens := by
  induction derived with
  | literal isLiteral stands => exact Row.ofAtom (.literal isLiteral stands)
  | name isName => exact Row.ofAtom (.name isName)
  | element isName opens _ closes ih => exact Row.ofAtom (.element isName opens ih closes)
  | not isNot _ ih => exact .not isNot ih
  | sign isSign _ ih => exact .sign isSign ih
  | group opens _ closes ih => exact Row.ofAtom (.group opens ih closes)
  | @single lower upper tokens expr next _ ih =>
      cases upper with
      | expression =>
          cases next
          exact .single ih
      | comparison =>
          cases next
          exact ih.sparing 1
      | additive => cases next; exact ih
      | multiplicative => cases next; exact ih
      | exponent => cases next; exact ih
      | primary => cases next
  | @join lower upper first second sign op left right next _ isSign joins _ before after =>
      cases upper with
      | expression =>
          cases next
          exact before.joinLast isSign joins after
      | additive =>
          cases next
          have tighter : op ∈ arithmetic :=
            List.mem_cons_of_mem _ (List.mem_append_right _ joins)
          exact before.append trivial (.operator isSign tighter after)
      | multiplicative =>
          cases next
          have tighter : op ∈ arithmetic :=
            List.mem_cons_of_mem _ (List.mem_append_left _ joins)
          exact before.append trivial (.operator isSign tighter after)
      | comparison => cases joins
      | exponent => cases joins
      | primary => cases next
  | compare _ isSign compares _ before after =>
      exact before.append trivial (.compare isSign compares after)
  | @power first second sign _ _ _ isSign _ before after =>
      have isPower : BinaryOp.ofKind? sign.kind = some .power := by
        rw [isSign]
        rfl
      exact before.append trivial (.operator isPower List.mem_cons_self after)

end Pseudocode.Grammar
