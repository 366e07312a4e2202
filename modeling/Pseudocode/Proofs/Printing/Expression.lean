import Pseudocode.Proofs.Grammar.Completeness
import Pseudocode.Proofs.Printing.Lexing

/-!
# Reading printed expressions

Where no negation is an operand, an expression has one tree only, and reading
finds it. For each precedence there is a way to say that tokens are read as an
expression of it (`Bare`), in such a form that the expression can still become a
part of a longer one: the operands of a level that groups from the left are read
by one loop, so the first of them is known only as what the loop has found before
the others come (`Chain`), and powers are found in a row before they are grouped
(`Tower`). This is closed under every rule of the grammar but the one for
negations.

A printed expression is a negation or bare, and so it is read in full
(`Expr.pieces_whole`).
-/

set_option autoImplicit false

namespace Pseudocode

namespace Grammar

open Parse

namespace Precedence

/-- The rule that reads expressions of a precedence. -/
def rule : Precedence → Parse Expr
  | expression => Grammar.expression
  | comparison => Grammar.comparison Grammar.primary
  | additive => Grammar.additive Grammar.primary
  | multiplicative => Grammar.multiplicative Grammar.primary
  | exponent => Grammar.exponent Grammar.primary
  | primary => Grammar.primary

/-- The operators that may follow an expression of a precedence: those that bind
less tightly. -/
def after (level : Precedence) : List BinaryOp :=
  BinaryOp.all.filter fun op => op.precedence.rank < level.rank

theorem mem_after {level : Precedence} {op : BinaryOp} :
    op ∈ level.after ↔ op.precedence.rank < level.rank := by
  have every : op ∈ BinaryOp.all := by cases op <;> decide
  simp [after, every]

theorem precedence_of_joining {level : Precedence} :
    ∀ op ∈ level.joining, op.precedence = level := by
  cases level <;> decide

theorem rank_tighter {upper lower : Precedence} (next : upper.tighter? = some lower) :
    lower.rank = upper.rank + 1 := by
  cases upper <;> cases next <;> rfl

end Precedence

open Precedence

/-! ## What follows an expression -/

theorem Ends.tighter {upper lower : Precedence} {rest : List Token} (ends : Ends upper.after rest)
    (next : upper.tighter? = some lower) : Ends lower.after rest := by
  refine ends.mono fun op looser => ?_
  rw [mem_after] at looser ⊢
  rw [rank_tighter next]
  omega

/-- The tokens are read in full as an expression of a precedence. -/
def Full (level : Precedence) (tokens : List Token) (expr : Expr) : Prop :=
  ∀ rest, Ends level.after rest → Reads level.rule (tokens ++ rest) expr rest

/-! ## Operators that group from the left -/

/-- One round of a loop that joins operands. -/
abbrev joinRound (lower : Precedence) : Expr → BinaryOp → Parse Expr :=
  operatorRound lower.rule fun left op right => .binary op left right

/-- The loop of a level has found the expression when it has read the tokens, and
then goes on with whatever comes. -/
def Chain (upper lower : Precedence) (tokens : List Token) (expr : Expr) : Prop :=
  ∀ rest final last, Ends lower.after rest →
    Rounds (operatorOf upper.joining) (joinRound lower) rest expr final last →
    Reads (leftChain upper.joining lower.rule) (tokens ++ rest) final last

namespace Chain

variable {upper lower : Precedence} {tokens first second : List Token} {expr left right : Expr}

theorem single (full : Full lower tokens expr) : Chain upper lower tokens expr :=
  fun rest _ _ ends rounds => .bind (full rest ends) rounds.reads

theorem join (next : upper.tighter? = some lower) (before : Chain upper lower first left)
    {sign : Token} {op : BinaryOp} (isSign : BinaryOp.ofKind? sign.kind = some op)
    (joins : op ∈ upper.joining) (after : Full lower second right) :
    Chain upper lower (first ++ sign :: second) (.binary op left right) := by
  intro rest final last ends rounds
  have looser : op ∈ lower.after := by
    rw [mem_after, precedence_of_joining op joins, rank_tighter next]
    omega
  rw [List.append_assoc]
  refine before _ final last (.operator isSign looser _) ?_
  refine .next (operatorOf_eq_some.2 ⟨isSign, joins⟩) ?_ ?_ rounds
  · exact .bind .advance (.bind (after rest ends) .pure)
  · simp only [List.cons_append, List.length_cons, List.length_append]
    omega

theorem reads (next : upper.tighter? = some lower) (chain : Chain upper lower tokens expr)
    {rest : List Token} (ends : Ends upper.after rest) :
    Reads (leftChain upper.joining lower.rule) (tokens ++ rest) expr rest := by
  have stop : operatorOf upper.joining (headKind rest) = none := by
    refine (operatorOf_asks _).stop ends fun op joins looser => ?_
    rw [mem_after, precedence_of_joining op joins] at looser
    omega
  exact chain rest expr rest (ends.tighter next) (.stop stop)

end Chain

/-! ## Powers -/

/-- Primaries with the sign of powers between them, grouped from the right. -/
inductive Tower : List Token → Expr → Prop where
  | base {tokens : List Token} {expr : Expr} (full : Full .primary tokens expr) :
      Tower tokens expr
  | power {first second : List Token} {sign : Token} {base exponent : Expr}
      (full : Full .primary first base) (isSign : sign.kind = .mark .caret)
      (others : Tower second exponent) :
      Tower (first ++ sign :: second) (.binary .power base exponent)

/-- One round of the loop over exponents. -/
abbrev powerRound : Array Expr → Unit → Parse (Array Expr) :=
  operatorRound primary fun found _ expr => found.push expr

/-- The base is read first, and then the loop finds the exponents. -/
theorem Tower.rounds {tokens : List Token} {expr : Expr} (tower : Tower tokens expr) :
    ∃ base exponents, powers base exponents = expr ∧ ∀ rest, Ends Precedence.exponent.after rest →
      ∃ middle, middle.length ≤ (tokens ++ rest).length ∧
        Reads Grammar.primary (tokens ++ rest) base middle ∧
        ∀ found : Array Expr, Rounds (among [.mark .caret]) powerRound middle found
          (found ++ exponents.toArray) rest := by
  induction tower with
  | @base tokens expr full =>
      refine ⟨expr, [], rfl, fun rest ends => ?_⟩
      have stop : among [.mark .caret] (headKind rest) = none := among_asks.stop ends (by decide)
      refine ⟨rest, ?_, full rest (ends.tighter rfl), fun found => ?_⟩
      · rw [List.length_append]
        omega
      · rw [Array.append_empty]
        exact .stop stop
  | @power first second sign base exponent full isSign others ih =>
      obtain ⟨inner, exponents, rfl, reads⟩ := ih
      refine ⟨base, inner :: exponents, rfl, fun rest ends => ?_⟩
      obtain ⟨middle, fewer, innerRead, rounds⟩ := reads rest ends
      have isPower : BinaryOp.ofKind? sign.kind = some .power := by
        rw [isSign]
        rfl
      have asks : among [.mark .caret] sign.kind = some () := by
        rw [isSign]
        rfl
      rw [List.append_assoc]
      refine ⟨sign :: (second ++ rest), ?_, ?_, fun found => ?_⟩
      · simp only [List.cons_append, List.length_append, List.length_cons]
        omega
      · exact full _ (.operator isPower (by decide) _)
      · have more := rounds (found.push inner)
        have same :
            found.push inner ++ exponents.toArray = found ++ (inner :: exponents).toArray := by
          simp
        rw [same] at more
        refine .next asks (.bind .advance (.bind innerRead .pure)) ?_ more
        rw [List.length_cons]
        omega

theorem Tower.full {tokens : List Token} {expr : Expr} (tower : Tower tokens expr) :
    Full .exponent tokens expr := by
  obtain ⟨base, exponents, rfl, reads⟩ := tower.rounds
  intro rest ends
  obtain ⟨middle, _, baseRead, rounds⟩ := reads rest ends
  have all := rounds #[]
  rw [Array.empty_append] at all
  exact .bind baseRead (.bind all.reads .pure)

/-! ## Expressions of a precedence -/

/-- The tokens are an expression of a precedence that can become a part of a
longer one. -/
def Bare : Precedence → List Token → Expr → Prop
  | .expression => Chain .expression .comparison
  | .comparison => Full .comparison
  | .additive => Chain .additive .multiplicative
  | .multiplicative => Chain .multiplicative .exponent
  | .exponent => Tower
  | .primary => Full .primary

namespace Bare

variable {level place : Precedence} {tokens first second : List Token} {expr left right : Expr}
  {sign : Token} {op : BinaryOp}

theorem full (bare : Bare level tokens expr) : Full level tokens expr := by
  cases level with
  | expression => exact fun rest => Chain.reads rfl bare
  | comparison => exact bare
  | additive => exact fun rest => Chain.reads rfl bare
  | multiplicative => exact fun rest => Chain.reads rfl bare
  | exponent => exact Tower.full bare
  | primary => exact bare

theorem whole (bare : Bare .expression tokens expr) : Whole tokens expr := bare.full

/-- An expression is one of the next looser precedence. -/
theorem single (next : place.tighter? = some level) (bare : Bare level tokens expr) :
    Bare place tokens expr := by
  have full := bare.full
  cases place with
  | expression =>
      cases next
      exact Chain.single full
  | comparison =>
      cases next
      intro rest ends
      have stop : operatorOf comparing (headKind rest) = none :=
        (operatorOf_asks comparing).stop ends (by decide)
      refine .bind (full rest (ends.tighter rfl)) (.kind ?_)
      rw [stop]
      exact .pure
  | additive =>
      cases next
      exact Chain.single full
  | multiplicative =>
      cases next
      exact Chain.single full
  | exponent =>
      cases next
      exact Tower.base full
  | primary => cases next

/-- An expression can stand wherever a looser one can. -/
theorem loosen (bare : Bare level tokens expr) (allowed : place.rank ≤ level.rank) :
    Bare place tokens expr := by
  obtain ⟨steps, distance⟩ := Nat.exists_eq_add_of_le allowed
  induction steps generalizing place with
  | zero =>
      have same : place = level := by
        cases place <;> cases level <;> cases distance <;> rfl
      rwa [same]
  | succ steps ih =>
      cases next : place.tighter? with
      | none =>
          have last : place = .primary := by
            cases place <;> cases next
            rfl
          have most : level.rank ≤ 5 := by cases level <;> decide
          rw [distance, last, Precedence.rank] at most
          omega
      | some lower =>
          have rank := rank_tighter next
          exact single next (ih (by omega) (by omega))

/-! ## Rules for operators -/

theorem join (isJoining : op ∈ op.precedence.joining) (before : Bare op.precedence first left)
    (isSign : BinaryOp.ofKind? sign.kind = some op)
    (after : Bare op.precedence.right second right) :
    Bare op.precedence (first ++ sign :: second) (.binary op left right) := by
  generalize op.precedence = level at before after isJoining ⊢
  cases level with
  | expression => exact Chain.join rfl before isSign isJoining after.full
  | additive => exact Chain.join rfl before isSign isJoining after.full
  | multiplicative => exact Chain.join rfl before isSign isJoining after.full
  | comparison => cases isJoining
  | exponent => cases isJoining
  | primary => cases isJoining

theorem compare (compares : op ∈ comparing) (before : Bare .additive first left)
    (isSign : BinaryOp.ofKind? sign.kind = some op) (after : Bare .additive second right) :
    Bare .comparison (first ++ sign :: second) (.binary op left right) := by
  intro rest ends
  have looser : ∀ op ∈ comparing, op ∈ Precedence.additive.after := by decide
  have found : operatorOf comparing (headKind (sign :: (second ++ rest))) = some op :=
    operatorOf_eq_some.2 ⟨isSign, compares⟩
  rw [List.append_assoc]
  refine .bind (before.full _ (.operator isSign (looser op compares) _)) (.kind ?_)
  rw [List.cons_append, found]
  exact .bind .advance (.bind (after.full rest (ends.tighter rfl)) .pure)

theorem power (before : Bare .primary first left) (isSign : sign.kind = .mark .caret)
    (after : Bare .exponent second right) :
    Bare .exponent (first ++ sign :: second) (.binary .power left right) :=
  Tower.power before isSign after

/-- The operands of an operator are where they may be. -/
theorem binary (before : Bare op.precedence.left first left)
    (isSign : sign.kind = op.piece.kind) (after : Bare op.precedence.right second right) :
    Bare op.precedence (first ++ sign :: second) (.binary op left right) := by
  have isOperator : BinaryOp.ofKind? sign.kind = some op := by
    rw [isSign]
    cases op <;> rfl
  cases op with
  | power => exact power before isSign after
  | equal => exact compare (by decide) before isOperator after
  | notEqual => exact compare (by decide) before isOperator after
  | greater => exact compare (by decide) before isOperator after
  | greaterEqual => exact compare (by decide) before isOperator after
  | less => exact compare (by decide) before isOperator after
  | lessEqual => exact compare (by decide) before isOperator after
  | _ => exact join (by decide) before isOperator after

end Bare

/-! ## Negations -/

/-- The tokens are read as a negation, which only logical operators can follow. -/
def Negation (tokens : List Token) (expr : Expr) : Prop :=
  ∀ rest, Ends logical rest → Reads Grammar.primary (tokens ++ rest) expr rest

theorem Negation.full {tokens : List Token} {expr : Expr} (negation : Negation tokens expr) :
    Full .comparison tokens expr := by
  intro rest ends
  have chain : ∀ (level : List BinaryOp) (operand : Parse Expr), (∀ op ∈ level, op ∉ logical) →
      Reads operand (tokens ++ rest) expr rest →
      Reads (leftChain level operand) (tokens ++ rest) expr rest := by
    intro level operand apart reads
    exact .bind reads (Rounds.stop ((operatorOf_asks level).stop ends apart)).reads
  have base : Reads (exponent Grammar.primary) (tokens ++ rest) expr rest :=
    .bind (negation rest ends) (.bind (Rounds.stop (among_asks.stop ends (by decide))).reads .pure)
  have factors : Reads (multiplicative Grammar.primary) (tokens ++ rest) expr rest :=
    chain multiplying _ (by decide) base
  have terms : Reads (additive Grammar.primary) (tokens ++ rest) expr rest :=
    chain adding _ (by decide) factors
  have stop : operatorOf comparing (headKind rest) = none :=
    (operatorOf_asks comparing).stop ends (by decide)
  refine .bind terms (.kind ?_)
  rw [stop]
  exact .pure

/-- What is known of the tokens of a printed expression. -/
structure Printed (tokens : List Token) (expr : Expr) : Prop where
  bare : expr.isNot = false → Bare expr.precedence tokens expr
  negation : expr.isNot = true → Negation tokens expr

theorem Printed.whole {tokens : List Token} {expr : Expr} (printed : Printed tokens expr) :
    Whole tokens expr := by
  cases isNot : expr.isNot with
  | false => exact ((printed.bare isNot).loosen (Nat.zero_le _)).whole
  | true =>
      have comparison : Bare .comparison tokens expr := (printed.negation isNot).full
      exact (Bare.single rfl comparison).whole

end Grammar

open Grammar

/-- The tokens have these kinds and texts. -/
def Spelled (tokens : List Token) (pieces : List Piece) : Prop :=
  tokens.map Token.piece = pieces

namespace Spelled

variable {tokens : List Token} {piece : Piece} {pieces first second : List Piece}

theorem nil (spelled : Spelled tokens []) : tokens = [] := List.map_eq_nil_iff.1 spelled

theorem cons (spelled : Spelled tokens (piece :: pieces)) :
    ∃ token rest, tokens = token :: rest ∧ token.piece = piece ∧ Spelled rest pieces :=
  List.map_eq_cons_iff.1 spelled

theorem append (spelled : Spelled tokens (first ++ second)) :
    ∃ front rest, tokens = front ++ rest ∧ Spelled front first ∧ Spelled rest second :=
  List.map_eq_append_iff.1 spelled

theorem single (spelled : Spelled tokens [piece]) :
    ∃ token, tokens = [token] ∧ token.piece = piece :=
  List.map_eq_singleton_iff.1 spelled

theorem word {keyword : Keyword} (spelled : Spelled tokens (.word keyword :: pieces)) :
    ∃ token rest, tokens = token :: rest ∧ token.kind = .keyword keyword ∧ Spelled rest pieces := by
  obtain ⟨token, rest, split, same, spelled⟩ := spelled.cons
  exact ⟨token, rest, split, congrArg Piece.kind same, spelled⟩

theorem mark {mark : Mark} (spelled : Spelled tokens (.mark mark :: pieces)) :
    ∃ token rest, tokens = token :: rest ∧ token.kind = .mark mark ∧ Spelled rest pieces := by
  obtain ⟨token, rest, split, same, spelled⟩ := spelled.cons
  exact ⟨token, rest, split, congrArg Piece.kind same, spelled⟩

theorem name {name : String} (spelled : Spelled tokens (.name name :: pieces)) :
    ∃ token rest, tokens = token :: rest ∧ token.kind = .identifier ∧ token.lexeme = name ∧
      Spelled rest pieces := by
  obtain ⟨token, rest, split, same, spelled⟩ := spelled.cons
  have spelling : token.lexeme.toList = name.toList := congrArg Piece.text same
  exact ⟨token, rest, split, congrArg Piece.kind same, String.toList_injective spelling, spelled⟩

end Spelled

/-- The token of a printed literal stands for it. -/
theorem Literal.ofToken_of_piece {floats : FloatSpelling} {value : Literal} {token : Token}
    (printed : value.Printable) (same : token.piece = value.piece floats) :
    token.kind ∈ literalKinds ∧ Literal.ofToken token = .ok value := by
  obtain ⟨kind, lexeme, line⟩ := token
  obtain ⟨rfl, isText⟩ := Piece.mk.inj same
  simp only [Literal.ofToken, isText]
  cases value with
  | integer n =>
      have found : integer? (Nat.toDigits 10 n.val.toNat) = some n := by
        rw [integer?_digits (isDigits_toDigits _), decimalValue_toDigits,
          Int.toNat_of_nonneg printed]
        exact Integer.ofInt?_eq_some_iff.2 rfl
      refine ⟨by simp [literalKinds], ?_⟩
      simp only [found]
  | float x =>
      refine ⟨by simp [literalKinds], ?_⟩
      simp only [(floats.spells x printed).2]
  | character c => exact ⟨by simp [literalKinds], rfl⟩
  | string s =>
      refine ⟨by simp [literalKinds], ?_⟩
      simp only [unquote?_quoted, Option.map_some, String.ofList_toList]
  | boolean b =>
      cases b with
      | true => exact ⟨by simp [Piece.word, literalKinds], rfl⟩
      | false => exact ⟨by simp [Piece.word, literalKinds], rfl⟩

section Expressions

variable {floats : FloatSpelling}

/-- An operand stands in parentheses where it has to. -/
theorem grouped_bare {place : Precedence} {expr : Expr} {tokens : List Token}
    (printed : ∀ inner, Spelled inner (expr.pieces floats) → Printed inner expr)
    (spelled : Spelled tokens
      (grouped (expr.isNot || expr.looser place) (expr.pieces floats))) :
    Bare place tokens expr := by
  cases needed : expr.isNot || expr.looser place with
  | true =>
      rw [needed, grouped, if_pos rfl] at spelled
      obtain ⟨opening, _, rfl, opens, spelled⟩ := spelled.mark
      obtain ⟨inner, _, rfl, within, spelled⟩ := spelled.append
      obtain ⟨closing, _, rfl, closes, spelled⟩ := spelled.mark
      obtain rfl := spelled.nil
      have group : Bare .primary (opening :: (inner ++ [closing])) expr := by
        intro rest _
        have reads := Reads.group opens (printed inner within).whole closes rest
        simpa [Precedence.rule] using reads
      refine group.loosen ?_
      cases place <;> decide
  | false =>
      rw [needed, grouped, if_neg Bool.false_ne_true] at spelled
      obtain ⟨isNot, looser⟩ := Bool.or_eq_false_iff.1 needed
      refine ((printed tokens spelled).bare isNot).loosen ?_
      simpa [Expr.looser] using looser

/-- The operand of a negation stands in parentheses only if it is joined by a
logical operator. -/
theorem grouped_full {expr : Expr} {tokens : List Token}
    (printed : ∀ inner, Spelled inner (expr.pieces floats) → Printed inner expr)
    (spelled : Spelled tokens
      (grouped (expr.looser .comparison) (expr.pieces floats))) :
    Full .comparison tokens expr := by
  cases isNot : expr.isNot with
  | true =>
      rw [Expr.looser_comparison_of_isNot isNot, grouped, if_neg Bool.false_ne_true] at spelled
      exact ((printed tokens spelled).negation isNot).full
  | false =>
      have bare : Bare .comparison tokens expr := by
        apply grouped_bare printed
        rwa [isNot, Bool.false_or]
      exact bare.full

theorem Expr.pieces_printed {expr : Expr} (printable : expr.Printable) {tokens : List Token}
    (spelled : Spelled tokens (expr.pieces floats)) : Printed tokens expr := by
  induction expr generalizing tokens with
  | literal value =>
      obtain ⟨token, rfl, same⟩ := spelled.single
      obtain ⟨isLiteral, stands⟩ := Literal.ofToken_of_piece printable same
      exact ⟨fun _ rest _ => .literal isLiteral stands, nofun⟩
  | name symbol =>
      obtain ⟨token, _, rfl, isName, rfl, ahead⟩ := spelled.name
      obtain rfl := ahead.nil
      exact ⟨fun _ rest ends => .name isName ends.1, nofun⟩
  | element symbol index ih =>
      obtain ⟨token, _, rfl, isName, rfl, ahead⟩ := spelled.name
      obtain ⟨opening, _, rfl, opens, spelled⟩ := ahead.mark
      obtain ⟨inner, _, rfl, within, spelled⟩ := spelled.append
      obtain ⟨closing, _, rfl, closes, spelled⟩ := spelled.mark
      obtain rfl := spelled.nil
      refine ⟨fun _ rest _ => ?_, nofun⟩
      have reads := Reads.element isName opens (ih printable.2 within).whole closes rest
      simpa [Precedence.rule] using reads
  | unary op operand ih =>
      have operands := fun inner => @ih printable inner
      cases op with
      | not =>
          obtain ⟨word, inner, rfl, isNot, spelled⟩ := spelled.word
          have full := grouped_full operands spelled
          exact ⟨nofun, fun _ rest ends => .not isNot (full rest ends)⟩
      | plus =>
          obtain ⟨sign, inner, rfl, isSign, spelled⟩ := spelled.mark
          have bare : Bare .primary inner operand := grouped_bare operands spelled
          refine ⟨fun _ rest ends => .sign ?_ (bare rest ends), nofun⟩
          rw [isSign]
          rfl
      | minus =>
          obtain ⟨sign, inner, rfl, isSign, spelled⟩ := spelled.mark
          have bare : Bare .primary inner operand := grouped_bare operands spelled
          refine ⟨fun _ rest ends => .sign ?_ (bare rest ends), nofun⟩
          rw [isSign]
          rfl
  | binary op left right first second =>
      obtain ⟨before, _, rfl, isLeft, spelled⟩ := spelled.append
      obtain ⟨sign, after, rfl, isSign, isRight⟩ := spelled.cons
      have left := grouped_bare (fun inner => @first printable.1 inner) isLeft
      have right := grouped_bare (fun inner => @second printable.2 inner) isRight
      exact ⟨fun _ => .binary left (congrArg Piece.kind isSign) right, nofun⟩

/-- **A printed expression is read in full.** -/
theorem Expr.pieces_whole {expr : Expr} (printable : expr.Printable) {tokens : List Token}
    (spelled : Spelled tokens (expr.pieces floats)) : Whole tokens expr :=
  (expr.pieces_printed printable spelled).whole

/-- Pieces that start with a printed expression. -/
theorem Spelled.expr {expr : Expr} (printable : expr.Printable) {tokens : List Token}
    {pieces : List Piece} (spelled : Spelled tokens (expr.pieces floats ++ pieces)) :
    ∃ front rest, tokens = front ++ rest ∧ Whole front expr ∧ Spelled rest pieces := by
  obtain ⟨front, rest, split, isFirst, spelled⟩ := spelled.append
  exact ⟨front, rest, split, expr.pieces_whole printable isFirst, spelled⟩

end Expressions

end Pseudocode
