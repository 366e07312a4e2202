import Pseudocode.Proofs.Grammar.Nesting
import Pseudocode.Proofs.Grammar.Rows

/-!
# Every row is read

Reading is greedy: a loop goes on whenever an operator of its level comes, and
`NOT` takes the comparison after it even where a shorter operand would do. This
loses nothing. An operator that an inner rule takes is one that an outer rule
does not have to take, and the number of comparing operators that may still come
says that enough are left.

So each rule moves from the start of a row to a place after an operand where no
operator of its own level comes (`Steps`). Only the end of the row is such a place
for the rule for whole expressions, and a row is read in full (`Row.whole`).
-/

set_option autoImplicit false

namespace Pseudocode.Grammar

/-- A rule reads an expression off the front of a row, whatever comes after the
row. -/
def Takes (rule : Parse Expr) (tokens : List Token) (expr : Expr) (left : List Token) : Prop :=
  ∀ rest, Ends logical rest → Reads rule (tokens ++ rest) expr (left ++ rest)

/-- The next token is none of the given operators. -/
def Past (level : List BinaryOp) (tokens : List Token) : Prop :=
  ∀ op, BinaryOp.ofKind? (headKind tokens) = some op → op ∉ level

/-- A rule gets from the front of any row of fewer than the given number of tokens
to a place after an operand, past the operators of the given levels. -/
def Steps (bound : Nat) (rule : Parse Expr) (levels : List BinaryOp) : Prop :=
  ∀ spare tokens, tokens.length < bound → Row (.operand spare) tokens →
    ∃ expr left, left.length < tokens.length ∧ Row (.tail spare) left ∧ Past levels left ∧
      Takes rule tokens expr left

theorem Past.append {first second : List BinaryOp} {tokens : List Token} (one : Past first tokens)
    (other : Past second tokens) : Past (first ++ second) tokens := by
  intro op found member
  rcases List.mem_append.1 member with inFirst | inSecond
  · exact one op found inFirst
  · exact other op found inSecond

/-- No index follows an operand. -/
theorem Row.tail_notIndex {spare : Nat} {tokens rest : List Token}
    (row : Row (.tail spare) tokens) (ends : Ends logical rest) :
    headKind (tokens ++ rest) ≠ .mark .leftBracket := by
  have notIndex : ∀ {sign : Token} {op : BinaryOp}, BinaryOp.ofKind? sign.kind = some op →
      sign.kind ≠ .mark .leftBracket := by
    intro sign op isSign isIndex
    rw [isIndex] at isSign
    cases isSign
  cases row with
  | nothing => exact ends.1
  | operator isSign => exact notIndex isSign
  | compare isSign => exact notIndex isSign

/-- After an operand no logical operator comes in a row. -/
theorem Row.tail_starts {spare : Nat} {tokens : List Token} (row : Row (.tail spare) tokens) :
    tokens = [] ∨ ∃ op, BinaryOp.ofKind? (headKind tokens) = some op ∧
      (op ∈ arithmetic ∨ op ∈ comparing) := by
  cases row with
  | nothing => exact .inl rfl
  | operator isSign joins => exact .inr ⟨_, isSign, .inl joins⟩
  | compare isSign compares => exact .inr ⟨_, isSign, .inr compares⟩

theorem arithmetic_apart : ∀ op ∈ arithmetic, op ∉ logical ∧ op ∉ comparing := by decide

/-! ## Loops over operators -/

/-- One round of a loop over operators. -/
abbrev operatorRound {α β : Type} (operand : Parse Expr) (combine : α → β → Expr → α) (a : α)
    (b : β) : Parse α := do
  let _ ← Parse.advance
  let expr ← operand
  return combine a b expr

/-- A loop asks for another round at the operators of a level, and at no other
tokens. -/
structure Asks {β : Type} (more : Kind → Option β) (level : List BinaryOp) : Prop where
  asks : ∀ kind b, more kind = some b → ∃ op ∈ level, BinaryOp.ofKind? kind = some op
  stops : ∀ kind, more kind = none → ∀ op, BinaryOp.ofKind? kind = some op → op ∉ level

theorem operatorOf_eq_none {level : List BinaryOp} {kind : Kind} :
    operatorOf level kind = none ↔ ∀ op, BinaryOp.ofKind? kind = some op → op ∉ level := by
  simp [operatorOf, Option.filter_eq_none_iff]

theorem operatorOf_asks (level : List BinaryOp) : Asks (operatorOf level) level where
  asks := by
    intro kind op found
    obtain ⟨isOperator, member⟩ := operatorOf_eq_some.1 found
    exact ⟨op, member, isOperator⟩
  stops := fun kind => operatorOf_eq_none.1

theorem among_asks : Asks (Parse.among [.mark .caret]) [.power] where
  asks := by
    intro kind _ found
    obtain rfl := List.mem_singleton.1 (Parse.among_eq_some.1 found)
    exact ⟨.power, List.mem_singleton_self _, rfl⟩
  stops := by
    intro kind found op isOperator member
    obtain rfl := List.mem_singleton.1 member
    have isCaret : kind = .mark .caret := by
      revert isOperator
      fun_cases BinaryOp.ofKind? kind <;> simp
    rw [isCaret] at found
    cases found

/-- A loop stops where none of its operators may come. -/
theorem Asks.stop {β : Type} {more : Kind → Option β} {level allowed : List BinaryOp}
    {rest : List Token} (asking : Asks more level) (ends : Ends allowed rest)
    (apart : ∀ op ∈ level, op ∉ allowed) : more (headKind rest) = none := by
  refine Option.eq_none_iff_forall_not_mem.2 fun b again => ?_
  obtain ⟨op, member, isOperator⟩ := asking.asks _ b again
  exact apart op member (ends.2 op isOperator)

section Loops

variable {α β : Type} {bound : Nat} {operand : Parse Expr} {levels level : List BinaryOp}
  {more : Kind → Option β} (combine : α → β → Expr → α)

/-- A loop goes on as long as operators of its level come, and gets past them. -/
theorem Steps.rounds (steps : Steps bound operand levels) (asking : Asks more level)
    (tighter : ∀ op ∈ level, op ∈ arithmetic) {spare : Nat} {tokens : List Token}
    (short : tokens.length < bound) (row : Row (.tail spare) tokens) (past : Past levels tokens)
    (a : α) :
    ∃ final left, left.length ≤ tokens.length ∧ Row (.tail spare) left ∧
      Past (level ++ levels) left ∧ ∀ rest, Ends logical rest →
        Rounds more (operatorRound operand combine) (tokens ++ rest) a final (left ++ rest) := by
  induction size : tokens.length using Nat.strongRecOn generalizing tokens a with
  | _ size ih =>
      subst size
      cases asked : more (headKind tokens) with
      | none =>
          refine ⟨a, tokens, Nat.le_refl _, row, ?_, fun rest ends => .stop ?_⟩
          · exact .append (asking.stops _ asked) past
          · rcases row.tail_starts with rfl | ⟨op, isOperator, _⟩
            · -- The row is over, and only logical operators come after rows.
              exact asking.stop ends fun op member => (arithmetic_apart op (tighter op member)).1
            · have nonempty : tokens ≠ [] := by
                rintro rfl
                cases isOperator
              rwa [headKind_append nonempty]
      | some b =>
          obtain ⟨op, member, isOperator⟩ := asking.asks _ b asked
          cases row with
          | nothing => cases isOperator
          | compare isSign compares =>
              obtain rfl := Option.some.inj (isSign.symm.trans isOperator)
              exact absurd compares (arithmetic_apart _ (tighter _ member)).2
          | @operator _ sign _ others isSign joins after =>
              rw [List.length_cons] at short
              obtain ⟨expr, left, fewer, row, past, takes⟩ :=
                steps spare others (by omega) after
              obtain ⟨final, last, fewest, row, past, rounds⟩ :=
                ih left.length (by rw [List.length_cons]; omega) (by omega) row past
                  (combine a b expr) rfl
              refine ⟨final, last, ?_, row, past, fun rest ends => ?_⟩
              · rw [List.length_cons]
                omega
              · refine .next asked ?_ ?_ (rounds rest ends)
                · exact .bind .advance (.bind (takes rest ends) .pure)
                · simp only [List.length_append, List.length_cons]
                  omega

end Loops

/-! ## The rules for expressions -/

section Rules

variable {bound : Nat} {levels : List BinaryOp}

theorem Steps.leftChain {operand : Parse Expr} (steps : Steps bound operand levels)
    {level : List BinaryOp} (tighter : ∀ op ∈ level, op ∈ arithmetic) :
    Steps bound (leftChain level operand) (level ++ levels) := by
  intro spare tokens short row
  obtain ⟨first, left, fewer, row, past, takes⟩ := steps spare tokens short row
  obtain ⟨expr, last, fewest, row, past, rounds⟩ :=
    steps.rounds (fun left op right => .binary op left right) (operatorOf_asks level) tighter
      (by omega) row past first
  refine ⟨expr, last, by omega, row, past, fun rest ends => ?_⟩
  exact .bind (takes rest ends) (rounds rest ends).reads

theorem Steps.exponent {primary : Parse Expr} (steps : Steps bound primary []) :
    Steps bound (exponent primary) [.power] := by
  intro spare tokens short row
  obtain ⟨base, left, fewer, row, past, takes⟩ := steps spare tokens short row
  obtain ⟨found, last, fewest, row, past, rounds⟩ :=
    steps.rounds (fun found _ expr => Array.push found expr) among_asks (by decide) (by omega) row
      past #[]
  refine ⟨powers base found.toList, last, by omega, row, past, fun rest ends => ?_⟩
  exact .bind (takes rest ends) (.bind (rounds rest ends).reads .pure)

/-- The order of the levels in `arithmetic` is of no importance. -/
theorem Past.arithmetic {tokens : List Token}
    (past : Past (adding ++ (multiplying ++ [.power])) tokens) : Past arithmetic tokens := by
  have same : ∀ op ∈ Grammar.arithmetic, op ∈ adding ++ (multiplying ++ [.power]) := by decide
  intro op found member
  exact past op found (same op member)

theorem Steps.additive {primary : Parse Expr} (steps : Steps bound primary []) :
    Steps bound (additive primary) arithmetic := by
  intro spare tokens short row
  have factors : Steps bound (multiplicative primary) (multiplying ++ [.power]) :=
    steps.exponent.leftChain (by decide)
  have terms : Steps bound (Grammar.additive primary) (adding ++ (multiplying ++ [.power])) :=
    factors.leftChain (by decide)
  obtain ⟨expr, left, fewer, row, past, takes⟩ := terms spare tokens short row
  exact ⟨expr, left, fewer, row, past.arithmetic, takes⟩

/-- A comparison takes one of the comparing operators that may come, if there is
one. -/
theorem Steps.comparison {primary : Parse Expr} (steps : Steps bound primary []) {spare : Nat}
    {tokens : List Token} (short : tokens.length < bound)
    (row : Row (.operand (spare + 1)) tokens) :
    ∃ expr left, left.length < tokens.length ∧ Row (.tail spare) left ∧ Past arithmetic left ∧
      Takes (comparison primary) tokens expr left := by
  obtain ⟨first, left, fewer, row, past, takes⟩ := steps.additive (spare + 1) tokens short row
  cases row with
  | nothing =>
      refine ⟨first, [], fewer, .nothing, nofun, fun rest ends => ?_⟩
      have none : operatorOf comparing (headKind rest) = none :=
        (operatorOf_asks comparing).stop ends (by decide)
      refine .bind (takes rest ends) (.kind ?_)
      rw [List.nil_append, none]
      exact .pure
  | operator isSign joins after => exact absurd joins (past _ isSign)
  | @compare _ sign op others isSign compares after =>
      obtain ⟨second, last, fewest, row, past, takesMore⟩ :=
        steps.additive spare others (by rw [List.length_cons] at fewer; omega) after
      refine ⟨.binary op first second, last, ?_, row, past, fun rest ends => ?_⟩
      · rw [List.length_cons] at fewer
        omega
      · have found : operatorOf comparing (headKind (sign :: others ++ rest)) = some op :=
          operatorOf_eq_some.2 ⟨isSign, compares⟩
        refine .bind (takes rest ends) (.kind ?_)
        rw [found]
        exact .bind .advance (.bind (takesMore rest ends) .pure)

/-- The only place after an operand with nothing to come is the end of a row. -/
theorem Row.eq_nil {tokens : List Token} (row : Row (.tail 0) tokens)
    (past : Past arithmetic tokens) : tokens = [] := by
  cases row with
  | nothing => rfl
  | operator isSign joins => exact absurd joins (past _ isSign)

theorem Steps.single {primary : Parse Expr} (steps : Steps bound primary [])
    {tokens : List Token} (short : tokens.length < bound) (row : Row (.operand 1) tokens) :
    ∃ expr, Takes (Grammar.comparison primary) tokens expr [] := by
  obtain ⟨expr, left, _, row, past, takes⟩ := steps.comparison short row
  obtain rfl := row.eq_nil past
  exact ⟨expr, takes⟩

theorem Ends.operator {sign : Token} {op : BinaryOp} {allowed : List BinaryOp}
    (isSign : BinaryOp.ofKind? sign.kind = some op) (joins : op ∈ allowed) (rest : List Token) :
    Ends allowed (sign :: rest) := by
  refine ⟨?_, fun op' isSign' => ?_⟩
  · intro isIndex
    rw [show sign.kind = _ from isIndex] at isSign
    cases isSign
  · obtain rfl := Option.some.inj (isSign.symm.trans isSign')
    exact joins

/-- The rounds of the loop over logical operators, from one of them to the end of
the rows. -/
theorem Steps.joinedRounds {primary : Parse Expr} (steps : Steps bound primary [])
    {tokens : List Token} (row : Row .joined tokens) (short : tokens.length < bound) {sign : Token}
    {op : BinaryOp} (isSign : BinaryOp.ofKind? sign.kind = some op) (joins : op ∈ logical)
    (left : Expr) :
    ∃ final, ∀ rest, Ends [] rest →
      Rounds (operatorOf logical)
        (operatorRound (Grammar.comparison primary) fun left op right => .binary op left right)
        (sign :: (tokens ++ rest)) left final rest := by
  generalize isJoined : Place.joined = place at row
  induction row generalizing sign op left with
  | @single tokens within =>
      obtain ⟨right, takes⟩ := steps.single short within
      refine ⟨.binary op left right, fun rest ends => ?_⟩
      have stop : operatorOf logical (headKind rest) = none :=
        (operatorOf_asks logical).stop ends (by decide)
      refine .next (operatorOf_eq_some.2 ⟨isSign, joins⟩) ?_ ?_ (.stop stop)
      · exact .bind .advance (.bind (takes rest (ends.mono nofun)) .pure)
      · simp only [List.length_cons, List.length_append]
        omega
  | @join first second sign' op' before isSign' joins' after _ ih =>
      simp only [List.length_append, List.length_cons] at short
      obtain ⟨right, takes⟩ := steps.single (by omega) before
      obtain ⟨final, rounds⟩ := ih (by omega) isSign' joins' (.binary op left right) isJoined
      refine ⟨final, fun rest ends => ?_⟩
      rw [List.append_assoc]
      refine .next (operatorOf_eq_some.2 ⟨isSign, joins⟩) ?_ ?_ (rounds rest ends)
      · have more := takes (sign' :: (second ++ rest)) (.operator isSign' joins' _)
        exact .bind .advance (.bind more .pure)
      · simp only [List.length_cons, List.length_append]
        omega
  | _ => cases isJoined

theorem Steps.expression {primary : Parse Expr} (steps : Steps bound primary [])
    {tokens : List Token} (short : tokens.length < bound) (row : Row .joined tokens) :
    ∃ expr, ∀ rest, Ends [] rest → Reads (expressionOf primary) (tokens ++ rest) expr rest := by
  cases row with
  | single within =>
      obtain ⟨expr, takes⟩ := steps.single short within
      refine ⟨expr, fun rest ends => ?_⟩
      have stop : operatorOf logical (headKind rest) = none :=
        (operatorOf_asks logical).stop ends (by decide)
      exact .bind (takes rest (ends.mono nofun)) (Rounds.stop stop).reads
  | @join first second sign op before isSign joins after =>
      simp only [List.length_append, List.length_cons] at short
      obtain ⟨left, takes⟩ := steps.single (by omega) before
      obtain ⟨expr, rounds⟩ := steps.joinedRounds after (by omega) isSign joins left
      refine ⟨expr, fun rest ends => ?_⟩
      rw [List.append_assoc]
      exact .bind (takes _ (.operator isSign joins _)) (rounds rest ends).reads

end Rules

/-! ## Primaries -/

theorem Reads.literal {token : Token} {value : Literal} {rest : List Token}
    (isLiteral : token.kind ∈ literalKinds) (stands : Literal.ofToken token = .ok value) :
    Reads Grammar.primary (token :: rest) (.literal value) rest := by
  have starts : ∀ kind ∈ literalKinds, kind ∈ primaryStart := by decide
  have found : Reads (literalOf token) rest (.literal value) rest := by
    intro line
    rw [literalOf, stands]
  refine .primary (.bind (.expectAny (starts _ isLiteral)) ?_)
  simp only [literalKinds, List.mem_cons, List.not_mem_nil, or_false] at isLiteral
  rcases isLiteral with is | is | is | is | is | is
  all_goals
    rw [is]
    exact found

theorem Reads.name {token : Token} {rest : List Token} (isName : token.kind = .identifier)
    (notIndex : headKind rest ≠ .mark .leftBracket) :
    Reads Grammar.primary (token :: rest) (.name token.lexeme) rest := by
  refine .primary (.bind (.expectAny ?_) ?_)
  · rw [isName]
    decide
  · rw [isName]
    exact .bind (.notFollowing notIndex) .pure

theorem Reads.element {name opening closing : Token} {inner : List Token} {index : Expr}
    (isName : name.kind = .identifier) (opens : opening.kind = .mark .leftBracket)
    (within : Whole inner index) (closes : closing.kind = .mark .rightBracket)
    (rest : List Token) :
    Reads Grammar.primary (name :: opening :: (inner ++ closing :: rest))
      (.element name.lexeme index) rest := by
  have ends : Ends [] (closing :: rest) := .of_headKind closes nofun rfl
  refine .primary (.bind (.expectAny ?_) ?_)
  · rw [isName]
    decide
  · rw [isName]
    exact .bind (.following opens (.bind (within _ ends) (.bind (.mark closes) .pure))) .pure

theorem Reads.group {opening closing : Token} {inner : List Token} {expr : Expr}
    (opens : opening.kind = .mark .leftParen) (within : Whole inner expr)
    (closes : closing.kind = .mark .rightParen) (rest : List Token) :
    Reads Grammar.primary (opening :: (inner ++ closing :: rest)) expr rest := by
  have ends : Ends [] (closing :: rest) := .of_headKind closes nofun rfl
  refine .primary (.bind (.expectAny ?_) ?_)
  · rw [opens]
    decide
  · rw [opens]
    exact .bind (within _ ends) (.bind (.mark closes) .pure)

theorem Reads.sign {sign : Token} {op : UnaryOp} {tokens rest : List Token} {operand : Expr}
    (isSign : signOf? sign.kind = some op) (reads : Reads Grammar.primary tokens operand rest) :
    Reads Grammar.primary (sign :: tokens) (.unary op operand) rest := by
  have known : sign.kind = .mark .plus ∧ op = .plus ∨ sign.kind = .mark .minus ∧ op = .minus := by
    revert isSign
    fun_cases signOf? sign.kind <;> simp_all
  rcases known with ⟨is, rfl⟩ | ⟨is, rfl⟩
  all_goals
    refine .primary (.bind (.expectAny ?_) ?_)
    · rw [is]
      decide
    · rw [is]
      exact .bind reads .pure

theorem Reads.not {word : Token} {tokens rest : List Token} {operand : Expr}
    (isNot : word.kind = .keyword .NOT)
    (reads : Reads (comparison Grammar.primary) tokens operand rest) :
    Reads Grammar.primary (word :: tokens) (.unary .not operand) rest := by
  refine .primary (.bind (.expectAny ?_) ?_)
  · rw [isNot]
    decide
  · rw [isNot]
    exact .bind reads .pure

/-- An atom is read if the shorter rows inside it are. -/
theorem Row.atom_reads {tokens : List Token} (atom : Row .atom tokens)
    (inner : ∀ others, others.length < tokens.length → Row .joined others →
      ∃ expr, Whole others expr) :
    ∃ expr, tokens ≠ [] ∧ ∀ rest, headKind rest ≠ .mark .leftBracket →
      Reads primary (tokens ++ rest) expr rest := by
  cases atom with
  | literal isLiteral stands => exact ⟨_, nofun, fun rest _ => .literal isLiteral stands⟩
  | name isName => exact ⟨_, nofun, fun rest notIndex => .name isName notIndex⟩
  | @element name opening closing others isName opens within closes =>
      have shorter : others.length < (name :: opening :: (others ++ [closing])).length := by
        simp only [List.length_cons, List.length_append]
        omega
      obtain ⟨index, whole⟩ := inner others shorter within
      refine ⟨.element name.lexeme index, nofun, fun rest _ => ?_⟩
      have reads := Reads.element isName opens whole closes rest
      simpa using reads
  | @group opening closing others opens within closes =>
      have shorter : others.length < (opening :: (others ++ [closing])).length := by
        simp only [List.length_cons, List.length_append]
        omega
      obtain ⟨expr, whole⟩ := inner others shorter within
      refine ⟨expr, nofun, fun rest _ => ?_⟩
      have reads := Reads.group opens whole closes rest
      simpa using reads

/-- A primary gets from an operand to the place after one, though `NOT` may take it
further than the next operand. -/
theorem primary_steps (bound : Nat) : Steps bound primary [] := by
  induction bound with
  | zero => exact fun _ _ short => absurd short (Nat.not_lt_zero _)
  | succ bound ih =>
      intro spare tokens short row
      cases row with
      | @first _ tokens left atom after =>
          obtain ⟨expr, nonempty, reads⟩ := atom.atom_reads fun others shorter within =>
            ih.expression (by rw [List.length_append] at short; omega) within
          have positive := List.length_pos_iff.2 nonempty
          refine ⟨expr, left, ?_, after, nofun, fun rest ends => ?_⟩
          · rw [List.length_append]
            omega
          · rw [List.append_assoc]
            exact reads _ (after.tail_notIndex ends)
      | @sign _ sign op others isSign after =>
          rw [List.length_cons] at short
          obtain ⟨operand, left, fewer, row, past, takes⟩ := ih spare others (by omega) after
          refine ⟨.unary op operand, left, ?_, row, past, fun rest ends => ?_⟩
          · rw [List.length_cons]
            omega
          · exact .sign isSign (takes rest ends)
      | @not _ word others isNot after =>
          rw [List.length_cons] at short
          obtain ⟨operand, left, fewer, row, _, takes⟩ := ih.comparison (by omega) after
          refine ⟨.unary .not operand, left, ?_, row, nofun, fun rest ends => ?_⟩
          · rw [List.length_cons]
            omega
          · exact .not isNot (takes rest ends)

/-- **Every row is read in full.** -/
theorem Row.whole {tokens : List Token} (row : Row .joined tokens) : ∃ expr, Whole tokens expr :=
  (primary_steps (tokens.length + 1)).expression (Nat.lt_succ_self _) row

end Pseudocode.Grammar
