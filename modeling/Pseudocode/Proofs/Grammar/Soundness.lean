import Pseudocode.Proofs.Grammar.Sound

/-!
# What is read was derived

The rules of the grammar are sound for the relations that they read, by following
their steps. The main statement is `program_sound`: a program that was read is
derived by the tokens up to the place where reading ended.
-/

set_option autoImplicit false

namespace Pseudocode

namespace Grammar

variable {α β : Type}

/-! ## Expressions -/

/-- The operators that a loop looks for. -/
theorem operatorOf_eq_some {level : List BinaryOp} {kind : Kind} {op : BinaryOp} :
    operatorOf level kind = some op ↔ BinaryOp.ofKind? kind = some op ∧ op ∈ level := by
  simp [operatorOf, Option.filter_eq_some_iff]

section Expressions

variable {primary : Parse Expr} (sound : Sound anyKind primary (Derives .primary))

/-- Operands in a row are joined from the left. -/
theorem leftChain_sound (upper : Precedence) {lower : Precedence} {operand : Parse Expr}
    (next : upper.tighter? = some lower) (operands : Sound anyKind operand (Derives lower)) :
    Sound anyKind (leftChain upper.joining operand) (Derives upper) := by
  have rounds : ∀ used left op, Derives upper used left →
      Sound (operatorOf upper.joining · = some op)
        (do
          let _ ← Parse.advance
          let right ← operand
          return .binary op left right)
        fun others expr => Derives upper (used ++ others) expr := by
    intro used left op before
    refine .bind (.pass rfl) ?_
    rintro _ sign ⟨rfl, isSign⟩
    obtain ⟨isSign, joins⟩ := operatorOf_eq_some.1 isSign
    refine .bind operands fun second right after => .pure ?_
    rw [List.append_nil]
    exact .join next before isSign joins after
  refine .bind operands fun used first derived => ?_
  exact .loop rounds (.single next derived)

/-- Exponents in a row, each after its sign. -/
inductive Exponents : List Token → List Expr → Prop where
  | none : Exponents [] []
  | more {sign : Token} {first rest : List Token} {expr : Expr} {exprs : List Expr}
      (isSign : sign.kind = .mark .caret) (next : Derives .primary first expr)
      (others : Exponents rest exprs) : Exponents (sign :: (first ++ rest)) (expr :: exprs)

namespace Exponents

theorem snoc {tokens last : List Token} {exprs : List Expr} {sign : Token} {expr : Expr}
    (before : Exponents tokens exprs) (isSign : sign.kind = .mark .caret)
    (next : Derives .primary last expr) :
    Exponents (tokens ++ sign :: last) (exprs ++ [expr]) := by
  induction before with
  | none =>
      have single := Exponents.more isSign next .none
      rwa [List.append_nil] at single
  | @more sign' first rest expr' exprs isSign' next' _ ih =>
      have longer := Exponents.more isSign' next' ih
      rwa [← List.append_assoc] at longer

/-- The parser finds the exponents from the left, and they are grouped from the
right. -/
theorem derives {tokens : List Token} {exprs : List Expr} (exponents : Exponents tokens exprs)
    {first : List Token} {base : Expr} (isBase : Derives .primary first base) :
    Derives .exponent (first ++ tokens) (powers base exprs) := by
  induction exponents generalizing first base with
  | none =>
      rw [List.append_nil]
      exact .single rfl isBase
  | more isSign next _ ih => exact .power isBase isSign (ih next)

end Exponents

include sound

/-- A row of powers is grouped from the right. -/
theorem exponent_sound : Sound anyKind (exponent primary) (Derives .exponent) := by
  have rounds : ∀ used (found : Array Expr) b, Exponents used found.toList →
      Sound (Parse.among [.mark .caret] · = some b)
        (do
          let _ ← Parse.advance
          return found.push (← primary))
        fun others found' => Exponents (used ++ others) found'.toList := by
    intro used found b before
    refine .bind (.pass rfl) ?_
    rintro _ sign ⟨rfl, again⟩
    have isSign := List.mem_singleton.1 (Parse.among_eq_some.1 again)
    refine .bind sound fun last expr next => .pure ?_
    rw [List.append_nil, Array.toList_push]
    exact before.snoc isSign next
  refine .bind sound fun first base isBase => ?_
  refine .bind (.loop rounds .none) fun others found exponents => .pure ?_
  rw [List.append_nil]
  exact exponents.derives isBase

theorem multiplicative_sound : Sound anyKind (multiplicative primary) (Derives .multiplicative) :=
  leftChain_sound .multiplicative rfl (exponent_sound sound)

theorem additive_sound : Sound anyKind (additive primary) (Derives .additive) :=
  leftChain_sound .additive rfl (multiplicative_sound sound)

theorem comparison_sound : Sound anyKind (comparison primary) (Derives .comparison) := by
  refine .bind (additive_sound sound) fun first left before => .kind fun kind _ => ?_
  cases found : operatorOf comparing kind with
  | none =>
      refine .pure ?_
      rw [List.append_nil]
      exact .single rfl before
  | some op =>
      refine .bind (.restrict (.pass rfl) (by rintro _ rfl; exact found)) ?_
      rintro _ sign ⟨rfl, isSign⟩
      obtain ⟨isSign, compares⟩ := operatorOf_eq_some.1 isSign
      refine .bind (additive_sound sound) fun second right after => .pure ?_
      rw [List.append_nil]
      exact .compare before isSign compares after

theorem expressionOf_sound : Sound anyKind (expressionOf primary) (Derives .expression) :=
  leftChain_sound .expression rfl (comparison_sound sound)

theorem indexOf?_sound :
    Sound anyKind (indexOf? primary) (Indexed (Derives .expression)) := by
  have bracketed : Sound anyKind
      (do
        let index ← expressionOf primary
        Parse.mark .rightBracket
        return index)
      fun used index => ∃ inner closing, used = inner ++ [closing] ∧
        Derives .expression inner index ∧ closing.kind = .mark .rightBracket := by
    refine .bind (expressionOf_sound sound) fun inner index within => .bind (.mark _) ?_
    rintro _ _ ⟨closing, rfl, closes⟩
    exact .pure ⟨inner, closing, rfl, within, closes⟩
  refine (Sound.following? (.mark .leftBracket) nofun bracketed).weaken ?_
  rintro _ _ (⟨rfl, rfl⟩ |
    ⟨opening, _, index, rfl, opens, ⟨inner, closing, rfl, within, closes⟩, rfl⟩)
  · exact .absent
  · exact .present opens within closes

omit sound in
theorem literalOf_sound (token : Token) : Sound anyKind (literalOf token) fun used expr =>
    used = [] ∧ ∃ value, Literal.ofToken token = .ok value ∧ expr = .literal value := by
  intro tokens stop cursor expr after here _ read
  cases stands : Literal.ofToken token with
  | error error =>
      simp only [literalOf, stands] at read
      cases read
  | ok value =>
      simp only [literalOf, stands] at read
      cases read
      exact ⟨[], tokens, rfl, here, rfl, value, rfl, rfl⟩

/-- A primary is sound if the primaries inside it are. -/
theorem primaryRule_sound : Sound anyKind (primaryRule primary) (Derives .primary) := by
  refine .bind (.expectAny (by decide)) ?_
  rintro _ token ⟨rfl, member⟩
  split
  · rename_i isName
    refine .bind (indexOf?_sound sound) fun used index indexed => ?_
    cases indexed with
    | absent => exact .pure (.name isName)
    | present opens within closes =>
        refine .pure ?_
        rw [List.append_nil]
        exact .element isName opens within closes
  · rename_i isNot
    refine .bind (comparison_sound sound) fun inner operand within => .pure ?_
    rw [List.append_nil]
    exact .not isNot within
  · rename_i isPlus
    refine .bind sound fun inner operand within => .pure ?_
    rw [List.append_nil]
    exact .sign (by rw [isPlus]; rfl) within
  · rename_i isMinus
    refine .bind sound fun inner operand within => .pure ?_
    rw [List.append_nil]
    exact .sign (by rw [isMinus]; rfl) within
  · rename_i opens
    refine .bind (expressionOf_sound sound) fun inner expr within => .bind (.mark _) ?_
    rintro _ _ ⟨closing, rfl, closes⟩
    exact .pure (.group opens within closes)
  · rename_i notName notNot notPlus notMinus notParen
    refine (literalOf_sound token).weaken ?_
    rintro _ _ ⟨rfl, value, stands, rfl⟩
    refine .literal ?_ stands
    simp only [primaryStart, List.mem_cons, List.not_mem_nil, or_false] at member
    simp only [literalKinds, List.mem_cons, List.not_mem_nil, or_false]
    grind

omit sound in
theorem primary_sound : Sound anyKind Grammar.primary (Derives .primary) :=
  .recursive fun _ => primaryRule_sound

end Expressions

theorem expression_sound : Sound anyKind expression (Derives .expression) :=
  expressionOf_sound primary_sound

theorem index?_sound : Sound anyKind index? (Indexed (Derives .expression)) :=
  indexOf?_sound primary_sound

/-! ## Statements -/

/-- The grammar of statements, with its own expressions. -/
abbrev DerivesPhrase : List Token → Phrase → Prop := DerivesStmt (Derives .expression)

/-- Values with commas between them. -/
theorem printing_sound : Sound anyKind printing fun used stmt =>
    ∃ values, Listed (Derives .expression) used values ∧ stmt = .print values := by
  have rounds : ∀ used (found : Array Expr) b, Listed (Derives .expression) used found.toList →
      Sound (Parse.among [.mark .comma] · = some b)
        (do
          let _ ← Parse.advance
          return found.push (← expression))
        fun others found' => Listed (Derives .expression) (used ++ others) found'.toList := by
    intro used found b before
    refine .bind (.pass rfl) ?_
    rintro _ comma ⟨rfl, again⟩
    have isComma := List.mem_singleton.1 (Parse.among_eq_some.1 again)
    refine .bind expression_sound fun last value next => .pure ?_
    rw [List.append_nil, Array.toList_push]
    exact .more before isComma next
  refine .bind expression_sound fun used first derived => ?_
  refine .bind (.loop rounds (.one derived)) fun others found listed => .pure ?_
  rw [List.append_nil]
  exact ⟨found.toList, listed, rfl⟩

/-- Writing, after the word for it. -/
theorem assignment_sound {opening : Token} (opens : opening.kind = .keyword .LET) :
    Sound anyKind assignment fun used stmt =>
      DerivesPhrase (opening :: used) (.statement stmt) := by
  refine .bind .identifier ?_
  rintro _ _ ⟨isName⟩
  refine .bind index?_sound fun position index indexed => .bind (.mark _) ?_
  rintro _ _ ⟨sign, rfl, isSign⟩
  refine .bind expression_sound fun tokens value within => ?_
  cases indexed with
  | absent =>
      refine .pure ?_
      rw [List.append_nil]
      exact .assign opens isName isSign within
  | @present left right inner index starts position stops =>
      refine .pure ?_
      have derived := DerivesStmt.assignAt opens isName starts position stops isSign within
      simpa using derived

/-- Changing a length, after the word for it. -/
theorem resizing_sound {opening : Token} (opens : opening.kind = .keyword .RESIZE) :
    Sound anyKind resizing fun used stmt =>
      DerivesPhrase (opening :: used) (.statement stmt) := by
  refine .bind .identifier ?_
  rintro _ _ ⟨isName⟩
  refine .bind (.word _) ?_
  rintro _ _ ⟨toWord, rfl, isTo⟩
  refine .bind expression_sound fun tokens size within => .pure ?_
  rw [List.append_nil]
  exact .resize opens isName isTo within

section Statements

variable {statement : Parse Stmt}
  (sound : Sound anyKind statement fun used stmt => DerivesPhrase used (.statement stmt))

include sound

theorem block_sound (closing : List Keyword) :
    Sound anyKind (block statement closing) fun used body =>
      DerivesPhrase used (.block body) := by
  have rounds : ∀ used (found : Array Stmt) b, DerivesPhrase used (.block found.toList) →
      Sound (Parse.outside (.eof :: closing.map Kind.keyword) · = some b)
        (do
          let next ← statement
          Parse.lineEnd
          return found.push next)
        fun others found' => DerivesPhrase (used ++ others) (.block found'.toList) := by
    intro used found b before
    refine .bind (sound.restrict fun _ _ => trivial) fun last stmt next => ?_
    refine .bind .lineEnd fun ends _ ended => .pure ?_
    rw [List.append_nil, Array.toList_push]
    exact .moreStatements before next ended
  refine .bind (.loop rounds .noStatements) fun used found derived => .pure ?_
  rw [List.append_nil]
  exact derived

/-- A block on the next lines and the word that closes it. -/
theorem bodyUpTo_sound (closing : Keyword) :
    Sound anyKind (bodyUpTo statement closing) fun used body =>
      ∃ ends tokens word, used = ends ++ (tokens ++ [word]) ∧ LineEnd ends ∧
        DerivesPhrase tokens (.block body) ∧ word.kind = .keyword closing := by
  refine .bind .lineEnd fun ends _ ended => .bind (block_sound sound _) fun tokens body runs => ?_
  refine .bind (.word _) ?_
  rintro _ _ ⟨word, rfl, closes⟩
  exact .pure ⟨ends, tokens, word, rfl, ended, runs, closes⟩

theorem whileLooping_sound {opening : Token} (opens : opening.kind = .keyword .WHILE) :
    Sound anyKind (whileLooping statement) fun used stmt =>
      DerivesPhrase (opening :: used) (.statement stmt) := by
  refine .bind expression_sound fun test condition tested => .bind (.word _) ?_
  rintro _ _ ⟨word, rfl, isDo⟩
  refine .bind (bodyUpTo_sound sound _) ?_
  rintro _ body ⟨ends, tokens, closing, rfl, ended, runs, closes⟩
  refine .pure ?_
  rw [List.append_nil]
  exact .whileLoop opens tested isDo ended runs closes

theorem repeatLooping_sound {opening : Token} (opens : opening.kind = .keyword .REPEAT) :
    Sound anyKind (repeatLooping statement) fun used stmt =>
      DerivesPhrase (opening :: used) (.statement stmt) := by
  refine .bind (.word _) ?_
  rintro _ _ ⟨word, rfl, isUntil⟩
  refine .bind expression_sound fun test condition tested => .bind (bodyUpTo_sound sound _) ?_
  rintro _ body ⟨ends, tokens, closing, rfl, ended, runs, closes⟩
  refine .pure ?_
  rw [List.append_nil]
  exact .repeatLoop opens isUntil tested ended runs closes

theorem forLooping_sound {opening : Token} (opens : opening.kind = .keyword .FOR) :
    Sound anyKind (forLooping statement) fun used stmt =>
      DerivesPhrase (opening :: used) (.statement stmt) := by
  refine .bind .identifier ?_
  rintro _ _ ⟨isName⟩
  refine .bind (.word _) ?_
  rintro _ _ ⟨fromWord, rfl, isFrom⟩
  refine .bind expression_sound fun low first firsts => .bind (.word _) ?_
  rintro _ _ ⟨toWord, rfl, isTo⟩
  refine .bind expression_sound fun high last lasts => ?_
  refine .bind (.following? _ nofun expression_sound) fun stepping step found => ?_
  have steps : Stepped (Derives .expression) stepping
      (step.getD (.literal (.integer .one))) := by
    rcases found with ⟨rfl, rfl⟩ | ⟨word, tokens, step, rfl, isStep, within, rfl⟩
    · exact .absent
    · exact .present isStep within
  refine .bind (bodyUpTo_sound sound _) ?_
  rintro _ body ⟨ends, tokens, closing, rfl, ended, runs, closes⟩
  refine .pure ?_
  rw [List.append_nil]
  exact .forLoop opens isName isFrom firsts isTo lasts steps ended runs closes

theorem branching_sound {opening : Token} (opens : opening.kind = .keyword .IF) :
    Sound anyKind (branching statement) fun used stmt =>
      DerivesPhrase (opening :: used) (.statement stmt) := by
  have other : Sound anyKind
      (do
        Parse.lineEnd
        block statement [.ENDIF])
      fun used body => ∃ ends tokens, used = ends ++ tokens ∧ LineEnd ends ∧
        DerivesPhrase tokens (.block body) := by
    refine .bind .lineEnd fun ends _ ended => (block_sound sound _).weaken ?_
    exact fun tokens body runs => ⟨ends, tokens, rfl, ended, runs⟩
  refine .bind expression_sound fun test condition tested => .bind (.word _) ?_
  rintro _ _ ⟨word, rfl, isThen⟩
  refine .bind .lineEnd fun ends _ ended => .bind (block_sound sound _) fun first yes runs => ?_
  refine .bind (.following? _ nofun other) fun second no found => ?_
  have others : DerivesPhrase second (.otherwise [.keyword .ELSE] no) := by
    rcases found with ⟨rfl, rfl⟩ | ⟨word, _, body, rfl, isElse, inner, rfl⟩
    · exact .absent
    · obtain ⟨ends, tokens, rfl, ended, runs⟩ := inner
      have kinds : [word].map Token.kind = [.keyword .ELSE] := by
        rw [List.map_singleton, isElse]
      exact .present kinds ended runs
  refine .bind (.word _) ?_
  rintro _ _ ⟨closing, rfl, closes⟩
  exact .pure (.branch opens tested isThen ended runs others closes)

/-- One arm, after its first word. -/
theorem caseArm_sound : Sound anyKind (caseArm statement) fun used arm =>
    ∃ shown colon ends run, used = shown ++ colon :: (ends ++ run) ∧
      Derives .expression shown arm.1 ∧ colon.kind = .mark .colon ∧ LineEnd ends ∧
      DerivesPhrase run (.block arm.2) := by
  refine .bind expression_sound fun shown value valued => .bind (.mark _) ?_
  rintro _ _ ⟨colon, rfl, isColon⟩
  refine .bind .lineEnd fun ends _ ended =>
    .bind (block_sound sound _) fun run body runs => .pure ?_
  rw [List.append_nil]
  exact ⟨shown, colon, ends, run, rfl, valued, isColon, ended, runs⟩

theorem switching_sound {opening : Token} (opens : opening.kind = .keyword .SWITCH) :
    Sound anyKind (switching statement) fun used stmt =>
      DerivesPhrase (opening :: used) (.statement stmt) := by
  have rounds : ∀ used (found : Array (Expr × List Stmt)) b,
      DerivesPhrase used (.arms found.toList) →
      Sound (Parse.among [.keyword .CASE] · = some b)
        (do
          let _ ← Parse.advance
          return found.push (← caseArm statement))
        fun others found' => DerivesPhrase (used ++ others) (.arms found'.toList) := by
    intro used found b before
    refine .bind (.pass rfl) ?_
    rintro _ word ⟨rfl, again⟩
    have isCase := List.mem_singleton.1 (Parse.among_eq_some.1 again)
    refine .bind (caseArm_sound sound) ?_
    rintro _ arm ⟨shown, colon, ends, run, rfl, valued, isColon, ended, runs⟩
    refine .pure ?_
    rw [List.append_nil, Array.toList_push]
    exact .moreArms before isCase valued isColon ended runs
  have other : Sound anyKind
      (do
        Parse.mark .colon
        Parse.lineEnd
        block statement [.ENDSWITCH])
      fun used body => ∃ colon ends tokens, used = colon :: (ends ++ tokens) ∧
        colon.kind = .mark .colon ∧ LineEnd ends ∧ DerivesPhrase tokens (.block body) := by
    refine .bind (.mark _) ?_
    rintro _ _ ⟨colon, rfl, isColon⟩
    refine .bind .lineEnd fun ends _ ended => (block_sound sound _).weaken ?_
    exact fun tokens body runs => ⟨colon, ends, tokens, rfl, isColon, ended, runs⟩
  refine .bind expression_sound fun tokens scrutinee switched => ?_
  refine .bind .lineEnd fun ends _ ended => .bind (.loop rounds .noArms) fun first cases runs => ?_
  refine .bind (.following? _ nofun other) fun second otherwise found => ?_
  have others : DerivesPhrase second
      (.otherwise [.keyword .DEFAULT, .mark .colon] otherwise) := by
    rcases found with ⟨rfl, rfl⟩ | ⟨word, _, body, rfl, isDefault, inner, rfl⟩
    · exact .absent
    · obtain ⟨colon, ends, tokens, rfl, isColon, ended, runs⟩ := inner
      have kinds : [word, colon].map Token.kind = [.keyword .DEFAULT, .mark .colon] := by
        rw [List.map_cons, List.map_singleton, isDefault, isColon]
      exact .present kinds ended runs
  refine .bind (.word _) ?_
  rintro _ _ ⟨closing, rfl, closes⟩
  exact .pure (.switch opens switched ended runs others closes)

/-- A statement is sound if the statements inside it are. -/
theorem statementRule_sound :
    Sound anyKind (statementRule statement) fun used stmt =>
      DerivesPhrase used (.statement stmt) := by
  refine .bind (.expectAny (by decide)) ?_
  rintro _ token ⟨rfl, member⟩
  rw [statementAfter.eq_def]
  split
  · rename_i opens
    exact assignment_sound opens
  · rename_i opens
    refine printing_sound.weaken ?_
    rintro used _ ⟨values, listed, rfl⟩
    exact .print opens listed
  · rename_i opens
    exact branching_sound sound opens
  · rename_i opens
    exact whileLooping_sound sound opens
  · rename_i opens
    exact forLooping_sound sound opens
  · rename_i opens
    exact repeatLooping_sound sound opens
  · rename_i opens
    exact switching_sound sound opens
  · refine resizing_sound ?_
    simp only [statementStart, List.mem_cons, List.not_mem_nil, or_false] at member
    grind

end Statements

theorem statement_sound :
    Sound anyKind statement fun used stmt => DerivesPhrase used (.statement stmt) :=
  .recursive fun _ => statementRule_sound

/-! ## Programs -/

theorem constant_sound : Sound anyKind constant (DerivesConstant (Derives .expression)) := by
  refine .bind .identifier ?_
  rintro _ _ ⟨isName⟩
  refine .bind (.mark _) ?_
  rintro _ _ ⟨sign, rfl, isSign⟩
  refine .bind expression_sound fun tokens value within => .pure ?_
  rw [List.append_nil]
  exact .constant isName isSign within

theorem typeName_sound : Sound anyKind typeName fun used type =>
    ∃ word keyword, used = [word] ∧ word.kind = .keyword keyword ∧
      typeWord? type = some keyword := by
  refine .bind (.expectAny (by decide)) ?_
  rintro _ word ⟨rfl, member⟩
  refine .pure ?_
  simp only [typeWords, List.mem_cons, List.not_mem_nil, or_false] at member
  rcases member with is | is | is | is | is
  all_goals exact ⟨word, _, rfl, is, by rw [is]; rfl⟩

theorem variableGroup_sound :
    Sound anyKind variableGroup (DerivesVariables (Derives .expression)) := by
  have rounds : ∀ used (found : Array String) b, Listed Named used found.toList →
      Sound (Parse.among [.mark .comma] · = some b)
        (do
          let _ ← Parse.advance
          return found.push (← Parse.identifier))
        fun others found' => Listed Named (used ++ others) found'.toList := by
    intro used found b before
    refine .bind (.pass rfl) ?_
    rintro _ comma ⟨rfl, again⟩
    have isComma := List.mem_singleton.1 (Parse.among_eq_some.1 again)
    refine .bind .identifier fun last name next => .pure ?_
    rw [List.append_nil, Array.toList_push]
    exact .more before isComma next
  refine .bind .identifier fun used first named => ?_
  refine .bind (.loop rounds (.one named)) fun others names listed => .bind (.mark _) ?_
  rintro _ _ ⟨colon, rfl, isColon⟩
  refine .bind typeName_sound ?_
  rintro _ type ⟨word, keyword, rfl, isType, spelled⟩
  refine .bind index?_sound fun sized size indexed => .pure ?_
  have derived := DerivesVariables.group listed isColon isType spelled indexed
  simpa using derived

/-- Lines under a word, of which each adds a piece to what was found. -/
theorem section_sound (heading : Keyword) {rule : Parse β} {more : Kind → Option Unit}
    {add : Array α → β → Array α} {piece : β → List α} {derives : List Token → β → Prop}
    (adds : ∀ found next, (add found next).toList = found.toList ++ piece next)
    (sound : Sound anyKind rule derives) :
    Sound anyKind
      (Parse.following? (.keyword heading) do
        Parse.lineEnd
        Parse.loop more
          (fun found _ => do
            let next ← rule
            Parse.lineEnd
            return add found next)
          #[])
      fun used found => ∃ items, Section derives heading used items ∧
        (found.getD #[]).toList = items.flatMap piece := by
  have rounds : ∀ used (found : Array α) (b : Unit),
      (∃ items, Lines derives used items ∧ found.toList = items.flatMap piece) →
      Sound (more · = some b)
        (do
          let next ← rule
          Parse.lineEnd
          return add found next)
        fun others found' => ∃ items, Lines derives (used ++ others) items ∧
          found'.toList = items.flatMap piece := by
    rintro used found b ⟨items, before, same⟩
    refine .bind (sound.restrict fun _ _ => trivial) fun last item next => ?_
    refine .bind .lineEnd fun ends _ ended => .pure ⟨items ++ [item], ?_, ?_⟩
    · rw [List.append_nil]
      exact .more before next ended
    · rw [adds, same, List.flatMap_append, List.flatMap_singleton]
  have inner : Sound anyKind
      (do
        Parse.lineEnd
        Parse.loop more
          (fun found _ => do
            let next ← rule
            Parse.lineEnd
            return add found next)
          #[])
      fun used found => ∃ ends tokens items, used = ends ++ tokens ∧ LineEnd ends ∧
        Lines derives tokens items ∧ found.toList = items.flatMap piece := by
    refine .bind .lineEnd fun ends _ ended => (Sound.loop rounds ⟨[], .none, rfl⟩).weaken ?_
    rintro tokens found ⟨items, lines, same⟩
    exact ⟨ends, tokens, items, rfl, ended, lines, same⟩
  refine (Sound.following? (.keyword heading) nofun inner).weaken ?_
  rintro _ _ (⟨rfl, rfl⟩ | ⟨word, _, found, rfl, isHeading, below, rfl⟩)
  · exact ⟨[], .absent, rfl⟩
  · obtain ⟨ends, tokens, items, rfl, ended, lines, same⟩ := below
    exact ⟨items, .present isHeading ended lines, same⟩

theorem constantSection_sound : Sound anyKind constantSection
    (Section (DerivesConstant (Derives .expression)) .CONSTANTS) := by
  have adds : ∀ (found : Array Constant) next, (found.push next).toList = found.toList ++ [next] :=
    fun found next => Array.toList_push
  refine .bind (section_sound .CONSTANTS adds constant_sound) ?_
  rintro used found ⟨items, lines, same⟩
  refine .pure ?_
  rw [List.append_nil, same, List.flatMap_singleton']
  exact lines

theorem variableSection_sound : Sound anyKind variableSection fun used found =>
    ∃ groups, Section (DerivesVariables (Derives .expression)) .VARIABLES used groups ∧
      found = groups.flatten := by
  have adds : ∀ (found : Array Variable) (next : List Variable),
      (found ++ next.toArray).toList = found.toList ++ id next :=
    fun found next => Array.toList_append
  refine .bind (section_sound .VARIABLES adds variableGroup_sound) ?_
  rintro used found ⟨groups, lines, same⟩
  refine .pure ⟨groups, ?_, ?_⟩
  · rwa [List.append_nil]
  · rw [same, List.flatMap_id]

theorem declarations_sound : Sound anyKind declarations fun used declarations =>
    ∃ first second groups, used = first ++ second ∧
      Section (DerivesConstant (Derives .expression)) .CONSTANTS first declarations.constants ∧
      Section (DerivesVariables (Derives .expression)) .VARIABLES second groups ∧
      declarations.variables = groups.flatten := by
  refine .bind constantSection_sound fun first constants constant => ?_
  refine .bind variableSection_sound ?_
  rintro second found ⟨groups, declared, same⟩
  refine .pure ⟨first, second, groups, ?_, constant, declared, same⟩
  rw [List.append_nil]

/-- What is read of a program, apart from the end of the text. -/
theorem programText_sound :
    Sound anyKind programText (DerivesProgram (Derives .expression)) := by
  refine .bind .blankLines fun before _ blank => .bind (.word _) ?_
  rintro _ _ ⟨heading, rfl, isProgram⟩
  refine .bind .identifier ?_
  rintro _ _ ⟨isName⟩
  refine .bind .lineEnd fun ends _ ended => .bind declarations_sound ?_
  rintro _ ⟨constants, _⟩ ⟨first, second, groups, rfl, constant, declared, rfl⟩
  refine .bind (.word _) ?_
  rintro _ _ ⟨opening, rfl, opens⟩
  refine .bind .lineEnd fun starts _ started => ?_
  refine .bind (block_sound statement_sound _) fun tokens body runs => .bind (.word _) ?_
  rintro _ _ ⟨closing, rfl, closes⟩
  refine .bind .blankLines fun after _ rest => .pure ?_
  have derived := DerivesProgram.program blank isProgram isName ended constant declared opens
    started runs closes rest
  simpa using derived

/-- A program is read up to a place that has to be the end of the text. -/
theorem program_apply (cursor : Cursor) : Grammar.program cursor =
    match programText cursor with
    | .ok program place =>
      if place.current.kind = .eof then .ok program place
      else .error (.badSyntax place.current.line) place
    | .error error place => .error error place := by
  rw [show Grammar.program cursor = EStateM.bind programText _ cursor from rfl, EStateM.bind]
  cases programText cursor with
  | error error place => rfl
  | ok program place =>
      by_cases ended : place.current.kind = .eof
      · simp [Parse.kind, bind, EStateM.bind, ended]
        rfl
      · simp [Parse.kind, bind, EStateM.bind, ended]
        rfl

/-- **A program that was read is derived by the tokens it was read from,** up to a
place at the end of the text. -/
theorem program_sound {tokens : List Token} {stop : Except Break Nat}
    {cursor after : Cursor} {program : Program}
    (here : Cursor.ofLexed ⟨tokens, stop⟩ = .ok cursor)
    (read : Grammar.program cursor = .ok program after) :
    after.current.kind = .eof ∧ ∃ used rest, tokens = used ++ rest ∧
      Cursor.ofLexed ⟨rest, stop⟩ = .ok after ∧
      DerivesProgram (Derives .expression) used program := by
  rw [program_apply] at read
  cases found : programText cursor with
  | error error place =>
      rw [found] at read
      cases read
  | ok known place =>
      rw [found] at read
      by_cases ended : place.current.kind = .eof
      · simp only [if_pos ended] at read
        cases read
        exact ⟨ended, programText_sound tokens stop cursor program after here trivial found⟩
      · simp only [if_neg ended] at read
        cases read

end Grammar

end Pseudocode
