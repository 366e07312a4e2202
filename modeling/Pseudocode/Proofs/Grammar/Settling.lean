import Pseudocode.Proofs.Grammar.Acceptance
import Pseudocode.Proofs.Grammar.Settles

/-!
# The grammar settles what it reads

The rules of the grammar settle what they read, by following their steps as for
soundness. Any open bracket, line or block can be closed again, and the shortest
expression is a single word, so that there is always something to complete a row of
tokens with. The main statement is `programText_settles`.
-/

set_option autoImplicit false

namespace Pseudocode

namespace Grammar

variable {α β ι : Type} {bound : Nat} {limit : ι → Nat}

/-- All kinds but those of the end of the text and of gaps have tokens. -/
theorem writable_of_notMem {kind : Kind} (inner : kind ∉ [Kind.eof, .comment, .blank]) :
    Writable kind := by
  have isDigits : IsDigits ['0'] := ⟨nofun, List.forall_mem_singleton.2 rfl⟩
  cases kind with
  | eof => simp at inner
  | comment => simp at inner
  | blank => simp at inner
  | newline => exact ⟨_, .newline⟩
  | identifier => exact ⟨['x'], .identifier (by decide)⟩
  | integer => exact ⟨['0'], .integer isDigits (by decide)⟩
  | float => exact ⟨_, .float isDigits isDigits⟩
  | character => exact ⟨['\'', 'x', '\''], .character (by decide)⟩
  | string => exact ⟨['"', '"'], .string (nofun : '"' ∉ [])⟩
  | mark mark => exact ⟨_, .mark mark⟩
  | keyword keyword => exact ⟨_, .keyword keyword⟩

/-- So a rule may ask for any of them. -/
theorem writable_of_inner {expected : List Kind}
    (inner : ∀ kind ∈ expected, kind ∉ [Kind.eof, .comment, .blank]) :
    ∀ kind ∈ expected, Writable kind :=
  fun kind member => writable_of_notMem (inner kind member)

/-! ## Expressions -/

section Expressions

variable {primary : Parse Expr} {primaries : ι → Parse Expr}
  (settles : Settles bound limit anyKind primary primaries (Derives .primary))

/-- Operands in a row are joined from the left. -/
theorem leftChain_settles (upper : Precedence) {lower : Precedence} {operand : Parse Expr}
    {operands : ι → Parse Expr} (next : upper.tighter? = some lower)
    (settles : Settles bound limit anyKind operand operands (Derives lower)) :
    Settles bound limit anyKind (leftChain upper.joining operand)
      (fun i => leftChain upper.joining (operands i)) (Derives upper) := by
  have each : ∀ used left op, Derives upper used left →
      Settles bound limit (operatorOf upper.joining · = some op)
        (do
          let _ ← Parse.advance
          let right ← operand
          return .binary op left right)
        (fun i => do
          let _ ← Parse.advance
          let right ← operands i
          return .binary op left right)
        fun others expr => others ≠ [] ∧ Derives upper (used ++ others) expr := by
    intro used left op before
    refine .bind (.pass rfl) ?_
    rintro _ sign ⟨rfl, isSign⟩
    obtain ⟨isSign, joins⟩ := operatorOf_eq_some.1 isSign
    refine .bind settles fun second right after => .pure ⟨nofun, ?_⟩
    rw [List.append_nil]
    exact .join next before isSign joins after
  refine .bind settles fun used first derived => ?_
  exact .loop each (.single next derived)

include settles

/-- A row of powers is grouped from the right. -/
theorem exponent_settles :
    Settles bound limit anyKind (exponent primary) (fun i => exponent (primaries i))
      (Derives .exponent) := by
  have each : ∀ used (found : Array Expr) b, Exponents used found.toList →
      Settles bound limit (Parse.among [.mark .caret] · = some b)
        (do
          let _ ← Parse.advance
          return found.push (← primary))
        (fun i => do
          let _ ← Parse.advance
          return found.push (← primaries i))
        fun others found' => others ≠ [] ∧ Exponents (used ++ others) found'.toList := by
    intro used found b before
    refine .bind (.pass rfl) ?_
    rintro _ sign ⟨rfl, again⟩
    have isSign := List.mem_singleton.1 (Parse.among_eq_some.1 again)
    refine .bind settles fun last expr next => .pure ⟨nofun, ?_⟩
    rw [List.append_nil, Array.toList_push]
    exact before.snoc isSign next
  refine .bind settles fun first base isBase => ?_
  refine .bind (.loop each .none) fun others found exponents => .pure ?_
  rw [List.append_nil]
  exact exponents.derives isBase

theorem additive_settles :
    Settles bound limit anyKind (additive primary) (fun i => additive (primaries i))
      (Derives .additive) :=
  leftChain_settles .additive rfl (leftChain_settles .multiplicative rfl (exponent_settles settles))

theorem comparison_settles :
    Settles bound limit anyKind (comparison primary) (fun i => comparison (primaries i))
      (Derives .comparison) := by
  refine .bind (additive_settles settles) fun first left before => .kind fun kind _ => ?_
  cases found : operatorOf comparing kind with
  | none =>
      refine .pure ?_
      rw [List.append_nil]
      exact .single rfl before
  | some op =>
      refine .bind (.restrict (.pass rfl) (by rintro _ rfl; exact found)) ?_
      rintro _ sign ⟨rfl, isSign⟩
      obtain ⟨isSign, compares⟩ := operatorOf_eq_some.1 isSign
      refine .bind (additive_settles settles) fun second right after => .pure ?_
      rw [List.append_nil]
      exact .compare before isSign compares after

theorem expressionOf_settles :
    Settles bound limit anyKind (expressionOf primary) (fun i => expressionOf (primaries i))
      (Derives .expression) :=
  leftChain_settles .expression rfl (comparison_settles settles)

theorem indexOf?_settles :
    Settles bound limit anyKind (indexOf? primary) (fun i => indexOf? (primaries i))
      (Indexed (Derives .expression)) := by
  have bracketed : Settles bound limit anyKind
      (do
        let index ← expressionOf primary
        Parse.mark .rightBracket
        return index)
      (fun i => do
        let index ← expressionOf (primaries i)
        Parse.mark .rightBracket
        return index)
      fun used index => ∃ inner closing, used = inner ++ [closing] ∧
        Derives .expression inner index ∧ closing.kind = .mark .rightBracket := by
    refine .bind (expressionOf_settles settles) fun inner index within => .bind (.mark _) ?_
    rintro _ _ ⟨closing, rfl, closes⟩
    exact .pure ⟨inner, closing, rfl, within, closes⟩
  refine (Settles.following? (.mark .leftBracket) nofun bracketed).weaken ?_
  rintro _ _ (⟨rfl, rfl⟩ |
    ⟨opening, _, index, rfl, opens, ⟨inner, closing, rfl, within, closes⟩, rfl⟩)
  · exact .absent
  · exact .present opens within closes

omit settles in
theorem literalOf_settles {token : Token} (lexeme : Lexeme token.kind token.lexeme.toList)
    (isLiteral : token.kind ∈ literalKinds) :
    Settles bound limit anyKind (literalOf token) (fun _ => literalOf token) fun used expr =>
      Derives .primary ([token] ++ used) expr := by
  obtain ⟨value, stands, _⟩ := stands_of_lexeme lexeme isLiteral
  have known : literalOf token = pure (.literal value) := by
    funext cursor
    rw [literalOf, stands]
    rfl
  simp only [known]
  exact .pure (.literal isLiteral stands)

theorem symbolOf_settles {token : Token} (isName : token.kind = .identifier) :
    Settles bound limit anyKind (symbolOf token.lexeme primary)
      (fun i => symbolOf token.lexeme (primaries i)) fun used expr =>
        Derives .primary ([token] ++ used) expr := by
  refine .bind (indexOf?_settles settles) fun used index indexed => ?_
  cases indexed with
  | absent => exact .pure (.name isName)
  | present opens within closes =>
      refine .pure ?_
      rw [List.append_nil]
      exact .element isName opens within closes

/-- The primaries inside a primary start one token later. -/
theorem primaryRule_settles :
    Settles (bound + 1) (fun i => limit i + 1) anyKind (primaryRule primary)
      (fun i => primaryRule (primaries i)) (Derives .primary) := by
  have writable : ∀ kind ∈ primaryStart, Writable kind := writable_of_inner (by decide)
  refine .passing (.expectAny nofun writable) ?_ ?_
  · rintro _ token ⟨rfl, _⟩
    nofun
  · rintro _ ⟨kind, text, line⟩ ⟨rfl, member, lexeme⟩
    simp only [primaryStart, List.mem_cons, List.not_mem_nil, or_false] at member
    rcases member with rfl | rfl | rfl | rfl | rfl | rfl | rfl | rfl | rfl | rfl | rfl
    iterate 6 exact literalOf_settles lexeme (by simp [literalKinds])
    · exact symbolOf_settles settles rfl
    · refine .bind (comparison_settles settles) fun inner operand within => .pure ?_
      rw [List.append_nil]
      exact .not rfl within
    · refine .bind settles fun inner operand within => .pure ?_
      rw [List.append_nil]
      exact .sign rfl within
    · refine .bind settles fun inner operand within => .pure ?_
      rw [List.append_nil]
      exact .sign rfl within
    · refine .bind (expressionOf_settles settles) fun inner expr within => .bind (.mark _) ?_
      rintro _ _ ⟨closing, rfl, closes⟩
      exact .pure (.group rfl within closes)

end Expressions

/-- The shortest expression. -/
theorem Derives.true (line : Nat) :
    Written line [⟨.keyword .TRUE, "TRUE", line⟩] ∧
      Derives .primary [⟨.keyword .TRUE, "TRUE", line⟩] (.literal (.boolean true)) :=
  ⟨⟨rfl, .keyword .TRUE, trivial⟩, .literal (by simp [literalKinds]) rfl⟩

theorem primary_settles :
    Settles bound limit anyKind primary (fun _ => primary) (Derives .primary) :=
  .recursive (fun line => ⟨_, _, (Derives.true line).1, (Derives.true line).2⟩) primaryRule_settles

theorem expression_settles :
    Settles bound limit anyKind expression (fun _ => expression) (Derives .expression) :=
  expressionOf_settles primary_settles

theorem index?_settles :
    Settles bound limit anyKind index? (fun _ => index?) (Indexed (Derives .expression)) :=
  indexOf?_settles primary_settles

/-! ## Statements -/

/-- Items with commas between them, after the first one. -/
theorem commas_settles {item : List Token → α → Prop} {rule : Parse α}
    (settles : Settles bound limit anyKind rule (fun _ => rule) item) {used : List Token}
    {first : α} (derived : item used first) :
    Settles bound limit anyKind
      (Parse.loop (Parse.among [.mark .comma])
        (fun found _ => do
          let _ ← Parse.advance
          return found.push (← rule))
        #[first])
      (fun _ => Parse.loop (Parse.among [.mark .comma])
        (fun found _ => do
          let _ ← Parse.advance
          return found.push (← rule))
        #[first])
      fun others found => Listed item (used ++ others) found.toList := by
  have each : ∀ used (found : Array α) b, Listed item used found.toList →
      Settles bound limit (Parse.among [.mark .comma] · = some b)
        (do
          let _ ← Parse.advance
          return found.push (← rule))
        (fun _ => do
          let _ ← Parse.advance
          return found.push (← rule))
        fun others found' => others ≠ [] ∧ Listed item (used ++ others) found'.toList := by
    intro used found b before
    refine .bind (.pass rfl) ?_
    rintro _ comma ⟨rfl, again⟩
    have isComma := List.mem_singleton.1 (Parse.among_eq_some.1 again)
    refine .bind settles fun last a next => .pure ⟨nofun, ?_⟩
    rw [List.append_nil, Array.toList_push]
    exact .more before isComma next
  exact .loop each (.one derived)

theorem printing_settles {opening : Token} (opens : opening.kind = .keyword .PRINT) :
    Settles bound limit anyKind printing (fun _ => printing) fun used stmt =>
      DerivesPhrase ([opening] ++ used) (.statement stmt) := by
  refine .bind expression_settles fun used first derived => ?_
  refine .bind (commas_settles expression_settles derived) fun others found listed => .pure ?_
  rw [List.append_nil]
  exact .print opens listed

/-- Writing, after the word for it. -/
theorem assignment_settles {opening : Token} (opens : opening.kind = .keyword .LET) :
    Settles bound limit anyKind assignment (fun _ => assignment) fun used stmt =>
      DerivesPhrase ([opening] ++ used) (.statement stmt) := by
  refine .bind .identifier ?_
  rintro _ _ ⟨isName⟩
  refine .bind index?_settles fun position index indexed => .bind (.mark _) ?_
  rintro _ _ ⟨sign, rfl, isSign⟩
  refine .bind expression_settles fun tokens value within => ?_
  cases indexed with
  | absent =>
      refine .pure ?_
      rw [List.append_nil]
      exact .assign opens isName isSign within
  | @present left right inner index starts position stops =>
      refine .pure ?_
      have derived := DerivesStmt.assignAt opens isName starts position stops isSign within
      simpa using derived

/-- Changing a length, after the word for it. -/
theorem resizing_settles {opening : Token} (opens : opening.kind = .keyword .RESIZE) :
    Settles bound limit anyKind resizing (fun _ => resizing) fun used stmt =>
      DerivesPhrase ([opening] ++ used) (.statement stmt) := by
  refine .bind .identifier ?_
  rintro _ _ ⟨isName⟩
  refine .bind (.word _) ?_
  rintro _ _ ⟨toWord, rfl, isTo⟩
  refine .bind expression_settles fun tokens size within => .pure ?_
  rw [List.append_nil]
  exact .resize opens isName isTo within

section Statements

variable {statement : Parse Stmt} {statements : ι → Parse Stmt}
  (settles : Settles bound limit anyKind statement statements
    fun used stmt => DerivesPhrase used (.statement stmt))

include settles

theorem block_settles (closing : List Keyword) :
    Settles bound limit anyKind (block statement closing) (fun i => block (statements i) closing)
      fun used body => DerivesPhrase used (.block body) := by
  have each : ∀ used (found : Array Stmt) b, DerivesPhrase used (.block found.toList) →
      Settles bound limit (Parse.outside (.eof :: closing.map Kind.keyword) · = some b)
        (do
          let next ← statement
          Parse.lineEnd
          return found.push next)
        (fun i => do
          let next ← statements i
          Parse.lineEnd
          return found.push next)
        fun others found' => others ≠ [] ∧
          DerivesPhrase (used ++ others) (.block found'.toList) := by
    intro used found b before
    refine .bind (settles.restrict fun _ _ => trivial) fun last stmt next => ?_
    refine .bind .lineEnd fun ends _ ended => .pure ⟨?_, ?_⟩
    · simp [ended.1]
    · rw [List.append_nil, Array.toList_push]
      exact .moreStatements before next ended
  refine .bind (.loop each .noStatements) fun used found derived => .pure ?_
  rw [List.append_nil]
  exact derived

/-- A block on the next lines and the word that closes it. -/
theorem bodyUpTo_settles (closing : Keyword) :
    Settles bound limit anyKind (bodyUpTo statement closing)
      (fun i => bodyUpTo (statements i) closing) fun used body =>
        ∃ ends tokens word, used = ends ++ (tokens ++ [word]) ∧ LineEnd ends ∧
          DerivesPhrase tokens (.block body) ∧ word.kind = .keyword closing := by
  refine .bind .lineEnd fun ends _ ended => ?_
  refine .bind (block_settles settles _) fun tokens body runs => .bind (.word _) ?_
  rintro _ _ ⟨word, rfl, closes⟩
  exact .pure ⟨ends, tokens, word, rfl, ended, runs, closes⟩

theorem whileLooping_settles {opening : Token} (opens : opening.kind = .keyword .WHILE) :
    Settles bound limit anyKind (whileLooping statement) (fun i => whileLooping (statements i))
      fun used stmt => DerivesPhrase ([opening] ++ used) (.statement stmt) := by
  refine .bind expression_settles fun test condition tested => .bind (.word _) ?_
  rintro _ _ ⟨word, rfl, isDo⟩
  refine .bind (bodyUpTo_settles settles _) ?_
  rintro _ body ⟨ends, tokens, closing, rfl, ended, runs, closes⟩
  refine .pure ?_
  rw [List.append_nil]
  exact .whileLoop opens tested isDo ended runs closes

theorem repeatLooping_settles {opening : Token} (opens : opening.kind = .keyword .REPEAT) :
    Settles bound limit anyKind (repeatLooping statement) (fun i => repeatLooping (statements i))
      fun used stmt => DerivesPhrase ([opening] ++ used) (.statement stmt) := by
  refine .bind (.word _) ?_
  rintro _ _ ⟨word, rfl, isUntil⟩
  refine .bind expression_settles fun test condition tested => .bind (bodyUpTo_settles settles _) ?_
  rintro _ body ⟨ends, tokens, closing, rfl, ended, runs, closes⟩
  refine .pure ?_
  rw [List.append_nil]
  exact .repeatLoop opens isUntil tested ended runs closes

theorem forLooping_settles {opening : Token} (opens : opening.kind = .keyword .FOR) :
    Settles bound limit anyKind (forLooping statement) (fun i => forLooping (statements i))
      fun used stmt => DerivesPhrase ([opening] ++ used) (.statement stmt) := by
  refine .bind .identifier ?_
  rintro _ _ ⟨isName⟩
  refine .bind (.word _) ?_
  rintro _ _ ⟨fromWord, rfl, isFrom⟩
  refine .bind expression_settles fun low first firsts => .bind (.word _) ?_
  rintro _ _ ⟨toWord, rfl, isTo⟩
  refine .bind expression_settles fun high last lasts => ?_
  refine .bind (.following? _ nofun expression_settles) fun stepping step found => ?_
  have steps : Stepped (Derives .expression) stepping
      (step.getD (.literal (.integer .one))) := by
    rcases found with ⟨rfl, rfl⟩ | ⟨word, tokens, step, rfl, isStep, within, rfl⟩
    · exact .absent
    · exact .present isStep within
  refine .bind (bodyUpTo_settles settles _) ?_
  rintro _ body ⟨ends, tokens, closing, rfl, ended, runs, closes⟩
  refine .pure ?_
  rw [List.append_nil]
  exact .forLoop opens isName isFrom firsts isTo lasts steps ended runs closes

theorem branching_settles {opening : Token} (opens : opening.kind = .keyword .IF) :
    Settles bound limit anyKind (branching statement) (fun i => branching (statements i))
      fun used stmt => DerivesPhrase ([opening] ++ used) (.statement stmt) := by
  have other : Settles bound limit anyKind
      (do
        Parse.lineEnd
        block statement [.ENDIF])
      (fun i => do
        Parse.lineEnd
        block (statements i) [.ENDIF])
      fun used body => ∃ ends tokens, used = ends ++ tokens ∧ LineEnd ends ∧
        DerivesPhrase tokens (.block body) := by
    refine .bind .lineEnd fun ends _ ended => (block_settles settles _).weaken ?_
    exact fun tokens body runs => ⟨ends, tokens, rfl, ended, runs⟩
  refine .bind expression_settles fun test condition tested => .bind (.word _) ?_
  rintro _ _ ⟨word, rfl, isThen⟩
  refine .bind .lineEnd fun ends _ ended => ?_
  refine .bind (block_settles settles _) fun first yes runs => ?_
  refine .bind (.following? _ nofun other) fun second no found => ?_
  have others : DerivesPhrase second (.otherwise [.keyword .ELSE] no) := by
    rcases found with ⟨rfl, rfl⟩ | ⟨word, _, body, rfl, isElse, inner, rfl⟩
    · exact .absent
    · obtain ⟨ends, tokens, rfl, ended, runs⟩ := inner
      have kinds : [word].map Token.kind = [.keyword .ELSE] := by
        rw [List.map_singleton, isElse]
      exact .present kinds ended runs
  refine .bind (.word _) ?_
  rintro _ _ ⟨closing, rfl, closes⟩
  exact .pure (.branch opens tested isThen ended runs others closes)

/-- One arm, after its first word. -/
theorem caseArm_settles :
    Settles bound limit anyKind (caseArm statement) (fun i => caseArm (statements i))
      fun used arm => ∃ shown colon ends run, used = shown ++ colon :: (ends ++ run) ∧
        Derives .expression shown arm.1 ∧ colon.kind = .mark .colon ∧ LineEnd ends ∧
        DerivesPhrase run (.block arm.2) := by
  refine .bind expression_settles fun shown value valued => .bind (.mark _) ?_
  rintro _ _ ⟨colon, rfl, isColon⟩
  refine .bind .lineEnd fun ends _ ended =>
    .bind (block_settles settles _) fun run body runs => .pure ?_
  rw [List.append_nil]
  exact ⟨shown, colon, ends, run, rfl, valued, isColon, ended, runs⟩

theorem switching_settles {opening : Token} (opens : opening.kind = .keyword .SWITCH) :
    Settles bound limit anyKind (switching statement) (fun i => switching (statements i))
      fun used stmt => DerivesPhrase ([opening] ++ used) (.statement stmt) := by
  have each : ∀ used (found : Array (Expr × List Stmt)) b,
      DerivesPhrase used (.arms found.toList) →
      Settles bound limit (Parse.among [.keyword .CASE] · = some b)
        (do
          let _ ← Parse.advance
          return found.push (← caseArm statement))
        (fun i => do
          let _ ← Parse.advance
          return found.push (← caseArm (statements i)))
        fun others found' => others ≠ [] ∧
          DerivesPhrase (used ++ others) (.arms found'.toList) := by
    intro used found b before
    refine .bind (.pass rfl) ?_
    rintro _ word ⟨rfl, again⟩
    have isCase := List.mem_singleton.1 (Parse.among_eq_some.1 again)
    refine .bind (caseArm_settles settles) ?_
    rintro _ arm ⟨shown, colon, ends, run, rfl, valued, isColon, ended, runs⟩
    refine .pure ⟨nofun, ?_⟩
    rw [List.append_nil, Array.toList_push]
    exact .moreArms before isCase valued isColon ended runs
  have other : Settles bound limit anyKind
      (do
        Parse.mark .colon
        Parse.lineEnd
        block statement [.ENDSWITCH])
      (fun i => do
        Parse.mark .colon
        Parse.lineEnd
        block (statements i) [.ENDSWITCH])
      fun used body => ∃ colon ends tokens, used = colon :: (ends ++ tokens) ∧
        colon.kind = .mark .colon ∧ LineEnd ends ∧ DerivesPhrase tokens (.block body) := by
    refine .bind (.mark _) ?_
    rintro _ _ ⟨colon, rfl, isColon⟩
    refine .bind .lineEnd fun ends _ ended => (block_settles settles _).weaken ?_
    exact fun tokens body runs => ⟨colon, ends, tokens, rfl, isColon, ended, runs⟩
  refine .bind expression_settles fun tokens scrutinee switched => ?_
  refine .bind .lineEnd fun ends _ ended => .bind (.loop each .noArms) fun first cases runs => ?_
  refine .bind (.following? _ nofun other) fun second otherwise found => ?_
  have others : DerivesPhrase second
      (.otherwise [.keyword .DEFAULT, .mark .colon] otherwise) := by
    rcases found with ⟨rfl, rfl⟩ | ⟨word, _, body, rfl, isDefault, inner, rfl⟩
    · exact .absent
    · obtain ⟨colon, ends, tokens, rfl, isColon, ended, runs⟩ := inner
      have kinds : [word, colon].map Token.kind = [.keyword .DEFAULT, .mark .colon] := by
        rw [List.map_cons, List.map_singleton, isDefault, isColon]
      exact .present kinds ended runs
  refine .bind (.word _) ?_
  rintro _ _ ⟨closing, rfl, closes⟩
  exact .pure (.switch opens switched ended runs others closes)

/-- The statements inside a statement start at least one token later. -/
theorem statementRule_settles :
    Settles (bound + 1) (fun i => limit i + 1) anyKind (statementRule statement)
      (fun i => statementRule (statements i))
      fun used stmt => DerivesPhrase used (.statement stmt) := by
  have writable : ∀ kind ∈ statementStart, Writable kind := writable_of_inner (by decide)
  refine .passing (.expectAny nofun writable) ?_ ?_
  · rintro _ token ⟨rfl, _⟩
    nofun
  · rintro _ ⟨kind, text, line⟩ ⟨rfl, member, _⟩
    simp only [statementStart, List.mem_cons, List.not_mem_nil, or_false] at member
    rcases member with rfl | rfl | rfl | rfl | rfl | rfl | rfl | rfl
    · exact assignment_settles rfl
    · exact printing_settles rfl
    · exact branching_settles settles rfl
    · exact whileLooping_settles settles rfl
    · exact forLooping_settles settles rfl
    · exact repeatLooping_settles settles rfl
    · exact switching_settles settles rfl
    · exact resizing_settles rfl

end Statements

theorem statement_settles :
    Settles bound limit anyKind statement (fun _ => statement)
      fun used stmt => DerivesPhrase used (.statement stmt) := by
  refine .recursive (fun line => ?_) statementRule_settles
  let opening : Token := ⟨.keyword .PRINT, "PRINT", line⟩
  have written : Written line [opening] := ⟨rfl, .keyword .PRINT, trivial⟩
  have printed := @printing_settles ι bound limit opening rfl
  have whole : Completes line (fun used stmt => DerivesPhrase used (.statement stmt))
      ([opening] ++ []) := (printed.completes _).extend written
  obtain ⟨more, stmt, row, derived⟩ := whole
  exact ⟨_, stmt, row, derived⟩

/-! ## Programs -/

theorem constant_settles :
    Settles bound limit anyKind constant (fun _ => constant)
      (DerivesConstant (Derives .expression)) := by
  refine .bind .identifier ?_
  rintro _ _ ⟨isName⟩
  refine .bind (.mark _) ?_
  rintro _ _ ⟨sign, rfl, isSign⟩
  refine .bind expression_settles fun tokens value within => .pure ?_
  rw [List.append_nil]
  exact .constant isName isSign within

theorem typeName_settles :
    Settles bound limit anyKind typeName (fun _ => typeName) fun used type =>
      ∃ word keyword, used = [word] ∧ word.kind = .keyword keyword ∧
        typeWord? type = some keyword := by
  have writable : ∀ kind ∈ typeWords, Writable kind := writable_of_inner (by decide)
  refine .bind (.expectAny nofun writable) ?_
  rintro _ word ⟨rfl, member, _⟩
  refine .pure ?_
  simp only [typeWords, List.mem_cons, List.not_mem_nil, or_false] at member
  rcases member with is | is | is | is | is
  all_goals exact ⟨word, _, rfl, is, by rw [is]; rfl⟩

theorem variableGroup_settles :
    Settles bound limit anyKind variableGroup (fun _ => variableGroup)
      (DerivesVariables (Derives .expression)) := by
  refine .bind .identifier fun used first named => ?_
  refine .bind (commas_settles .identifier named) fun others names listed => .bind (.mark _) ?_
  rintro _ _ ⟨colon, rfl, isColon⟩
  refine .bind typeName_settles ?_
  rintro _ type ⟨word, keyword, rfl, isType, spelled⟩
  refine .bind index?_settles fun sized size indexed => .pure ?_
  have derived := DerivesVariables.group listed isColon isType spelled indexed
  simpa using derived

/-- Lines under a word, of which each adds a piece to what was found. -/
theorem section_settles (heading : Keyword) {rule : Parse β} {more : Kind → Option Unit}
    {add : Array α → β → Array α} {piece : β → List α} {derives : List Token → β → Prop}
    (adds : ∀ found next, (add found next).toList = found.toList ++ piece next)
    (settles : Settles bound limit anyKind rule (fun _ => rule) derives) :
    Settles bound limit anyKind
      (Parse.following? (.keyword heading) do
        Parse.lineEnd
        Parse.loop more (lineRound rule add) #[])
      (fun _ => Parse.following? (.keyword heading) do
        Parse.lineEnd
        Parse.loop more (lineRound rule add) #[])
      fun used found => ∃ items, Section derives heading used items ∧
        (found.getD #[]).toList = items.flatMap piece := by
  have each : ∀ used (found : Array α) (b : Unit),
      (∃ items, Lines derives used items ∧ found.toList = items.flatMap piece) →
      Settles bound limit (more · = some b) (lineRound rule add found b)
        (fun _ => lineRound rule add found b)
        fun others found' => others ≠ [] ∧ ∃ items, Lines derives (used ++ others) items ∧
          found'.toList = items.flatMap piece := by
    rintro used found b ⟨items, before, same⟩
    refine .bind (settles.restrict fun _ _ => trivial) fun last item next => ?_
    refine .bind .lineEnd fun ends _ ended => .pure ⟨?_, items ++ [item], ?_, ?_⟩
    · simp [ended.1]
    · rw [List.append_nil]
      exact .more before next ended
    · rw [adds, same, List.flatMap_append, List.flatMap_singleton]
  have inner : Settles bound limit anyKind
      (do
        Parse.lineEnd
        Parse.loop more (lineRound rule add) #[])
      (fun _ => do
        Parse.lineEnd
        Parse.loop more (lineRound rule add) #[])
      fun used found => ∃ ends tokens items, used = ends ++ tokens ∧ LineEnd ends ∧
        Lines derives tokens items ∧ found.toList = items.flatMap piece := by
    refine .bind .lineEnd fun ends _ ended => (Settles.loop each ⟨[], .none, rfl⟩).weaken ?_
    rintro tokens found ⟨items, lines, same⟩
    exact ⟨ends, tokens, items, rfl, ended, lines, same⟩
  refine (Settles.following? (.keyword heading) nofun inner).weaken ?_
  rintro _ _ (⟨rfl, rfl⟩ | ⟨word, _, found, rfl, isHeading, below, rfl⟩)
  · exact ⟨[], .absent, rfl⟩
  · obtain ⟨ends, tokens, items, rfl, ended, lines, same⟩ := below
    exact ⟨items, .present isHeading ended lines, same⟩

theorem constantSection_settles :
    Settles bound limit anyKind constantSection (fun _ => constantSection)
      (Section (DerivesConstant (Derives .expression)) .CONSTANTS) := by
  have adds : ∀ (found : Array Constant) next, (found.push next).toList = found.toList ++ [next] :=
    fun found next => Array.toList_push
  refine .bind (section_settles .CONSTANTS adds constant_settles) ?_
  rintro used found ⟨items, lines, same⟩
  refine .pure ?_
  rw [List.append_nil, same, List.flatMap_singleton']
  exact lines

theorem variableSection_settles :
    Settles bound limit anyKind variableSection (fun _ => variableSection) fun used found =>
      ∃ groups, Section (DerivesVariables (Derives .expression)) .VARIABLES used groups ∧
        found = groups.flatten := by
  have adds : ∀ (found : Array Variable) (next : List Variable),
      (found ++ next.toArray).toList = found.toList ++ id next :=
    fun found next => Array.toList_append
  refine .bind (section_settles .VARIABLES adds variableGroup_settles) ?_
  rintro used found ⟨groups, lines, same⟩
  refine .pure ⟨groups, ?_, ?_⟩
  · rwa [List.append_nil]
  · rw [same, List.flatMap_id]

theorem declarations_settles :
    Settles bound limit anyKind declarations (fun _ => declarations) fun used declarations =>
      ∃ first second groups, used = first ++ second ∧
        Section (DerivesConstant (Derives .expression)) .CONSTANTS first declarations.constants ∧
        Section (DerivesVariables (Derives .expression)) .VARIABLES second groups ∧
        declarations.variables = groups.flatten := by
  refine .bind constantSection_settles fun first constants constant => ?_
  refine .bind variableSection_settles ?_
  rintro second found ⟨groups, declared, same⟩
  refine .pure ⟨first, second, groups, ?_, constant, declared, same⟩
  rw [List.append_nil]

/-- **Reading a program settles what it reads,** apart from the end of the text. -/
theorem programText_settles :
    Settles bound limit anyKind programText (fun _ => programText)
      (DerivesProgram (Derives .expression)) := by
  refine .bind .blankLines fun before _ blank => .bind (.word _) ?_
  rintro _ _ ⟨heading, rfl, isProgram⟩
  refine .bind .identifier ?_
  rintro _ _ ⟨isName⟩
  refine .bind .lineEnd fun ends _ ended => .bind declarations_settles ?_
  rintro _ ⟨constants, _⟩ ⟨first, second, groups, rfl, constant, declared, rfl⟩
  refine .bind (.word _) ?_
  rintro _ _ ⟨opening, rfl, opens⟩
  refine .bind .lineEnd fun starts _ started => ?_
  refine .bind (block_settles statement_settles _) fun tokens body runs => .bind (.word _) ?_
  rintro _ _ ⟨closing, rfl, closes⟩
  refine .bind .blankLines fun after _ rest => .pure ?_
  have derived := DerivesProgram.program blank isProgram isName ended constant declared opens
    started runs closes rest
  simpa using derived

end Grammar

end Pseudocode
