import Pseudocode.Proofs.Grammar.Calls
import Pseudocode.Proofs.Grammar.Progress

/-!
# Orderly rules

A rule is orderly (`Parse.Orderly`) if it can be followed to its end and never calls for a token
at the end of the text. Rules that are built from orderly ones are orderly again. For loops and
nesting this is an induction on the tokens ahead: a round of a loop moves past a token, and so
does a rule before it comes to itself. The rules of the grammar are followed one by one, down to
`Grammar.program_orderly`.
-/

set_option autoImplicit false

namespace Pseudocode

variable {α β : Type}

namespace Parse

open Grammar (anyKind bind_ok bind_error)

/-! ## Orderly rules -/

/-- From a place on, a rule can be followed to its end, and it calls at no place that is the end
of the text. -/
def OrderlyAt (rule : Parse α) (cursor : Cursor) : Prop :=
  ∃ places, Calls rule cursor places ∧ ∀ place ∈ places, place.current.kind ≠ .eof

/-- A rule is orderly at places with fewer than the given number of tokens ahead and a token of
certain kinds in view. -/
def Orderly (bound : Nat) (kinds : Kind → Prop) (rule : Parse α) : Prop :=
  ∀ cursor, cursor.size < bound → kinds cursor.current.kind → OrderlyAt rule cursor

namespace OrderlyAt

variable {cursor : Cursor}

theorem bind {first : Parse α} {second : α → Parse β} (earlier : OrderlyAt first cursor)
    (later : ∀ a middle, first cursor = .ok a middle → OrderlyAt (second a) middle) :
    OrderlyAt (first >>= second) cursor := by
  obtain ⟨places, calls, inner⟩ := earlier
  cases found : first cursor with
  | error error place => exact ⟨places, .failed calls found, inner⟩
  | ok a middle =>
      obtain ⟨others, calls', inner'⟩ := later a middle found
      exact ⟨places ++ others, .onward calls found calls', List.forall_mem_append.2 ⟨inner, inner'⟩⟩

theorem advance (before : cursor.current.kind ≠ .eof) : OrderlyAt Parse.advance cursor :=
  ⟨[cursor], .advance cursor, List.forall_mem_singleton.2 before⟩

/-- An orderly rule does not go back. -/
theorem size_le {rule : Parse α} (orderly : OrderlyAt rule cursor) {a : α} {after : Cursor}
    (found : rule cursor = .ok a after) : after.size ≤ cursor.size := by
  obtain ⟨places, calls, inner⟩ := orderly
  induction calls generalizing after with
  | view look cursor =>
      obtain ⟨_, rfl⟩ := inView_eq_ok.1 found
      exact Nat.le_refl _
  | advance cursor =>
      obtain ⟨_, moved⟩ := advance_eq_ok.1 found
      exact Nat.le_of_lt (Cursor.size_lt_of_next (inner cursor List.mem_cons_self) moved)
  | onward _ middle _ ih ih' =>
      rw [bind_ok middle] at found
      obtain ⟨inner, inner'⟩ := List.forall_mem_append.1 inner
      exact Nat.le_trans (ih' found inner') (ih middle inner)
  | failed _ stopped _ =>
      rw [bind_error stopped] at found
      cases found

end OrderlyAt

namespace Orderly

variable {bound : Nat} {kinds : Kind → Prop} {rule : Parse α}

theorem mono {fewer : Nat} (orderly : Orderly bound kinds rule) (less : fewer ≤ bound) :
    Orderly fewer kinds rule :=
  fun cursor short => orderly cursor (Nat.lt_of_lt_of_le short less)

theorem restrict {kinds' : Kind → Prop} (orderly : Orderly bound kinds rule)
    (fewer : ∀ kind, kinds' kind → kinds kind) : Orderly bound kinds' rule :=
  fun cursor short start => orderly cursor short (fewer _ start)

theorem view (look : Token → Except GrammarError α) : Orderly bound kinds (inView look) :=
  fun cursor _ _ => ⟨[], .view look cursor, nofun⟩

theorem pure (a : α) : Orderly bound kinds (Pure.pure a) := view fun _ => .ok a

theorem unexpected (expected : List Kind) :
    Orderly bound kinds (Parse.unexpected expected : Parse α) :=
  view fun token => .error (.unexpected expected token.kind token.line)

theorem badSyntax : Orderly bound kinds (Parse.badSyntax : Parse α) :=
  view fun token => .error (.badSyntax token.line)

theorem advance (before : ∀ kind, kinds kind → kind ≠ .eof) :
    Orderly bound kinds Parse.advance :=
  fun _ _ start => .advance (before _ start)

/-! ### Sequences -/

theorem bind {first : Parse α} {second : α → Parse β} (earlier : Orderly bound kinds first)
    (later : ∀ a, Orderly bound anyKind (second a)) : Orderly bound kinds (first >>= second) := by
  intro cursor short start
  have orderly := earlier cursor short start
  apply orderly.bind
  intro a middle found
  exact later a middle (Nat.lt_of_le_of_lt (orderly.size_le found) short) trivial

/-- After a token was passed there are fewer ahead. -/
theorem pass {next : Token → Parse α} (before : ∀ kind, kinds kind → kind ≠ .eof)
    (later : ∀ token, Orderly bound anyKind (next token)) :
    Orderly (bound + 1) kinds (Parse.advance >>= next) := by
  intro cursor short start
  have inside := before _ start
  apply (OrderlyAt.advance inside).bind
  intro token middle found
  have fewer := Cursor.size_lt_of_next inside (advance_eq_ok.1 found).2
  exact later token middle (by omega) trivial

theorem look {next : Kind → Parse α}
    (looks : ∀ kind, kinds kind → Orderly bound (· = kind) (next kind)) :
    Orderly bound kinds (Parse.kind >>= next) := by
  intro cursor short start
  have sees : OrderlyAt Parse.kind cursor := view (fun token => .ok token.kind) cursor short start
  apply sees.bind
  intro kind middle found
  cases found
  exact looks _ start cursor short rfl

theorem discard (orderly : Orderly bound kinds rule) :
    Orderly bound kinds (Functor.discard rule) := by
  rw [discard_eq]
  exact orderly.bind fun _ => pure ()

/-! ### Tokens -/

theorem expecting {expected : List Kind} (inner : Kind.eof ∉ expected) {next : Token → Parse α}
    (later : ∀ token, Orderly bound anyKind (next token)) :
    Orderly (bound + 1) anyKind (Parse.expectAny expected >>= next) := by
  rw [expectAny_bind]
  apply look
  intro kind _
  by_cases member : kind ∈ expected
  · rw [if_pos member]
    apply pass _ later
    rintro _ rfl rfl
    exact inner member
  · rw [if_neg member]
    exact unexpected expected

theorem expectAny {expected : List Kind} (inner : Kind.eof ∉ expected) :
    Orderly bound anyKind (Parse.expectAny expected) := by
  have orderly : Orderly (bound + 1) anyKind (Parse.expectAny expected >>= Pure.pure) :=
    expecting inner pure
  rw [bind_pure] at orderly
  exact orderly.mono (Nat.le_succ bound)

theorem expect {expected : Kind} (inner : Kind.eof ≠ expected) :
    Orderly bound anyKind (Parse.expect expected) :=
  expectAny (by simpa using inner)

theorem word (keyword : Keyword) : Orderly bound anyKind (Parse.word keyword) :=
  (expect (by simp)).discard

theorem mark (mark : Mark) : Orderly bound anyKind (Parse.mark mark) :=
  (expect (by simp)).discard

theorem identifier : Orderly bound anyKind Parse.identifier :=
  (expect (by simp)).bind fun token => pure token.lexeme

theorem following? {opening : Kind} (inner : Kind.eof ≠ opening)
    (orderly : Orderly bound anyKind rule) :
    Orderly bound anyKind (Parse.following? opening rule) := by
  apply look
  intro kind _
  by_cases here : kind = opening
  · rw [if_pos here]
    have passes : Orderly (bound + 1) (· = kind) _ :=
      pass (by simpa [here] using inner.symm) fun _ => orderly.bind fun a => pure (some a)
    exact passes.mono (Nat.le_succ bound)
  · rw [if_neg here]
    exact pure none

/-! ### Loops and nesting -/

/-- A round that starts with the token that has asked for it. -/
theorem round {more : Kind → Option β} (stops : more .eof = none) {b : β} {next : Parse α}
    (later : Orderly bound anyKind next) :
    Orderly bound (more · = some b) (Parse.advance >>= fun _ => next) := by
  have before : ∀ kind, more kind = some b → kind ≠ .eof := by
    rintro _ asked rfl
    rw [stops] at asked
    cases asked
  exact (advance before).bind fun _ => later

/-- Followed round by round, since each round leaves fewer tokens ahead. -/
theorem loop {more : Kind → Option β} {step : α → β → Parse α}
    (progresses : Progresses more step)
    (each : ∀ a b, Orderly bound (more · = some b) (step a b)) (a : α) :
    Orderly bound anyKind (Parse.loop more step a) := by
  suffices below : ∀ n ≤ bound, ∀ a, Orderly n anyKind (Parse.loop more step a) from
    below bound (Nat.le_refl _) a
  intro n
  induction n with
  | zero => exact fun _ _ cursor short => absurd short (Nat.not_lt_zero _)
  | succ n ih =>
      intro less a
      rw [progresses.unrolls]
      apply look
      intro kind _
      cases asked : more kind with
      | none => exact pure a
      | some b =>
          rintro cursor short rfl
          apply (each a b cursor (by omega) asked).bind
          intro a' after found
          have fewer := progresses.fewer asked found
          exact ih (by omega) a' after (by omega) trivial

/-- Followed into itself, where fewer tokens are ahead. -/
theorem recursive {rule : Parse α → Parse α} (descends : Descends rule)
    (inside : ∀ {n : Nat}, Orderly n anyKind (Parse.recursive rule) →
      Orderly (n + 1) anyKind (rule (Parse.recursive rule))) :
    Orderly bound anyKind (Parse.recursive rule) := by
  induction bound with
  | zero => exact fun cursor short => absurd short (Nat.not_lt_zero _)
  | succ n ih =>
      have orderly := inside ih
      rwa [← descends.unrolls] at orderly

end Orderly

end Parse

/-! ## The rules of the grammar -/

namespace Grammar

open Parse

variable {bound : Nat}

namespace Repetition

theorem orderly {more : Kind → Option β} {step : α → β → Parse α}
    (repetition : Repetition more step)
    (each : ∀ a b, Orderly bound (more · = some b) (step a b)) (a : α) :
    Orderly bound anyKind (loop more step a) :=
  .loop repetition.progresses each a

/-- Items after tokens of a kind. -/
theorem items {kind : Kind} {item : Parse α}
    (repetition : Repetition (among [kind]) (itemRound item)) (inner : Kind.eof ≠ kind)
    (each : Orderly bound anyKind item) (first : Array α) :
    Orderly bound anyKind (loop (among [kind]) (itemRound item) first) := by
  apply repetition.orderly
  intro found _
  exact .round (by simp [among, inner]) (each.bind fun next => .pure (found.push next))

end Repetition

theorem blankLines_orderly : Orderly bound anyKind blankLines := by
  apply Repetition.newlines.orderly
  intro _ _
  rw [discard_eq]
  exact .round rfl (.pure ())

theorem lineEnd_orderly : Orderly bound anyKind lineEnd :=
  (Orderly.expect (by simp)).discard.bind fun _ => blankLines_orderly

/-- Items line by line. -/
theorem Repetition.lines {more : Kind → Option Unit} {item : Parse β} {add : Array α → β → Array α}
    (repetition : Repetition more (lineRound item add)) (each : Orderly bound anyKind item)
    (first : Array α) : Orderly bound anyKind (loop more (lineRound item add) first) := by
  apply repetition.orderly
  intro found _
  have line : Orderly bound anyKind _ :=
    each.bind fun next => lineEnd_orderly.bind fun _ => .pure (add found next)
  exact line.restrict fun _ _ => trivial

/-! ### Expressions -/

theorem literalOf_orderly (token : Token) : Orderly bound anyKind (literalOf token) := by
  have same : literalOf token =
      inView fun _ => ((Literal.ofToken token).map Expr.literal).mapError GrammarError.lexical := by
    funext cursor
    rw [literalOf, inView]
    cases Literal.ofToken token <;> rfl
  rw [same]
  exact .view _

section Expressions

variable (primaries : Orderly bound anyKind primary)

theorem leftChain_orderly {level : List BinaryOp} {operand : Parse Expr}
    (repetition : Repetition (operatorOf level) (operandRound operand))
    (operands : Orderly bound anyKind operand) :
    Orderly bound anyKind (leftChain level operand) := by
  apply operands.bind
  apply repetition.orderly
  intro left op
  exact .round rfl (operands.bind fun right => .pure (Expr.binary op left right))

include primaries

theorem exponent_orderly : Orderly bound anyKind (exponent primary) := by
  apply primaries.bind
  intro base
  apply (Repetition.exponents.items (by simp) primaries #[]).bind
  intro exponents
  exact .pure (powers base exponents.toList)

theorem additive_orderly : Orderly bound anyKind (additive primary) :=
  leftChain_orderly .terms (leftChain_orderly .factors (exponent_orderly primaries))

theorem comparison_orderly : Orderly bound anyKind (comparison primary) := by
  have terms := additive_orderly primaries
  apply terms.bind
  intro left
  apply Orderly.look
  intro kind _
  cases isOperator : operatorOf comparing kind with
  | none => exact .pure left
  | some op =>
      have compares : Orderly bound (operatorOf comparing · = some op) _ :=
        .round rfl (terms.bind fun right => .pure (Expr.binary op left right))
      apply compares.restrict
      rintro _ rfl
      exact isOperator

theorem expressionOf_orderly : Orderly bound anyKind (expressionOf primary) :=
  leftChain_orderly .comparisons (comparison_orderly primaries)

theorem indexOf?_orderly : Orderly bound anyKind (indexOf? primary) := by
  apply Orderly.following? (by simp)
  apply (expressionOf_orderly primaries).bind
  intro index
  exact (Orderly.mark .rightBracket).bind fun _ => .pure index

theorem symbolOf_orderly (name : String) : Orderly bound anyKind (symbolOf name primary) := by
  apply (indexOf?_orderly primaries).bind
  intro index
  cases index with
  | none => exact .pure _
  | some index => exact .pure _

/-- A primary is passed with its first token. -/
theorem primaryRule_orderly : Orderly (bound + 1) anyKind (primaryRule primary) := by
  apply Orderly.expecting (by decide)
  intro token
  split
  · exact symbolOf_orderly primaries token.lexeme
  · exact (comparison_orderly primaries).bind fun _ => .pure _
  · exact primaries.bind fun _ => .pure _
  · exact primaries.bind fun _ => .pure _
  · apply (expressionOf_orderly primaries).bind
    intro inner
    exact (Orderly.mark .rightParen).bind fun _ => .pure inner
  · exact literalOf_orderly token

end Expressions

theorem primary_orderly : Orderly bound anyKind primary :=
  .recursive primaryRule_descends primaryRule_orderly

theorem expression_orderly : Orderly bound anyKind expression :=
  expressionOf_orderly primary_orderly

theorem index?_orderly : Orderly bound anyKind index? :=
  indexOf?_orderly primary_orderly

/-! ### Statements -/

theorem assignment_orderly : Orderly bound anyKind assignment := by
  apply Orderly.identifier.bind
  intro name
  apply index?_orderly.bind
  intro index
  apply (Orderly.mark .assign).bind
  intro _
  apply expression_orderly.bind
  intro value
  cases index with
  | none => exact .pure _
  | some index => exact .pure _

theorem printing_orderly : Orderly bound anyKind printing := by
  apply expression_orderly.bind
  intro first
  apply (Repetition.arguments.items (by simp) expression_orderly #[first]).bind
  intro values
  exact .pure _

theorem resizing_orderly : Orderly bound anyKind resizing := by
  apply Orderly.identifier.bind
  intro name
  apply (Orderly.word .TO).bind
  intro _
  exact expression_orderly.bind fun size => .pure _

section Statements

variable (statements : Orderly bound anyKind statement)

include statements

theorem block_orderly (closing : List Keyword) :
    Orderly bound anyKind (block statement closing) := by
  have lines := (Repetition.statements closing).lines statements #[]
  exact lines.bind fun found => .pure found.toList

/-- A block that starts on the next line. -/
theorem nextBlock_orderly (closing : List Keyword) :
    Orderly bound anyKind (lineEnd >>= fun _ => block statement closing) :=
  lineEnd_orderly.bind fun _ => block_orderly statements closing

theorem bodyUpTo_orderly (closing : Keyword) :
    Orderly bound anyKind (bodyUpTo statement closing) := by
  apply lineEnd_orderly.bind
  intro _
  apply (block_orderly statements [closing]).bind
  intro body
  exact (Orderly.word closing).bind fun _ => .pure body

theorem branching_orderly : Orderly bound anyKind (branching statement) := by
  apply expression_orderly.bind
  intro condition
  apply (Orderly.word .THEN).bind
  intro _
  apply lineEnd_orderly.bind
  intro _
  apply (block_orderly statements [.ELSE, .ENDIF]).bind
  intro yes
  apply ((nextBlock_orderly statements [.ENDIF]).following? (by simp)).bind
  intro no
  exact (Orderly.word .ENDIF).bind fun _ => .pure _

theorem whileLooping_orderly : Orderly bound anyKind (whileLooping statement) := by
  apply expression_orderly.bind
  intro condition
  apply (Orderly.word .DO).bind
  intro _
  exact (bodyUpTo_orderly statements .ENDWHILE).bind fun body => .pure _

theorem forLooping_orderly : Orderly bound anyKind (forLooping statement) := by
  apply Orderly.identifier.bind
  intro name
  apply (Orderly.word .FROM).bind
  intro _
  apply expression_orderly.bind
  intro first
  apply (Orderly.word .TO).bind
  intro _
  apply expression_orderly.bind
  intro last
  apply (expression_orderly.following? (by simp)).bind
  intro step
  exact (bodyUpTo_orderly statements .ENDFOR).bind fun body => .pure _

theorem repeatLooping_orderly : Orderly bound anyKind (repeatLooping statement) := by
  apply (Orderly.word .UNTIL).bind
  intro _
  apply expression_orderly.bind
  intro condition
  exact (bodyUpTo_orderly statements .ENDREPEAT).bind fun body => .pure _

theorem caseArm_orderly : Orderly bound anyKind (caseArm statement) := by
  apply expression_orderly.bind
  intro value
  apply (Orderly.mark .colon).bind
  intro _
  apply lineEnd_orderly.bind
  intro _
  exact (block_orderly statements [.CASE, .DEFAULT, .ENDSWITCH]).bind fun body => .pure _

theorem switching_orderly : Orderly bound anyKind (switching statement) := by
  have arms := Repetition.arms.items (by simp) (caseArm_orderly statements) #[]
  have otherwise : Orderly bound anyKind _ :=
    (Orderly.mark .colon).bind fun _ => nextBlock_orderly statements [.ENDSWITCH]
  apply expression_orderly.bind
  intro scrutinee
  apply lineEnd_orderly.bind
  intro _
  apply arms.bind
  intro cases
  apply (otherwise.following? (by simp)).bind
  intro no
  exact (Orderly.word .ENDSWITCH).bind fun _ => .pure _

/-- A statement is passed with its first word. -/
theorem statementRule_orderly : Orderly (bound + 1) anyKind (statementRule statement) := by
  apply Orderly.expecting (by decide)
  intro token
  unfold statementAfter
  split
  · exact assignment_orderly
  · exact printing_orderly
  · exact branching_orderly statements
  · exact whileLooping_orderly statements
  · exact forLooping_orderly statements
  · exact repeatLooping_orderly statements
  · exact switching_orderly statements
  · exact resizing_orderly

end Statements

theorem statement_orderly : Orderly bound anyKind statement :=
  .recursive statementRule_descends statementRule_orderly

/-! ### Programs -/

theorem constant_orderly : Orderly bound anyKind constant := by
  apply Orderly.identifier.bind
  intro name
  apply (Orderly.mark .assign).bind
  intro _
  exact expression_orderly.bind fun value => .pure _

theorem variableGroup_orderly : Orderly bound anyKind variableGroup := by
  apply Orderly.identifier.bind
  intro first
  apply (Repetition.names.items (by simp) .identifier #[first]).bind
  intro names
  apply (Orderly.mark .colon).bind
  intro _
  apply ((Orderly.expectAny (by decide)).bind fun token => .pure _).bind
  intro type
  exact index?_orderly.bind fun size => .pure _

theorem constantSection_orderly : Orderly bound anyKind constantSection := by
  have lines : Orderly bound anyKind _ :=
    lineEnd_orderly.bind fun _ => Repetition.constants.lines constant_orderly #[]
  exact (lines.following? (by simp)).bind fun found => .pure _

theorem variableSection_orderly : Orderly bound anyKind variableSection := by
  have lines : Orderly bound anyKind _ :=
    lineEnd_orderly.bind fun _ => Repetition.groups.lines variableGroup_orderly #[]
  exact (lines.following? (by simp)).bind fun found => .pure _

theorem programText_orderly : Orderly bound anyKind programText := by
  apply blankLines_orderly.bind
  intro _
  apply (Orderly.word .PROGRAM).bind
  intro _
  apply Orderly.identifier.bind
  intro name
  apply lineEnd_orderly.bind
  intro _
  apply (constantSection_orderly.bind fun constants =>
    variableSection_orderly.bind fun groups => .pure _).bind
  intro declarations
  apply (Orderly.word .BEGIN).bind
  intro _
  apply lineEnd_orderly.bind
  intro _
  apply (block_orderly statement_orderly [.END]).bind
  intro body
  apply (Orderly.word .END).bind
  intro _
  exact blankLines_orderly.bind fun _ => .pure _

/-- **Reading a program can be followed to its end, and never calls at the end of the text.** -/
theorem program_orderly (cursor : Cursor) : OrderlyAt program cursor := by
  suffices orderly : Orderly (cursor.size + 1) anyKind program from
    orderly cursor (Nat.lt_succ_self _) trivial
  apply programText_orderly.bind
  intro program
  apply Orderly.look
  intro kind _
  by_cases atEnd : kind = .eof
  · rw [if_pos atEnd]
    exact .pure program
  · rw [if_neg atEnd]
    exact .badSyntax

end Grammar

end Pseudocode
