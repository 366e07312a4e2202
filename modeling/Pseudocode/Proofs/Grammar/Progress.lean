import Pseudocode.Proofs.Grammar.Correspondence
import Pseudocode.Proofs.Grammar.Reading

/-!
# Repetition and nesting move on

The loops of the grammar and the rules that contain themselves are bounded by counters, but the
counters do not matter. Each round of a loop moves past a token (`Grammar.Repetition.progresses`),
so that the loop goes on for as long as the token in view asks for it. A rule that contains itself
comes to itself only with fewer tokens ahead (`Grammar.primaryRule_descends`,
`Grammar.statementRule_descends`), so that it is the rule with itself inside.

No loop tests for the end of the text but the one over statements. The others stop there because
it asks for no further round, or because what they read in a round cannot start there.
-/

set_option autoImplicit false

namespace Pseudocode

variable {α β : Type}

namespace Parse

open Grammar (anyKind bind_ok bind_error)

/-! ## A text and itself -/

/-- Each text corresponds to itself. -/
def identical : Correspondence where
  tokens := Eq
  places := Eq
  openings := Eq
  errors error place error' place' := error = error' ∧ place = place'

theorem identical_steady : identical.Steady where
  kinds same := congrArg Token.kind same
  lexemes same := congrArg Token.lexeme same
  inView same := congrArg Cursor.current same
  unexpected := by
    rintro cursor _ rfl expected
    exact ⟨rfl, rfl⟩
  badSyntax := by
    rintro cursor _ rfl
    exact ⟨rfl, rfl⟩
  literal := by
    rintro token _ rfl cursor _ rfl
    rw [Grammar.literalOf]
    cases Literal.ofToken token with
    | ok literal => exact .read rfl (Nat.le_refl _) (Nat.le_refl _)
    | error error => exact .failed ⟨rfl, rfl⟩

theorem identical_next (cursor : Cursor) :
    identical.Next cursor cursor cursor.next cursor.next := by
  cases cursor.next with
  | ok after => exact .moved rfl
  | error error => exact .stopped ⟨rfl, rfl⟩

theorem identical_lawful : identical.Lawful := by
  apply identical_steady.lockstep rfl
  rintro cursor _ rfl _
  exact identical_next cursor

theorem Correspondence.Outcome.eq {moved : Nat} {cursor cursor' : Cursor}
    {result result' : EStateM.Result GrammarError Cursor α}
    (outcome : identical.Outcome moved cursor cursor' result result') : result = result' := by
  cases outcome with
  | read there =>
      cases there
      rfl
  | failed blamed =>
      cases blamed.1
      cases blamed.2
      rfl

/-! ## Loops -/

/-- Each round of a loop leaves fewer tokens ahead, and there are as many rounds as the tokens
ask for. -/
structure Progresses (more : Kind → Option β) (step : α → β → Parse α) : Prop where
  fewer : ∀ {a b cursor a' after}, more cursor.current.kind = some b →
    step a b cursor = .ok a' after → after.size < cursor.size
  unrolls : ∀ a, loop more step a = do
    match more (← kind) with
    | some b => loop more step (← step a b)
    | none => return a

section Loops

variable {more : Kind → Option β} {step : α → β → Parse α}
  (fewer : ∀ {a b cursor a' after}, more cursor.current.kind = some b →
    step a b cursor = .ok a' after → after.size < cursor.size)

include fewer

/-- Counters that are longer than the tokens ahead give the same rounds. -/
theorem rounds_eq_rounds (counter counter' : List Token) (a : α) {cursor : Cursor}
    (long : cursor.size < counter.length) (long' : cursor.size < counter'.length) :
    rounds more step counter a cursor = rounds more step counter' a cursor := by
  induction counter generalizing counter' a cursor with
  | nil => cases long
  | cons entry counter ih =>
      cases counter' with
      | nil => cases long'
      | cons entry' counter' =>
          rw [List.length_cons] at long long'
          rw [rounds_cons, rounds_cons]
          cases asked : more cursor.current.kind with
          | none => rfl
          | some b =>
              cases found : step a b cursor with
              | error error place => simp only [bind_error found]
              | ok a' after =>
                  have less := fewer asked found
                  simp only [bind_ok found]
                  exact ih counter' a' (by omega) (by omega)

theorem loop_unrolls (a : α) : loop more step a = do
    match more (← kind) with
    | some b => loop more step (← step a b)
    | none => return a := by
  funext cursor
  change rounds more step cursor.allowance a cursor =
    (match more cursor.current.kind with
      | some b => step a b >>= loop more step
      | none => pure a) cursor
  rw [Cursor.allowance, rounds_cons]
  cases asked : more cursor.current.kind with
  | none => rfl
  | some b =>
      cases found : step a b cursor with
      | error error place => simp only [bind_error found]
      | ok a' after =>
          have less := fewer asked found
          have enough := cursor.size_lt_length_allowance
          simp only [bind_ok found]
          rw [Cursor.allowance, List.length_cons] at enough
          exact rounds_eq_rounds fewer _ _ a' (by omega) after.size_lt_length_allowance

end Loops

/-- What moves past a token in each round. -/
theorem Progresses.of_related {more : Kind → Option β} {step : α → β → Parse α}
    (each : ∀ n a b, identical.Related n n 1 (more · = some b) (step a b) (step a b)) :
    Progresses more step := by
  have fewer {a : α} {b : β} {cursor : Cursor} {a' : α} {after : Cursor}
      (asked : more cursor.current.kind = some b) (found : step a b cursor = .ok a' after) :
      after.size < cursor.size := by
    have moved := each (cursor.size + 1) a b cursor cursor rfl (Nat.lt_succ_self _)
      (Nat.lt_succ_self _) asked
    rw [found] at moved
    cases moved with
    | read _ less => exact less
  exact ⟨fewer, loop_unrolls fewer⟩

/-! ## Nesting -/

/-- A rule that contains itself comes to itself only at places with fewer tokens ahead. Only
there does it matter what the rule inside is. -/
def Descends (rule : Parse α → Parse α) : Prop :=
  ∀ inner cursor, (∀ place, place.size < cursor.size → inner place = recursive rule place) →
    rule inner cursor = recursive rule cursor

theorem Descends.unrolls {rule : Parse α → Parse α} (descends : Descends rule) :
    recursive rule = rule (recursive rule) := by
  funext cursor
  exact (descends _ cursor fun _ _ => rfl).symm

/-- What moves past a token before it comes to itself. -/
theorem Descends.of_related {rule : Parse α → Parse α}
    (inside : ∀ {n m : Nat} {inner inner' : Parse α}, identical.Related n m 0 anyKind inner inner' →
      identical.Related (n + 1) (m + 1) 0 anyKind (rule inner) (rule inner')) :
    Descends rule := by
  intro inner cursor same
  -- One entry of the counter is used up, and the rest of it is as long as the tokens inside.
  let counter := cursor.current :: cursor.rest
  have enough : cursor.size < counter.length + 1 := cursor.size_lt_length_allowance
  have alike : identical.Related cursor.size counter.length 0 anyKind inner
      (nested rule counter) := by
    rintro place _ rfl short short' start
    rw [same place short]
    exact Correspondence.Related.nested inside place.allowance counter place place rfl
      place.size_lt_length_allowance short' start
  exact (inside alike cursor cursor rfl (Nat.lt_succ_self _) enough trivial).eq

end Parse

/-! ## The grammar -/

namespace Grammar

open Parse

/-- One round of a loop over items, each after a token that asks for it. -/
abbrev itemRound (item : Parse α) (found : Array α) (_ : Unit) : Parse (Array α) := do
  let _ ← advance
  return found.push (← item)

/-- One round of a loop over operands, each after an operator. -/
abbrev operandRound (operand : Parse Expr) (left : Expr) (op : BinaryOp) : Parse Expr := do
  let _ ← advance
  let right ← operand
  return .binary op left right

/-- The loops of the grammar: what makes them go on, and what they do in a round. They are those of
`blankLines`, of `leftChain` at its three levels, and of `exponent`, `printing`, `variableGroup`,
`switching`, `block`, `constantSection` and `variableSection`. -/
inductive Repetition : {α β : Type} → (Kind → Option β) → (α → β → Parse α) → Prop where
  | newlines : Repetition (among [.newline]) fun (_ _ : Unit) => discard advance
  | comparisons : Repetition (operatorOf logical) (operandRound (comparison primary))
  | terms : Repetition (operatorOf adding) (operandRound (multiplicative primary))
  | factors : Repetition (operatorOf multiplying) (operandRound (exponent primary))
  | exponents : Repetition (among [.mark .caret]) (itemRound primary)
  | arguments : Repetition (among [.mark .comma]) (itemRound expression)
  | names : Repetition (among [.mark .comma]) (itemRound identifier)
  | arms : Repetition (among [.keyword .CASE]) (itemRound (caseArm statement))
  | statements (closing : List Keyword) :
      Repetition (outside (.eof :: closing.map Kind.keyword)) (lineRound statement Array.push)
  | constants :
      Repetition (outside [.keyword .VARIABLES, .keyword .BEGIN]) (lineRound constant Array.push)
  | groups :
      Repetition (outside [.keyword .BEGIN])
        (lineRound variableGroup fun found next => found ++ next.toArray)

/-- A round that starts with the token that has asked for it. -/
theorem itemRound_progresses {kind : Kind} (inside : kind ≠ .eof ∧ kind ≠ .newline)
    {item : Parse α} (items : ∀ n, identical.Related n n 0 anyKind item item) :
    Progresses (among [kind]) (itemRound item) := by
  apply Progresses.of_related
  intro n found _
  apply identical_lawful.round
  · intro other asked
    rwa [List.mem_singleton.1 (among_eq_some.1 asked)]
  · exact (items n).bind fun next => .pure (found.push next)

theorem operandRound_progresses (level : List BinaryOp) {operand : Parse Expr}
    (operands : ∀ n, identical.Related n n 0 anyKind operand operand) :
    Progresses (operatorOf level) (operandRound operand) := by
  apply Progresses.of_related
  intro n left op
  apply identical_lawful.round operator_inside
  exact (operands n).bind fun right => .pure (Expr.binary op left right)

/-- A round that ends with the end of a line, whatever it starts with. -/
theorem lineRound_progresses (more : Kind → Option Unit) {item : Parse β}
    (add : Array α → β → Array α) (items : ∀ n, identical.Related n n 0 anyKind item item) :
    Progresses more (lineRound item add) := by
  apply Progresses.of_related
  intro n found _
  have line : identical.Related n n 1 anyKind _ _ :=
    (items n).bind fun next => identical_lawful.nextLine.bindWith fun _ => .pure (add found next)
  exact line.restrict fun _ _ => trivial

/-- **Each round of a loop of the grammar moves past a token.** -/
theorem Repetition.progresses {more : Kind → Option β} {step : α → β → Parse α}
    (repetition : Repetition more step) : Progresses more step := by
  have lawful := identical_lawful
  cases repetition with
  | newlines =>
      apply Progresses.of_related
      rintro n _ _ cursor _ rfl _ _ asked
      have isNewline := List.mem_singleton.1 (among_eq_some.1 asked)
      rw [discard_eq]
      exact lawful.advance rfl (by simp [isNewline]) (identical_next cursor) fun _ _ _ => .pure ()
  | comparisons => exact operandRound_progresses _ fun _ => lawful.comparison lawful.primary
  | terms => exact operandRound_progresses _ fun _ =>
      lawful.leftChain multiplying (lawful.exponent lawful.primary)
  | factors => exact operandRound_progresses _ fun _ => lawful.exponent lawful.primary
  | exponents => exact itemRound_progresses (by simp) fun _ => lawful.primary
  | arguments => exact itemRound_progresses (by simp) fun _ => lawful.expression
  | names => exact itemRound_progresses (by simp) fun _ => lawful.identifier
  | arms => exact itemRound_progresses (by simp) fun _ => lawful.caseArm lawful.statement
  | statements closing => exact lineRound_progresses _ _ fun _ => lawful.statement
  | constants => exact lineRound_progresses _ _ fun _ => lawful.constant
  | groups => exact lineRound_progresses _ _ fun _ => lawful.variableGroup

/-- **A primary inside another one has fewer tokens ahead.** -/
theorem primaryRule_descends : Descends primaryRule :=
  .of_related identical_lawful.primaryRule

/-- The same holds of statements. -/
theorem statementRule_descends : Descends statementRule :=
  .of_related identical_lawful.statementRule

end Grammar

end Pseudocode
