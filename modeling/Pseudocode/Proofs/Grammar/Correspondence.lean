import Pseudocode.Grammar.Program
import Pseudocode.Proofs.Grammar.Sound

/-!
# Comparing readings of two texts

The rules of the grammar are built from a few steps: they look at the kind of the token in
view, move past it, go on to the next line, or fail. A `Correspondence` says which tokens,
places and errors of two texts belong together. If each step leads from places that belong
together to such places again (`Correspondence.Lawful`), then so does the reading of a whole
program (`Correspondence.Lawful.program`).

Going on to the next line counts as one step, however many blank lines there are. So the texts
can be of different lengths, and the counters of loops and of nesting too. That none of them
runs out is known from the tokens ahead: each round of a loop moves past a token, and a rule
moves past a token before it comes to the rules inside it.
-/

set_option autoImplicit false

namespace Pseudocode.Parse

open Grammar (anyKind bind_ok bind_error)

variable {α β : Type}

/-! ## Steps -/

/-- What follows an expected token follows the step past it. -/
theorem expectAny_bind (expected : List Kind) (next : Token → Parse α) :
    (expectAny expected >>= next) = (Parse.kind >>= fun kind =>
      if kind ∈ expected then advance >>= next else unexpected expected) := by
  funext cursor
  change EStateM.bind (expectAny expected) next cursor = EStateM.bind Parse.kind _ cursor
  by_cases here : cursor.current.kind ∈ expected
  · simp only [EStateM.bind, expectAny, Parse.kind, bind, here, if_true]
  · simp only [EStateM.bind, expectAny, Parse.kind, bind, here, if_false, unexpected]

theorem discard_eq (rule : Parse α) : discard rule = (rule >>= fun _ => Pure.pure ()) := by
  funext cursor
  change EStateM.map _ rule cursor = EStateM.bind rule _ cursor
  simp only [EStateM.map, EStateM.bind]
  cases rule cursor <;> rfl

theorem lineEnd_bind : lineEnd = (expectAny [.newline] >>= fun _ => blankLines) := by
  rw [lineEnd, discard_eq, bind_assoc]
  rfl

theorem lineEnd_newline {cursor : Cursor} (isNewline : cursor.current.kind = .newline) :
    lineEnd cursor = (advance >>= fun _ => blankLines) cursor := by
  rw [lineEnd_bind, expectAny_bind]
  change (if cursor.current.kind ∈ [Kind.newline] then _ else unexpected [.newline]) cursor = _
  rw [if_pos (by simp [isNewline])]

theorem lineEnd_other {cursor : Cursor} (other : cursor.current.kind ≠ .newline) :
    lineEnd cursor = (unexpected [.newline] : Parse Unit) cursor := by
  rw [lineEnd_bind, expectAny_bind]
  change (if cursor.current.kind ∈ [Kind.newline] then _ else unexpected [.newline]) cursor = _
  rw [if_neg (by simp [other])]

/-- An operator is no end of a line. -/
theorem operator_inside {level : List BinaryOp} {op : BinaryOp} (kind : Kind)
    (isOperator : Grammar.operatorOf level kind = some op) : kind ≠ .eof ∧ kind ≠ .newline := by
  have known : BinaryOp.ofKind? kind = some op := (Option.filter_eq_some_iff.1 isOperator).1
  constructor
  · rintro rfl
    cases known
  · rintro rfl
    cases known

theorem rounds_cons (more : Kind → Option β) (step : α → β → Parse α) (entry : Token)
    (counter : List Token) (a : α) (cursor : Cursor) :
    rounds more step (entry :: counter) a cursor =
      match more cursor.current.kind with
      | some b => (step a b >>= rounds more step counter) cursor
      | none => .ok a cursor := by
  change (match more cursor.current.kind with
    | some b => step a b >>= rounds more step counter
    | none => (Pure.pure a : Parse α)) cursor = _
  cases more cursor.current.kind <;> rfl

/-! ## Rules that belong together -/

/-- What belongs together in the readings of two texts. -/
structure Correspondence where
  tokens : Token → Token → Prop
  places : Cursor → Cursor → Prop
  /-- Places that may still differ in the blank lines there. -/
  openings : Cursor → Cursor → Prop
  /-- Errors, with the places where they happen. -/
  errors : GrammarError → Cursor → GrammarError → Cursor → Prop

namespace Correspondence

/-- One step on from two places, which may lead behind a fault. -/
inductive Next (both : Correspondence) (cursor cursor' : Cursor) :
    Except LexicalError Cursor → Except LexicalError Cursor → Prop where
  | moved {after after' : Cursor} (there : both.places after after') :
      Next both cursor cursor' (.ok after) (.ok after')
  | stopped {error error' : LexicalError}
      (blamed : both.errors (.lexical error) cursor.resume (.lexical error') cursor'.resume) :
      Next both cursor cursor' (.error error) (.error error')

/-- Results that belong together, of rules that have moved past at least the given number of
tokens. -/
inductive Outcome (both : Correspondence) (moved : Nat) (cursor cursor' : Cursor) :
    EStateM.Result GrammarError Cursor α → EStateM.Result GrammarError Cursor α → Prop where
  | read {a : α} {after after' : Cursor} (there : both.places after after')
      (fewer : after.size + moved ≤ cursor.size) (fewer' : after'.size + moved ≤ cursor'.size) :
      Outcome both moved cursor cursor' (.ok a after) (.ok a after')
  | failed {error error' : GrammarError} {place place' : Cursor}
      (blamed : both.errors error place error' place') :
      Outcome both moved cursor cursor' (.error error place) (.error error' place')

namespace Outcome

variable {both : Correspondence} {moved further : Nat} {cursor cursor' : Cursor}
  {result result' : EStateM.Result GrammarError Cursor α}

/-- What was read after a few tokens was read after them all. -/
theorem after {later later' : Cursor} (outcome : both.Outcome further later later' result result')
    (fewer : later.size + moved ≤ cursor.size) (fewer' : later'.size + moved ≤ cursor'.size) :
    both.Outcome (further + moved) cursor cursor' result result' := by
  cases outcome with
  | read there less less' => exact .read there (by omega) (by omega)
  | failed blamed => exact .failed blamed

theorem weaken (outcome : both.Outcome moved cursor cursor' result result') :
    both.Outcome 0 cursor cursor' result result' := by
  cases outcome with
  | read there fewer fewer' => exact .read there (by omega) (by omega)
  | failed blamed => exact .failed blamed

theorem bind {first first' : Parse α} {second second' : α → Parse β}
    (outcome : both.Outcome moved cursor cursor' (first cursor) (first' cursor'))
    (later : ∀ a after after', both.places after after' → after.size + moved ≤ cursor.size →
      after'.size + moved ≤ cursor'.size →
      both.Outcome further after after' (second a after) (second' a after')) :
    both.Outcome (further + moved) cursor cursor' ((first >>= second) cursor)
      ((first' >>= second') cursor') := by
  generalize found : first cursor = result at outcome
  generalize found' : first' cursor' = result' at outcome
  cases outcome with
  | read there fewer fewer' =>
      rw [bind_ok found, bind_ok found']
      exact (later _ _ _ there fewer fewer').after fewer fewer'
  | failed blamed =>
      rw [bind_error found, bind_error found']
      exact .failed blamed

end Outcome

/-- Rules that do the same at places that belong together, with fewer tokens ahead than the
two bounds and a token of certain kinds in view. -/
def Related (both : Correspondence) (n m moved : Nat) (kinds : Kind → Prop)
    (rule other : Parse α) : Prop :=
  ∀ cursor cursor', both.places cursor cursor' → cursor.size < n → cursor'.size < m →
    kinds cursor.current.kind → both.Outcome moved cursor cursor' (rule cursor) (other cursor')

namespace Related

variable {both : Correspondence} {n m moved : Nat} {kinds : Kind → Prop} {rule other : Parse α}

theorem mono {n' m' : Nat} (related : both.Related n m moved kinds rule other) (fewer : n' ≤ n)
    (fewer' : m' ≤ m) : both.Related n' m' moved kinds rule other :=
  fun cursor cursor' same short short' =>
    related cursor cursor' same (Nat.lt_of_lt_of_le short fewer) (Nat.lt_of_lt_of_le short' fewer')

theorem restrict {kinds' : Kind → Prop} (related : both.Related n m moved kinds rule other)
    (fewer : ∀ kind, kinds' kind → kinds kind) : both.Related n m moved kinds' rule other :=
  fun cursor cursor' same short short' start =>
    related cursor cursor' same short short' (fewer _ start)

theorem weaken (related : both.Related n m moved kinds rule other) :
    both.Related n m 0 kinds rule other :=
  fun cursor cursor' same short short' start =>
    (related cursor cursor' same short short' start).weaken

theorem pure (a : α) : both.Related n m 0 kinds (Pure.pure a) (Pure.pure a) :=
  fun _ _ same _ _ _ => .read same (Nat.le_refl _) (Nat.le_refl _)

/-- The tokens that two rules move past add up. -/
theorem bindWith {first first' : Parse α} {second second' : α → Parse β} {further : Nat}
    (earlier : both.Related n m moved kinds first first')
    (later : ∀ a, both.Related n m further anyKind (second a) (second' a)) :
    both.Related n m (further + moved) kinds (first >>= second) (first' >>= second') := by
  intro cursor cursor' same short short' start
  apply (earlier cursor cursor' same short short' start).bind
  intro a after after' there fewer fewer'
  exact later a after after' there (by omega) (by omega) trivial

theorem bind {first first' : Parse α} {second second' : α → Parse β}
    (earlier : both.Related n m 0 kinds first first')
    (later : ∀ a, both.Related n m moved anyKind (second a) (second' a)) :
    both.Related n m moved kinds (first >>= second) (first' >>= second') :=
  bindWith earlier later

/-- A loop does the same in both texts if each of its rounds does and moves past a token. -/
theorem loop (sight : ∀ {cursor cursor'}, both.places cursor cursor' →
      cursor.current.kind = cursor'.current.kind)
    {more : Kind → Option β} {step step' : α → β → Parse α}
    (each : ∀ a b, both.Related n m 1 (more · = some b) (step a b) (step' a b)) (a : α) :
    both.Related n m 0 anyKind (Parse.loop more step a) (Parse.loop more step' a) := by
  have counted : ∀ counter counter' a, both.Related (min n counter.length) (min m counter'.length)
      0 anyKind (rounds more step counter a) (rounds more step' counter' a) := by
    intro counter
    induction counter with
    | nil =>
        intro counter' a cursor cursor' _ short
        simp at short
    | cons entry counter ih =>
        intro counter' a cursor cursor' same short short' _
        cases counter' with
        | nil => simp at short'
        | cons entry' counter' =>
            rw [List.length_cons] at short short'
            rw [rounds_cons, rounds_cons, ← sight same]
            cases again : more cursor.current.kind with
            | none => exact .read same (Nat.le_refl _) (Nat.le_refl _)
            | some b =>
                -- The other rounds have one token less ahead and one entry of the counter.
                have first := each a b cursor cursor' same (by omega) (by omega) again
                apply (first.bind _).weaken
                · exact 0
                · intro next after after' there fewer fewer'
                  exact ih counter' next after after' there (by omega) (by omega) trivial
  intro cursor cursor' same short short' start
  have enough := cursor.size_lt_length_allowance
  have enough' := cursor'.size_lt_length_allowance
  exact counted cursor.allowance cursor'.allowance a cursor cursor' same (by omega) (by omega) start

/-- A rule inside itself, as deep as two counters allow, does the same in both texts as far as
the counters reach, if it does so whenever the rules inside it do for fewer tokens. -/
theorem nested {nest nest' : Parse α → Parse α}
    (inside : ∀ {n m : Nat} {inner inner' : Parse α}, both.Related n m 0 anyKind inner inner' →
      both.Related (n + 1) (m + 1) 0 anyKind (nest inner) (nest' inner'))
    (counter counter' : List Token) :
    both.Related counter.length counter'.length 0 anyKind (Parse.nested nest counter)
      (Parse.nested nest' counter') := by
  induction counter generalizing counter' with
  | nil =>
      intro cursor cursor' _ short
      cases short
  | cons entry counter ih =>
      cases counter' with
      | nil =>
          intro cursor cursor' _ _ short'
          cases short'
      | cons entry' counter' => exact inside (ih counter')

/-- A rule that contains itself then does the same in both texts. -/
theorem recursive {nest nest' : Parse α → Parse α}
    (inside : ∀ {n m : Nat} {inner inner' : Parse α}, both.Related n m 0 anyKind inner inner' →
      both.Related (n + 1) (m + 1) 0 anyKind (nest inner) (nest' inner')) :
    both.Related n m 0 anyKind (Parse.recursive nest) (Parse.recursive nest') :=
  fun cursor cursor' same _ _ start =>
    nested inside cursor.allowance cursor'.allowance cursor cursor' same
      cursor.size_lt_length_allowance cursor'.size_lt_length_allowance start

end Related

/-! ## Lawful correspondences -/

/-- What is in view belongs together, and so does what a rule can do without moving on. -/
structure Steady (both : Correspondence) : Prop where
  kinds : ∀ {token other}, both.tokens token other → token.kind = other.kind
  lexemes : ∀ {token other}, both.tokens token other → token.lexeme = other.lexeme
  inView : ∀ {cursor cursor'}, both.places cursor cursor' →
    both.tokens cursor.current cursor'.current
  unexpected : ∀ {cursor cursor'}, both.places cursor cursor' → ∀ expected,
    both.errors (.unexpected expected cursor.current.kind cursor.current.line) cursor
      (.unexpected expected cursor'.current.kind cursor'.current.line) cursor'
  badSyntax : ∀ {cursor cursor'}, both.places cursor cursor' →
    both.errors (.badSyntax cursor.current.line) cursor (.badSyntax cursor'.current.line) cursor'
  literal : ∀ {token other}, both.tokens token other → ∀ {cursor cursor'},
    both.places cursor cursor' →
    both.Outcome 0 cursor cursor' (Grammar.literalOf token cursor) (Grammar.literalOf other cursor')

/-- Each step leads from places that belong together to such places. -/
structure Lawful (both : Correspondence) : Prop extends both.Steady where
  passing : ∀ {cursor cursor'}, both.places cursor cursor' → cursor.current.kind ≠ .eof →
    cursor.current.kind ≠ .newline → both.Next cursor cursor' cursor.next cursor'.next
  opening : ∀ {cursor cursor'}, both.places cursor cursor' → both.openings cursor cursor'
  blankLines : ∀ {cursor cursor'}, both.openings cursor cursor' →
    both.Outcome 0 cursor cursor' (Parse.blankLines cursor) (Parse.blankLines cursor')
  lineEnd : ∀ {cursor cursor'}, both.places cursor cursor' → cursor.current.kind = .newline →
    both.Outcome 1 cursor cursor' (Parse.lineEnd cursor) (Parse.lineEnd cursor')

section Steps

variable {both : Correspondence} {n m moved : Nat} {kinds : Kind → Prop}

namespace Steady

variable (steady : both.Steady)

include steady

theorem sight {cursor cursor' : Cursor} (same : both.places cursor cursor') :
    cursor.current.kind = cursor'.current.kind :=
  steady.kinds (steady.inView same)

/-- Rules that look at the kind of the token in view. -/
theorem look {next next' : Kind → Parse α}
    (looks : ∀ kind, kinds kind → both.Related n m moved (· = kind) (next kind) (next' kind)) :
    both.Related n m moved kinds (Parse.kind >>= next) (Parse.kind >>= next') := by
  intro cursor cursor' same short short' start
  have result := looks cursor.current.kind start cursor cursor' same short short' rfl
  change both.Outcome moved cursor cursor' (next cursor.current.kind cursor)
    (next' cursor'.current.kind cursor')
  rwa [← steady.sight same]

theorem fails (expected : List Kind) :
    both.Related n m moved kinds (Parse.unexpected expected : Parse α)
      (Parse.unexpected expected) :=
  fun _ _ same _ _ _ => .failed (steady.unexpected same expected)

theorem refuses : both.Related n m moved kinds (Parse.badSyntax : Parse α) Parse.badSyntax :=
  fun _ _ same _ _ _ => .failed (steady.badSyntax same)

/-- Moving on from a token before the end, where the places after it belong together. -/
theorem advance {cursor cursor' : Cursor} (same : both.places cursor cursor')
    (inside : cursor.current.kind ≠ .eof)
    (onward : both.Next cursor cursor' cursor.next cursor'.next) {next next' : Token → Parse α}
    (later : ∀ token other, both.tokens token other →
      both.Related cursor.size cursor'.size moved anyKind (next token) (next' other)) :
    both.Outcome (moved + 1) cursor cursor' ((Parse.advance >>= next) cursor)
      ((Parse.advance >>= next') cursor') := by
  have inside' : cursor'.current.kind ≠ .eof := steady.sight same ▸ inside
  generalize step : cursor.next = result at onward
  generalize step' : cursor'.next = result' at onward
  cases onward with
  | @stopped error error' blamed =>
      have found : Parse.advance cursor = .error (.lexical error) cursor.resume := by
        rw [Parse.advance, step]
      have found' : Parse.advance cursor' = .error (.lexical error') cursor'.resume := by
        rw [Parse.advance, step']
      rw [bind_error found, bind_error found']
      exact .failed blamed
  | @moved after after' there =>
      have found : Parse.advance cursor = .ok cursor.current after := by
        rw [Parse.advance, step]
      have found' : Parse.advance cursor' = .ok cursor'.current after' := by
        rw [Parse.advance, step']
      have fewer := Cursor.size_lt_of_next inside step
      have fewer' := Cursor.size_lt_of_next inside' step'
      rw [bind_ok found, bind_ok found']
      exact (later _ _ (steady.inView same) _ _ there fewer fewer' trivial).after fewer fewer'

/-- Ends of lines need no laws of their own where all tokens are passed in step. -/
theorem lockstep (openings : both.openings = both.places)
    (passing : ∀ {cursor cursor'}, both.places cursor cursor' → cursor.current.kind ≠ .eof →
      both.Next cursor cursor' cursor.next cursor'.next) : both.Lawful := by
  have passes {γ : Type} {cursor cursor' : Cursor} (same : both.places cursor cursor')
      (isNewline : cursor.current.kind = .newline) {next next' : Parse γ}
      (later : both.Related cursor.size cursor'.size 0 anyKind next next') :
      both.Outcome 1 cursor cursor' ((Parse.advance >>= fun _ => next) cursor)
        ((Parse.advance >>= fun _ => next') cursor') := by
    have inside : cursor.current.kind ≠ .eof := by simp [isNewline]
    exact steady.advance same inside (passing same inside) fun _ _ _ => later
  have blank {n m : Nat} : both.Related n m 0 anyKind Parse.blankLines Parse.blankLines := by
    apply Related.loop steady.sight
    intro _ _ cursor cursor' same _ _ asked
    have isNewline := List.mem_singleton.1 (among_eq_some.1 asked)
    rw [discard_eq]
    exact passes same isNewline (.pure ())
  exact
    { steady with
      passing := fun same inside _ => passing same inside
      opening := fun same => openings ▸ same
      blankLines := fun {cursor cursor'} same =>
        blank cursor cursor' (openings ▸ same) (Nat.lt_succ_self _) (Nat.lt_succ_self _) trivial
      lineEnd := fun same isNewline => by
        have isNewline' := steady.sight same ▸ isNewline
        rw [lineEnd_newline isNewline, lineEnd_newline isNewline']
        exact passes same isNewline blank }

end Steady

namespace Lawful

variable (lawful : both.Lawful)

include lawful

/-! ### Tokens and lines -/

/-- Moving on from tokens of certain kinds. -/
theorem pass (inside : ∀ kind, kinds kind → kind ≠ .eof ∧ kind ≠ .newline)
    {next next' : Token → Parse α}
    (later : ∀ token other, both.tokens token other →
      both.Related n m moved anyKind (next token) (next' other)) :
    both.Related (n + 1) (m + 1) (moved + 1) kinds (Parse.advance >>= next)
      (Parse.advance >>= next') := by
  intro cursor cursor' same short short' start
  obtain ⟨before, onLine⟩ := inside _ start
  apply lawful.advance same before (lawful.passing same before onLine)
  intro token other alike
  exact (later token other alike).mono (by omega) (by omega)

theorem expectAny {expected : List Kind} (inside : ∀ kind ∈ expected, kind ≠ .eof ∧ kind ≠ .newline)
    {next next' : Token → Parse α}
    (later : ∀ token other, both.tokens token other →
      both.Related n m 0 anyKind (next token) (next' other)) :
    both.Related (n + 1) (m + 1) 0 anyKind (Parse.expectAny expected >>= next)
      (Parse.expectAny expected >>= next') := by
  rw [expectAny_bind, expectAny_bind]
  apply lawful.look
  intro kind _
  by_cases member : kind ∈ expected
  · simp only [if_pos member]
    exact (lawful.pass (by simpa using inside kind member) later).weaken
  · simp only [if_neg member]
    exact lawful.fails expected

theorem passed {expected : Kind} (inside : expected ≠ .eof ∧ expected ≠ .newline) :
    both.Related n m 0 anyKind (discard (Parse.expect expected))
      (discard (Parse.expect expected)) := by
  have related : both.Related (n + 1) (m + 1) 0 anyKind (discard (Parse.expectAny [expected]))
      (discard (Parse.expectAny [expected])) := by
    rw [discard_eq]
    exact lawful.expectAny (by simpa using inside) fun _ _ _ => .pure ()
  exact related.mono (Nat.le_succ n) (Nat.le_succ m)

theorem word (keyword : Keyword) :
    both.Related n m 0 anyKind (Parse.word keyword) (Parse.word keyword) :=
  lawful.passed (by simp)

theorem mark (mark : Mark) : both.Related n m 0 anyKind (Parse.mark mark) (Parse.mark mark) :=
  lawful.passed (by simp)

theorem identifier : both.Related n m 0 anyKind Parse.identifier Parse.identifier := by
  have related : both.Related (n + 1) (m + 1) 0 anyKind Parse.identifier Parse.identifier := by
    apply lawful.expectAny
    · simp
    · intro token other alike
      rw [lawful.lexemes alike]
      exact .pure _
  exact related.mono (Nat.le_succ n) (Nat.le_succ m)

theorem following? {opening : Kind} (inside : opening ≠ .eof ∧ opening ≠ .newline)
    {rule other : Parse α} (later : both.Related n m 0 anyKind rule other) :
    both.Related n m 0 anyKind (Parse.following? opening rule) (Parse.following? opening other) := by
  apply lawful.look
  intro kind _
  by_cases here : kind = opening
  · simp only [if_pos here]
    have passes : both.Related (n + 1) (m + 1) 1 (· = kind) _ _ :=
      lawful.pass (by simpa [here] using inside) fun _ _ _ => later.bind fun a => .pure (some a)
    exact passes.weaken.mono (Nat.le_succ n) (Nat.le_succ m)
  · simp only [if_neg here]
    exact .pure none

theorem nextLine : both.Related n m 1 anyKind Parse.lineEnd Parse.lineEnd := by
  intro cursor cursor' same _ _ _
  by_cases isNewline : cursor.current.kind = .newline
  · exact lawful.lineEnd same isNewline
  · have other : cursor'.current.kind ≠ .newline := lawful.sight same ▸ isNewline
    rw [lineEnd_other isNewline, lineEnd_other other]
    exact .failed (lawful.unexpected same _)

theorem blanks : both.Related n m 0 anyKind Parse.blankLines Parse.blankLines :=
  fun _ _ same _ _ _ => lawful.blankLines (lawful.opening same)

/-! ### Loops -/

/-- A round that starts with a step past the token that has asked for it. -/
theorem round {more : Kind → Option β} {b : β}
    (inside : ∀ kind, more kind = some b → kind ≠ .eof ∧ kind ≠ .newline)
    {next next' : Parse α} (later : both.Related n m 0 anyKind next next') :
    both.Related n m 1 (more · = some b) (Parse.advance >>= fun _ => next)
      (Parse.advance >>= fun _ => next') := by
  have passes : both.Related (n + 1) (m + 1) 1 (more · = some b) _ _ :=
    lawful.pass inside fun _ _ _ => later
  exact passes.mono (Nat.le_succ n) (Nat.le_succ m)

/-- Items that are collected as long as tokens of a kind stand before them. -/
theorem collect {kind : Kind} (inside : kind ≠ .eof ∧ kind ≠ .newline) {item item' : Parse α}
    (items : both.Related n m 0 anyKind item item') (first : Array α) :
    both.Related n m 0 anyKind
      (Parse.loop (among [kind]) (fun found _ => do
        let _ ← Parse.advance
        return found.push (← item)) first)
      (Parse.loop (among [kind]) (fun found _ => do
        let _ ← Parse.advance
        return found.push (← item')) first) := by
  apply Related.loop lawful.sight
  intro found _
  apply lawful.round
  · intro other asked
    rwa [List.mem_singleton.1 (among_eq_some.1 asked)]
  · exact items.bind fun next => .pure (found.push next)

/-- Items that are collected line by line. -/
theorem collectLines (more : Kind → Option β) {γ : Type} {item item' : Parse α}
    (items : both.Related n m 0 anyKind item item') (add : γ → α → γ) (first : γ) :
    both.Related n m 0 anyKind
      (Parse.loop more (fun found _ => do
        let next ← item
        Parse.lineEnd
        return add found next) first)
      (Parse.loop more (fun found _ => do
        let next ← item'
        Parse.lineEnd
        return add found next) first) := by
  apply Related.loop lawful.sight
  intro found _
  have line : both.Related n m 1 anyKind _ _ :=
    items.bind fun next => lawful.nextLine.bindWith fun _ => .pure (add found next)
  exact line.restrict fun _ _ => trivial

/-! ### Expressions -/

section Expressions

open Grammar

variable {inner inner' : Parse Expr}

theorem leftChain (level : List BinaryOp) (operands : both.Related n m 0 anyKind inner inner') :
    both.Related n m 0 anyKind (Grammar.leftChain level inner) (Grammar.leftChain level inner') := by
  apply operands.bind
  apply Related.loop lawful.sight
  intro left op
  apply lawful.round operator_inside
  exact operands.bind fun right => .pure (Expr.binary op left right)

theorem exponent (primaries : both.Related n m 0 anyKind inner inner') :
    both.Related n m 0 anyKind (Grammar.exponent inner) (Grammar.exponent inner') := by
  apply primaries.bind
  intro base
  apply (lawful.collect (by simp) primaries #[]).bind
  intro exponents
  exact .pure (powers base exponents.toList)

theorem additive (primaries : both.Related n m 0 anyKind inner inner') :
    both.Related n m 0 anyKind (Grammar.additive inner) (Grammar.additive inner') :=
  lawful.leftChain adding (lawful.leftChain multiplying (lawful.exponent primaries))

theorem comparison (primaries : both.Related n m 0 anyKind inner inner') :
    both.Related n m 0 anyKind (Grammar.comparison inner) (Grammar.comparison inner') := by
  have terms := lawful.additive primaries
  apply terms.bind
  intro left
  apply lawful.look
  intro kind _
  cases isOperator : operatorOf comparing kind with
  | none => exact .pure left
  | some op =>
      have compares : both.Related n m 1 (operatorOf comparing · = some op) _ _ :=
        lawful.round operator_inside (terms.bind fun right => .pure (Expr.binary op left right))
      apply compares.weaken.restrict
      rintro _ rfl
      exact isOperator

theorem expressionOf (primaries : both.Related n m 0 anyKind inner inner') :
    both.Related n m 0 anyKind (Grammar.expressionOf inner) (Grammar.expressionOf inner') :=
  lawful.leftChain logical (lawful.comparison primaries)

theorem indexOf? (primaries : both.Related n m 0 anyKind inner inner') :
    both.Related n m 0 anyKind (Grammar.indexOf? inner) (Grammar.indexOf? inner') := by
  apply lawful.following? (by simp)
  apply (lawful.expressionOf primaries).bind
  intro index
  exact (lawful.mark .rightBracket).bind fun _ => .pure index

theorem symbolOf (name : String) (primaries : both.Related n m 0 anyKind inner inner') :
    both.Related n m 0 anyKind (Grammar.symbolOf name inner) (Grammar.symbolOf name inner') := by
  apply (lawful.indexOf? primaries).bind
  intro index
  cases index with
  | none => exact .pure _
  | some index => exact .pure _

theorem primaryRule (primaries : both.Related n m 0 anyKind inner inner') :
    both.Related (n + 1) (m + 1) 0 anyKind (Grammar.primaryRule inner)
      (Grammar.primaryRule inner') := by
  apply lawful.expectAny (by decide)
  intro token other alike
  rw [lawful.kinds alike, lawful.lexemes alike]
  split
  · exact lawful.symbolOf other.lexeme primaries
  · exact (lawful.comparison primaries).bind fun _ => .pure _
  · exact primaries.bind fun _ => .pure _
  · exact primaries.bind fun _ => .pure _
  · apply (lawful.expressionOf primaries).bind
    intro group
    exact (lawful.mark .rightParen).bind fun _ => .pure group
  · exact fun _ _ same _ _ _ => lawful.literal alike same

theorem primary : both.Related n m 0 anyKind Grammar.primary Grammar.primary :=
  .recursive lawful.primaryRule

theorem expression : both.Related n m 0 anyKind Grammar.expression Grammar.expression :=
  lawful.expressionOf lawful.primary

theorem index? : both.Related n m 0 anyKind Grammar.index? Grammar.index? :=
  lawful.indexOf? lawful.primary

end Expressions

/-! ### Statements -/

section Statements

variable {inner inner' : Parse Stmt}

theorem block (statements : both.Related n m 0 anyKind inner inner') (closing : List Keyword) :
    both.Related n m 0 anyKind (Grammar.block inner closing) (Grammar.block inner' closing) := by
  apply (lawful.collectLines _ statements Array.push #[]).bind
  intro found
  exact .pure found.toList

/-- A block that starts on the next line. -/
theorem nextBlock (statements : both.Related n m 0 anyKind inner inner') (closing : List Keyword) :
    both.Related n m 0 anyKind (Parse.lineEnd >>= fun _ => Grammar.block inner closing)
      (Parse.lineEnd >>= fun _ => Grammar.block inner' closing) :=
  lawful.nextLine.weaken.bind fun _ => lawful.block statements closing

theorem bodyUpTo (statements : both.Related n m 0 anyKind inner inner') (closing : Keyword) :
    both.Related n m 0 anyKind (Grammar.bodyUpTo inner closing)
      (Grammar.bodyUpTo inner' closing) := by
  apply lawful.nextLine.weaken.bind
  intro _
  apply (lawful.block statements [closing]).bind
  intro body
  exact (lawful.word closing).bind fun _ => .pure body

theorem assignment : both.Related n m 0 anyKind Grammar.assignment Grammar.assignment := by
  apply lawful.identifier.bind
  intro name
  apply lawful.index?.bind
  intro index
  apply (lawful.mark .assign).bind
  intro _
  apply lawful.expression.bind
  intro value
  cases index with
  | none => exact .pure _
  | some index => exact .pure _

theorem printing : both.Related n m 0 anyKind Grammar.printing Grammar.printing := by
  apply lawful.expression.bind
  intro first
  exact (lawful.collect (by simp) lawful.expression #[first]).bind fun values => .pure _

theorem branching (statements : both.Related n m 0 anyKind inner inner') :
    both.Related n m 0 anyKind (Grammar.branching inner) (Grammar.branching inner') := by
  apply lawful.expression.bind
  intro condition
  apply (lawful.word .THEN).bind
  intro _
  apply lawful.nextLine.weaken.bind
  intro _
  apply (lawful.block statements [.ELSE, .ENDIF]).bind
  intro yes
  apply (lawful.following? (by simp) (lawful.nextBlock statements [.ENDIF])).bind
  intro no
  exact (lawful.word .ENDIF).bind fun _ => .pure _

theorem whileLooping (statements : both.Related n m 0 anyKind inner inner') :
    both.Related n m 0 anyKind (Grammar.whileLooping inner) (Grammar.whileLooping inner') := by
  apply lawful.expression.bind
  intro condition
  apply (lawful.word .DO).bind
  intro _
  exact (lawful.bodyUpTo statements .ENDWHILE).bind fun body => .pure _

theorem forLooping (statements : both.Related n m 0 anyKind inner inner') :
    both.Related n m 0 anyKind (Grammar.forLooping inner) (Grammar.forLooping inner') := by
  apply lawful.identifier.bind
  intro name
  apply (lawful.word .FROM).bind
  intro _
  apply lawful.expression.bind
  intro first
  apply (lawful.word .TO).bind
  intro _
  apply lawful.expression.bind
  intro last
  apply (lawful.following? (by simp) lawful.expression).bind
  intro step
  exact (lawful.bodyUpTo statements .ENDFOR).bind fun body => .pure _

theorem repeatLooping (statements : both.Related n m 0 anyKind inner inner') :
    both.Related n m 0 anyKind (Grammar.repeatLooping inner) (Grammar.repeatLooping inner') := by
  apply (lawful.word .UNTIL).bind
  intro _
  apply lawful.expression.bind
  intro condition
  exact (lawful.bodyUpTo statements .ENDREPEAT).bind fun body => .pure _

theorem caseArm (statements : both.Related n m 0 anyKind inner inner') :
    both.Related n m 0 anyKind (Grammar.caseArm inner) (Grammar.caseArm inner') := by
  apply lawful.expression.bind
  intro value
  apply (lawful.mark .colon).bind
  intro _
  apply lawful.nextLine.weaken.bind
  intro _
  exact (lawful.block statements [.CASE, .DEFAULT, .ENDSWITCH]).bind fun body => .pure _

theorem switching (statements : both.Related n m 0 anyKind inner inner') :
    both.Related n m 0 anyKind (Grammar.switching inner) (Grammar.switching inner') := by
  have otherwise := (lawful.mark (n := n) (m := m) .colon).bind fun _ =>
    lawful.nextBlock statements [.ENDSWITCH]
  apply lawful.expression.bind
  intro scrutinee
  apply lawful.nextLine.weaken.bind
  intro _
  apply (lawful.collect (by simp) (lawful.caseArm statements) #[]).bind
  intro cases
  apply (lawful.following? (by simp) otherwise).bind
  intro no
  exact (lawful.word .ENDSWITCH).bind fun _ => .pure _

theorem resizing : both.Related n m 0 anyKind Grammar.resizing Grammar.resizing := by
  apply lawful.identifier.bind
  intro name
  apply (lawful.word .TO).bind
  intro _
  exact lawful.expression.bind fun size => .pure _

theorem statementRule (statements : both.Related n m 0 anyKind inner inner') :
    both.Related (n + 1) (m + 1) 0 anyKind (Grammar.statementRule inner)
      (Grammar.statementRule inner') := by
  apply lawful.expectAny (by decide)
  intro token other alike
  rw [lawful.kinds alike]
  unfold Grammar.statementAfter
  split
  · exact lawful.assignment
  · exact lawful.printing
  · exact lawful.branching statements
  · exact lawful.whileLooping statements
  · exact lawful.forLooping statements
  · exact lawful.repeatLooping statements
  · exact lawful.switching statements
  · exact lawful.resizing

theorem statement : both.Related n m 0 anyKind Grammar.statement Grammar.statement :=
  .recursive lawful.statementRule

end Statements

/-! ### Programs -/

theorem typeName : both.Related n m 0 anyKind Grammar.typeName Grammar.typeName := by
  have related : both.Related (n + 1) (m + 1) 0 anyKind Grammar.typeName Grammar.typeName := by
    apply lawful.expectAny (by decide)
    intro token other alike
    rw [lawful.kinds alike]
    exact .pure _
  exact related.mono (Nat.le_succ n) (Nat.le_succ m)

theorem constant : both.Related n m 0 anyKind Grammar.constant Grammar.constant := by
  apply lawful.identifier.bind
  intro name
  apply (lawful.mark .assign).bind
  intro _
  exact lawful.expression.bind fun value => .pure _

theorem variableGroup : both.Related n m 0 anyKind Grammar.variableGroup Grammar.variableGroup := by
  apply lawful.identifier.bind
  intro first
  apply (lawful.collect (by simp) lawful.identifier #[first]).bind
  intro names
  apply (lawful.mark .colon).bind
  intro _
  apply lawful.typeName.bind
  intro type
  exact lawful.index?.bind fun size => .pure _

theorem constantSection :
    both.Related n m 0 anyKind Grammar.constantSection Grammar.constantSection := by
  have lines : both.Related n m 0 anyKind _ _ := lawful.nextLine.weaken.bind fun _ =>
    lawful.collectLines (Parse.outside [.keyword .VARIABLES, .keyword .BEGIN])
      lawful.constant Array.push #[]
  exact (lawful.following? (by simp) lines).bind fun found => .pure _

theorem variableSection :
    both.Related n m 0 anyKind Grammar.variableSection Grammar.variableSection := by
  have lines : both.Related n m 0 anyKind _ _ := lawful.nextLine.weaken.bind fun _ =>
    lawful.collectLines (Parse.outside [.keyword .BEGIN]) lawful.variableGroup
      (fun found next => found ++ next.toArray) #[]
  exact (lawful.following? (by simp) lines).bind fun found => .pure _

theorem declarations : both.Related n m 0 anyKind Grammar.declarations Grammar.declarations := by
  apply lawful.constantSection.bind
  intro constants
  exact lawful.variableSection.bind fun groups => .pure _

/-- Everything of a program but the blank lines before it. -/
theorem programText {cursor cursor' : Cursor} (same : both.openings cursor cursor') :
    both.Outcome 0 cursor cursor' (Grammar.programText cursor) (Grammar.programText cursor') := by
  apply (lawful.blankLines same).bind
  intro _ after after' there _ _
  suffices rest : both.Related (after.size + 1) (after'.size + 1) 0 anyKind _ _ from
    rest after after' there (Nat.lt_succ_self _) (Nat.lt_succ_self _) trivial
  apply (lawful.word .PROGRAM).bind
  intro _
  apply lawful.identifier.bind
  intro name
  apply lawful.nextLine.weaken.bind
  intro _
  apply lawful.declarations.bind
  intro declarations
  apply (lawful.word .BEGIN).bind
  intro _
  apply lawful.nextLine.weaken.bind
  intro _
  apply (lawful.block lawful.statement [.END]).bind
  intro body
  apply (lawful.word .END).bind
  intro _
  exact lawful.blanks.bind fun _ => .pure _

/-- **What respects the steps of reading respects the reading of programs.** -/
theorem program {cursor cursor' : Cursor} (same : both.openings cursor cursor') :
    both.Outcome 0 cursor cursor' (Grammar.program cursor) (Grammar.program cursor') := by
  apply (lawful.programText same).bind
  intro program after after' there _ _
  have ends : both.Related (after.size + 1) (after'.size + 1) 0 anyKind
      (Parse.kind >>= fun kind => if kind = .eof then Pure.pure program else Parse.badSyntax)
      (Parse.kind >>= fun kind => if kind = .eof then Pure.pure program else Parse.badSyntax) := by
    apply lawful.look
    intro kind _
    by_cases atEnd : kind = .eof
    · simp only [if_pos atEnd]
      exact .pure program
    · simp only [if_neg atEnd]
      exact lawful.refuses
  exact ends after after' there (Nat.lt_succ_self _) (Nat.lt_succ_self _) trivial

end Lawful

end Steps

end Correspondence

end Pseudocode.Parse
