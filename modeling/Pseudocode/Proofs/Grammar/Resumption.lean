import Pseudocode.Proofs.Grammar.Orderly
import Pseudocode.Proofs.Token.Onward

/-!
# Reading on from a token

Reading a program only ever moves on, token by token, and behind a fault if it comes upon one
(`Grammar.program_rests`). So it is always at a place that calls for tokens lead to
(`Cursor.Stands`). If it fails at a token then it rests there, and what is read from there on is
what is read from the text that starts with this token, on later lines
(`Cursor.Stands.exists_of_refuses`).
-/

set_option autoImplicit false

namespace Pseudocode

variable {α β : Type}

/-! ## Later lines -/

/-- The same error on a later line. -/
def GrammarError.later (lines : Nat) : GrammarError → GrammarError
  | .lexical error => .lexical (error.later lines)
  | .unexpected expected found line => .unexpected expected found (line + lines)
  | .badSyntax line => .badSyntax (line + lines)

/-- The same error on a later line. Errors of a run have no line. -/
def Error.later (lines : Nat) : Error → Error
  | .lexical error => .lexical (error.later lines)
  | .grammar error => .grammar (error.later lines)
  | .runtime error => .runtime error

theorem Error.ofGrammar_later (lines : Nat) (error : GrammarError) :
    ofGrammar (error.later lines) = (ofGrammar error).later lines := by
  cases error <;> rfl

/-- Where a literal cannot be read, the error is on the line of its token. -/
theorem Literal.ofToken_later (lines : Nat) (token : Token) :
    ofToken (token.later lines) = (ofToken token).mapError (LexicalError.later lines) := by
  simp only [ofToken, Token.later]
  split
  · rfl
  · rfl
  · cases integer? token.lexeme.toList <;> rfl
  · cases float? token.lexeme.toList <;> rfl
  · cases (unquote? '\'' token.lexeme.toList).bind List.head? <;> rfl
  · cases (unquote? '"' token.lexeme.toList).map String.ofList <;> rfl

namespace Parse

/-- The same result on a later line. -/
def resultLater (lines : Nat) :
    EStateM.Result GrammarError Cursor α → EStateM.Result GrammarError Cursor α
  | .ok a after => .ok a (after.later lines)
  | .error error place => .error (error.later lines) (place.later lines)

/-- A text and the same one on later lines. -/
def onLaterLines (lines : Nat) : Correspondence where
  tokens token other := other = token.later lines
  places cursor other := other = cursor.later lines
  openings cursor other := other = cursor.later lines
  errors error place error' place' := error' = error.later lines ∧ place' = place.later lines

theorem onLaterLines_steady (lines : Nat) : (onLaterLines lines).Steady where
  kinds := by
    rintro token _ rfl
    rfl
  lexemes := by
    rintro token _ rfl
    rfl
  inView := by
    rintro cursor _ rfl
    rfl
  unexpected := by
    rintro cursor _ rfl expected
    exact ⟨rfl, rfl⟩
  badSyntax := by
    rintro cursor _ rfl
    exact ⟨rfl, rfl⟩
  literal := by
    rintro token _ rfl cursor _ rfl
    rw [Grammar.literalOf, Grammar.literalOf, Literal.ofToken_later]
    cases Literal.ofToken token with
    | ok literal => exact .read rfl (Nat.le_refl _) (Nat.le_refl _)
    | error error => exact .failed ⟨rfl, rfl⟩

theorem onLaterLines_lawful (lines : Nat) : (onLaterLines lines).Lawful := by
  apply (onLaterLines_steady lines).lockstep rfl
  rintro cursor _ rfl _
  have moved : (cursor.later lines).next =
      Cursor.ofLexed (Lexed.later lines ⟨cursor.rest, cursor.stop⟩) := rfl
  cases next : cursor.next with
  | ok after =>
      rw [moved, Cursor.ofLexed_later lines next]
      exact .moved rfl
  | error error =>
      rw [moved, Cursor.ofLexed_later_error lines next]
      exact .stopped ⟨rfl, cursor.resume_later lines⟩

end Parse

/-! ## Where reading stops -/

/-- One place comes after another one, or is the same, with no fault between them. -/
inductive Cursor.Reaches : Cursor → Cursor → Prop where
  | here (cursor : Cursor) : Reaches cursor cursor
  | next {cursor after last : Cursor} (moved : cursor.next = .ok after)
      (later : Reaches after last) : Reaches cursor last

theorem Cursor.Reaches.trans {first middle last : Cursor} (earlier : first.Reaches middle)
    (later : middle.Reaches last) : first.Reaches last := by
  induction earlier with
  | here => exact later
  | next moved _ ih => exact .next moved (ih later)

/-- An error that is about the token in view. -/
inductive Cursor.Refuses (cursor : Cursor) : GrammarError → Prop where
  | unexpected (expected : List Kind) :
      Refuses cursor (.unexpected expected cursor.current.kind cursor.current.line)
  | badSyntax : Refuses cursor (.badSyntax cursor.current.line)

theorem Cursor.Refuses.ne_lexical {cursor : Cursor} {cause : GrammarError}
    (refuses : cursor.Refuses cause) (error : LexicalError) : cause ≠ .lexical error := by
  cases refuses with
  | unexpected expected => nofun
  | badSyntax => nofun

/-- Where reading from a place on stops with an error: at a token that is refused, behind a fault,
or after a literal without value. -/
inductive Cursor.Rests (start : Cursor) : GrammarError → Cursor → Prop where
  | token {place : Cursor} {cause : GrammarError} (reached : start.Reaches place)
      (refuses : place.Refuses cause) : Rests start cause place
  | fault {last : Cursor} {error : LexicalError} (reached : start.Reaches last)
      (failed : last.next = .error error) : Rests start (.lexical error) last.resume
  | literal {place : Cursor} {error : LexicalError} (reached : start.Reaches place) :
      Rests start (.lexical error) place

namespace Parse

/-- What a rule does from a place on, compared with itself. -/
def onwardFrom (start : Cursor) : Correspondence where
  tokens := Eq
  places cursor other := cursor = other ∧ start.Reaches cursor
  openings cursor other := cursor = other ∧ start.Reaches cursor
  errors error place _ _ := start.Rests error place

theorem onwardFrom_steady (start : Cursor) : (onwardFrom start).Steady where
  kinds same := congrArg Token.kind same
  lexemes same := congrArg Token.lexeme same
  inView same := congrArg Cursor.current same.1
  unexpected same expected := .token same.2 (.unexpected expected)
  badSyntax same := .token same.2 .badSyntax
  literal := by
    rintro token _ rfl cursor _ ⟨rfl, reached⟩
    rw [Grammar.literalOf]
    cases Literal.ofToken token with
    | ok literal => exact .read ⟨rfl, reached⟩ (Nat.le_refl _) (Nat.le_refl _)
    | error error => exact .failed (.literal reached)

theorem onwardFrom_lawful (start : Cursor) : (onwardFrom start).Lawful := by
  apply (onwardFrom_steady start).lockstep rfl
  rintro cursor _ ⟨rfl, reached⟩ _
  cases moved : cursor.next with
  | ok after => exact .moved ⟨rfl, reached.trans (.next moved (.here after))⟩
  | error error => exact .stopped (.fault reached moved)

end Parse

namespace Grammar

theorem program_later (lines : Nat) (cursor : Cursor) :
    program (cursor.later lines) = Parse.resultLater lines (program cursor) := by
  have start : (Parse.onLaterLines lines).openings cursor (cursor.later lines) := rfl
  have outcome := (Parse.onLaterLines_lawful lines).program start
  generalize program cursor = result at outcome ⊢
  generalize program (cursor.later lines) = result' at outcome ⊢
  cases outcome with
  | read there => rw [there]; rfl
  | failed blamed => rw [blamed.1, blamed.2]; rfl

/-- Reading a program only moves on. -/
theorem program_rests (cursor : Cursor) :
    match program cursor with
    | .ok _ after => cursor.Reaches after
    | .error error place => cursor.Rests error place := by
  have start : (Parse.onwardFrom cursor).openings cursor cursor := ⟨rfl, .here cursor⟩
  have outcome := (Parse.onwardFrom_lawful cursor).program start
  generalize program cursor = result at outcome ⊢
  cases result with
  | ok read after =>
      cases outcome with
      | read there => exact there.2
  | error error place =>
      cases outcome with
      | failed blamed => exact blamed

/-- What is read at a place. -/
def read (cursor : Cursor) : Except Error Program :=
  match program cursor with
  | .ok program _ => .ok program
  | .error error _ => .error (.ofGrammar error)

theorem read_of_error {cursor place : Cursor} {cause : GrammarError}
    (failed : program cursor = .error cause place) : read cursor = .error (.ofGrammar cause) := by
  simp only [read, failed]

theorem read_later (lines : Nat) (cursor : Cursor) :
    read (cursor.later lines) = (read cursor).mapError (Error.later lines) := by
  rw [read, program_later, read]
  cases program cursor with
  | ok program after => rfl
  | error error place =>
      rw [Parse.resultLater]
      exact congrArg Except.error (Error.ofGrammar_later lines error)

end Grammar

/-- A rule that fails at the token where it has started does not call. -/
theorem Parse.OrderlyAt.calls_nil {rule : Parse α} {cursor : Cursor} {cause : GrammarError}
    (orderly : OrderlyAt rule cursor) (failed : rule cursor = .error cause cursor)
    (refuses : cursor.Refuses cause) : Calls rule cursor [] := by
  obtain ⟨places, calls, inner⟩ := orderly
  cases places with
  | nil => exact calls
  | cons place others =>
      exfalso
      have first : place = cursor :=
        Except.ok.inj (calls.place_of_getElem cursor.place_lexed (Nat.zero_lt_succ _)).symm
      have inside := inner place List.mem_cons_self
      rcases calls.place_of_error failed cursor.place_lexed with there | ⟨error, same, _⟩
      · rw [Nat.zero_add, Lexed.place_eq, Cursor.lexed, List.length_cons,
          List.drop_succ_cons] at there
        cases ahead : cursor.rest.drop others.length with
        | nil =>
            rw [ahead] at there
            cases stop : cursor.stop with
            | error fault => rw [stop] at there; cases there
            | ok line =>
                rw [stop] at there
                rw [first, ← Except.ok.inj there] at inside
                exact inside rfl
        | cons token rest =>
            rw [ahead] at there
            have same : rest = cursor.rest := congrArg Cursor.rest (Except.ok.inj there)
            have shorter := congrArg List.length ahead
            rw [List.length_drop, List.length_cons, same] at shorter
            omega
      · exact refuses.ne_lexical error same

/-- What is read in the text from the token on that a call finds, when this token is on a line. -/
def Program.parseFrom (source : String) (found line : Nat) : Except Error Program :=
  (parse (Lexer.Remainder.textFrom source found)).mapError (Error.later (line - 1))

/-! ## Places of a text -/

namespace Cursor

open Lexer (Remainder)

/-- A place of a text after so many calls for a token. One of them has found the token in view, and
those after it have come upon faults. -/
structure Stands (source : String) (found calls : Nat) (cursor : Cursor) : Prop where
  seen : (Remainder.after source found).answer = .ok cursor.current
  sooner : found < calls
  faults : ∀ n, found < n → n < calls → ∃ error, (Remainder.after source n).answer = .error error
  ahead : cursor = (Remainder.after source calls).place cursor.current

namespace Stands

variable {source : String} {found calls : Nat} {cursor : Cursor}

/-- The place with a token in view that a call has just found. -/
theorem of_answer {token : Token} (seen : (Remainder.after source found).answer = .ok token) :
    ((Remainder.after source (found + 1)).place token).Stands source found (found + 1) where
  seen := seen
  sooner := Nat.lt_succ_self found
  faults := fun _ after before => absurd before (Nat.not_lt_of_ge after)
  ahead := rfl

theorem first (start : ofLexed (Lexed.ofSource source) = .ok cursor) :
    cursor.Stands source 0 1 := by
  have moved := (Remainder.after source 0).next_place cursor.current
  have same : ((Remainder.after source 0).place cursor.current).next =
      ofLexed (Lexed.ofSource source) := rfl
  rw [same, start] at moved
  cases seen : (Remainder.after source 0).answer with
  | error error => rw [seen] at moved; cases moved
  | ok token =>
      rw [seen] at moved
      rw [Except.ok.inj moved]
      exact .of_answer seen

theorem next (stands : cursor.Stands source found calls) {after : Cursor}
    (moved : cursor.next = .ok after) : after.Stands source calls (calls + 1) := by
  rw [stands.ahead, Remainder.next_place] at moved
  cases seen : (Remainder.after source calls).answer with
  | error error => rw [seen] at moved; cases moved
  | ok token =>
      rw [seen] at moved
      rw [← Except.ok.inj moved]
      exact .of_answer seen

theorem resume (stands : cursor.Stands source found calls) {error : LexicalError}
    (failed : cursor.next = .error error) : cursor.resume.Stands source found (calls + 1) := by
  rw [stands.ahead, Remainder.next_place] at failed
  cases seen : (Remainder.after source calls).answer with
  | ok token => rw [seen] at failed; cases failed
  | error error =>
      have onward := Remainder.resume_place seen cursor.current
      rw [← stands.ahead] at onward
      rw [onward]
      refine ⟨stands.seen, Nat.lt_succ_of_lt stands.sooner, fun n after before => ?_, rfl⟩
      rcases Nat.lt_succ_iff_lt_or_eq.1 before with earlier | rfl
      · exact stands.faults n after earlier
      · exact ⟨error, seen⟩

/-- Where a place leads to without a fault, a token has just come into view, unless it is the
place itself. -/
theorem of_reaches (stands : cursor.Stands source found calls) {last : Cursor}
    (reaches : cursor.Reaches last) : last = cursor ∨ ∃ n, last.Stands source n (n + 1) := by
  induction reaches generalizing found calls with
  | here => exact .inl rfl
  | next moved _ ih =>
      have onward := stands.next moved
      rcases ih onward with rfl | later
      · exact .inr ⟨calls, onward⟩
      · exact .inr later

theorem exists_of_reaches (stands : cursor.Stands source found calls) {last : Cursor}
    (reaches : cursor.Reaches last) : ∃ m n, last.Stands source m n := by
  rcases stands.of_reaches reaches with rfl | ⟨n, there⟩
  · exact ⟨found, calls, stands⟩
  · exact ⟨n, n + 1, there⟩

theorem exists_of_rests (stands : cursor.Stands source found calls) {cause : GrammarError}
    {place : Cursor} (rests : cursor.Rests cause place) : ∃ m n, place.Stands source m n := by
  cases rests with
  | token reached refuses => exact stands.exists_of_reaches reached
  | fault reached failed =>
      obtain ⟨m, n, there⟩ := stands.exists_of_reaches reached
      exact ⟨m, n + 1, there.resume failed⟩
  | literal reached => exact stands.exists_of_reaches reached

/-! ### Reading from a token on -/

/-- Reading from a token on that has just come into view. -/
theorem parseFrom_eq (seen : (Remainder.after source found).answer = .ok cursor.current) :
    Program.parseFrom source found cursor.current.line =
      Grammar.read ((Remainder.after source (found + 1)).place cursor.current) := by
  obtain ⟨start, first, same⟩ := Remainder.ofLexed_textFrom seen
  rw [same, Grammar.read_later, Program.parseFrom, Program.parse, first]
  rfl

/-- Reading a token again at which reading has failed without going on. -/
theorem parseFrom_eq_of_stays (stands : cursor.Stands source found calls) {cause : GrammarError}
    (failed : Grammar.program cursor = .error cause cursor) (refuses : cursor.Refuses cause) :
    Program.parseFrom source found cursor.current.line = Grammar.read cursor := by
  -- The token in view is all that counts, so the faults behind it do not matter.
  have silent := (Grammar.program_orderly cursor).calls_nil failed refuses
  have fresh : ((Remainder.after source (found + 1)).place cursor.current).current =
    cursor.current := rfl
  have again := silent.eq_resultAt fresh
  rw [failed] at again
  rw [parseFrom_eq stands.seen, Grammar.read_of_error again, Grammar.read_of_error failed]

/-- **Where reading fails at a token, it goes on as from the beginning of the text that starts
there**, on the line of the token. -/
theorem exists_of_refuses (stands : cursor.Stands source found calls) {cause : GrammarError}
    {place : Cursor} (failed : Grammar.program cursor = .error cause place)
    (refuses : place.Refuses cause) :
    ∃ m n, place.Stands source m n ∧
      Grammar.read place = Program.parseFrom source m place.current.line := by
  have rests := Grammar.program_rests cursor
  rw [failed] at rests
  cases rests with
  | fault reached stopped => exact absurd rfl (refuses.ne_lexical _)
  | literal reached => exact absurd rfl (refuses.ne_lexical _)
  | token reached _ =>
      rcases stands.of_reaches reached with rfl | ⟨n, there⟩
      · exact ⟨found, calls, stands, (stands.parseFrom_eq_of_stays failed refuses).symm⟩
      · refine ⟨n, n + 1, there, ?_⟩
        rw [parseFrom_eq there.seen, ← there.ahead]

end Stands

end Cursor

end Pseudocode
