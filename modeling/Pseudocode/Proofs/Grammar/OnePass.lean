import Pseudocode.Proofs.Grammar.Failure
import Pseudocode.Proofs.Grammar.Orderly

/-!
# Reading in one pass

A text is read as a program in one pass over its tokens, whether it is a program or not. Each
token is called for once, in order, and none after the end of the text
(`Program.parse_in_one_pass`). After the end of a text there would be no end of tokens: a call
there gives the end again, so that a loop that moves on without looking at its token would never
stop. None of the rules calls there (`Grammar.program_orderly`).
-/

set_option autoImplicit false

namespace Pseudocode

/-- A call gives the token that is in view afterwards. -/
theorem Lexed.call_of_place {text : Lexed} {n : Nat} {cursor : Cursor}
    (there : text.place n = .ok cursor) : text.call n = .ok cursor.current := by
  rw [call, there]
  rfl

namespace Program

open Grammar Parse

/-- What the calls for a token give, in order, when a text is read as a program. The first of
them is made before the rules of the grammar are followed. -/
inductive Answers (text : Lexed) : List (Except LexicalError Token) → Prop where
  | fault {error : LexicalError} (here : Cursor.ofLexed text = .error error) :
      Answers text [.error error]
  | read {cursor : Cursor} {places : List Cursor} (here : Cursor.ofLexed text = .ok cursor)
      (calls : Calls Grammar.program cursor places) :
      Answers text (.ok cursor.current :: places.map fun place => place.next.map Cursor.current)

theorem answers_iff_of_fault {text : Lexed} {error : LexicalError}
    (here : Cursor.ofLexed text = .error error) (answers : List (Except LexicalError Token)) :
    Answers text answers ↔ answers = (List.range 1).map text.call := by
  have first : text.call 0 = .error error := by
    rw [Lexed.call, Lexed.place, here]
    rfl
  have whole : (List.range 1).map text.call = [.error error] := congrArg ([·]) first
  rw [whole]
  constructor
  · intro given
    cases given with
    | fault there =>
        cases here.symm.trans there
        rfl
    | read there => cases here.symm.trans there
  · rintro rfl
    exact .fault here

section Reading

variable {text : Lexed} {cursor : Cursor} {places : List Cursor}
  (here : Cursor.ofLexed text = .ok cursor) (calls : Calls Grammar.program cursor places)

include here calls

/-- The calls have the numbers from zero on. -/
theorem answers_numbered :
    (.ok cursor.current :: places.map fun place => place.next.map Cursor.current) =
      (List.range (places.length + 1)).map text.call := by
  have start : text.place 0 = .ok cursor := here
  have others := congrArg (List.map fun place => (place >>= Cursor.next).map Cursor.current)
    (calls.places_eq start)
  rw [List.map_map, List.map_map, ← List.range_eq_range'] at others
  rw [List.range_succ_eq_map, List.map_cons, Lexed.call_of_place start, List.map_map]
  exact congrArg (List.cons _) others

theorem answers_iff (answers : List (Except LexicalError Token)) :
    Answers text answers ↔ answers = (List.range (places.length + 1)).map text.call := by
  rw [← answers_numbered here calls]
  constructor
  · intro given
    cases given with
    | fault there => cases here.symm.trans there
    | read there calls' =>
        cases here.symm.trans there
        rw [calls.unique calls']
  · rintro rfl
    exact .read here calls

/-- The calls are made at tokens of the text, if none is made at its end. -/
theorem length_le_of_inner (inner : ∀ place ∈ places, place.current.kind ≠ .eof) :
    places.length ≤ text.tokens.length := by
  cases count : places.length with
  | zero => exact Nat.zero_le _
  | succ j =>
      have inside : j < places.length := by omega
      have start : text.place 0 = .ok cursor := here
      have there := calls.place_of_getElem start inside
      rw [Nat.zero_add] at there
      have token := Lexed.getElem?_of_call (Lexed.call_of_place there)
        (inner _ (List.getElem_mem inside))
      exact (List.getElem?_eq_some_iff.1 token).1

end Reading

/-- The tokens of a text are those that the calls give before its end or its first fault. -/
theorem lt_length_tokens_iff (source : String) (j : Nat) :
    j < (Lexed.ofSource source).tokens.length ↔
      ∃ token, (Lexed.ofSource source).call j = .ok token ∧ token.kind ≠ .eof := by
  constructor
  · intro inside
    exact ⟨_, Lexed.call_token (List.getElem?_eq_getElem inside),
      kind_ne_eof_ofSource source _ (List.getElem_mem inside)⟩
  · rintro ⟨token, called, inner⟩
    exact (List.getElem?_eq_some_iff.1 (Lexed.getElem?_of_call called inner)).1

/-- A lexical error is the one that the text ends with. -/
theorem ending_of_lexical {text : Lexed} {cursor place : Cursor} {error : LexicalError}
    (written : Written 1 text.tokens) (here : Cursor.ofLexed text = .ok cursor)
    (failed : Grammar.program cursor = .error (.lexical error) place) :
    text.ending = .error error := by
  obtain ⟨used, rest, rfl, _, blamed | ⟨_, other⟩, _⟩ := program_fails written here failed
  · cases blamed with
    | lexical stops =>
        obtain ⟨tokens, stop⟩ := rest
        cases tokens with
        | cons token tokens => cases stops
        | nil =>
            cases stop with
            | ok line => cases stops
            | error fault =>
                cases stops
                rfl
  · cases other

section Source

variable {source : String} {cursor : Cursor} {places : List Cursor}
  (here : Cursor.ofLexed (Lexed.ofSource source) = .ok cursor)
  (calls : Calls Grammar.program cursor places)
  (within : places.length ≤ (Lexed.ofSource source).tokens.length)

include here calls within

/-- A program has been read when the end of the text is in view. -/
theorem length_eq_of_read {program : Program} {after : Cursor}
    (read : Grammar.program cursor = .ok program after) :
    places.length = (Lexed.ofSource source).tokens.length := by
  have start : (Lexed.ofSource source).place 0 = .ok cursor := here
  have there := calls.place_after read start
  rw [Nat.zero_add] at there
  apply Nat.le_antisymm within
  apply Nat.le_of_not_lt
  intro inside
  obtain ⟨token, called, inner⟩ := (lt_length_tokens_iff source _).1 inside
  cases (Lexed.call_of_place there).symm.trans called
  exact inner (program_sound here read).1

/-- A lexical error is found by a call and not in the value of a literal. Otherwise it would be
the same in a text that breaks off with another one. -/
theorem length_eq_of_lexical {error : LexicalError} {place : Cursor}
    (failed : Grammar.program cursor = .error (.lexical error) place) :
    places.length = (Lexed.ofSource source).tokens.length := by
  apply Nat.le_antisymm within
  apply Nat.le_of_not_lt
  intro inside
  have written := written_ofSource source
  generalize Lexed.ofSource source = text at here written inside
  obtain ⟨tokens, stop⟩ := text
  cases tokens with
  | nil => cases inside
  | cons token rest =>
      cases here
      let fault : LexicalError := ⟨error.fault, error.line + 1⟩
      let broken : Lexed := ⟨token :: rest.take places.length, .error ⟨fault, []⟩⟩
      have row : Written 1 broken.tokens := by
        rw [← List.take_append_drop places.length rest, ← List.cons_append] at written
        exact (Written.append.1 written).1
      obtain ⟨place', again⟩ := calls.unnoticed_error failed fault
      rw [Cursor.brokenOff_mk token stop fault (Nat.le_of_lt_succ inside)] at again
      have same := ending_of_lexical row rfl again
      have line : error.line + 1 = error.line := congrArg LexicalError.line (Except.error.inj same)
      omega

/-- Reading fails at the token that was called for last. -/
theorem failure?_eq_length {cause : GrammarError} {place : Cursor}
    (failed : Grammar.program cursor = .error cause place) :
    failure? source = some (places.length, cause) := by
  have start : (Lexed.ofSource source).place 0 = .ok cursor := here
  rcases calls.place_of_error failed start with there | ⟨error, rfl, _⟩
  · rw [Nat.zero_add, Lexed.place_eq] at there
    have ahead := size_of_ofLexed there fun token member =>
      kind_ne_eof_ofSource source token (List.mem_of_mem_drop member)
    rw [List.length_drop] at ahead
    cases cause with
    | lexical error =>
        simp only [failure?, here, failed, length_eq_of_lexical here calls within failed]
    | unexpected expected found line =>
        simp only [failure?, here, failed, Option.some.injEq, Prod.mk.injEq, and_true]
        omega
    | badSyntax line =>
        simp only [failure?, here, failed, Option.some.injEq, Prod.mk.injEq, and_true]
        omega
  · simp only [failure?, here, failed, length_eq_of_lexical here calls within failed]

end Source

/-- A counter of a loop or of nesting that ran out would be bad syntax. None does. A round that
moved past nothing would be asked for again at the same token until the counter was used up. -/
theorem programText_ne_badSyntax {source : String} {cursor : Cursor}
    (here : Cursor.ofLexed (Lexed.ofSource source) = .ok cursor) (line : Nat) (place : Cursor) :
    programText cursor ≠ .error (.badSyntax line) place := by
  intro failed
  have settles := @programText_settles Nat ((Lexed.ofSource source).tokens.length + 1) id
  obtain ⟨used, rest, _, settled, _⟩ :=
    settles.runs 1 _ cursor (written_ofSource source) (Nat.lt_succ_self _) here trivial
  rw [failed] at settled
  cases settled.2

/-- **A text is read in one pass.** Let `n` be the number of its tokens before its end or its
first fault. The calls for a token are the first `k + 1` ones, in order and each of them once,
where `k` is `n` for a program and the number of the token at fault otherwise. So every token
that is passed comes before the end of the text, and no token is called for after it.

No counter runs out on the way. Each round of a loop of the grammar moves past a token, and a
rule comes to itself only after it has moved past one, so that loops and rules that contain
themselves need no bound. -/
theorem parse_in_one_pass (source : String) :
    (∃ n k, (∀ j, j < n ↔ ∃ token, (Lexed.ofSource source).call j = .ok token ∧
        token.kind ≠ .eof) ∧ k ≤ n ∧
      (∀ answers, Answers (Lexed.ofSource source) answers ↔
        answers = (List.range (k + 1)).map (Lexed.ofSource source).call) ∧
      (∀ program, Program.parse source = .ok program → k = n) ∧
      ∀ error, Program.parse source = .error error →
        ∃ cause, failure? source = some (k, cause) ∧ error = .ofGrammar cause) ∧
    (∀ cursor, Cursor.ofLexed (Lexed.ofSource source) = .ok cursor →
      ∀ line place, programText cursor ≠ .error (.badSyntax line) place) ∧
    (∀ {α β : Type} {more : Kind → Option β} {step : α → β → Parse α},
      Repetition more step → Progresses more step) ∧
    Descends primaryRule ∧ Descends statementRule := by
  refine ⟨⟨(Lexed.ofSource source).tokens.length, ?_⟩, fun _ => programText_ne_badSyntax,
    Repetition.progresses, primaryRule_descends, statementRule_descends⟩
  cases here : Cursor.ofLexed (Lexed.ofSource source) with
  | error fault =>
      refine ⟨0, lt_length_tokens_iff source, Nat.zero_le _, answers_iff_of_fault here, ?_, ?_⟩
      · intro program read
        obtain ⟨cursor, _, here', _⟩ := parse_eq_ok_iff.1 read
        cases here.symm.trans here'
      · intro error failed
        rcases parse_eq_error_iff.1 failed with ⟨fault', here', rfl⟩ | ⟨cursor, _, _, here', _⟩
        · cases here.symm.trans here'
          exact ⟨.lexical fault, (stops_of_fault here).failure, rfl⟩
        · cases here.symm.trans here'
  | ok cursor =>
      obtain ⟨places, calls, inner⟩ := program_orderly cursor
      have within := length_le_of_inner here calls inner
      refine ⟨places.length, lt_length_tokens_iff source, within, answers_iff here calls, ?_, ?_⟩
      · intro program read
        obtain ⟨_, after, here', read⟩ := parse_eq_ok_iff.1 read
        cases here.symm.trans here'
        exact length_eq_of_read here calls within read
      · intro error failed
        rcases parse_eq_error_iff.1 failed with ⟨_, here', _⟩ | ⟨_, cause, _, here', failed, rfl⟩
        · cases here.symm.trans here'
        · cases here.symm.trans here'
          exact ⟨cause, failure?_eq_length here calls within failed, rfl⟩

/-- A text that ends where constants are read, in a loop that does not look for the end. -/
def truncated : String := "PROGRAM p\nCONSTANTS\n"

theorem truncated_in_one_pass :
    (Lexed.ofSource truncated).tokens.length = 5 ∧
    ((Lexed.ofSource truncated).call 5).toOption = some (.eof 3) ∧
    ∀ answers, Answers (Lexed.ofSource truncated) answers ↔
      answers = (List.range 6).map (Lexed.ofSource truncated).call := by
  refine ⟨by decide +kernel, by decide +kernel, ?_⟩
  have fails : (Program.parse truncated).isOk = false := by decide +kernel
  have known : failure? truncated = some (5, .unexpected [.identifier] .eof 3) := by
    decide +kernel
  obtain ⟨⟨_, k, _, _, answered, _, failed⟩, _⟩ := parse_in_one_pass truncated
  cases found : Program.parse truncated with
  | ok program =>
      rw [found] at fails
      cases fails
  | error error =>
      obtain ⟨cause, failure, _⟩ := failed error found
      cases known.symm.trans failure
      exact answered

end Program

end Pseudocode
