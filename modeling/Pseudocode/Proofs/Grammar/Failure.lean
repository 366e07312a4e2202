import Pseudocode.Proofs.Grammar.Settling
import Pseudocode.Proofs.Token.Calls

/-!
# The earliest error

Reading a text that is no program fails at its first token that cannot follow those
before it, or at its first fault if all tokens before it can still be completed
(`Program.parse_error_earliest`). Tokens can be completed (`Viable`) if they start some
text that is read as a program. Nothing after the token at which reading fails has any
influence on the error.
-/

set_option autoImplicit false

namespace Pseudocode

/-- The tokens of a text, with its end if it has been reached. -/
def Lexed.row (lexed : Lexed) : List Token :=
  match lexed.ending with
  | .ok line => lexed.tokens ++ [.eof line]
  | .error _ => lexed.tokens

/-- Some program starts with these tokens. -/
def Viable (tokens : List Token) : Prop :=
  ∃ source program, Program.parse source = .ok program ∧ tokens <+: (Lexed.ofSource source).row

/-- The number of the token at which reading fails, and the reason. -/
def Program.failure? (source : String) : Option (Nat × GrammarError) :=
  let text := Lexed.ofSource source
  match Cursor.ofLexed text with
  | .error error => some (0, .lexical error)
  | .ok cursor =>
    match Grammar.program cursor with
    | .ok _ _ => none
    | .error (.lexical error) _ => some (text.tokens.length, .lexical error)
    | .error cause place => some (text.tokens.length - place.size, cause)

/-- An error at the token with the given number is right. An error in the text itself
comes after all of its tokens. Otherwise no program has this token after those before
it, and any of the expected ones could have been there. -/
def Program.Earliest (text : Lexed) (k : Nat) : GrammarError → Prop
  | .lexical fault => k = text.tokens.length ∧ text.ending = .error fault
  | .badSyntax line =>
    (∃ token, text.row[k]? = some token ∧ token.line = line) ∧ ¬ Viable (text.row.take (k + 1))
  | .unexpected expected found line =>
    (∃ token, text.row[k]? = some token ∧ token.kind = found ∧ token.line = line) ∧
      ¬ Viable (text.row.take (k + 1)) ∧ expected ≠ [] ∧
      ∀ kind ∈ expected, (∃ lexeme, Lexeme kind lexeme) ∧ ∀ lexeme, Lexeme kind lexeme →
        Viable (text.row.take k ++ [⟨kind, String.ofList lexeme, line⟩])

/-! ## Tokens and calls for them -/

namespace Lexed

theorem tokens_row (lexed : Lexed) : lexed.tokens <+: lexed.row := by
  rw [row]
  cases lexed.ending with
  | ok line => exact List.prefix_append ..
  | error error => exact List.prefix_refl _

theorem call_behind (rest : Lexed) (used : List Token) :
    (rest.behind used).call used.length = rest.view := by
  rw [call_eq]
  simp [behind]

theorem call_of_row {lexed : Lexed} {n : Nat} {token : Token} (here : lexed.row[n]? = some token) :
    lexed.call n = .ok token := by
  rw [row] at here
  cases ending : lexed.ending with
  | error error =>
      rw [ending] at here
      exact call_token here
  | ok line =>
      rw [ending] at here
      rcases Nat.lt_or_ge n lexed.tokens.length with short | past
      · rw [List.getElem?_append_left short] at here
        exact call_token here
      · rw [List.getElem?_append_right past] at here
        obtain ⟨_, is⟩ := List.getElem?_eq_some_iff.1 here
        rw [call_past past, ending, ← is]
        simp [Except.map]

/-- A token that is not the end of the text is one of its tokens. -/
theorem getElem?_of_call {lexed : Lexed} {n : Nat} {token : Token}
    (called : lexed.call n = .ok token) (inner : token.kind ≠ .eof) : lexed.tokens[n]? = some token := by
  rcases Nat.lt_or_ge n lexed.tokens.length with short | past
  · have here := List.getElem?_eq_getElem short
    rw [call_token here] at called
    rw [here, Except.ok.inj called]
  · rw [call_past past] at called
    cases ending : lexed.ending with
    | error error =>
        rw [ending] at called
        cases called
    | ok line =>
        rw [ending] at called
        cases called
        exact absurd rfl inner

/-- A text that gives the same tokens up to a place has them in front. -/
theorem behind_of_calls {rest other : Lexed} {used : List Token}
    (inner : ∀ token ∈ used, token.kind ≠ .eof)
    (agree : ∀ n ≤ used.length, other.call n = (rest.behind used).call n) :
    ∃ last : Lexed, other = last.behind used ∧ last.view = rest.view := by
  have starts : used <+: other.tokens := by
    refine List.prefix_iff_getElem?.2 fun n short => ?_
    have here : (rest.behind used).tokens[n]? = some used[n] := by
      rw [behind, List.getElem?_append_left short, List.getElem?_eq_getElem short]
    have called := agree n (Nat.le_of_lt short)
    rw [call_token here] at called
    exact getElem?_of_call called (inner _ (List.getElem_mem short))
  obtain ⟨tokens, split⟩ := starts
  have whole : other = behind ⟨tokens, other.stop⟩ used := by
    rw [behind, split]
  refine ⟨⟨tokens, other.stop⟩, whole, ?_⟩
  have last := agree used.length (Nat.le_refl _)
  rwa [call_behind, whole, call_behind] at last

end Lexed

namespace Grammar

/-- The tokens of programs. -/
abbrev DerivesText : List Token → Program → Prop := DerivesProgram (Derives .expression)

/-! ## Programs that fail -/

/-- What can be completed is the beginning of a program. -/
theorem Completes.viable {used : List Token} (completes : Completes 1 DerivesText used) :
    Viable used := by
  obtain ⟨more, program, written, derived⟩ := completes
  obtain ⟨source, lexed⟩ := Lexer.exists_source written
  obtain ⟨program', reads⟩ := program_complete derived
  have ending : (Lexed.ofSource source).ending = .ok (lineAfter 1 (used ++ more)) := by
    rw [lexed, Lexed.ending_ok]
  refine ⟨source, program', Program.parse_of_reads ending (by rwa [lexed]), ?_⟩
  have starts := (Lexed.ofSource source).tokens_row
  rw [lexed] at starts ⊢
  exact (List.prefix_append used more).trans starts

theorem program_ok {cursor after : Cursor} {program : Program}
    (read : programText cursor = .ok program after) :
    Grammar.program cursor =
      if after.current.kind = .eof then .ok program after
      else .error (.badSyntax after.current.line) after := by
  rw [program_apply, read]

theorem program_error {cursor place : Cursor} {cause : GrammarError}
    (failed : programText cursor = .error cause place) :
    Grammar.program cursor = .error cause place := by
  rw [program_apply, failed]

/-- Why a text is no program, and the place where that was found. -/
def Culprit (used : List Token) (rest : Lexed) (cause : GrammarError) (place : Cursor) : Prop :=
  Blamed (Completes 1 DerivesText) 1 used rest cause place ∨
    Cursor.ofLexed rest = .ok place ∧ cause = .badSyntax place.current.line

/-- A text that is no program fails where it can no longer be completed, and texts that
start in the same way fail in the same way. -/
theorem program_fails {text : Lexed} {cursor place : Cursor} {cause : GrammarError}
    (written : Written 1 text.tokens) (here : Cursor.ofLexed text = .ok cursor)
    (failed : Grammar.program cursor = .error cause place) :
    ∃ used rest, text = rest.behind used ∧ Completes 1 DerivesText used ∧
      Culprit used rest cause place ∧
      ∀ (other : Lexed) cursor', other.view = rest.view →
        Cursor.ofLexed (other.behind used) = .ok cursor' →
          ∃ place', Grammar.program cursor' = .error cause place' := by
  have settles := @programText_settles Nat (text.tokens.length + 1) id
  obtain ⟨used, rest, rfl, settled, same⟩ :=
    settles.runs 1 text cursor written (Nat.lt_succ_self _) here trivial
  refine ⟨used, rest, rfl, ?_⟩
  have alike : ∀ (other : Lexed) cursor', other.view = rest.view →
      Cursor.ofLexed (other.behind used) = .ok cursor' →
      Same other (programText cursor) (programText cursor') :=
    fun other cursor' => same _ other cursor' (Nat.lt_succ_self _)
  clear same
  cases found : programText cursor with
  | error error place' =>
      rw [program_error found] at failed
      cases failed
      rw [found] at settled alike
      refine ⟨settled.1, .inl settled.2, fun other cursor' seen there => ?_⟩
      cases found' : programText cursor' with
      | ok program after => nomatch found' ▸ alike other cursor' seen there
      | error error' place' =>
          cases found' ▸ alike other cursor' seen there
          exact ⟨place', program_error found'⟩
  | ok program after =>
      rw [found] at settled alike
      obtain ⟨there, derived⟩ := settled
      have row := (Written.append.1 written).1
      rw [program_ok found] at failed
      by_cases atEnd : after.current.kind = .eof
      · rw [if_pos atEnd] at failed
        cases failed
      · rw [if_neg atEnd] at failed
        cases failed
        refine ⟨.of_derives row derived, .inr ⟨there, rfl⟩, fun other cursor' seen there' => ?_⟩
        obtain ⟨after', again, is⟩ := Lexed.ofLexed_of_view seen there
        cases found' : programText cursor' with
        | error error place => nomatch found' ▸ alike other cursor' seen there'
        | ok program' last =>
            cases found' ▸ alike other cursor' seen there' with
            | read again' =>
                cases again.symm.trans again'
                rw [program_ok found', is, if_neg atEnd]
                exact ⟨_, rfl⟩

theorem size_of_ofLexed {rest : Lexed} {place : Cursor} (there : Cursor.ofLexed rest = .ok place)
    (inner : ∀ token ∈ rest.tokens, token.kind ≠ .eof) : place.size = rest.tokens.length := by
  obtain ⟨tokens, stop⟩ := rest
  cases tokens with
  | cons token tokens =>
      cases there
      exact if_neg (inner token List.mem_cons_self)
  | nil =>
      cases stop with
      | error fault => cases there
      | ok line =>
          cases there
          rfl

end Grammar

namespace Program

open Grammar

variable {source : String} {error : Error}

theorem parse_eq_error_iff :
    Program.parse source = .error error ↔
      (∃ fault, Cursor.ofLexed (Lexed.ofSource source) = .error fault ∧ error = .lexical fault) ∨
      ∃ cursor cause place, Cursor.ofLexed (Lexed.ofSource source) = .ok cursor ∧
        Grammar.program cursor = .error cause place ∧ error = .ofGrammar cause := by
  rw [Program.parse]
  cases here : Cursor.ofLexed (Lexed.ofSource source) with
  | error fault => simp [eq_comm]
  | ok cursor =>
      cases result : Grammar.program cursor with
      | ok found after => simp [result]
      | error cause place => simp [result, eq_comm]

/-- The reason for a failure is right, if the given tokens were passed and the rest is
ahead. -/
def Deserved (used : List Token) (rest : Lexed) : GrammarError → Prop
  | .lexical fault => rest.view = .error fault
  | .unexpected expected found line =>
    (∃ token, rest.view = .ok token ∧ token.kind = found ∧ token.line = line) ∧ expected ≠ [] ∧
      ∀ kind ∈ expected, Writable kind ∧ ∀ text, Lexeme kind text →
        Completes 1 DerivesText (used ++ [⟨kind, String.ofList text, lineAfter 1 used⟩])
  | .badSyntax line => ∃ token, rest.view = .ok token ∧ token.line = line

theorem Deserved.of_culprit {used : List Token} {rest : Lexed} {cause : GrammarError}
    {place : Cursor} (culprit : Culprit used rest cause place) : Deserved used rest cause := by
  have seen : Cursor.ofLexed rest = .ok place → rest.view = .ok place.current := by
    intro there
    rw [Lexed.view, there]
    rfl
  rcases culprit with blamed | ⟨there, rfl⟩
  · cases blamed with
    | lexical stops => exact stops
    | unexpected there some accepts => exact ⟨⟨_, seen there, rfl, rfl⟩, some, accepts⟩
  · exact ⟨_, seen there, rfl⟩

/-- Reading fails after the given tokens. -/
structure Stops (source : String) (used : List Token) (rest : Lexed) (cause : GrammarError) :
    Prop where
  split : Lexed.ofSource source = rest.behind used
  failure : Program.failure? source = some (used.length, cause)
  completes : Completes 1 DerivesText used
  deserved : Deserved used rest cause
  alike : ∀ other (last : Lexed), Lexed.ofSource other = last.behind used →
    last.view = rest.view → Program.parse other = .error (.ofGrammar cause)

theorem written_ofSource (source : String) : Written 1 (Lexed.ofSource source).tokens :=
  (Lexed.scan source).written.1

theorem kind_ne_eof_ofSource (source : String) :
    ∀ token ∈ (Lexed.ofSource source).tokens, token.kind ≠ .eof :=
  fun token member => kind_ne_eof (Lexed.ofSource_lexeme source token member)

/-- The first text is no token. -/
theorem stops_of_fault {fault : LexicalError}
    (here : Cursor.ofLexed (Lexed.ofSource source) = .error fault) :
    Stops source [] (Lexed.ofSource source) (.lexical fault) where
  split := rfl
  failure := by
    rw [failure?, here]
    rfl
  completes := (@programText_settles Nat 0 id).completes 1
  deserved := Lexed.ofLexed_error.1 here
  alike := by
    intro other last split seen
    rw [Lexed.behind_nil] at split
    refine parse_eq_error_iff.2 (.inl ⟨fault, ?_, rfl⟩)
    rw [Lexed.ofLexed_error, split, seen, ← Lexed.ofLexed_error, here]

/-- The number of the token at which reading fails is the number of those that were
passed. -/
theorem failure?_eq {cursor place : Cursor} {cause : GrammarError} {used : List Token}
    {rest : Lexed}
    (here : Cursor.ofLexed (Lexed.ofSource source) = .ok cursor)
    (failed : Grammar.program cursor = .error cause place)
    (split : Lexed.ofSource source = rest.behind used) (culprit : Culprit used rest cause place) :
    failure? source = some (used.length, cause) := by
  have inner := kind_ne_eof_ofSource source
  have count : (Lexed.ofSource source).tokens.length = used.length + rest.tokens.length := by
    rw [split, Lexed.behind, List.length_append]
  have passed : Cursor.ofLexed rest = .ok place →
      (Lexed.ofSource source).tokens.length - place.size = used.length := by
    intro there
    rw [split] at inner
    have innerRest := fun token member => inner token (List.mem_append_right _ member)
    rw [size_of_ofLexed there innerRest, count]
    omega
  simp only [failure?, here, failed]
  rcases culprit with blamed | ⟨there, rfl⟩
  · cases blamed with
    | lexical stops =>
        have none : rest.tokens = [] := by
          obtain ⟨tokens, stop⟩ := rest
          cases tokens with
          | nil => rfl
          | cons token tokens => cases stops
        rw [count, none]
        rfl
    | unexpected there => simp only [passed there]
  · simp only [passed there]

/-- A text that is no program has a place where reading fails. -/
theorem exists_stops (failed : Program.parse source = .error error) :
    ∃ used rest cause, error = .ofGrammar cause ∧ Stops source used rest cause := by
  rcases parse_eq_error_iff.1 failed with
    ⟨fault, here, rfl⟩ | ⟨cursor, cause, place, here, fails, rfl⟩
  · exact ⟨[], _, .lexical fault, rfl, stops_of_fault here⟩
  · obtain ⟨used, rest, split, completes, culprit, alike⟩ :=
      program_fails (written_ofSource source) here fails
    refine ⟨used, rest, cause, rfl, split, failure?_eq here fails split culprit, completes,
      .of_culprit culprit, fun other last split' seen => ?_⟩
    rw [split] at here
    obtain ⟨cursor', here', _⟩ := Lexed.ofLexed_of_view (Lexed.view_behind seen used) here
    obtain ⟨place', failed'⟩ := alike last cursor' seen here'
    exact parse_eq_error_iff.2 (.inr ⟨cursor', cause, place', split' ▸ here', failed', rfl⟩)

/-! ## The first token that cannot follow -/

namespace Stops

variable {used : List Token} {rest : Lexed} {cause : GrammarError}

theorem row_take (stops : Stops source used rest cause) :
    (Lexed.ofSource source).row.take used.length = used := by
  have starts := (Lexed.ofSource source).tokens_row
  rw [stops.split] at starts ⊢
  exact (List.prefix_iff_eq_take.1 ((List.prefix_append used rest.tokens).trans starts)).symm

theorem row_getElem? (stops : Stops source used rest cause) {token : Token}
    (seen : rest.view = .ok token) : (Lexed.ofSource source).row[used.length]? = some token := by
  rw [stops.split]
  obtain ⟨tokens, stop⟩ := rest
  cases tokens with
  | cons first tokens =>
      cases seen
      cases stop <;> simp [Lexed.row, Lexed.behind]
  | nil =>
      cases stop with
      | error fault => cases seen
      | ok line =>
          cases seen
          simp [Lexed.row, Lexed.behind]

/-- What is in view stands on the line that the passed tokens lead to. -/
theorem view_line (stops : Stops source used rest cause) :
    (∀ token, rest.view = .ok token → token.line = lineAfter 1 used) ∧
      ∀ fault, rest.view = .error fault → fault.line = lineAfter 1 used := by
  obtain ⟨written, last⟩ := (Lexed.scan source).written
  rw [stops.split] at written last
  obtain ⟨tokens, stop⟩ := rest
  cases tokens with
  | cons first tokens =>
      refine ⟨fun token seen => ?_, fun fault seen => ?_⟩
      · cases seen
        exact (Written.append.1 written).2.1
      · cases seen
  | nil =>
      rw [Lexed.behind, List.append_nil] at last
      cases stop with
      | error fault =>
          refine ⟨fun token seen => ?_, fun fault' seen => ?_⟩
          · cases seen
          · cases seen
            exact last
      | ok line =>
          refine ⟨fun token seen => ?_, fun fault seen => ?_⟩
          · cases seen
            exact last
          · cases seen

/-- Texts with the same tokens up to the failure and the same one there have the same
error. -/
theorem same_error (stops : Stops source used rest cause) {other : String}
    (agree : ∀ n ≤ used.length,
      (Lexed.ofSource other).call n = (Lexed.ofSource source).call n) :
    Program.parse other = .error (.ofGrammar cause) := by
  have inner : ∀ token ∈ used, token.kind ≠ .eof := by
    intro token member
    refine kind_ne_eof_ofSource source token ?_
    rw [stops.split]
    exact List.mem_append_left _ member
  rw [stops.split] at agree
  obtain ⟨last, split, seen⟩ := Lexed.behind_of_calls inner agree
  exact stops.alike other last split seen

/-- No program starts with the passed tokens and the one after them. -/
theorem not_viable (stops : Stops source used rest cause) {token : Token}
    (seen : rest.view = .ok token) :
    ¬ Viable ((Lexed.ofSource source).row.take (used.length + 1)) := by
  rintro ⟨other, program, read, starts⟩
  have enough : used.length < (Lexed.ofSource source).row.length :=
    (List.getElem?_eq_some_iff.1 (stops.row_getElem? seen)).1
  have agree : ∀ n ≤ used.length,
      (Lexed.ofSource other).call n = (Lexed.ofSource source).call n := by
    intro n few
    have here := List.getElem?_eq_getElem (Nat.lt_of_le_of_lt few enough)
    have there : (Lexed.ofSource other).row[n]? = (Lexed.ofSource source).row[n]? := by
      obtain ⟨more, split⟩ := starts
      rw [← split, List.getElem?_append_left, List.getElem?_take_of_lt (Nat.lt_succ_of_le few)]
      rw [List.length_take]
      omega
    rw [Lexed.call_of_row here, Lexed.call_of_row (there.trans here)]
  rw [stops.same_error agree] at read
  cases read

/-- The error of the text comes after all of its tokens. -/
theorem ending_eq (stops : Stops source used rest cause) {fault : LexicalError}
    (seen : rest.view = .error fault) :
    used.length = (Lexed.ofSource source).tokens.length ∧
      (Lexed.ofSource source).ending = .error fault := by
  rw [stops.split]
  obtain ⟨tokens, stop⟩ := rest
  cases tokens with
  | cons token tokens => cases seen
  | nil =>
      cases stop with
      | ok line => cases seen
      | error fault' =>
          cases seen
          exact ⟨by rw [Lexed.behind, List.append_nil], rfl⟩

theorem earliest (stops : Stops source used rest cause) :
    Earliest (Lexed.ofSource source) used.length cause := by
  have deserved := stops.deserved
  cases cause with
  | lexical fault => exact stops.ending_eq deserved
  | badSyntax line =>
      obtain ⟨token, seen, is⟩ := deserved
      exact ⟨⟨token, stops.row_getElem? seen, is⟩, stops.not_viable seen⟩
  | unexpected expected found line =>
      obtain ⟨⟨token, seen, isFound, isLine⟩, some, accepts⟩ := deserved
      refine ⟨⟨token, stops.row_getElem? seen, isFound, isLine⟩, stops.not_viable seen, some, ?_⟩
      intro kind member
      refine ⟨(accepts kind member).1, fun lexeme reads => ?_⟩
      rw [stops.row_take, ← isLine, stops.view_line.1 token seen]
      exact ((accepts kind member).2 lexeme reads).viable

/-- The line of the error is the one that the passed tokens lead to. -/
theorem line_eq (stops : Stops source used rest cause) : cause.line = lineAfter 1 used := by
  have deserved := stops.deserved
  cases cause with
  | lexical fault => exact stops.view_line.2 fault deserved
  | badSyntax line =>
      obtain ⟨token, seen, rfl⟩ := deserved
      exact stops.view_line.1 token seen
  | unexpected expected found line =>
      obtain ⟨⟨token, seen, _, rfl⟩, _⟩ := deserved
      exact stops.view_line.1 token seen

end Stops

/-- **The error of a text is the earliest one,** and what it expects could have been there.
The tokens before it start some program, and with the token at which reading fails they
start none. Texts that agree so far have the same error. -/
theorem parse_error_earliest (failed : Program.parse source = .error error) :
    ∃ k cause, failure? source = some (k, cause) ∧ error = .ofGrammar cause ∧
      Viable ((Lexed.ofSource source).row.take k) ∧ Earliest (Lexed.ofSource source) k cause ∧
      ∀ other, (∀ n ≤ k, (Lexed.ofSource other).call n = (Lexed.ofSource source).call n) →
        Program.parse other = .error error := by
  obtain ⟨used, rest, cause, rfl, stops⟩ := exists_stops failed
  refine ⟨used.length, cause, stops.failure, rfl, ?_, stops.earliest, fun other => stops.same_error⟩
  rw [stops.row_take]
  exact stops.completes.viable

/-- A text with open brackets inside a loop. -/
def unclosed : String :=
  "PROGRAM p\nBEGIN\nWHILE NOT (a[1 + -(2 * b) < c DO\nPRINT 'x'\nENDWHILE\nEND\n"

theorem unclosed_error_earliest :
    ∃ error, Program.parse unclosed = .error error ∧
      failure? unclosed =
        some (20, .unexpected [.mark .rightBracket] (.keyword .DO) 3) ∧
      Viable ((Lexed.ofSource unclosed).row.take 20) ∧
      ¬ Viable ((Lexed.ofSource unclosed).row.take 21) ∧
      ∀ lexeme, Lexeme (.mark .rightBracket) lexeme →
        Viable ((Lexed.ofSource unclosed).row.take 20 ++
          [⟨.mark .rightBracket, String.ofList lexeme, 3⟩]) := by
  have fails : (Program.parse unclosed).isOk = false := by decide +kernel
  have known : failure? unclosed =
      some (20, .unexpected [.mark .rightBracket] (.keyword .DO) 3) := by decide +kernel
  cases found : Program.parse unclosed with
  | ok program =>
      rw [found] at fails
      cases fails
  | error error =>
      obtain ⟨k, cause, failure, _, viable, earliest, _⟩ := parse_error_earliest found
      cases known.symm.trans failure
      obtain ⟨_, notViable, _, accepts⟩ := earliest
      exact ⟨error, rfl, known, viable, notViable,
        (accepts (.mark .rightBracket) List.mem_cons_self).2⟩

end Program

end Pseudocode
