import Pseudocode.Proofs.Grammar.Resumption
import Pseudocode.Proofs.Run.Footprint
import Pseudocode.Proofs.Typing.Session

/-!
# Asking again

A session can be asked any number of times to read a program and run it. A call that finds
no program leaves the table and the output alone. If it fails at a token it rests there, and the
next call reads from this token on as if the text began there, whatever faults were passed over
before. Once a program was found the place is at the end of the text, and every later call fails
there and changes nothing. So a session runs at most one program (`Session.interpret_again`).
-/

set_option autoImplicit false

namespace Pseudocode

section Calls

variable [Writer]

/-- Two states that can differ in their journals only. -/
structure State.Matches (left right : State) : Prop where
  table : left.table = right.table
  output : left.output = right.output

namespace State.Matches

variable {left middle right : State}

theorem trans (first : left.Matches middle) (second : middle.Matches right) :
    left.Matches right :=
  ⟨first.table.trans second.table, first.output.trans second.output⟩

theorem with_journal (same : left.Matches right) (journal : Journal) :
    State.mk left.table left.output journal = ⟨right.table, right.output, journal⟩ := by
  rw [same.table, same.output]

end State.Matches

namespace Session

/-! ## One call -/

/-- What a session reads when it is asked for a program. -/
def reads (session : Session) : Except Error Program := Grammar.read session.cursor

/-- What a call does with what was read: it fails and leaves the table and the output alone,
or it runs the program in the state of the session. -/
def Performs [Memory] (session : Session) (patience : Nat) : Except Error Program → Prop
  | .error error => ∃ next, session.interpret patience = (.failure error, next) ∧
      next.state.Matches session.state
  | .ok program => ∃ cursor journal, session.interpret patience =
      step ⟨cursor, session.state.table, session.state.output, journal⟩ (program.exec patience)

theorem step_eq (session : Session) (run : Run Unit) :
    (session.step run).2 = ⟨session.cursor, run.after session.state⟩ := by
  rw [step, Run.after]
  cases run session.state with
  | ok _ next => rfl
  | error stop next => cases stop <;> rfl

/-- An error of a run is never one of the grammar. -/
theorem step_ne_grammar (session : Session) (run : Run Unit) (cause : GrammarError) :
    (session.step run).1 ≠ .failure (.grammar cause) := by
  intro failed
  rw [step] at failed
  cases ran : run session.state with
  | ok _ next =>
      rw [ran] at failed
      cases failed
  | error stop next =>
      rw [ran] at failed
      cases stop <;> cases failed

theorem moveTo_matches (session : Session) (cursor : Cursor) :
    (session.moveTo cursor).state.Matches session.state := ⟨rfl, rfl⟩

theorem moveTo_self (session : Session) : session.moveTo session.cursor = session := by
  rw [moveTo, Cursor.passed, if_neg (Nat.lt_irrefl _), Nat.sub_self, List.take_zero]
  rfl

section Call

variable [Memory] {session : Session} (patience : Nat)

theorem interpret_error {error : GrammarError} {place : Cursor}
    (failed : Grammar.program session.cursor = .error error place) :
    session.interpret patience = (.failure (.ofGrammar error), session.moveTo place) := by
  rw [interpret, failed]

theorem interpret_ok {program : Program} {after : Cursor}
    (found : Grammar.program session.cursor = .ok program after) :
    ∃ journal, session.interpret patience =
      step ⟨after, session.state.table, session.state.output, journal⟩ (program.exec patience) := by
  rw [interpret, found]
  exact ⟨_, rfl⟩

theorem performs (session : Session) : session.Performs patience session.reads := by
  rw [reads, Grammar.read]
  cases read : Grammar.program session.cursor with
  | error error place => exact ⟨_, interpret_error patience read, session.moveTo_matches place⟩
  | ok program after => exact ⟨after, interpret_ok patience read⟩

/-- A call that fails in the grammar has failed to read a program, at the token that the error
is about. -/
theorem refuses_of_interpret {cause : GrammarError}
    (failed : (session.interpret patience).1 = .failure (.grammar cause)) :
    ∃ place, Grammar.program session.cursor = .error cause place ∧ place.Refuses cause := by
  have rests := Grammar.program_rests session.cursor
  cases read : Grammar.program session.cursor with
  | error error place =>
      rw [read] at rests
      rw [interpret_error patience read] at failed
      refine ⟨place, ?_⟩
      cases rests with
      | fault reached stopped => cases failed
      | literal reached => cases failed
      | token reached refuses =>
          cases refuses with
          | unexpected expected =>
              cases failed
              exact ⟨rfl, .unexpected expected⟩
          | badSyntax =>
              cases failed
              exact ⟨rfl, .badSyntax⟩
  | ok program after =>
      obtain ⟨journal, called⟩ := interpret_ok patience read
      rw [called] at failed
      exact absurd failed (step_ne_grammar _ _ cause)

/-- After a program there is nothing left to read. -/
theorem ended_of_reads {program : Program} (found : session.reads = .ok program) :
    (session.interpret patience).2.cursor.current.kind = .eof := by
  rw [reads, Grammar.read] at found
  cases read : Grammar.program session.cursor with
  | error error place =>
      rw [read] at found
      cases found
  | ok program after =>
      have here : Cursor.ofLexed ⟨session.cursor.current :: session.cursor.rest,
        session.cursor.stop⟩ = .ok session.cursor := rfl
      obtain ⟨ended, _⟩ := Grammar.program_sound here read
      obtain ⟨journal, called⟩ := interpret_ok patience read
      rw [called, step_eq]
      exact ended

/-- At the end of the text a call fails and changes nothing. -/
theorem interpret_ended (ended : session.cursor.current.kind = .eof) :
    session.interpret patience = (.failure (.grammar
      (.unexpected [.keyword .PROGRAM] .eof session.cursor.current.line)), session) := by
  rw [interpret_error patience (Grammar.program_atEnd ended), moveTo_self]
  rfl

omit [Memory] in
theorem reads_ended (ended : session.cursor.current.kind = .eof) :
    session.reads = .error (.grammar
      (.unexpected [.keyword .PROGRAM] .eof session.cursor.current.line)) := by
  rw [reads, Grammar.read, Grammar.program_atEnd ended]
  rfl

end Call

/-! ## Calls in a row -/

variable [Memory]

/-- The session after calls in a row, each with its number of passes. -/
def afterCalls (session : Session) : List Nat → Session
  | [] => session
  | patience :: others => (session.interpret patience).2.afterCalls others

/-- The programs that are found by calls in a row. -/
def found (session : Session) : List Nat → List Program
  | [] => []
  | patience :: others =>
    session.reads.toOption.toList ++ (session.interpret patience).2.found others

section Ended

variable {session : Session} (ended : session.cursor.current.kind = .eof) (calls : List Nat)

include ended

theorem afterCalls_ended : session.afterCalls calls = session := by
  induction calls with
  | nil => rfl
  | cons patience others ih =>
      rw [afterCalls, interpret_ended patience ended]
      exact ih

theorem found_ended : session.found calls = [] := by
  induction calls with
  | nil => rfl
  | cons patience others ih =>
      rw [found, interpret_ended patience ended, reads_ended ended]
      exact ih

end Ended

/-- Calls in a row find no program and leave the table and the output alone, or they find
one program and do what its run does. -/
theorem found_cases (session : Session) (calls : List Nat) :
    (session.found calls = [] ∧ (session.afterCalls calls).state.Matches session.state) ∨
      ∃ program, session.found calls = [program] ∧ ∃ patience ∈ calls, ∃ journal,
        (session.afterCalls calls).state.Matches
          ((program.exec patience).after ⟨session.state.table, session.state.output, journal⟩) := by
  induction calls generalizing session with
  | nil => exact .inl ⟨rfl, rfl, rfl⟩
  | cons patience others ih =>
      have performs := session.performs patience
      rw [found, afterCalls]
      cases read : session.reads with
      | error error =>
          rw [read] at performs
          obtain ⟨next, called, same⟩ := performs
          rw [called]
          rcases ih next with ⟨none, kept⟩ | ⟨program, one, passes, member, journal, ran⟩
          · exact .inl ⟨none, kept.trans same⟩
          · rw [same.with_journal] at ran
            exact .inr ⟨program, one, passes, List.mem_cons_of_mem _ member, journal, ran⟩
      | ok program =>
          -- The place is at the end of the text, so the other calls do nothing.
          have ended := ended_of_reads patience read
          rw [read] at performs
          obtain ⟨cursor, journal, called⟩ := performs
          rw [found_ended ended, afterCalls_ended ended, called, step_eq]
          exact .inr ⟨program, rfl, patience, List.mem_cons_self, journal, rfl, rfl⟩

/-! ## New sessions -/

/-- The place of a session is one of a text, which calls for tokens lead to. -/
def StandsIn (source : String) (session : Session) : Prop :=
  ∃ found calls, session.cursor.Stands source found calls

/-- A session reads on in a text from the token that a call for tokens finds, as if the text
began there. Lines are counted in the whole text. -/
structure Resumes (source : String) (n : Nat) (before : List Char) (session : Session) :
    Prop where
  place : ∃ calls, session.cursor.Stands source n calls
  split : source.toList = before ++ (Lexer.Remainder.textFrom source n).toList
  line : session.cursor.current.kind ≠ .eof →
    session.cursor.current.line = 1 + before.count '\n'
  reads : session.reads = (Program.parse (Lexer.Remainder.textFrom source n)).mapError
    (Error.later (session.cursor.current.line - 1))

namespace StandsIn

variable {source : String} {session : Session}

theorem interpret (stands : session.StandsIn source) (patience : Nat) :
    (session.interpret patience).2.StandsIn source := by
  obtain ⟨found, calls, there⟩ := stands
  have rests := Grammar.program_rests session.cursor
  cases read : Grammar.program session.cursor with
  | error error place =>
      rw [read] at rests
      rw [interpret_error patience read]
      exact there.exists_of_rests rests
  | ok program after =>
      rw [read] at rests
      obtain ⟨journal, called⟩ := interpret_ok patience read
      rw [called, StandsIn, step_eq]
      exact there.exists_of_reaches rests

theorem afterCalls (stands : session.StandsIn source) (calls : List Nat) :
    (session.afterCalls calls).StandsIn source := by
  induction calls generalizing session with
  | nil => exact stands
  | cons patience others ih => exact ih (stands.interpret patience)

/-- After a call that fails in the grammar the text is read on from the token at fault. -/
theorem resumes (stands : session.StandsIn source) {patience : Nat} {cause : GrammarError}
    (failed : (session.interpret patience).1 = .failure (.grammar cause)) :
    (session.interpret patience).2.cursor.Refuses cause ∧
      ∃ n before, (session.interpret patience).2.Resumes source n before := by
  obtain ⟨_, _, there⟩ := stands
  obtain ⟨place, read, refuses⟩ := refuses_of_interpret patience failed
  obtain ⟨n, calls, here, same⟩ := there.exists_of_refuses read refuses
  obtain ⟨before, split, line⟩ := Lexer.Remainder.exists_before_textFrom source n
  rw [interpret_error patience read]
  exact ⟨refuses, n, before, ⟨calls, here⟩, split, line place.current here.seen, same⟩

end StandsIn

omit [Memory] in
/-- A new session stands at the first token of its text. -/
theorem standsIn_of_ofSource {source : String} {output : Writer.Stream} {journal : Journal}
    {session : Session} (opened : ofSource source output journal = .ok session) :
    session.StandsIn source ∧ session.state.Matches ⟨.empty, output, journal⟩ := by
  rw [ofSource] at opened
  cases read : Cursor.ofLexed (.ofSource source) with
  | error error =>
      rw [read] at opened
      cases opened
  | ok cursor =>
      rw [read] at opened
      cases opened
      exact ⟨⟨0, 1, .first read⟩, rfl, rfl⟩

/-- **A session that is asked again.** After any calls it stands at a place of its text that calls
for tokens lead to, and the next call does what is read there. If that call fails in the grammar
then the table and the output are as before, the place is at the token that the error is about,
and what the call after it reads is what a new session reads in the text from this token on, on
later lines. If it finds a program then all later calls fail at the end of the text and change
nothing. So all calls together find no program, or they run a single one. -/
theorem interpret_again {source : String} {output : Writer.Stream} {journal : Journal}
    {session : Session} (opened : ofSource source output journal = .ok session)
    (calls : List Nat) :
    let here := session.afterCalls calls
    here.StandsIn source ∧ (∀ patience, here.Performs patience here.reads) ∧
      (∀ patience cause, (here.interpret patience).1 = .failure (.grammar cause) →
        let next := (here.interpret patience).2
        next.state.Matches here.state ∧ next.cursor.Refuses cause ∧
          ∃ n before, next.Resumes source n before) ∧
      (∀ program, here.reads = .ok program → ∀ patience others again,
        let next := (here.interpret patience).2
        let error := Error.grammar
          (.unexpected [.keyword .PROGRAM] .eof next.cursor.current.line)
        error.message = "[PARSING ERROR] Expected PROGRAM, got EOF." ∧
          next.afterCalls others = next ∧ next.interpret again = (.failure error, next)) ∧
      ((session.found calls = [] ∧ here.state.table = .empty ∧ here.state.output = output) ∨
        ∃ program, session.found calls = [program] ∧ ∃ patience ∈ calls, ∃ journal,
          here.state.Matches ((program.exec patience).after ⟨.empty, output, journal⟩)) := by
  intro here
  obtain ⟨start, empty⟩ := standsIn_of_ofSource opened
  have stands : here.StandsIn source := start.afterCalls calls
  refine ⟨stands, fun patience => here.performs patience, fun patience cause failed => ?_,
    fun program found patience others again => ?_, ?_⟩
  · refine ⟨?_, stands.resumes failed⟩
    obtain ⟨place, read, _⟩ := refuses_of_interpret patience failed
    rw [interpret_error patience read]
    exact here.moveTo_matches place
  · have ended := ended_of_reads patience found
    exact ⟨rfl, afterCalls_ended ended others, interpret_ended again ended⟩
  · rcases session.found_cases calls with ⟨none, same⟩ | ⟨program, one, runs⟩
    · have kept := same.trans empty
      exact .inl ⟨none, kept.table, kept.output⟩
    · rw [empty.table, empty.output] at runs
      exact .inr ⟨program, one, runs⟩

end Session

end Calls

namespace Session

/-- Two beginnings of a program, of which only the second one is a program. In the first one
there is a fault. -/
def restart : String := "PROGRAM @ A\nPROGRAM B\nBEGIN\nPRINT 7\nEND\n"

/-- The first call fails at the fault and the second one at the second line. The third one runs
the program that starts there, and the fourth one fails at the end. -/
theorem restart_interpret_again :
    ∃ session, ofSource restart .unbounded .off = .ok session ∧
      (session.interpret 1).1 = .failure (.lexical ⟨.unknownToken '@', 1⟩) ∧
      (session.interpret 1).2.StandsIn restart ∧
      ((session.afterCalls [1]).interpret 1).1 =
        .failure (.grammar (.unexpected [.keyword .BEGIN] (.keyword .PROGRAM) 2)) ∧
      (∃ n before, ((session.afterCalls [1]).interpret 1).2.Resumes restart n before) ∧
      (∃ program, (session.afterCalls [1, 1]).reads = .ok program) ∧
      ((session.afterCalls [1, 1, 1]).interpret 1).1 =
        .failure (.grammar (.unexpected [.keyword .PROGRAM] .eof 6)) ∧
      (session.afterCalls [1, 1, 1, 1]).state.output.written = "7\n".toUTF8 := by
  have known : ((ofSource restart .unbounded .off).toOption.map fun session =>
      ((session.interpret 1).1, ((session.afterCalls [1]).interpret 1).1,
        (session.afterCalls [1, 1]).reads.isOk,
        (session.afterCalls [1, 1, 1]).cursor.current.line,
        (session.afterCalls [1, 1, 1]).state.output.written)) =
      some (.failure (.lexical ⟨.unknownToken '@', 1⟩),
        .failure (.grammar (.unexpected [.keyword .BEGIN] (.keyword .PROGRAM) 2)), true, 6,
        "7\n".toUTF8) := by
    decide +kernel
  cases opened : ofSource restart .unbounded .off with
  | error error =>
      rw [opened] at known
      cases known
  | ok session =>
      rw [opened] at known
      simp only [Except.toOption, Option.map_some, Option.some.injEq, Prod.mk.injEq] at known
      obtain ⟨fault, fails, isProgram, line, written⟩ := known
      obtain ⟨stands, _, failing, _⟩ := interpret_again opened [1]
      obtain ⟨_, _, resumes⟩ := failing 1 _ fails
      cases read : (session.afterCalls [1, 1]).reads with
      | error error =>
          rw [read] at isProgram
          cases isProgram
      | ok program =>
          obtain ⟨_, _, _, later, _⟩ := interpret_again opened [1, 1]
          obtain ⟨_, stays, again⟩ := later program read 1 [1] 1
          simp only [afterCalls] at line written stays again ⊢
          refine ⟨session, rfl, fault, stands, fails, resumes, ⟨program, read⟩, ?_, ?_⟩
          · rw [again, line]
          · rw [stays, written]

end Session

end Pseudocode
