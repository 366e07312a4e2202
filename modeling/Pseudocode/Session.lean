import Pseudocode.Execution
import Pseudocode.Grammar.Program
import Pseudocode.Text.Quoted

/-!
# Sessions

A session holds a place among the tokens of a text and the state of its runs.
It can read and run the program at its place, and it can run statements and
compute expressions in its state.

Reading goes on from where it stopped. After an error in the grammar that is the
token at fault; after a text that is no token it is what stands behind that text,
with the token before it still in view; after a program has been read it is the
end of the text.
-/

set_option autoImplicit false

namespace Pseudocode

/-- How something that a session was asked to do has ended. -/
inductive Ending where
  | success
  | failure (error : Error)
  /-- A loop was not done after the passes it was given. -/
  | unfinished
deriving DecidableEq

/-- A place in a text, and the state of the runs so far. -/
structure Session [Writer] where
  cursor : Cursor
  state : State

namespace Journal

/-- Records a token that came into view. The end of the text is not recorded. -/
def addToken (journal : Journal) (token : Token) : Journal :=
  if token.kind = .eof then journal
  else
    journal.add .trace .token fun _ =>
      s!"line {token.line}: {token.kind.name} {Quoted.encode token.lexeme}"

end Journal

namespace Cursor

/-- The length of the text from the next fault on, if there is one. -/
def unread (cursor : Cursor) : Nat :=
  match cursor.stop with
  | .ok _ => 0
  | .error fault => fault.behind.length + 1

/-- The tokens that came into view on the way from one place to a later one, up to
the first fault. -/
def passed (first last : Cursor) : List Token :=
  if last.unread < first.unread then first.rest
  else first.rest.take (first.rest.length - last.rest.length)

end Cursor

namespace Session

variable [Memory] [Writer]

/-- The session at the beginning of a text. The first token has to be readable. -/
def ofSource (source : String) (output : Writer.Stream) (journal : Journal) :
    Except LexicalError Session := do
  let cursor ← Cursor.ofLexed (.ofSource source)
  return ⟨cursor, ⟨.empty, output, journal.addToken cursor.current⟩⟩

/-- The session with the tokens in its journal that were read up to a place. -/
def moveTo (session : Session) (cursor : Cursor) : Session :=
  let journal := (session.cursor.passed cursor).foldl Journal.addToken session.state.journal
  ⟨cursor, { session.state with journal }⟩

/-- Takes a step in the state of a session. -/
def step (session : Session) (run : Run Unit) : Ending × Session :=
  match run session.state with
  | .ok _ state => (.success, { session with state })
  | .error (.failed error) state => (.failure (.runtime error), { session with state })
  | .error .unfinished state => (.unfinished, { session with state })

/-- Runs statements in order, up to the first error. -/
def execute (session : Session) (patience : Nat) (statements : List Stmt) : Ending × Session :=
  session.step (execAll patience statements)

/-- The value of an expression. -/
def evaluate (session : Session) (expr : Expr) : Except RuntimeError Value :=
  expr.eval session.state.table

/-- Reads the program at the place of the session and runs it. -/
def interpret (session : Session) (patience : Nat) : Ending × Session :=
  match Grammar.program session.cursor with
  | .error error cursor => (.failure (.ofGrammar error), session.moveTo cursor)
  | .ok program cursor =>
    (session.moveTo cursor).step do
      Run.note .debug .grammar fun _ =>
        s!"parsed program '{program.name}' with {program.body.length} top-level statements"
      program.exec patience

/-- A number of passes that no loop uses up in practice. -/
def ample : Nat := Nat.pow 2 62

end Session

end Pseudocode
