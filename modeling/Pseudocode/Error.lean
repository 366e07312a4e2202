import Pseudocode.Error.Grammatical
import Pseudocode.Error.Runtime

/-!
# Errors

Whatever stops a program comes from one of three stages: reading tokens, reading
the grammar, or running. An error in a token that surfaces while the grammar is
read belongs to the first stage.
-/

set_option autoImplicit false

namespace Pseudocode

/-- The first failure of a program, by stage. -/
inductive Error where
  | lexical (error : LexicalError)
  | grammar (error : GrammarError)
  | runtime (error : RuntimeError)
deriving DecidableEq

namespace Error

/-- An error of the grammar under the stage it belongs to. -/
def ofGrammar : GrammarError → Error
  | .lexical error => lexical error
  | error => grammar error

/-- The number of the error. -/
def code : Error → Nat
  | lexical error => error.code
  | grammar error => error.code
  | runtime error => error.code

/-- The line where the error was found. Errors of a run have none. -/
def line? : Error → Option Nat
  | lexical error => some error.line
  | grammar error => some error.line
  | runtime _ => none

/-- The full message. -/
def message : Error → String
  | lexical error => error.message
  | grammar error => error.message
  | runtime error => error.message

end Error

end Pseudocode
