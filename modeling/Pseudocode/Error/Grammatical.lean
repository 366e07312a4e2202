import Pseudocode.Error.Lexical
import Pseudocode.Token

/-!
# Errors in the grammar

A program is read token by token. Reading stops at the first token that cannot
follow the ones before it, or at a text that is no token at all.
-/

set_option autoImplicit false

namespace Pseudocode

/-- The reason why a text is no program. -/
inductive GrammarError where
  /-- The next token could not be read. -/
  | lexical (error : LexicalError)
  /-- The token that was found is of none of the expected kinds. -/
  | unexpected (expected : List Kind) (found : Kind) (line : Nat)
  /-- Something follows the end of the program. -/
  | badSyntax (line : Nat)
deriving DecidableEq

namespace GrammarError

/-- The number of the error. -/
def code : GrammarError → Nat
  | lexical error => error.code
  | unexpected .. => 100
  | badSyntax _ => 101

/-- The line of the token or text that stopped the reading. -/
def line : GrammarError → Nat
  | lexical error => error.line
  | unexpected _ _ line => line
  | badSyntax line => line

/-- The full message. -/
def message : GrammarError → String
  | lexical error => error.message
  | unexpected expected found _ =>
    let kinds := String.intercalate ", " (expected.map Kind.name)
    s!"[PARSING ERROR] Expected {kinds}, got {found.name}."
  | badSyntax _ => "[PARSING ERROR] Bad syntax."

/-- The error in a token that this error passes on. -/
def source? : GrammarError → Option LexicalError
  | lexical error => some error
  | _ => none

end GrammarError

end Pseudocode
