import Pseudocode.Evaluation
import Pseudocode.Journal
import Pseudocode.Output

/-!
# Steps of a run

The state of a run is its table, its output and its journal. A step of a run
changes the state and gives a result, or stops. A run stops on an error, or
because a loop has used up the passes it was given; the state is known in either
case, so whatever was printed before stays printed.
-/

set_option autoImplicit false

namespace Pseudocode

/-- What a run changes. -/
structure State [Writer] where
  table : Table
  output : Writer.Stream
  journal : Journal

/-- Why a run stopped before its end. -/
inductive Stop where
  | failed (error : RuntimeError)
  /-- A loop was not done after the passes it was given. -/
  | unfinished
deriving DecidableEq

variable [Memory] [Writer]

/-- A step of a run. -/
abbrev Run := EStateM Stop State

/-- What a step leads to: a result or a stop, and a state. -/
abbrev Outcome (α : Type) := EStateM.Result Stop State α

namespace Run

/-- Stops with an error. -/
def fail {α : Type} (error : RuntimeError) : Run α := throw (.failed error)

/-- A result that may be an error. -/
def lift {α : Type} : Except RuntimeError α → Run α
  | .ok a => pure a
  | .error error => fail error

/-! ## The journal -/

/-- Makes a record. -/
@[inline]
def note (level : Level) (origin : Origin) (message : Unit → String) : Run Unit :=
  fun ⟨table, output, journal⟩ => .ok () ⟨table, output, journal.add level origin message⟩

/-- Makes a record of every expression that the value of an expression needs. -/
def noteVisits (expr : Expr) : Run Unit := fun ⟨table, output, journal⟩ =>
  if journal.keeps .trace then
    let journal := (expr.visited table).foldl
      (fun journal visited =>
        journal.add .trace .expression fun _ => s!"eval {visited.category}")
      journal
    .ok () ⟨table, output, journal⟩
  else .ok () ⟨table, output, journal⟩

/-! ## Reading -/

/-- The value of an expression. -/
def eval (expr : Expr) : Run Value := do
  noteVisits expr
  lift (expr.eval (← get).table)

/-- Whether a condition holds. -/
def test (condition : Expr) : Run Bool := do
  lift (← eval condition).condition

/-- The position that an index stands for. -/
def index (expr : Expr) : Run Integer := do
  lift (← eval expr).index

/-- The symbol of a name. -/
def symbol (name : String) : Run Symbol := do
  lift ((← get).table.get name)

/-- The values of expressions, in order. -/
def evalAll : List Expr → Run (List Value)
  | [] => pure []
  | expr :: rest => do
    let value ← eval expr
    let values ← evalAll rest
    return value :: values

/-! ## Writing -/

/-- Takes a step in the table. -/
def update {α : Type} (operation : Update α) : Run α := fun ⟨table, output, journal⟩ =>
  match operation table with
  | .ok a table => .ok a ⟨table, output, journal⟩
  | .error error table => .error (.failed error) ⟨table, output, journal⟩

/-- Declares a name. -/
def declare (name : String) (symbol : Symbol) : Run Unit := do
  update (.declare name symbol)
  note .trace .table fun _ => s!"declare {name}: {symbol.typeText}"

/-- Writes a variable. -/
def assign (name : String) (value : Value) : Run Unit := update (.assign name value)

/-- Writes an element of an array. -/
def assignAt (name : String) (index : Integer) (value : Value) : Run Unit :=
  update (.assignAt name index value)

/-- Changes the length of an array. -/
def resize (name : String) (size : Value) : Run Unit := do
  let (old, new) ← update (.newLength name size)
  note .trace .table fun _ => s!"resize {name}: {old} -> {new}"
  update (.setLength name old new)

/-! ## Printing -/

/-- Asks the writer for something. -/
def ask (request : Writer.Stream → Except String Unit × Writer.Stream) : Run Unit :=
  fun ⟨table, output, journal⟩ =>
    match request output with
    | (.ok (), output) => .ok () ⟨table, output, journal⟩
    | (.error reason, output) => .error (.failed (.output reason)) ⟨table, output, journal⟩

/-- Prints a text. -/
def put (text : String) : Run Unit := ask fun output => Writer.write output text

/-- Prints a line. Its end is a text of its own. -/
def print (line : String) : Run Unit := do
  put line
  put "\n"

/-- Hands over everything that was printed. -/
def flush : Run Unit := ask Writer.flush

end Run

end Pseudocode
