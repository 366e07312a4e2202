import Pseudocode.Loop

/-!
# Running programs

A program first declares its constants and variables and then runs its
statements in order, up to the first error. Every statement says what it needs
before it changes anything: a name is looked up before a value is computed, a
value is brought to the type of its variable before an index is computed, and
only then something is written.

The number `patience` bounds the passes of each single loop.
-/

set_option autoImplicit false

namespace Pseudocode

variable [Memory] [Writer]

/-- A value as a bound of a counting loop. -/
def Value.loopBound : Value → Except RuntimeError Integer
  | .integer n => .ok n
  | value => .error (.invalidLoopType value.type)

/-- A value as the length of an array. -/
def Value.arrayLength : Value → Except RuntimeError Nat
  | .integer n => n.arrayLength
  | _ => .error .invalidArraySize

namespace Run

/-- The value of an expression, brought to the type of the variable that is to
hold it. -/
def acceptable (name : String) (value : Expr) : Run Value := do
  let symbol ← symbol name
  lift (symbol.accept name (← eval value))

/-- Writes the value of an expression to a variable. -/
def assignExpr (name : String) (value : Expr) : Run Unit := do
  assign name (← acceptable name value)

/-- Writes the value of an expression to an element of an array. -/
def assignExprAt (name : String) (position value : Expr) : Run Unit := do
  let value ← acceptable name value
  assignAt name (← index position) value

/-- Prints the values of expressions on one line, with blanks between them. -/
def printAll (values : List Expr) : Run Unit := do
  let texts := (← evalAll values).map Value.render
  print (String.intercalate " " texts)

/-- Changes the length of an array to the value of an expression. -/
def resizeTo (name : String) (size : Expr) : Run Unit := do
  let _ ← symbol name
  resize name (← eval size)

/-- Statements in a row, of which the number is noted. -/
def compound (count : Nat) (statements : Run Unit) : Run Unit := do
  note .trace .statement fun _ => s!"COMPOUND of {count} statements"
  statements

/-- Counts with a variable, which has to hold integers, from the first to the
last value. -/
def count (patience : Nat) (name : String) (first last step : Expr) (body : Run Unit) :
    Run Unit := do
  let symbol ← symbol name
  if symbol.isArray then fail (.isAnArray name)
  if symbol.type ≠ .integer then fail (.invalidLoopType symbol.type)
  let first ← eval first
  let last ← eval last
  let step ← eval step
  let first ← lift first.loopBound
  let last ← lift last.loopBound
  let step ← lift step.loopBound
  note .trace .loop fun _ =>
    s!"FOR {name} from {first.text} to {last.text} step {step.text}"
  Loop.counting name last step body patience first

end Run

open Run

mutual

/-- Runs a statement. -/
def Stmt.exec (patience : Nat) (stmt : Stmt) : Run Unit := do
  note .trace .statement fun _ => s!"execute {stmt.category}"
  match stmt with
  | .assign name value => assignExpr name value
  | .assignAt name position value => assignExprAt name position value
  | .print values => printAll values
  | .branch condition yes no =>
    if ← test condition then compound yes.length (execAll patience yes)
    else
      match no with
      | some no => compound no.length (execAll patience no)
      | none => pure ()
  | .whileLoop condition body =>
    Loop.whileHolds (test condition) (compound body.length (execAll patience body)) patience
  | .repeatLoop condition body =>
    Loop.untilHolds (test condition) (compound body.length (execAll patience body)) patience
  | .forLoop name first last step body =>
    count patience name first last step (compound body.length (execAll patience body))
  | .switch scrutinee cases otherwise =>
    let value ← eval scrutinee
    execCases patience value
      (match otherwise with
        | some otherwise => compound otherwise.length (execAll patience otherwise)
        | none => pure ())
      cases
  | .resize name size => resizeTo name size

/-- Runs statements in order. -/
def execAll (patience : Nat) : List Stmt → Run Unit
  | [] => pure ()
  | stmt :: rest => do
    stmt.exec patience
    execAll patience rest

/-- Runs the first case with the same value as the scrutinee, or what is to be
run otherwise. -/
def execCases (patience : Nat) (scrutinee : Value) (otherwise : Run Unit) :
    List (Expr × List Stmt) → Run Unit
  | [] => otherwise
  | (value, body) :: rest => do
    if (← eval value).same scrutinee then
      note .trace .loop fun _ => s!"CASE {scrutinee.render} matched"
      compound body.length (execAll patience body)
    else execCases patience scrutinee otherwise rest

end

/-! ## Declarations -/

/-- Declares a constant. -/
def Constant.exec (constant : Constant) : Run Unit := do
  note .trace .statement fun _ => s!"CONSTANT {constant.name}"
  declare constant.name (.ofConstant (← eval constant.value))

/-- Declares a variable or an array. -/
def Variable.exec (var : Variable) : Run Unit := do
  note .trace .statement fun _ => s!"VARIABLE {var.name}"
  match var.size with
  | none => declare var.name (.ofVariable var.type)
  | some size =>
    let length ← lift (← eval size).arrayLength
    declare var.name (← lift (Symbol.ofArray var.type length))

/-- Declares all constants, then all variables. -/
def Declarations.exec (declarations : Declarations) : Run Unit := do
  note .trace .statement fun _ => "DECLARE section"
  declarations.constants.forM Constant.exec
  declarations.variables.forM Variable.exec

/-! ## Programs -/

/-- Runs a program. -/
def Program.exec (patience : Nat) (program : Program) : Run Unit := do
  let constants := program.declarations.constants.length
  let others := program.declarations.variables.length
  note .debug .expression fun _ =>
    s!"PROGRAM '{program.name}': declaring {constants} constants and {others} variables"
  program.declarations.exec
  compound program.body.length (execAll patience program.body)
  flush
  note .debug .expression fun _ => s!"PROGRAM '{program.name}' finished"

end Pseudocode
