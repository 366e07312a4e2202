import Pseudocode.DataType
import Pseudocode.Number.Integer

/-!
# Errors of a run

Everything that can go wrong once a program has been read. Each error is a
cause with what is needed to describe it; `RuntimeError.message` is the one
place where the wording stands, and `RuntimeError.code` numbers the causes from
200 on.
-/

set_option autoImplicit false

namespace Pseudocode

/-- The reason why a run stopped. -/
inductive RuntimeError where
  /-- The name was never declared. -/
  | notDeclared (name : String)
  /-- The name was declared before. -/
  | alreadyDeclared (name : String)
  /-- An operator does not take operands of these types, or a condition is
  neither true nor false. -/
  | invalidExpression
  /-- A constant was to be written. -/
  | constantMutation (name : String)
  /-- A variable, or an element named with its index, was read before it was
  written. -/
  | unassigned (name : String)
  /-- A value does not have the type of the variable that was to hold it. -/
  | typeMismatch (name : String) (found declared : DataType)
  /-- The variable or a bound of a counting loop is not an integer. -/
  | invalidLoopType (found : DataType)
  /-- The size of an array is no positive integer, or there is no room. -/
  | invalidArraySize
  /-- There is no element at this index. -/
  | indexOutOfBounds (index : Integer)
  /-- The variable has no elements. -/
  | notAnArray (name : String)
  /-- The variable has elements and no value of its own. -/
  | isAnArray (name : String)
  /-- An index is not an integer. -/
  | indexNotInteger
  /-- A result left the range of the integers. -/
  | overflow
  /-- An integer was divided by zero. -/
  | divisionByZero
  /-- The output took no more, for the reason given. -/
  | output (details : String)
deriving DecidableEq

namespace RuntimeError

/-- The number of the error. -/
def code : RuntimeError → Nat
  | notDeclared _ => 200
  | alreadyDeclared _ => 201
  | invalidExpression => 202
  | constantMutation _ => 203
  | unassigned _ => 204
  | typeMismatch .. => 205
  | invalidLoopType _ => 206
  | invalidArraySize => 207
  | indexOutOfBounds _ => 208
  | notAnArray _ => 209
  | isAnArray _ => 210
  | indexNotInteger => 211
  | overflow => 212
  | divisionByZero => 213
  | output _ => 214

/-- What happened, in words. -/
def description : RuntimeError → String
  | notDeclared name => s!"Variable {name} not declared"
  | alreadyDeclared name => s!"Variable {name} already declared"
  | invalidExpression => "Invalid expression"
  | constantMutation name => s!"Cannot change constant {name}"
  | unassigned name => s!"Variable {name} has no assigned value"
  | typeMismatch name found declared =>
    s!"Cannot assign type {found.name} to variable {name} of type {declared.name}"
  | invalidLoopType found => s!"Can only loop using INT_TYPE, found {found.name}"
  | invalidArraySize => "Array size must be an INT_TYPE and greater than 0"
  | indexOutOfBounds index => s!"Index {index.text} is out of bounds"
  | notAnArray name => s!"Variable {name} is not an ARRAY"
  | isAnArray name => s!"Variable {name} is an ARRAY"
  | indexNotInteger => "Index must be an INT_TYPE"
  | overflow => "Integer overflow"
  | divisionByZero => "Division by zero"
  | output details => s!"Could not write output: {details}"

/-- The full message. -/
def message (error : RuntimeError) : String :=
  s!"[INTERPRETING ERROR] {error.description}."

end RuntimeError

/-- A result that must be there: its absence is the given error. -/
def demand {α : Type} (result : Option α) (error : RuntimeError) : Except RuntimeError α :=
  match result with
  | some a => .ok a
  | none => .error error

@[simp]
theorem demand_some {α : Type} (a : α) (error : RuntimeError) : demand (some a) error = .ok a := rfl

@[simp]
theorem demand_none {α : Type} (error : RuntimeError) :
    demand (none : Option α) error = .error error := rfl

end Pseudocode
