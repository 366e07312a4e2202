import Pseudocode.Error
import Pseudocode.Grammar.Statement

/-!
# The grammar of programs

```text
program  := blankLines PROGRAM name lineEnd declare BEGIN lineEnd block END blankLines
declare  := (CONSTANTS lineEnd (constant lineEnd)*)? (VARIABLES lineEnd (group lineEnd)*)?
constant := name = expression
group    := name (, name)* : type ([ expression ])?
```

Nothing may follow a program. `Grammar.program` reads one from a place among
tokens and says where it stopped; `Program.parse` reads a whole text.
-/

set_option autoImplicit false

namespace Pseudocode

namespace Grammar

open Parse

/-- The words for the types of variables. -/
def typeWords : List Kind :=
  [.keyword .INTEGER, .keyword .FLOAT, .keyword .CHARACTER, .keyword .STRING, .keyword .BOOLEAN]

/-- The type that a word stands for. -/
def typeOfWord : Kind → DataType
  | .keyword .FLOAT => .float
  | .keyword .CHARACTER => .character
  | .keyword .STRING => .string
  | .keyword .BOOLEAN => .boolean
  | _ => .integer

/-- The type of variables. -/
def typeName : Parse DataType := do
  let token ← expectAny typeWords
  return typeOfWord token.kind

/-- A constant and its value. -/
def constant : Parse Constant := do
  let name ← identifier
  mark .assign
  let value ← expression
  return ⟨name, value⟩

/-- Variables of one type and size. -/
def variableGroup : Parse (List Variable) := do
  let first ← identifier
  let names ← loop (among [.mark .comma])
    (fun found _ => do
      let _ ← advance
      return found.push (← identifier))
    #[first]
  mark .colon
  let type ← typeName
  let size ← index?
  return names.toList.map fun name => ⟨name, type, size⟩

/-- The section of the constants, if there is one. -/
def constantSection : Parse (List Constant) := do
  let found ← following? (.keyword .CONSTANTS) do
    lineEnd
    loop (outside [.keyword .VARIABLES, .keyword .BEGIN])
      (fun found _ => do
        let next ← constant
        lineEnd
        return found.push next)
      #[]
  return (found.getD #[]).toList

/-- The section of the variables, if there is one. -/
def variableSection : Parse (List Variable) := do
  let found ← following? (.keyword .VARIABLES) do
    lineEnd
    loop (outside [.keyword .BEGIN])
      (fun found _ => do
        let next ← variableGroup
        lineEnd
        return found ++ next.toArray)
      #[]
  return (found.getD #[]).toList

/-- Everything that a program declares. -/
def declarations : Parse Declarations := do
  let constants ← constantSection
  let groups ← variableSection
  return ⟨constants, groups⟩

/-- A program with the blank lines around it. -/
def programText : Parse Program := do
  blankLines
  word .PROGRAM
  let name ← identifier
  lineEnd
  let declarations ← declarations
  word .BEGIN
  lineEnd
  let body ← block statement [.END]
  word .END
  blankLines
  return ⟨name, declarations, body⟩

/-- A program that nothing follows. -/
def program : Parse Program := do
  let program ← programText
  if (← kind) = .eof then return program else badSyntax

end Grammar

/-- Reads a whole text as a program. -/
def Program.parse (source : String) : Except Error Program :=
  match Cursor.ofLexed (.ofSource source) with
  | .error error => .error (.lexical error)
  | .ok cursor =>
    match Grammar.program cursor with
    | .ok program _ => .ok program
    | .error error _ => .error (.ofGrammar error)

end Pseudocode
