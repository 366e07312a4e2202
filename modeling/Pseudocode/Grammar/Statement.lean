import Pseudocode.Grammar.Expression

/-!
# The grammar of statements

```text
block     := (statement lineEnd)*
statement := LET name ([ expression ])? = expression
           | PRINT expression (, expression)*
           | IF expression THEN lineEnd block (ELSE lineEnd block)? ENDIF
           | WHILE expression DO lineEnd block ENDWHILE
           | FOR name FROM expression TO expression (STEP expression)? lineEnd block ENDFOR
           | REPEAT UNTIL expression lineEnd block ENDREPEAT
           | SWITCH expression lineEnd (CASE expression : lineEnd block)*
               (DEFAULT : lineEnd block)? ENDSWITCH
           | RESIZE name TO expression
```

A block goes up to a word that can close it. As with primaries, each form of
statement is a rule on top of the rule for the statements inside it.
-/

set_option autoImplicit false

namespace Pseudocode.Grammar

open Parse

/-- The words that a statement starts with. -/
def statementStart : List Kind :=
  [.keyword .LET, .keyword .PRINT, .keyword .IF, .keyword .WHILE, .keyword .FOR, .keyword .REPEAT,
    .keyword .SWITCH, .keyword .RESIZE]

/-- Statements, one a line, up to one of the given words or the end of the
text. -/
def block (statement : Parse Stmt) (closing : List Keyword) : Parse (List Stmt) := do
  let statements ← loop (outside (.eof :: closing.map Kind.keyword))
    (fun found _ => do
      let next ← statement
      lineEnd
      return found.push next)
    #[]
  return statements.toList

/-- A block on the next lines, and the word that closes it. -/
def bodyUpTo (statement : Parse Stmt) (closing : Keyword) : Parse (List Stmt) := do
  lineEnd
  let body ← block statement [closing]
  word closing
  return body

/-- Writing a variable or an element. -/
def assignment : Parse Stmt := do
  let name ← identifier
  let index ← index?
  mark .assign
  let value ← expression
  match index with
  | some index => return .assignAt name index value
  | none => return .assign name value

/-- Printing at least one value. -/
def printing : Parse Stmt := do
  let first ← expression
  let values ← loop (among [.mark .comma])
    (fun found _ => do
      let _ ← advance
      return found.push (← expression))
    #[first]
  return .print values.toList

/-- A choice by a condition. -/
def branching (statement : Parse Stmt) : Parse Stmt := do
  let condition ← expression
  word .THEN
  lineEnd
  let yes ← block statement [.ELSE, .ENDIF]
  let no ← following? (.keyword .ELSE) do
    lineEnd
    block statement [.ENDIF]
  word .ENDIF
  return .branch condition yes no

/-- A loop as long as a condition holds. -/
def whileLooping (statement : Parse Stmt) : Parse Stmt := do
  let condition ← expression
  word .DO
  let body ← bodyUpTo statement .ENDWHILE
  return .whileLoop condition body

/-- A loop that counts. Without a step it counts by one. -/
def forLooping (statement : Parse Stmt) : Parse Stmt := do
  let name ← identifier
  word .FROM
  let first ← expression
  word .TO
  let last ← expression
  let step ← following? (.keyword .STEP) expression
  let body ← bodyUpTo statement .ENDFOR
  return .forLoop name first last (step.getD (.literal (.integer .one))) body

/-- A loop until a condition holds. -/
def repeatLooping (statement : Parse Stmt) : Parse Stmt := do
  word .UNTIL
  let condition ← expression
  let body ← bodyUpTo statement .ENDREPEAT
  return .repeatLoop condition body

/-- One case of a choice by value, after its first word. -/
def caseArm (statement : Parse Stmt) : Parse (Expr × List Stmt) := do
  let value ← expression
  mark .colon
  lineEnd
  let body ← block statement [.CASE, .DEFAULT, .ENDSWITCH]
  return (value, body)

/-- A choice by value. -/
def switching (statement : Parse Stmt) : Parse Stmt := do
  let scrutinee ← expression
  lineEnd
  let cases ← loop (among [.keyword .CASE])
    (fun found _ => do
      let _ ← advance
      return found.push (← caseArm statement))
    #[]
  let otherwise ← following? (.keyword .DEFAULT) do
    mark .colon
    lineEnd
    block statement [.ENDSWITCH]
  word .ENDSWITCH
  return .switch scrutinee cases.toList otherwise

/-- Changing the length of an array. -/
def resizing : Parse Stmt := do
  let name ← identifier
  word .TO
  let size ← expression
  return .resize name size

/-- The rest of a statement after the word that it starts with, given the rule for
the statements inside it. -/
def statementAfter (statement : Parse Stmt) : Kind → Parse Stmt
  | .keyword .LET => assignment
  | .keyword .PRINT => printing
  | .keyword .IF => branching statement
  | .keyword .WHILE => whileLooping statement
  | .keyword .FOR => forLooping statement
  | .keyword .REPEAT => repeatLooping statement
  | .keyword .SWITCH => switching statement
  | _ => resizing

/-- A statement, given the rule for the statements inside it. -/
def statementRule (statement : Parse Stmt) : Parse Stmt := do
  let token ← expectAny statementStart
  statementAfter statement token.kind

/-- A statement. -/
def statement : Parse Stmt := recursive statementRule

end Pseudocode.Grammar
