import Pseudocode.Error.Grammatical
import Pseudocode.Token.Lexer

/-!
# A place among the tokens

A program is read from left to right with one token in view. A `Cursor` is that
token together with what follows it. A rule of the grammar is a `Parse`: it
either gives a result and a later place, or an error and the place where it
happened. The place is kept in both cases, since reading may go on from there.

Moving on asks for the next token first. When that token cannot be read the
token in view stays there, but reading goes on behind the fault.
-/

set_option autoImplicit false

namespace Pseudocode

/-- The token in view, those after it, and what stops them. -/
structure Cursor where
  current : Token
  rest : List Token
  stop : Except Break Nat

namespace Cursor

/-- The place on the first of the given tokens. -/
def ofLexed (lexed : Lexed) : Except LexicalError Cursor :=
  match lexed.tokens, lexed.stop with
  | token :: rest, stop => .ok ⟨token, rest, stop⟩
  | [], .ok line => .ok ⟨.eof line, [], .ok line⟩
  | [], .error fault => .error fault.error

/-- The place one token further on. After the last token comes the end of the
text, for ever. -/
def next (cursor : Cursor) : Except LexicalError Cursor :=
  ofLexed ⟨cursor.rest, cursor.stop⟩

/-- The place after the next token could not be read. The same token is in view,
and those behind the fault come after it. -/
def resume (cursor : Cursor) : Cursor :=
  match cursor.rest, cursor.stop with
  | [], .error fault =>
    let later := Lexer.lexFrom 0 fault.error.line fault.behind
    ⟨cursor.current, later.tokens, later.stop⟩
  | _, _ => cursor

/-- The number of tokens from the one in view to the end of the text or the next
fault. -/
def size (cursor : Cursor) : Nat :=
  if cursor.current.kind = .eof then 0 else cursor.rest.length + 1

/-- Moving on from a token before the end leaves fewer tokens. -/
theorem size_lt_of_next {cursor after : Cursor} (before : cursor.current.kind ≠ .eof)
    (moved : cursor.next = .ok after) : after.size < cursor.size := by
  obtain ⟨current, rest, stop⟩ := cursor
  have positive : size ⟨current, rest, stop⟩ = rest.length + 1 := if_neg before
  rw [positive]
  cases rest with
  | nil =>
    cases stop with
    | error fault => simp [next, ofLexed] at moved
    | ok line =>
      simp only [next, ofLexed, Except.ok.injEq] at moved
      subst moved
      simp [size, Token.eof]
  | cons token rest =>
    simp only [next, ofLexed, Except.ok.injEq] at moved
    subst moved
    by_cases ends : token.kind = .eof <;> simp [size, ends]

/-- A list that is longer than the tokens ahead. It serves as a counter for
loops and nesting, which end before it does. -/
def allowance (cursor : Cursor) : List Token :=
  cursor.current :: cursor.current :: cursor.rest

/-- The allowance outlasts the tokens. -/
theorem size_lt_length_allowance (cursor : Cursor) : cursor.size < cursor.allowance.length := by
  by_cases ends : cursor.current.kind = .eof <;> simp [size, allowance, ends]

end Cursor

/-- A rule of the grammar. -/
abbrev Parse := EStateM GrammarError Cursor

namespace Parse

variable {α β : Type}

/-! ## One token -/

/-- The token in view. -/
def current : Parse Token := fun cursor => .ok cursor.current cursor

/-- The kind of the token in view. -/
def kind : Parse Kind := fun cursor => .ok cursor.current.kind cursor

/-- Moves on, and gives the token that was in view. -/
def advance : Parse Token := fun cursor =>
  match cursor.next with
  | .ok after => .ok cursor.current after
  | .error error => .error (.lexical error) cursor.resume

/-- Fails at the token in view, which is of none of the given kinds. -/
def unexpected (expected : List Kind) : Parse α := fun cursor =>
  .error (.unexpected expected cursor.current.kind cursor.current.line) cursor

/-- Fails at the token in view, where nothing more may stand. -/
def badSyntax : Parse α := fun cursor => .error (.badSyntax cursor.current.line) cursor

/-- Moves past a token of one of the given kinds. -/
def expectAny (expected : List Kind) : Parse Token := do
  if (← kind) ∈ expected then advance else unexpected expected

/-- Moves past a token of the given kind. -/
def expect (expected : Kind) : Parse Token := expectAny [expected]

/-- Moves past a keyword. -/
def word (keyword : Keyword) : Parse Unit := discard (expect (.keyword keyword))

/-- Moves past a mark. -/
def mark (mark : Mark) : Parse Unit := discard (expect (.mark mark))

/-- Moves past a name. -/
def identifier : Parse String := do
  return (← expect .identifier).lexeme

/-- What a rule finds after a token of the given kind, if there is such a
token. -/
def following? (opening : Kind) (rule : Parse α) : Parse (Option α) := do
  if (← kind) = opening then
    let _ ← advance
    return some (← rule)
  else
    return none

/-! ## Loops and nesting

A loop goes on as long as the kind of the token in view tells it to, and each
round moves on by at least one token. A rule that contains itself moves on before
it does so. Both are therefore bounded by the tokens ahead. -/

/-- At most as many rounds as the counter has entries. -/
def rounds (more : Kind → Option β) (step : α → β → Parse α) : List Token → α → Parse α
  | [], _ => badSyntax
  | _ :: counter, a => do
    match more (← kind) with
    | some b => rounds more step counter (← step a b)
    | none => return a

/-- Repeats a step from a first result on as long as the token in view asks for
it. -/
def loop (more : Kind → Option β) (step : α → β → Parse α) (a : α) : Parse α := fun cursor =>
  rounds more step cursor.allowance a cursor

/-- Repeats on tokens of the given kinds. -/
def among (kinds : List Kind) (kind : Kind) : Option Unit :=
  if kind ∈ kinds then some () else none

/-- Repeats on tokens of all but the given kinds. -/
def outside (kinds : List Kind) (kind : Kind) : Option Unit :=
  if kind ∈ kinds then none else some ()

/-- A rule inside itself, at most as deep as the counter has entries. -/
def nested (rule : Parse α → Parse α) : List Token → Parse α
  | [] => badSyntax
  | _ :: counter => rule (nested rule counter)

/-- The rule that contains itself. -/
def recursive (rule : Parse α → Parse α) : Parse α := fun cursor =>
  nested rule cursor.allowance cursor

/-! ## Ends of lines -/

/-- Moves past blank lines. -/
def blankLines : Parse Unit :=
  loop (among [.newline]) (fun _ _ => discard advance) ()

/-- Moves past the end of a line and the blank lines after it. -/
def lineEnd : Parse Unit := do
  discard (expect .newline)
  blankLines

end Parse

end Pseudocode
