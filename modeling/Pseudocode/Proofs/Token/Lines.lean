import Pseudocode.Proofs.Token.Scan

/-!
# Texts on later lines

The tokens of a text do not depend on the line where it starts, except for their own lines
(`Lexer.lexFrom_later`). The same holds of the tokens behind a fault (`Cursor.resume_later`).
-/

set_option autoImplicit false

namespace Pseudocode

/-! ## Later lines -/

/-- The same token on a later line. -/
def Token.later (lines : Nat) (token : Token) : Token := { token with line := token.line + lines }

/-- The same error on a later line. -/
def LexicalError.later (lines : Nat) (error : LexicalError) : LexicalError :=
  { error with line := error.line + lines }

/-- The same end of a text or fault in it on a later line. -/
def Lexed.stopLater (lines : Nat) : Except Break Nat → Except Break Nat
  | .ok line => .ok (line + lines)
  | .error fault => .error ⟨fault.error.later lines, fault.behind⟩

/-- The same tokens on later lines. -/
def Lexed.later (lines : Nat) (lexed : Lexed) : Lexed :=
  ⟨lexed.tokens.map (Token.later lines), stopLater lines lexed.stop⟩

/-- The same place on a later line. -/
def Cursor.later (lines : Nat) (cursor : Cursor) : Cursor :=
  ⟨cursor.current.later lines, cursor.rest.map (Token.later lines),
    Lexed.stopLater lines cursor.stop⟩

theorem Cursor.ofLexed_later {lexed : Lexed} {cursor : Cursor} (lines : Nat)
    (there : ofLexed lexed = .ok cursor) :
    ofLexed (lexed.later lines) = .ok (cursor.later lines) := by
  obtain ⟨tokens, stop⟩ := lexed
  cases tokens with
  | cons token rest =>
      cases there
      rfl
  | nil =>
      cases stop with
      | error fault => cases there
      | ok line =>
          cases there
          rfl

theorem Cursor.ofLexed_later_error {lexed : Lexed} {error : LexicalError} (lines : Nat)
    (there : ofLexed lexed = .error error) :
    ofLexed (lexed.later lines) = .error (error.later lines) := by
  obtain ⟨tokens, stop⟩ := lexed
  cases tokens with
  | cons token rest => cases there
  | nil =>
      cases stop with
      | ok line => cases there
      | error fault =>
          cases there
          rfl

/-! ## Scanning -/

namespace Lexer

namespace Scan

variable {line : Nat} {text : List Char} {lexed : Lexed}

/-- A text is scanned in only one way. -/
theorem eq_lexFrom (scan : Scan line text lexed) : lexed = lexFrom 0 line text := by
  induction scan with
  | ended atEnd => rw [lexFrom_ended _ atEnd]
  | fault here found => rw [lexFrom_fault _ here found]
  | token here found split later ih => rw [lexFrom_lexeme _ here found split, ih]

theorem later (scan : Scan line text lexed) (lines : Nat) :
    Scan (line + lines) text (lexed.later lines) := by
  induction scan with
  | ended atEnd => exact .ended atEnd
  | fault here found => exact .fault here found
  | token here found split _ ih =>
      rw [Nat.add_right_comm] at ih
      exact .token here found split ih

/-- The first token is on the line where the text starts. -/
theorem view_line (scan : Scan line text lexed) {token : Token} (seen : lexed.view = .ok token) :
    token.line = line := by
  cases scan with
  | ended atEnd =>
      cases seen
      rfl
  | fault here found => cases seen
  | token here found split later =>
      cases seen
      rfl

end Scan

theorem lexFrom_later (line lines : Nat) (text : List Char) :
    lexFrom 0 (line + lines) text = (lexFrom 0 line text).later lines := by
  have scan := (scan_lexFrom line text).later lines
  exact scan.eq_lexFrom.symm

end Lexer

/-- Reading goes on behind a fault in the same way on a later line. -/
theorem Cursor.resume_later (lines : Nat) (cursor : Cursor) :
    (cursor.later lines).resume = cursor.resume.later lines := by
  obtain ⟨current, rest, stop⟩ := cursor
  cases rest with
  | cons token rest => rfl
  | nil =>
      cases stop with
      | ok line => rfl
      | error fault =>
          have behind := Lexer.lexFrom_later fault.error.line lines fault.behind
          simp only [later, resume, List.map_nil, Lexed.stopLater, LexicalError.later, behind]
          rfl

end Pseudocode
