import Pseudocode.Proofs.Token.Lines

/-!
# Reading on behind faults

A call for a token that comes upon a fault fails, and the next call starts behind the fault. What
calls have left of a text is a `Lexer.Remainder`. It tells what the next call gives, and the place
with some token in view before it goes on as the calls do (`Lexer.Remainder.next_place`,
`Lexer.Remainder.resume_place`).

From the token on that a call has found, a text is read as one that starts with this token
(`Lexer.Remainder.ofLexed_textFrom`).
-/

set_option autoImplicit false

namespace Pseudocode

namespace Lexer

/-- A fault takes up the front of a text. If something is left behind it then it stays on its
line. -/
theorem exists_slice {first : Char} {rest : List Char} {cause : Fault}
    (found : front first rest = .fault cause) :
    ∃ slice, first :: rest = slice ++ afterFault cause (first :: rest) ∧
      (afterFault cause (first :: rest) ≠ [] → '\n' ∉ slice) := by
  have faulty := front_faulty found
  have digits : '\n' ∉ (first :: rest).takeWhile Char.isDigit := by
    intro member
    exact absurd (of_mem_takeWhile member) (by decide)
  cases cause with
  | invalidFloat => exact ⟨_, List.takeWhile_append_dropWhile.symm, fun _ => digits⟩
  | invalidInteger => exact ⟨_, List.takeWhile_append_dropWhile.symm, fun _ => digits⟩
  | unterminatedString =>
      exact ⟨first :: rest, (List.append_nil _).symm, fun some => absurd rfl some⟩
  | invalidCharacter =>
      obtain ⟨_, same, _⟩ := faulty
      cases same
      exact ⟨['\''], rfl, fun _ => by decide⟩
  | unknownToken c =>
      obtain ⟨_, same, _, _, noPattern⟩ := faulty
      cases same
      refine ⟨[first], rfl, fun _ member => ?_⟩
      cases List.mem_singleton.1 member
      exact noPattern ['\n'] ⟨rest, rfl⟩ ⟨.newline, rfl⟩

/-! ## What is left of a text -/

/-- What calls for tokens have left of a text, and the line on which it starts. -/
structure Remainder where
  line : Nat
  text : List Char

namespace Remainder

/-- The tokens of what is left. -/
def lexed (left : Remainder) : Lexed := lexFrom 0 left.line left.text

/-- What the next call gives. -/
def answer (left : Remainder) : Except LexicalError Token := left.lexed.view

/-- What the next call leaves. It passes over the gap and over the token or the fault behind it. -/
def next (left : Remainder) : Remainder :=
  match afterGap left.text with
  | [] => ⟨left.line, []⟩
  | first :: rest =>
    match front first rest with
    | .lexeme _ lexeme =>
      ⟨left.line + lexeme.count '\n', (first :: rest).drop lexeme.length⟩
    | .fault cause => ⟨left.line, afterFault cause (first :: rest)⟩
    | .gap _ => left

/-- What so many calls leave of a text. -/
def after (source : String) : Nat → Remainder
  | 0 => ⟨1, source.toList⟩
  | n + 1 => (after source n).next

/-- The place with a token in view before what is left. -/
def place (left : Remainder) (token : Token) : Cursor :=
  ⟨token, left.lexed.tokens, left.lexed.stop⟩

/-- How a call goes. -/
inductive Call (left : Remainder) : Lexed → Remainder → Prop where
  | ended (atEnd : afterGap left.text = []) : Call left ⟨[], .ok left.line⟩ ⟨left.line, []⟩
  | fault {first : Char} {rest : List Char} {cause : Fault}
      (here : afterGap left.text = first :: rest) (found : front first rest = .fault cause) :
      Call left ⟨[], .error ⟨⟨cause, left.line⟩, afterFault cause (first :: rest)⟩⟩
        ⟨left.line, afterFault cause (first :: rest)⟩
  | token {kind : Kind} {lexeme after : List Char} (split : afterGap left.text = lexeme ++ after)
      (some : lexeme ≠ []) :
      Call left ((lexFrom 0 (left.line + lexeme.count '\n') after).push
        ⟨kind, String.ofList lexeme, left.line⟩) ⟨left.line + lexeme.count '\n', after⟩

theorem call (left : Remainder) : Call left left.lexed left.next := by
  rw [lexed, next]
  cases here : afterGap left.text with
  | nil =>
      rw [lexFrom_ended _ here]
      exact .ended here
  | cons first rest =>
      cases found : front first rest with
      | gap gap =>
          obtain ⟨notBlank, notComment⟩ := not_gap_of_afterGap here
          exact absurd found (front_ne_gap notBlank notComment)
      | fault cause =>
          rw [lexFrom_fault _ here found]
          simp only [found]
          exact .fault here found
      | lexeme kind lexeme =>
          obtain ⟨after, split⟩ := (front_longest found).inFront
          have some : lexeme ≠ [] := by
            obtain ⟨_, _, rfl, _⟩ := (front_lexeme found).front []
            nofun
          have passed : (first :: rest).drop lexeme.length = after := by
            rw [← split, List.drop_left]
          rw [lexFrom_lexeme _ here found split.symm]
          simp only [found, passed]
          exact .token (here.trans split.symm) some

/-- Going on to the next token is a call that gives one. -/
theorem next_place (left : Remainder) (token : Token) :
    (left.place token).next = left.answer.map left.next.place := by
  have step : (left.place token).next = Cursor.ofLexed left.lexed := rfl
  rw [step, answer, Lexed.view]
  have called := left.call
  generalize left.lexed = tokens at called ⊢
  generalize left.next = later at called ⊢
  cases called with
  | ended atEnd => rfl
  | fault here found => rfl
  | token split some => rfl

/-- Going on behind a fault is a call that fails. -/
theorem resume_place {left : Remainder} {error : LexicalError} (failed : left.answer = .error error)
    (token : Token) : (left.place token).resume = left.next.place token := by
  have called := left.call
  rw [answer] at failed
  rw [place]
  generalize left.lexed = tokens at called failed ⊢
  generalize left.next = later at called ⊢
  cases called with
  | ended atEnd => cases failed
  | fault here found => rfl
  | token split some => cases failed

/-- A token is on the line where the text starts that it was found in. -/
theorem line_eq_of_answer {left : Remainder} {token : Token} (seen : left.answer = .ok token) :
    token.line = left.line :=
  (scan_lexFrom left.line left.text).view_line seen

theorem line_pos (source : String) (n : Nat) : 0 < (after source n).line := by
  induction n with
  | zero => exact Nat.one_pos
  | succ n ih =>
      have called := (after source n).call
      rw [after]
      generalize (after source n).lexed = tokens at called
      generalize (after source n).next = later at called ⊢
      cases called with
      | ended atEnd => exact ih
      | fault here found => exact ih
      | token split some => exact Nat.add_pos_left ih _

/-- What calls leave is the end of the text. Its line is known from what was passed over, as long
as there is something left. -/
theorem exists_before (source : String) (n : Nat) :
    ∃ before, source.toList = before ++ (after source n).text ∧
      ((after source n).text ≠ [] → (after source n).line = 1 + before.count '\n') := by
  induction n with
  | zero => exact ⟨[], rfl, fun _ => rfl⟩
  | succ n ih =>
      obtain ⟨before, whole, line⟩ := ih
      have gap := gapOf_append_afterGap (after source n).text
      have noLine := (gap_gapOf (after source n).text).count_newline
      -- Whatever a call passes over comes after the gap.
      suffices passes : ∃ slice,
          afterGap (after source n).text = slice ++ (after source n).next.text ∧
          ((after source n).next.text ≠ [] →
            (after source n).next.line = (after source n).line + slice.count '\n') by
        obtain ⟨slice, split, further⟩ := passes
        refine ⟨before ++ (gapOf (after source n).text ++ slice), ?_, fun more => ?_⟩
        · rw [whole, List.append_assoc, List.append_assoc, after, ← split, gap]
        · have some : (after source n).text ≠ [] := by
            intro none
            rw [none, afterGap, List.drop_nil] at split
            exact more (List.append_eq_nil_iff.1 split.symm).2
          rw [after, further more, line some, List.count_append, List.count_append, noLine]
          omega
      have called := (after source n).call
      generalize (after source n).lexed = tokens at called
      generalize (after source n).next = later at called ⊢
      cases called with
      | ended atEnd => exact ⟨[], atEnd, fun more => absurd rfl more⟩
      | fault here found =>
          obtain ⟨slice, split, onLine⟩ := exists_slice found
          refine ⟨slice, here.trans split, fun more => ?_⟩
          rw [List.count_eq_zero.2 (onLine more), Nat.add_zero]
      | token split some => exact ⟨_, split, fun _ => rfl⟩

/-! ## The text from a token on -/

/-- The text from the token on that a call finds. -/
def textFrom (source : String) (n : Nat) : String := String.ofList (afterGap (after source n).text)

/-- A text goes on after a token as the text that starts with it, on the line of the token. -/
theorem ofLexed_textFrom {source : String} {n : Nat} {token : Token}
    (seen : (after source n).answer = .ok token) :
    ∃ start, Cursor.ofLexed (Lexed.ofSource (textFrom source n)) = .ok start ∧
      (after source (n + 1)).place token = start.later (token.line - 1) := by
  have line := line_eq_of_answer seen
  have positive := line_pos source n
  have same : (after source n).lexed =
      (Lexed.ofSource (textFrom source n)).later (token.line - 1) := by
    rw [lexed, lexFrom_afterGap, Lexed.ofSource, textFrom, String.toList_ofList, ← lexFrom_later]
    congr 1
    omega
  have there :
      Cursor.ofLexed (after source n).lexed = .ok ((after source (n + 1)).place token) := by
    have moved := (after source n).next_place token
    rw [seen] at moved
    exact moved
  rw [same] at there
  cases first : Cursor.ofLexed (Lexed.ofSource (textFrom source n)) with
  | error error =>
      rw [Cursor.ofLexed_later_error _ first] at there
      cases there
  | ok start =>
      rw [Cursor.ofLexed_later _ first] at there
      exact ⟨start, rfl, (Except.ok.inj there).symm⟩

/-- The text from a token on is the end of the text, and the line of the token is known from what
comes before it. -/
theorem exists_before_textFrom (source : String) (n : Nat) :
    ∃ before, source.toList = before ++ (textFrom source n).toList ∧
      ∀ token, (after source n).answer = .ok token → token.kind ≠ .eof →
        token.line = 1 + before.count '\n' := by
  obtain ⟨before, whole, line⟩ := exists_before source n
  refine ⟨before ++ gapOf (after source n).text, ?_, fun token seen inner => ?_⟩
  · rw [textFrom, String.toList_ofList, List.append_assoc, gapOf_append_afterGap, whole]
  · have some : (after source n).text ≠ [] := by
      intro none
      rw [answer, lexed, none] at seen
      cases seen
      exact inner rfl
    rw [line_eq_of_answer seen, line some, List.count_append, (gap_gapOf _).count_newline,
      Nat.add_zero]

end Remainder

end Lexer

end Pseudocode
