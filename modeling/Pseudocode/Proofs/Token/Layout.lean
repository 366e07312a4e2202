import Pseudocode.Proofs.Token.Scan

/-!
# Tokens in their text

The lexemes of a text and the gaps between them make up the whole text, up to the
place where an error stands (`Lexer.Scan.layout`). Since gaps stay on their line, the
line of each token is known from the lexemes before it (`Lexer.Scan.written`).

Conversely tokens with lexemes and lines that fit together are the tokens of some text
(`Lexer.exists_source`).
-/

set_option autoImplicit false

namespace Pseudocode

open Lexer

/-! ## Tokens and their lines -/

/-- The line on which a text ends that starts on the given line and has these
tokens. -/
def lineAfter : Nat → List Token → Nat
  | line, [] => line
  | line, token :: tokens => lineAfter (line + token.lexeme.toList.count '\n') tokens

/-- The tokens of a text that starts on the given line. -/
def Written : Nat → List Token → Prop
  | _, [] => True
  | line, token :: tokens =>
    token.line = line ∧ Lexeme token.kind token.lexeme.toList ∧
      Written (line + token.lexeme.toList.count '\n') tokens

section Rows

variable {line : Nat} {token : Token} {tokens others : List Token}

theorem lineAfter_append :
    lineAfter line (tokens ++ others) = lineAfter (lineAfter line tokens) others := by
  induction tokens generalizing line with
  | nil => rfl
  | cons token tokens ih => exact ih

theorem Written.append :
    Written line (tokens ++ others) ↔
      Written line tokens ∧ Written (lineAfter line tokens) others := by
  induction tokens generalizing line with
  | nil => exact ⟨fun written => ⟨trivial, written⟩, fun written => written.2⟩
  | cons token tokens ih =>
      simp only [List.cons_append, Written, lineAfter, ih]
      exact ⟨fun ⟨same, lexeme, first, second⟩ => ⟨⟨same, lexeme, first⟩, second⟩,
        fun ⟨⟨same, lexeme, first⟩, second⟩ => ⟨same, lexeme, first, second⟩⟩

theorem Written.single {kind : Kind} {text : List Char} (lexeme : Lexeme kind text) (line : Nat) :
    Written line [⟨kind, String.ofList text, line⟩] :=
  ⟨rfl, by rwa [String.toList_ofList], trivial⟩

theorem Written.line_eq (written : Written line tokens) {n : Nat} (here : tokens[n]? = some token) :
    token.line = lineAfter line (tokens.take n) := by
  induction tokens generalizing line n with
  | nil => cases here
  | cons first tokens ih =>
      obtain ⟨same, _, rest⟩ := written
      cases n with
      | zero =>
          cases here
          exact same
      | succ n => exact ih rest here

end Rows

/-- The line on which a text ends or has its error. -/
def Lexed.lastLine (lexed : Lexed) : Nat :=
  match lexed.ending with
  | .ok line => line
  | .error error => error.line

namespace Lexer

variable {line : Nat} {text : List Char} {lexed : Lexed}

theorem Scan.written (scan : Scan line text lexed) :
    Written line lexed.tokens ∧ lexed.lastLine = lineAfter line lexed.tokens := by
  induction scan with
  | ended => exact ⟨trivial, rfl⟩
  | fault => exact ⟨trivial, rfl⟩
  | @token line text rest lexeme after first kind lexed here found split later ih =>
      have same : (String.ofList lexeme).toList = lexeme := String.toList_ofList
      have written : Written line (⟨kind, String.ofList lexeme, line⟩ :: lexed.tokens) := by
        refine ⟨rfl, ?_, ?_⟩
        · rw [same]
          exact front_lexeme found
        · rw [same]
          exact ih.1
      refine ⟨written, ?_⟩
      rw [show (lexed.push _).lastLine = lexed.lastLine from rfl, ih.2]
      simp only [Lexed.push, lineAfter, same]

/-- The lexemes of tokens, with one blank between any two. -/
def joined (tokens : List Token) : String := " ".intercalate (tokens.map Token.lexeme)

theorem toList_joined_single (token : Token) : (joined [token]).toList = token.lexeme.toList := by
  simp [joined]

theorem toList_joined_cons_cons (token next : Token) (others : List Token) :
    (joined (token :: next :: others)).toList =
      token.lexeme.toList ++ ' ' :: (joined (next :: others)).toList := by
  simp [joined]

/-- Joined lexemes are read back, since a blank or the end of the text comes after
each of them. -/
theorem lexFrom_joined {line : Nat} {tokens : List Token} (written : Written line tokens) :
    lexFrom 0 line (joined tokens).toList = ⟨tokens, .ok (lineAfter line tokens)⟩ := by
  induction tokens generalizing line with
  | nil => rfl
  | cons token tokens ih =>
      obtain ⟨rfl, reads, rest⟩ := written
      cases tokens with
      | nil =>
          have alone := lexFrom_lexeme_detached reads .ended token.line
          rw [List.append_nil] at alone
          rw [toList_joined_single, alone, String.ofList_toList]
          rfl
      | cons next others =>
          rw [toList_joined_cons_cons, lexFrom_lexeme_blank reads, ih rest, String.ofList_toList]
          rfl

/-- **Every row of written tokens belongs to a text.** -/
theorem exists_source {tokens : List Token} (written : Written 1 tokens) :
    ∃ source, Lexed.ofSource source = ⟨tokens, .ok (lineAfter 1 tokens)⟩ :=
  ⟨joined tokens, lexFrom_joined written⟩

end Lexer

/-! ## Tokens and the gaps between them -/

/-- The text before the token with the given number, or before the end: gaps and
lexemes in turn, and the gap in front of the token. -/
def before : List (List Char) → List Token → Nat → List Char
  | gap :: gaps, token :: tokens, n + 1 => gap ++ (token.lexeme.toList ++ before gaps tokens n)
  | gap :: _, _, _ => gap
  | [], _, _ => []

/-- A text consists of gaps with lexemes between them, up to a rest. -/
structure Layout (text : List Char) (tokens : List Token) (gaps : List (List Char))
    (rest : List Char) : Prop where
  count : gaps.length = tokens.length + 1
  areGaps : ∀ gap ∈ gaps, Gap gap
  lexemes : ∀ token ∈ tokens, token.lexeme.toList ≠ []
  whole : text = before gaps tokens tokens.length ++ rest

namespace Layout

variable {text rest : List Char} {tokens : List Token} {gaps : List (List Char)}

theorem length_le (layout : Layout text tokens gaps rest) : tokens.length ≤ text.length := by
  obtain ⟨count, areGaps, lexemes, rfl⟩ := layout
  clear areGaps
  rw [List.length_append]
  suffices shorter : tokens.length ≤ (before gaps tokens tokens.length).length by omega
  induction tokens generalizing gaps with
  | nil => exact Nat.zero_le _
  | cons token tokens ih =>
      obtain ⟨some, lexemes⟩ := List.forall_mem_cons.1 lexemes
      have positive := List.length_pos_iff.2 some
      cases gaps with
      | nil => cases count
      | cons gap gaps =>
          have shorter := ih (Nat.succ.inj count) lexemes
          simp only [List.length_cons, before, List.length_append]
          omega

/-- Only lexemes have ends of lines in them. -/
theorem line_eq (layout : Layout text tokens gaps rest) (line n : Nat) :
    lineAfter line (tokens.take n) = line + (before gaps tokens n).count '\n' := by
  obtain ⟨count, areGaps, lexemes, rfl⟩ := layout
  clear lexemes
  induction tokens generalizing gaps line n with
  | nil =>
      cases gaps with
      | nil => cases count
      | cons gap gaps =>
          have none := (areGaps gap List.mem_cons_self).count_newline
          simp [lineAfter, before, none]
  | cons token tokens ih =>
      cases gaps with
      | nil => cases count
      | cons gap gaps =>
          obtain ⟨isGap, areGaps⟩ := List.forall_mem_cons.1 areGaps
          have none := isGap.count_newline
          cases n with
          | zero => simp [lineAfter, before, none]
          | succ n =>
              have later :=
                ih (line + token.lexeme.toList.count '\n') n (Nat.succ.inj count) areGaps
              simp only [List.take_succ_cons, lineAfter, later, before, List.count_append, none]
              omega

end Layout

/-- The tokens of a text stand in it one after the other, with gaps between them. What
is left over starts with the fault. -/
theorem Lexer.Scan.layout {line : Nat} {text : List Char} {lexed : Lexed}
    (scan : Scan line text lexed) :
    ∃ gaps rest, Layout text lexed.tokens gaps rest ∧
      (∀ line, lexed.ending = .ok line → rest = []) ∧
      ∀ error, lexed.ending = .error error → Faulty rest error.fault := by
  induction scan with
  | @ended line text atEnd =>
      have whole := gapOf_append_afterGap text
      rw [atEnd] at whole
      refine ⟨[gapOf text], [], ⟨rfl, ?_, nofun, whole.symm⟩, fun _ _ => rfl, nofun⟩
      exact List.forall_mem_singleton.2 (gap_gapOf text)
  | @fault line text rest first cause here found =>
      have whole := gapOf_append_afterGap text
      rw [here] at whole
      refine ⟨[gapOf text], first :: rest, ⟨rfl, ?_, nofun, whole.symm⟩, nofun,
        fun error same => ?_⟩
      · exact List.forall_mem_singleton.2 (gap_gapOf text)
      · cases same
        exact front_faulty found
  | @token line text rest lexeme after first kind lexed here found split later ih =>
      obtain ⟨gaps, last, layout, ended, failed⟩ := ih
      have whole := gapOf_append_afterGap text
      have some : lexeme ≠ [] := by
        obtain ⟨_, _, rfl, _⟩ := (front_lexeme found).front []
        nofun
      refine ⟨gapOf text :: gaps, last, ⟨?_, ?_, ?_, ?_⟩, ended, failed⟩
      · exact congrArg Nat.succ layout.count
      · exact List.forall_mem_cons.2 ⟨gap_gapOf text, layout.areGaps⟩
      · refine List.forall_mem_cons.2 ⟨?_, layout.lexemes⟩
        rwa [String.toList_ofList]
      · rw [here, split] at whole
        calc
          text = gapOf text ++ (lexeme ++ after) := whole.symm
          _ = gapOf text ++ (lexeme ++ (before gaps lexed.tokens lexed.tokens.length ++ last)) := by
            rw [← layout.whole]
          _ = _ := by simp [Lexed.push, before]

end Pseudocode
