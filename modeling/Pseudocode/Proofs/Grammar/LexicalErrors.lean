import Pseudocode.Proofs.Grammar.Failure

/-!
# Where lexical errors come from

A lexical error is found in two places: where a text is cut into tokens, and where the token of a
literal is turned into a value. The second never happens for a token of a text, since its lexeme
stands for a value (`Literal.ofToken_of_lexeme`). So the lexical error of a text that is no program
is the one of its first call for a token that fails, on the line where no token starts
(`Program.literals_convert`).
-/

set_option autoImplicit false

namespace Pseudocode

open Lexer

/-- A call that fails found a fault after the gap ahead of it, on the line of the error. -/
theorem Lexed.faulty_of_call {source : String} {n : Nat} {error : LexicalError}
    (called : (ofSource source).call n = .error error) :
    ∃ before rest, source.toList = before ++ rest ∧ Faulty rest error.fault ∧
      error.line = 1 + before.count '\n' := by
  obtain ⟨before, whole, scan⟩ := exists_before source n
  rw [call_eq] at called
  obtain ⟨line, faulty⟩ := (scan.view_error_iff error).1 called
  have gap := gapOf_append_afterGap (ahead source n)
  have noLine := (gap_gapOf (ahead source n)).count_newline
  refine ⟨before ++ gapOf (ahead source n), afterGap (ahead source n), ?_, faulty, ?_⟩
  · rw [List.append_assoc, gap, whole]
  · rw [List.count_append, noLine, Nat.add_zero, line]

namespace Program

/-- A lexical error is the end of the tokens, however far the grammar was read. -/
theorem ending_of_parse {source : String} {error : LexicalError}
    (failed : Program.parse source = .error (.lexical error)) :
    (Lexed.ofSource source).ending = .error error := by
  obtain ⟨used, rest, cause, same, stops⟩ := exists_stops failed
  cases cause with
  | lexical fault =>
      cases same
      exact (stops.ending_eq stops.deserved).2
  | badSyntax => cases same
  | unexpected => cases same

/-- **Cutting a text into tokens and turning them into values agree.** Every literal that a call for
the next token gives has the value that its lexeme stands for. Hence a lexical error of a text that
is no program was given by a call, the first that failed, and names the line of the fault. -/
theorem literals_convert (source : String) :
    (∀ n token, (Lexed.ofSource source).call n = .ok token → token.kind ∈ Grammar.literalKinds →
      ∃ literal, Literal.ofToken token = .ok literal ∧
        Literal.StandsFor token.kind token.lexeme.toList literal) ∧
    ∀ error, Program.parse source = .error (.lexical error) →
      ∃ n before rest, (∀ m < n, ∃ token, (Lexed.ofSource source).call m = .ok token) ∧
        (Lexed.ofSource source).call n = .error error ∧ source.toList = before ++ rest ∧
        Faulty rest error.fault ∧ error.line = 1 + before.count '\n' := by
  constructor
  · intro n token called isLiteral
    have inner : token.kind ≠ .eof := by
      intro isEnd
      simp [isEnd, Grammar.literalKinds] at isLiteral
    have member := List.mem_of_getElem? (Lexed.getElem?_of_call called inner)
    exact Literal.ofToken_of_lexeme (Lexed.ofSource_lexeme source token member) isLiteral
  · intro error failed
    have called : (Lexed.ofSource source).call (Lexed.ofSource source).tokens.length =
        .error error := by
      rw [Lexed.call_past (Nat.le_refl _), ending_of_parse failed]
      rfl
    obtain ⟨before, rest, split, faulty, line⟩ := Lexed.faulty_of_call called
    refine ⟨_, before, rest, fun m short => ?_, called, split, faulty, line⟩
    exact ⟨_, Lexed.call_token (List.getElem?_eq_getElem short)⟩

/-- A text with a quoted quote, a character of two bytes, the greatest integer, a string of two
lines and an integer that is too large. -/
def edges : String :=
  "PROGRAM p\nBEGIN\n" ++
    "PRINT ''', 'é', 9223372036854775807, \"two\nlines\", 9223372036854775808\nEND\n"

theorem edges_convert :
    (∃ literal, Literal.ofToken ⟨.character, "'''", 3⟩ = .ok literal ∧
      Literal.StandsFor .character "'''".toList literal) ∧
    (∃ literal, Literal.ofToken ⟨.character, "'é'", 3⟩ = .ok literal ∧
      Literal.StandsFor .character "'é'".toList literal) ∧
    (∃ literal, Literal.ofToken ⟨.integer, "9223372036854775807", 3⟩ = .ok literal ∧
      Literal.StandsFor .integer "9223372036854775807".toList literal) ∧
    ∃ error, Program.parse edges = .error (.lexical error) ∧
      ∃ n before rest, (Lexed.ofSource edges).call n = .error error ∧
        edges.toList = before ++ rest ∧ Faulty rest error.fault ∧
        error.line = 1 + before.count '\n' := by
  obtain ⟨converts, raised⟩ := literals_convert edges
  have quote : (Lexed.ofSource edges).tokens[6]? = some ⟨.character, "'''", 3⟩ := by
    decide +kernel
  have accented : (Lexed.ofSource edges).tokens[8]? = some ⟨.character, "'é'", 3⟩ := by
    decide +kernel
  have greatest : (Lexed.ofSource edges).tokens[10]? =
      some ⟨.integer, "9223372036854775807", 3⟩ := by
    decide +kernel
  have fails : (match Program.parse edges with
      | .error error => some error
      | .ok _ => none) = some (.lexical ⟨.invalidInteger, 4⟩) := by
    decide +kernel
  refine ⟨converts 6 _ (Lexed.call_token quote) (by decide),
    converts 8 _ (Lexed.call_token accented) (by decide),
    converts 10 _ (Lexed.call_token greatest) (by decide), ⟨.invalidInteger, 4⟩, ?_⟩
  cases found : Program.parse edges with
  | ok program =>
      rw [found] at fails
      cases fails
  | error error =>
      rw [found] at fails
      obtain rfl : error = .lexical ⟨.invalidInteger, 4⟩ := Option.some.inj fails
      obtain ⟨n, before, rest, _, call, split, faulty, line⟩ := raised _ found
      exact ⟨rfl, n, before, rest, call, split, faulty, line⟩

end Program

end Pseudocode
