import Pseudocode.Proofs.Grammar.Failure

/-!
# Positions

The tokens of a text are slices of it that follow one another, with only gaps between
them, and the line of a token is told by the ends of lines before it
(`Lexed.ofSource_positions`). The same holds of the end of the text, of its error, and of
the token at which reading a program fails.
-/

set_option autoImplicit false

namespace Pseudocode

open Program

theorem Error.line?_ofGrammar (cause : GrammarError) :
    (Error.ofGrammar cause).line? = some cause.line := by
  cases cause <;> rfl

namespace Lexed

variable {source : String} {gaps : List (List Char)} {rest : List Char}

theorem line_eq (layout : Layout source.toList (ofSource source).tokens gaps rest) {n : Nat}
    {token : Token} (here : (ofSource source).tokens[n]? = some token) :
    token.line = 1 + (before gaps (ofSource source).tokens n).count '\n' := by
  rw [(written_ofSource source).line_eq here]
  exact layout.line_eq 1 n

theorem lastLine_eq (layout : Layout source.toList (ofSource source).tokens gaps rest) :
    (ofSource source).lastLine =
      1 + (before gaps (ofSource source).tokens (ofSource source).tokens.length).count '\n' := by
  have last := layout.line_eq 1 (ofSource source).tokens.length
  rw [List.take_length] at last
  rw [← last]
  exact (scan source).written.2

/-- An error is on the line of the token at which reading fails. -/
theorem error_line_eq (layout : Layout source.toList (ofSource source).tokens gaps rest)
    {used : List Token} {ahead : Lexed} {cause : GrammarError}
    (stops : Stops source used ahead cause) :
    cause.line = 1 + (before gaps (ofSource source).tokens used.length).count '\n' := by
  have taken : (ofSource source).tokens.take used.length = used := by
    rw [stops.split, behind, List.take_left]
  rw [stops.line_eq, ← layout.line_eq 1 used.length, taken]

/-- **Lexing loses nothing, and lines are exact.** The gaps and lexemes of a text make up
the text, or what comes before its fault. A token, the end of the text, a fault and the
error of a text that is no program are on the line after as many ends of lines as stand
in the text before them. -/
theorem ofSource_positions (source : String) :
    ∃ gaps rest,
      Layout source.toList (ofSource source).tokens gaps rest ∧
      (ofSource source).tokens.length ≤ source.toList.length ∧
      (∀ n token, (ofSource source).tokens[n]? = some token →
        (ofSource source).call n = .ok token ∧ token.kind ≠ .eof ∧
        token.line = 1 + (before gaps (ofSource source).tokens n).count '\n') ∧
      (∀ n, (ofSource source).tokens.length ≤ n →
        (rest = [] ∧ (ofSource source).call n = .ok (.eof (1 + source.toList.count '\n'))) ∨
        ∃ cause, Faulty rest cause ∧ (ofSource source).call n = .error ⟨cause,
          1 + (before gaps (ofSource source).tokens (ofSource source).tokens.length).count '\n'⟩) ∧
      ∀ error, Program.parse source = .error error →
        ∃ k cause, failure? source = some (k, cause) ∧ error = .ofGrammar cause ∧
          Earliest (ofSource source) k cause ∧
          error.line? = some (1 + (before gaps (ofSource source).tokens k).count '\n') := by
  obtain ⟨gaps, rest, layout, ended, failed⟩ := (scan source).layout
  refine ⟨gaps, rest, layout, layout.length_le, ?_, ?_, ?_⟩
  · intro n token here
    have inner := kind_ne_eof_ofSource source token (List.mem_of_getElem? here)
    exact ⟨call_token here, inner, line_eq layout here⟩
  · intro n past
    have last := lastLine_eq layout
    rw [call_past past]
    cases ending : (ofSource source).ending with
    | ok line =>
        have none := ended line ending
        have whole := layout.whole
        rw [none, List.append_nil] at whole
        rw [lastLine, ending, ← whole] at last
        refine .inl ⟨none, ?_⟩
        rw [← last]
        rfl
    | error error =>
        rw [lastLine, ending] at last
        refine .inr ⟨error.fault, failed error ending, ?_⟩
        rw [← last]
        rfl
  · intro error failed
    obtain ⟨used, ahead, cause, rfl, stops⟩ := exists_stops failed
    refine ⟨used.length, cause, stops.failure, rfl, stops.earliest, ?_⟩
    rw [Error.line?_ofGrammar, error_line_eq layout stops]

end Lexed

end Pseudocode
