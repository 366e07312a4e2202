import Pseudocode.Proofs.Token.Layout

/-!
# Spacing

Blanks and comments keep lexemes apart and mean nothing else. A program can be written
again with one blank between any two of its lexemes and nothing at either end
(`respaced`). It then has the same tokens on the same lines, and writing it again in
the same way changes nothing more (`ofSource_respaced`).

Ends of lines are lexemes of their own, and those inside of strings belong to their
strings, so both stay where they are.
-/

set_option autoImplicit false

namespace Pseudocode

open Lexer

/-- A program with one blank between any two of its lexemes. -/
def respaced (source : String) : String := joined (Lexed.ofSource source).tokens

/-! ## The gaps that are left -/

/-- One blank before each of the tokens, and nothing at the end. -/
def blankBeforeEach (tokens : List Token) : List (List Char) :=
  tokens.map (fun _ => [' ']) ++ [[]]

/-- The gaps between joined lexemes. -/
def singleBlanks : List Token → List (List Char)
  | [] => [[]]
  | _ :: tokens => [] :: blankBeforeEach tokens

theorem before_blankBeforeEach (token : Token) (tokens : List Token) :
    token.lexeme.toList ++ before (blankBeforeEach tokens) tokens tokens.length =
      (joined (token :: tokens)).toList := by
  induction tokens generalizing token with
  | nil => simp [blankBeforeEach, before, toList_joined_single]
  | cons next others ih =>
      rw [toList_joined_cons_cons, ← ih next]
      rfl

theorem before_singleBlanks (tokens : List Token) :
    before (singleBlanks tokens) tokens tokens.length = (joined tokens).toList := by
  cases tokens with
  | nil => rfl
  | cons token tokens => exact before_blankBeforeEach token tokens

/-- Tokens can be laid out anew with single blanks. -/
theorem Layout.joined {text rest : List Char} {tokens : List Token} {gaps : List (List Char)}
    (layout : Layout text tokens gaps rest) :
    Layout (joined tokens).toList tokens (singleBlanks tokens) [] where
  count := by cases tokens <;> simp [singleBlanks, blankBeforeEach]
  areGaps := by
    have eachBlank : ∀ tokens, ∀ gap ∈ blankBeforeEach tokens, Gap gap := by
      intro tokens
      refine List.forall_mem_append.2 ⟨List.forall_mem_map.2 fun _ _ => .blank rfl .none, ?_⟩
      exact List.forall_mem_singleton.2 .none
    cases tokens with
    | nil => exact eachBlank []
    | cons token tokens => exact List.forall_mem_cons.2 ⟨.none, eachBlank tokens⟩
  lexemes := layout.lexemes
  whole := by rw [before_singleBlanks, List.append_nil]

/-! ## The tokens that are read back -/

/-- **Spacing means nothing.** A program that can be read has the same tokens on the same
lines, and ends on the same line, if each of its gaps is replaced by a single blank and
those at its ends are left out. Doing so again changes nothing more. -/
theorem ofSource_respaced (source : String) {line : Nat}
    (ended : (Lexed.ofSource source).ending = .ok line) :
    Lexed.ofSource (respaced source) = Lexed.ofSource source ∧
      respaced (respaced source) = respaced source ∧
      ∃ gaps, Layout source.toList (Lexed.ofSource source).tokens gaps [] ∧
        Layout (respaced source).toList (Lexed.ofSource source).tokens
          (singleBlanks (Lexed.ofSource source).tokens) [] := by
  have scan := Lexed.scan source
  obtain ⟨written, last⟩ := scan.written
  obtain ⟨gaps, rest, layout, atEnd, _⟩ := scan.layout
  have same : Lexed.ofSource (respaced source) = Lexed.ofSource source := by
    have reread : Lexed.ofSource (respaced source) = _ := lexFrom_joined written
    rw [← last, Lexed.lastLine, ended] at reread
    rw [reread, ← Lexed.ending_eq_ok.1 ended]
  refine ⟨same, ?_, gaps, ?_, layout.joined⟩
  · rw [respaced, same, respaced]
  · rw [atEnd line ended] at layout
    exact layout

/-- Three lines, with comments on two of them. A string goes from the second line to the
third, and has the sign of a comment in it. -/
def commented : String := "  x=007 # seven\n\ty  =\"a#\nb\"&'''#"

theorem commented_respaced :
    (Lexed.ofSource commented).ending = .ok 3 ∧
      respaced commented = "x = 007 \n y = \"a#\nb\" & '''" ∧
      Lexed.ofSource (respaced commented) = Lexed.ofSource commented := by
  have ended : (Lexed.ofSource commented).ending = .ok 3 := rfl
  have text : respaced commented = "x = 007 \n y = \"a#\nb\" & '''" := by
    decide +kernel
  exact ⟨ended, text, (ofSource_respaced commented ended).1⟩

end Pseudocode
