import Pseudocode.Proofs.Grammar.Derivation
import Pseudocode.Proofs.Token.Lexeme

/-!
# What literals stand for

The lexeme of a literal is looked at when the text is cut into tokens, and once more when the token
is turned into a value. The two agree: the second look never finds anything wrong
(`Literal.ofToken_of_lexeme`), and the value is what the lexeme stands for (`Literal.StandsFor`).
Each digit counts as its place says, and quotes are left out.
-/

set_option autoImplicit false

namespace Pseudocode.Literal

open Lexer

/-- The sum of the digits, each times the power of ten for its place. -/
def placeValue : List Char → Nat
  | [] => 0
  | digit :: rest => (digit.toNat - '0'.toNat) * Nat.pow 10 rest.length + placeValue rest

/-- What the lexeme of a literal stands for. -/
inductive StandsFor : Kind → List Char → Literal → Prop where
  | yes : StandsFor (.keyword .TRUE) Keyword.TRUE.spelling.toList (.boolean true)
  | no : StandsFor (.keyword .FALSE) Keyword.FALSE.spelling.toList (.boolean false)
  | integer {digits : List Char} {n : Integer} (isDigits : IsDigits digits)
      (value : n.val = placeValue digits) (low : 0 ≤ n.val) (high : n.val ≤ 9223372036854775807) :
      StandsFor .integer digits (.integer n)
  | float {whole fraction : List Char} (isWhole : IsDigits whole) (isFraction : IsDigits fraction) :
      StandsFor .float (whole ++ '.' :: fraction)
        (.float (Float.ofScientific (placeValue (whole ++ fraction)) true fraction.length))
  | character {c : Char} (onLine : c ≠ '\n') : StandsFor .character ['\'', c, '\''] (.character c)
  | string {body : List Char} (closed : '"' ∉ body) :
      StandsFor .string ('"' :: (body ++ ['"'])) (.string (String.ofList body))

/-- Digits that come after others move those to higher places. -/
theorem foldl_eq_placeValue (digits : List Char) (known : Nat) :
    digits.foldl (fun value digit => 10 * value + (digit.toNat - '0'.toNat)) known =
      known * Nat.pow 10 digits.length + placeValue digits := by
  induction digits generalizing known with
  | nil => simp [placeValue]
  | cons digit rest ih =>
      have higher : Nat.pow 10 (rest.length + 1) = Nat.pow 10 rest.length * 10 := rfl
      rw [List.foldl_cons, ih, placeValue, List.length_cons, higher]
      generalize Nat.pow 10 rest.length = place
      rw [Nat.add_mul, Nat.add_assoc, Nat.mul_comm 10 known, Nat.mul_assoc, Nat.mul_comm 10 place]

theorem decimalValue_eq_placeValue (digits : List Char) :
    decimalValue digits = placeValue digits := by
  rw [decimalValue, foldl_eq_placeValue, Nat.zero_mul, Nat.zero_add]

/-- **A literal that was found in a text has a value,** the one that its lexeme stands for. -/
theorem ofToken_of_lexeme {token : Token} (lexeme : Lexeme token.kind token.lexeme.toList)
    (isLiteral : token.kind ∈ Grammar.literalKinds) :
    ∃ literal, ofToken token = .ok literal ∧
      StandsFor token.kind token.lexeme.toList literal := by
  obtain ⟨kind, text, line⟩ := token
  simp only [ofToken]
  generalize text.toList = text at lexeme
  cases lexeme with
  | newline => simp [Grammar.literalKinds] at isLiteral
  | identifier => simp [Grammar.literalKinds] at isLiteral
  | mark mark => simp [Grammar.literalKinds] at isLiteral
  | keyword keyword =>
      have isTruth : keyword = .TRUE ∨ keyword = .FALSE := by
        simpa [Grammar.literalKinds] using isLiteral
      rcases isTruth with rfl | rfl
      · exact ⟨.boolean true, rfl, .yes⟩
      · exact ⟨.boolean false, rfl, .no⟩
  | integer isDigits fits =>
      have value := congrArg Int.ofNat (decimalValue_eq_placeValue text)
      rw [integer?_digits isDigits, Integer.ofInt?, dif_pos fits]
      exact ⟨_, rfl, .integer isDigits value (Int.natCast_nonneg _) fits.2⟩
  | float isWhole isFraction =>
      rw [float?_digits isWhole isFraction, decimalValue_eq_placeValue]
      exact ⟨_, rfl, .float isWhole isFraction⟩
  | character onLine => exact ⟨_, rfl, .character onLine⟩
  | string closed =>
      rw [unquote?_quoted]
      exact ⟨_, rfl, .string closed⟩

/-- What a lexeme stands for can be written. -/
theorem StandsFor.printable {kind : Kind} {text : List Char} {literal : Literal}
    (stands : StandsFor kind text literal) : literal.Printable := by
  cases stands with
  | yes => trivial
  | no => trivial
  | integer isDigits value low high => exact low
  | @float whole fraction isWhole isFraction =>
      refine ⟨_, .float isWhole isFraction, ?_⟩
      rw [float?_digits isWhole isFraction, decimalValue_eq_placeValue]
  | character onLine => exact onLine
  | string closed => simpa [Printable] using closed

end Pseudocode.Literal
