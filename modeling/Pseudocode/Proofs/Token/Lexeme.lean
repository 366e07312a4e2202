import Pseudocode.Token.Literal

/-!
# Lexemes

The texts that tokens are read from, by kind. Every token of a text has such a
lexeme (`Lexed.ofSource_lexeme`): words are made of letters and are not
reserved unless they are keywords, numbers are made of digits, and quoted texts
end at their first quote.

Conversely a lexeme is read back as one token where a blank or the end of the
text comes after it (`Lexeme.front_detached`), since no lexeme can be longer than
up to there. The values that the lexemes of literals stand for are
`Literal.Printable`.
-/

set_option autoImplicit false

namespace Pseudocode

open Lexer

/-- A word that can name something. -/
structure IsName (text : List Char) : Prop where
  starts : text.head?.any isNameStart = true
  letters : ∀ c ∈ text, isNamePart c = true
  free : Keyword.ofSpelling? (String.ofList text) = none

instance : DecidablePred IsName := fun text =>
  decidable_of_iff
    (text.head?.any isNameStart = true ∧ text.all isNamePart = true ∧
      Keyword.ofSpelling? (String.ofList text) = none)
    ⟨fun ⟨starts, letters, free⟩ => ⟨starts, List.all_eq_true.1 letters, free⟩,
      fun isName => ⟨isName.starts, List.all_eq_true.2 isName.letters, isName.free⟩⟩

/-- At least one digit, and nothing else. -/
structure IsDigits (text : List Char) : Prop where
  nonempty : text ≠ []
  digits : ∀ c ∈ text, c.isDigit = true

/-- The texts of the tokens of a kind. -/
inductive Lexeme : Kind → List Char → Prop where
  | newline : Lexeme .newline ['\n']
  | keyword (keyword : Keyword) : Lexeme (.keyword keyword) keyword.spelling.toList
  | identifier {text : List Char} (isName : IsName text) : Lexeme .identifier text
  | integer {digits : List Char} (isDigits : IsDigits digits)
      (fits : Integer.Fits (decimalValue digits)) : Lexeme .integer digits
  | float {whole fraction : List Char} (isWhole : IsDigits whole)
      (isFraction : IsDigits fraction) : Lexeme .float (whole ++ '.' :: fraction)
  | string {body : List Char} (closed : '"' ∉ body) : Lexeme .string ('"' :: (body ++ ['"']))
  | character {c : Char} (onLine : c ≠ '\n') : Lexeme .character ['\'', c, '\'']
  | mark (mark : Mark) : Lexeme (.mark mark) mark.spelling.toList

/-! ## Tokens have lexemes -/

namespace Lexer

variable {first : Char} {rest text : List Char} {kind : Kind}

theorem isNamePart_of_isNameStart {c : Char} (starts : isNameStart c = true) :
    isNamePart c = true := by
  simp only [isNameStart, isNamePart, Char.isAlphanum, Bool.or_eq_true] at starts ⊢
  rcases starts with isLetter | isBar
  · exact .inl (.inl isLetter)
  · exact .inr isBar

theorem of_mem_takeWhile {p : Char → Bool} {c : Char} (member : c ∈ text.takeWhile p) :
    p c = true :=
  List.all_eq_true.1 List.all_takeWhile c member

theorem drop_length_takeWhile (p : Char → Bool) (text : List Char) :
    text.drop (text.takeWhile p).length = text.dropWhile p := by
  have split := @List.takeWhile_append_dropWhile _ p text
  calc
    text.drop (text.takeWhile p).length
      = (text.takeWhile p ++ text.dropWhile p).drop (text.takeWhile p).length := by rw [split]
    _ = text.dropWhile p := List.drop_left

theorem word_lexeme (starts : isNameStart first = true)
    (found : word (first :: rest) = .lexeme kind text) : Lexeme kind text := by
  have goesOn := isNamePart_of_isNameStart starts
  simp only [word] at found
  cases spelled : Keyword.ofSpelling? (String.ofList ((first :: rest).takeWhile isNamePart)) with
  | some keyword =>
      rw [spelled] at found
      cases found
      have same : keyword.spelling = String.ofList ((first :: rest).takeWhile isNamePart) := by
        rw [Keyword.ofSpelling?] at spelled
        simpa using List.find?_some spelled
      rw [← String.toList_ofList (l := (first :: rest).takeWhile isNamePart), ← same]
      exact .keyword keyword
  | none =>
      rw [spelled] at found
      cases found
      refine .identifier ⟨?_, fun c => of_mem_takeWhile, spelled⟩
      simp [goesOn, starts]

theorem number_lexeme (starts : first.isDigit = true)
    (found : number (first :: rest) = .lexeme kind text) : Lexeme kind text := by
  have isWhole : IsDigits ((first :: rest).takeWhile Char.isDigit) := by
    refine ⟨?_, fun c => of_mem_takeWhile⟩
    simp [starts]
  simp only [number] at found
  split at found
  · split at found
    · cases found
    · rename_i after _ fraction nonempty
      cases found
      exact .float isWhole ⟨nonempty, fun c => of_mem_takeWhile⟩
  · split at found
    · rename_i fits
      cases found
      exact .integer isWhole fits
    · cases found

theorem quotedString_lexeme (found : quotedString rest = .lexeme kind text) :
    Lexeme kind text := by
  simp only [quotedString] at found
  split at found
  · cases found
  · rename_i quote after ahead
    cases found
    have isQuote : quote = '"' := by
      rw [drop_length_takeWhile] at ahead
      have stops := List.head?_dropWhile_not (· != '"') rest
      rw [ahead] at stops
      simpa using stops
    rw [isQuote]
    refine .string fun member => ?_
    simpa using of_mem_takeWhile member

theorem quotedCharacter_lexeme (found : quotedCharacter rest = .lexeme kind text) :
    Lexeme kind text := by
  rw [quotedCharacter.eq_def] at found
  split at found
  · rename_i c after
    by_cases onLine : c = '\n'
    · simp [onLine] at found
    · simp only [beq_iff_eq, onLine, if_false] at found
      cases found
      exact .character onLine
  · cases found

theorem sign_lexeme (found : sign text = .lexeme kind rest) : Lexeme kind rest := by
  rw [sign] at found
  split at found
  · cases found
    exact .mark _
  · cases found

/-- Whatever is found at the front of a text is a lexeme. -/
theorem front_lexeme (found : front first rest = .lexeme kind text) : Lexeme kind text := by
  rw [front] at found
  split at found
  · cases found
  split at found
  · cases found
  split at found
  · rename_i isNewline
    cases found
    rw [beq_iff_eq.1 isNewline]
    exact .newline
  split at found
  · rename_i starts
    exact word_lexeme starts found
  split at found
  · rename_i starts
    exact number_lexeme starts found
  split at found
  · exact quotedString_lexeme found
  split at found
  · exact quotedCharacter_lexeme found
  · exact sign_lexeme found

end Lexer

namespace Lexed

open Lexer

theorem lexFrom_lexeme (passing line : Nat) (text : List Char) :
    ∀ token ∈ (lexFrom passing line text).tokens, Lexeme token.kind token.lexeme.toList := by
  induction text generalizing passing line with
  | nil =>
      intro token member
      simp [lexFrom] at member
  | cons first rest ih =>
      cases passing with
      | succ passing => exact ih passing line
      | zero =>
          rw [lexFrom]
          cases found : front first rest with
          | gap text => exact ih _ line
          | fault cause => exact nofun
          | lexeme kind text =>
              refine List.forall_mem_cons.2 ⟨?_, ih _ _⟩
              rw [String.toList_ofList]
              exact front_lexeme found

/-- **Every token of a text has a lexeme of its kind.** -/
theorem ofSource_lexeme (source : String) :
    ∀ token ∈ (Lexed.ofSource source).tokens, Lexeme token.kind token.lexeme.toList :=
  lexFrom_lexeme 0 1 source.toList

end Lexed

/-! ## Lexemes are read back -/

theorem takeWhile_append {p : Char → Bool} {text rest : List Char}
    (holds : ∀ c ∈ text, p c = true) (stops : rest.head?.any p = false) :
    (text ++ rest).takeWhile p = text := by
  rw [List.takeWhile_append_of_pos holds]
  cases rest with
  | nil => simp
  | cons c rest =>
      have stop : p c = false := by simpa using stops
      simp [stop]

namespace Lexer

variable {first : Char} {rest : List Char}

/-- No lexeme goes on into such a text. -/
inductive Detached : List Char → Prop where
  | ended : Detached []
  | blank {c : Char} {rest : List Char} (isBlank : isBlank c = true) : Detached (c :: rest)

/-- What is made of other characters than blanks stops there. -/
theorem Detached.stops {p : Char → Bool} (detached : Detached rest)
    (other : [' ', '\t', '\r'].any p = false) : rest.head?.any p = false := by
  cases detached with
  | ended => rfl
  | @blank c rest isBlank =>
      have listed : c ∈ [' ', '\t', '\r'] := by
        simpa [Lexer.isBlank, or_assoc] using isBlank
      have stop : ¬ p c = true := List.any_eq_false.1 other c listed
      simpa using stop

/-- A letter or digit is neither a gap nor the end of a line. -/
theorem front_of_isNamePart (part : isNamePart first = true) :
    front first rest =
      if isNameStart first then word (first :: rest) else
      if first.isDigit then number (first :: rest) else front first rest := by
  have notBlank : isBlank first = false := by
    refine Bool.eq_false_iff.2 fun blank => ?_
    simp only [isBlank, Bool.or_eq_true, beq_iff_eq] at blank
    rcases blank with (rfl | rfl) | rfl <;> exact absurd part (by decide)
  have notComment : first ≠ '#' := by
    rintro rfl
    exact absurd part (by decide)
  have notEnd : first ≠ '\n' := by
    rintro rfl
    exact absurd part (by decide)
  by_cases starts : isNameStart first = true
  · simp [front, notBlank, notComment, notEnd, starts]
  · by_cases isDigit : first.isDigit = true
    · simp [front, notBlank, notComment, notEnd, starts, isDigit]
    · simp [starts, isDigit]

theorem front_of_isNameStart (starts : isNameStart first = true) :
    front first rest = word (first :: rest) := by
  rw [front_of_isNamePart (isNamePart_of_isNameStart starts), if_pos starts]

theorem isNameStart_of_isDigit {c : Char} (isDigit : c.isDigit = true) : isNameStart c = false := by
  have range := Char.isDigit_iff_toNat.1 isDigit
  change 48 ≤ c.val.toNat ∧ c.val.toNat ≤ 57 at range
  refine Bool.eq_false_iff.2 fun starts => ?_
  change (decide ('A'.val ≤ c.val ∧ c.val ≤ 'Z'.val) ||
    (decide ('a'.val ≤ c.val) && decide (c.val ≤ 'z'.val)) || c == '_') = true at starts
  simp only [UInt32.le_iff_toNat_le, Bool.or_eq_true, Bool.and_eq_true, decide_eq_true_eq,
    beq_iff_eq] at starts
  rcases starts with (upper | lower) | rfl
  · have low : 65 ≤ c.val.toNat := upper.1
    omega
  · have low : 97 ≤ c.val.toNat := lower.1
    omega
  · exact absurd isDigit (by decide)

theorem front_of_isDigit (isDigit : first.isDigit = true) :
    front first rest = number (first :: rest) := by
  have part : isNamePart first = true := by
    simp [isNamePart, Char.isAlphanum, isDigit]
  rw [front_of_isNamePart part, isNameStart_of_isDigit isDigit, if_pos isDigit]
  rfl

theorem word_of_isName {text : List Char} (isName : IsName text) (detached : Detached rest) :
    word (text ++ rest) = .lexeme .identifier text := by
  have taken : (text ++ rest).takeWhile isNamePart = text :=
    takeWhile_append isName.letters (detached.stops rfl)
  simp [word, taken, isName.free]

theorem word_of_keyword (keyword : Keyword) (detached : Detached rest) :
    word (keyword.spelling.toList ++ rest) =
      .lexeme (.keyword keyword) keyword.spelling.toList := by
  have letters : keyword.spelling.toList.all isNamePart = true := by
    cases keyword <;> decide
  have spelled : Keyword.ofSpelling? keyword.spelling = some keyword := by
    cases keyword <;> decide
  have taken : (keyword.spelling.toList ++ rest).takeWhile isNamePart = keyword.spelling.toList :=
    takeWhile_append (List.all_eq_true.1 letters) (detached.stops rfl)
  simp [word, taken, spelled]

theorem number_of_digits {digits : List Char} (isDigits : IsDigits digits)
    (fits : Integer.Fits (decimalValue digits)) (detached : Detached rest) :
    number (digits ++ rest) = .lexeme .integer digits := by
  have taken : (digits ++ rest).takeWhile Char.isDigit = digits :=
    takeWhile_append isDigits.digits (detached.stops rfl)
  have noPoint : rest.head?.any (· == '.') = false := detached.stops rfl
  simp only [number, taken, List.drop_left]
  split
  · simp at noPoint
  · rw [if_pos fits]

theorem number_of_float {whole fraction : List Char} (isWhole : IsDigits whole)
    (isFraction : IsDigits fraction) (detached : Detached rest) :
    number (whole ++ '.' :: (fraction ++ rest)) = .lexeme .float (whole ++ '.' :: fraction) := by
  have taken : (whole ++ '.' :: (fraction ++ rest)).takeWhile Char.isDigit = whole :=
    takeWhile_append isWhole.digits rfl
  have after : (fraction ++ rest).takeWhile Char.isDigit = fraction :=
    takeWhile_append isFraction.digits (detached.stops rfl)
  simp only [number, taken, List.drop_left, after]
  cases fraction with
  | nil => exact absurd rfl isFraction.nonempty
  | cons digit digits => rfl

theorem quotedString_of_body {body : List Char} (closed : '"' ∉ body) (rest : List Char) :
    quotedString (body ++ '"' :: rest) = .lexeme .string ('"' :: (body ++ ['"'])) := by
  have taken : (body ++ '"' :: rest).takeWhile (· != '"') = body := by
    refine takeWhile_append (fun c member => ?_) rfl
    simp only [bne_iff_ne, ne_eq]
    rintro rfl
    exact closed member
  simp [quotedString, taken]

theorem sign_of_mark (mark : Mark) (detached : Detached rest) :
    sign (mark.spelling.toList ++ rest) = .lexeme (.mark mark) mark.spelling.toList := by
  -- No mark becomes another one by any other character.
  have noEqual : rest.head?.any ('=' == ·) = false := detached.stops rfl
  have found : Mark.ofFront? (mark.spelling.toList ++ rest) = some mark := by
    cases rest with
    | nil => cases mark <;> decide
    | cons next rest =>
        have noEqual : ('=' == next) = false := noEqual
        cases mark <;>
          simp [Mark.ofFront?, Mark.all, Mark.spelling, List.find?, List.isPrefixOf, noEqual]
  rw [sign, found]

end Lexer

/-- **A lexeme with a blank or nothing after it is read back.** -/
theorem Lexeme.front_detached {kind : Kind} {text rest : List Char} (lexeme : Lexeme kind text)
    (detached : Detached rest) :
    ∃ first others, text = first :: others ∧
      Lexer.front first (others ++ rest) = .lexeme kind text := by
  cases lexeme with
  | newline => exact ⟨_, _, rfl, rfl⟩
  | keyword keyword =>
      obtain ⟨first, others, same, starts⟩ : ∃ first others,
          keyword.spelling.toList = first :: others ∧ isNameStart first = true := by
        cases keyword <;> exact ⟨_, _, rfl, by decide⟩
      refine ⟨first, others, same, ?_⟩
      rw [front_of_isNameStart starts, ← List.cons_append, ← same]
      exact word_of_keyword keyword detached
  | identifier isName =>
      cases text with
      | nil => exact absurd isName.starts (by decide)
      | cons first others =>
          refine ⟨first, others, rfl, ?_⟩
          rw [front_of_isNameStart (by simpa using isName.starts), ← List.cons_append]
          exact word_of_isName isName detached
  | integer isDigits fits =>
      cases text with
      | nil => exact absurd rfl isDigits.nonempty
      | cons first others =>
          refine ⟨first, others, rfl, ?_⟩
          rw [front_of_isDigit (isDigits.digits first List.mem_cons_self), ← List.cons_append]
          exact number_of_digits isDigits fits detached
  | @float whole fraction isWhole isFraction =>
      cases whole with
      | nil => exact absurd rfl isWhole.nonempty
      | cons first others =>
          refine ⟨first, others ++ '.' :: fraction, rfl, ?_⟩
          rw [front_of_isDigit (isWhole.digits first List.mem_cons_self), ← List.cons_append,
            ← List.cons_append, List.append_assoc, List.cons_append]
          exact number_of_float isWhole isFraction detached
  | @string body closed =>
      refine ⟨'"', body ++ ['"'], rfl, ?_⟩
      rw [List.append_assoc]
      exact quotedString_of_body closed rest
  | @character c onLine =>
      refine ⟨'\'', [c, '\''], rfl, ?_⟩
      change quotedCharacter (c :: '\'' :: rest) = _
      simp [quotedCharacter, onLine]
  | mark mark =>
      have found := sign_of_mark mark detached
      cases mark <;> exact ⟨_, _, rfl, found⟩

theorem Lexeme.front {kind : Kind} {text : List Char} (lexeme : Lexeme kind text)
    (rest : List Char) :
    ∃ first others, text = first :: others ∧
      Lexer.front first (others ++ ' ' :: rest) = .lexeme kind text :=
  lexeme.front_detached (.blank rfl)

/-! ## The values of lexemes -/

namespace Literal

theorem integer?_digits {digits : List Char} (isDigits : IsDigits digits) :
    integer? digits = Integer.ofInt? (decimalValue digits) := by
  have all : digits.all Char.isDigit = true := List.all_eq_true.2 isDigits.digits
  simp [integer?, isDigits.nonempty, all]

theorem float?_digits {whole fraction : List Char} (isWhole : IsDigits whole)
    (isFraction : IsDigits fraction) :
    float? (whole ++ '.' :: fraction) =
      some (Float.ofScientific (decimalValue (whole ++ fraction)) true fraction.length) := by
  have taken : (whole ++ '.' :: fraction).takeWhile Char.isDigit = whole :=
    takeWhile_append isWhole.digits rfl
  have all : fraction.all Char.isDigit = true := List.all_eq_true.2 isFraction.digits
  simp [float?, taken, isWhole.nonempty, isFraction.nonempty, all]

theorem unquote?_quoted (quote : Char) (body : List Char) :
    unquote? quote (quote :: (body ++ [quote])) = some body := by
  simp [unquote?]

/-- A float that some digits with a point stand for. -/
def IsFloatLiteral (x : Float) : Prop := ∃ text, Lexeme .float text ∧ float? text = some x

/-- A literal that can be written in a program. -/
def Printable : Literal → Prop
  | integer n => 0 ≤ n.val
  | float x => IsFloatLiteral x
  | character c => c ≠ '\n'
  | string s => '"' ∉ s.toList
  | boolean _ => True

end Literal

end Pseudocode
