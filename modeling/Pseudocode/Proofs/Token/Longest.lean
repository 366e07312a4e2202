import Pseudocode.Proofs.Token.Lexeme

/-!
# The longest token

The shapes of tokens overlap: a keyword may be the beginning of a name, an
integer that of a float, a sign that of a longer one. What is found at the front
of a text is the longest beginning of the text that has the shape of a token
(`Lexer.front_longest`), and nothing is found exactly for one of five reasons
(`Lexer.front_faulty`, `Lexer.front_of_faulty`). Three of them are texts of which no
beginning has the shape of a token. In the other two a number stands in front, but a
point after it shows that it was meant to be longer, or it is too large.

The first character of a token decides its shape (`Shape.Has.head`), so that each
shape can be looked at by itself.
-/

set_option autoImplicit false

namespace Pseudocode

open Lexer

/-! ## Shapes -/

/-- The longest beginning of a text that has a property. -/
structure Longest (holds : List Char → Prop) (text found : List Char) : Prop where
  inFront : found <+: text
  has : holds found
  longest : ∀ other, other <+: text → holds other → other.length ≤ found.length

/-- There is only one. -/
theorem Longest.unique {holds : List Char → Prop} {text found other : List Char}
    (one : Longest holds text found) (two : Longest holds text other) : found = other := by
  have same : found.length = other.length :=
    Nat.le_antisymm (two.longest found one.inFront one.has)
      (one.longest other two.inFront two.has)
  have inside := List.prefix_of_prefix_length_le one.inFront two.inFront (Nat.le_of_eq same)
  exact inside.eq_of_length same

/-- The shape of names and keywords. -/
structure IsWord (text : List Char) : Prop where
  starts : text.head?.any isNameStart = true
  letters : ∀ c ∈ text, isNamePart c = true

/-- The shape of integers and floats. -/
inductive IsNumber : List Char → Prop where
  | digits {text : List Char} (isDigits : IsDigits text) : IsNumber text
  | float {whole fraction : List Char} (isWhole : IsDigits whole)
      (isFraction : IsDigits fraction) : IsNumber (whole ++ '.' :: fraction)

/-- The shapes of tokens. -/
inductive Shape where
  | newline | word | number | string | character | mark
deriving DecidableEq

namespace Shape

/-- The texts of a shape. Keywords have the shape of names, and integers may be too
large. -/
def Has : Shape → List Char → Prop
  | newline, text => text = ['\n']
  | word, text => IsWord text
  | number, text => IsNumber text
  | string, text => ∃ body, '"' ∉ body ∧ text = '"' :: (body ++ ['"'])
  | character, text => ∃ c, c ≠ '\n' ∧ text = ['\'', c, '\'']
  | mark, text => ∃ mark : Mark, text = mark.spelling.toList

/-- The only shape with texts that start with the given character. -/
def ofFirst (first : Char) : Shape :=
  if first == '\n' then newline
  else if isNameStart first then word
  else if first.isDigit then number
  else if first == '"' then string
  else if first == '\'' then character
  else mark

end Shape

/-- The texts that have the shape of a token. -/
def Pattern (text : List Char) : Prop := ∃ shape : Shape, shape.Has text

/-- Why no token stands at the front of a text. -/
def Faulty (text : List Char) : Fault → Prop
  | .invalidFloat =>
    ∃ digits rest, Longest IsNumber text digits ∧ IsDigits digits ∧ text = digits ++ '.' :: rest
  | .invalidInteger =>
    ∃ digits rest, Longest IsNumber text digits ∧ IsDigits digits ∧ text = digits ++ rest ∧
      rest.head? ≠ some '.' ∧ Nat.pow 2 63 - 1 < decimalValue digits
  | .unterminatedString => ∃ rest, text = '"' :: rest ∧ '"' ∉ rest
  | .invalidCharacter =>
    ∃ rest, text = '\'' :: rest ∧ ¬ ∃ c after, rest = c :: '\'' :: after ∧ c ≠ '\n'
  | .unknownToken first =>
    ∃ rest, text = first :: rest ∧ first ≠ '"' ∧ first ≠ '\'' ∧
      ∀ other, other <+: text → ¬ Pattern other

theorem not_faulty_nil {cause : Fault} : ¬ Faulty [] cause := by
  intro faulty
  cases cause with
  | invalidFloat =>
      obtain ⟨digits, rest, _, isDigits, same⟩ := faulty
      simp at same
  | invalidInteger =>
      obtain ⟨digits, rest, _, isDigits, same, _⟩ := faulty
      exact isDigits.nonempty (List.append_eq_nil_iff.1 same.symm).1
  | unterminatedString =>
      obtain ⟨rest, same, _⟩ := faulty
      cases same
  | invalidCharacter =>
      obtain ⟨rest, same, _⟩ := faulty
      cases same
  | unknownToken first =>
      obtain ⟨rest, same, _⟩ := faulty
      cases same

theorem IsDigits.head {first : Char} {rest : List Char} (isDigits : IsDigits (first :: rest)) :
    first.isDigit = true :=
  isDigits.digits first List.mem_cons_self

theorem IsNumber.head {text : List Char} (isNumber : IsNumber text) :
    ∃ first rest, text = first :: rest ∧ first.isDigit = true := by
  cases isNumber with
  | digits isDigits =>
      cases text with
      | nil => exact absurd rfl isDigits.nonempty
      | cons first rest => exact ⟨first, rest, rfl, isDigits.head⟩
  | @float whole fraction isWhole isFraction =>
      cases whole with
      | nil => exact absurd rfl isWhole.nonempty
      | cons first rest => exact ⟨first, rest ++ '.' :: fraction, rfl, isWhole.head⟩

namespace Shape

theorem ofFirst_of_isNameStart {first : Char} (starts : isNameStart first = true) :
    ofFirst first = word := by
  have notEnd : first ≠ '\n' := by
    rintro rfl
    exact absurd starts (by decide)
  simp [ofFirst, notEnd, starts]

theorem ofFirst_of_isDigit {first : Char} (isDigit : first.isDigit = true) :
    ofFirst first = number := by
  have notEnd : first ≠ '\n' := by
    rintro rfl
    exact absurd isDigit (by decide)
  simp [ofFirst, notEnd, isNameStart_of_isDigit isDigit, isDigit]

/-- The first character of a text tells its shape. -/
theorem Has.head {shape : Shape} {text : List Char} (has : shape.Has text) :
    ∃ first rest, text = first :: rest ∧ ofFirst first = shape := by
  cases shape with
  | newline => exact ⟨_, _, has, rfl⟩
  | word =>
      cases text with
      | nil => exact absurd has.starts (by decide)
      | cons first rest =>
          exact ⟨first, rest, rfl, ofFirst_of_isNameStart (by simpa using has.starts)⟩
  | number =>
      obtain ⟨first, rest, same, isDigit⟩ := IsNumber.head has
      exact ⟨first, rest, same, ofFirst_of_isDigit isDigit⟩
  | string =>
      obtain ⟨body, _, rfl⟩ := has
      exact ⟨_, _, rfl, by decide⟩
  | character =>
      obtain ⟨c, _, rfl⟩ := has
      exact ⟨_, _, rfl, by decide⟩
  | mark =>
      obtain ⟨mark, rfl⟩ := has
      cases mark <;> exact ⟨_, _, rfl, by decide⟩

end Shape

/-- The longest text of the shape that the first character tells is the longest
token. -/
theorem Longest.pattern {shape : Shape} {text found : List Char}
    (longest : Longest shape.Has text found) : Longest Pattern text found := by
  refine ⟨longest.inFront, ⟨shape, longest.has⟩, ?_⟩
  rintro other inside ⟨shape', has⟩
  obtain ⟨first, rest, rfl, ofFirst⟩ := longest.has.head
  obtain ⟨first', rest', rfl, ofFirst'⟩ := has.head
  obtain ⟨after, rfl⟩ := longest.inFront
  obtain ⟨rfl, _⟩ := List.cons_prefix_cons.1 inside
  obtain rfl := ofFirst'.symm.trans ofFirst
  exact longest.longest _ inside has

namespace Mark

/-- Longer marks come first. -/
theorem pairwise_all :
    Mark.all.Pairwise fun one other =>
      other.spelling.toList.length ≤ one.spelling.toList.length := by
  decide

theorem mem_all (mark : Mark) : mark ∈ Mark.all := by
  cases mark <;> decide

end Mark

theorem length_le_takeWhile {p : Char → Bool} {text other : List Char} (inside : other <+: text)
    (holds : ∀ c ∈ other, p c = true) : other.length ≤ (text.takeWhile p).length := by
  obtain ⟨rest, rfl⟩ := inside
  rw [List.takeWhile_append_of_pos holds, List.length_append]
  exact Nat.le_add_right ..

namespace Lexer

variable {first : Char} {rest text lexeme : List Char} {kind : Kind} {cause : Fault}

/-! ## Words -/

theorem word_longest (starts : isNameStart first = true)
    (found : word (first :: rest) = .lexeme kind lexeme) :
    Longest IsWord (first :: rest) lexeme := by
  have same : lexeme = (first :: rest).takeWhile isNamePart := by
    rw [word] at found
    split at found
    all_goals
      cases found
      rfl
  subst same
  refine ⟨List.takeWhile_prefix _, ⟨?_, fun c => of_mem_takeWhile⟩, fun other inside isWord => ?_⟩
  · simp [isNamePart_of_isNameStart starts, starts]
  · exact length_le_takeWhile inside isWord.letters

theorem word_ne_fault : word text ≠ .fault cause := by
  intro found
  rw [word] at found
  split at found
  all_goals cases found

/-! ## Numbers -/

/-- Digits in front of a text, up to the first other character. -/
theorem isDigits_takeWhile (starts : first.isDigit = true) :
    IsDigits ((first :: rest).takeWhile Char.isDigit) := by
  refine ⟨?_, fun c => of_mem_takeWhile⟩
  simp [starts]

/-- The point of a float comes after all digits in front of it. -/
theorem takeWhile_of_float {whole fraction : List Char} (isWhole : IsDigits whole)
    (inside : whole ++ '.' :: fraction <+: text) :
    text.takeWhile Char.isDigit = whole ∧
      ∃ after, text.drop whole.length = '.' :: after ∧ fraction <+: after := by
  obtain ⟨after, rfl⟩ := inside
  rw [List.append_assoc, List.cons_append]
  refine ⟨takeWhile_append isWhole.digits rfl, fraction ++ after, ?_, List.prefix_append ..⟩
  exact List.drop_left

theorem drop_takeWhile_eq (p : Char → Bool) (text : List Char) :
    text = text.takeWhile p ++ text.drop (text.takeWhile p).length :=
  (List.prefix_iff_eq_append.1 (List.takeWhile_prefix p)).symm

/-- Digits are the longest number where no float stands in front. -/
theorem digits_longest (starts : first.isDigit = true)
    (noFloat : ∀ after, (first :: rest).drop ((first :: rest).takeWhile Char.isDigit).length =
      '.' :: after → after.takeWhile Char.isDigit = []) :
    Longest IsNumber (first :: rest) ((first :: rest).takeWhile Char.isDigit) := by
  refine ⟨List.takeWhile_prefix _, .digits (isDigits_takeWhile starts),
    fun other inside isNumber => ?_⟩
  cases isNumber with
  | digits isDigits => exact length_le_takeWhile inside isDigits.digits
  | @float whole fraction isWhole isFraction =>
      obtain ⟨taken, after, ahead, inFront⟩ := takeWhile_of_float isWhole inside
      have longer := length_le_takeWhile inFront isFraction.digits
      rw [noFloat after (by rw [taken]; exact ahead)] at longer
      exact absurd (List.length_eq_zero_iff.1 (Nat.le_zero.1 longer)) isFraction.nonempty

theorem float_longest {after : List Char} (starts : first.isDigit = true)
    (point : (first :: rest).drop ((first :: rest).takeWhile Char.isDigit).length = '.' :: after)
    (some : after.takeWhile Char.isDigit ≠ []) :
    Longest IsNumber (first :: rest)
      ((first :: rest).takeWhile Char.isDigit ++ '.' :: after.takeWhile Char.isDigit) := by
  refine ⟨?_, .float (isDigits_takeWhile starts) ⟨some, fun c => of_mem_takeWhile⟩, ?_⟩
  · have inFront : '.' :: after.takeWhile Char.isDigit <+: '.' :: after :=
      List.cons_prefix_cons.2 ⟨rfl, List.takeWhile_prefix _⟩
    rw [← point] at inFront
    have whole := (List.prefix_append_right_inj
      ((first :: rest).takeWhile Char.isDigit)).2 inFront
    rwa [← drop_takeWhile_eq] at whole
  · intro other inside isNumber
    rw [List.length_append, List.length_cons]
    cases isNumber with
    | digits isDigits =>
        have shorter := length_le_takeWhile inside isDigits.digits
        omega
    | @float whole fraction isWhole isFraction =>
        obtain ⟨taken, after', ahead, inFront⟩ := takeWhile_of_float isWhole inside
        rw [taken, ahead] at point
        cases point
        have shorter := length_le_takeWhile inFront isFraction.digits
        rw [taken, List.length_append, List.length_cons]
        omega

theorem number_longest (starts : first.isDigit = true)
    (found : number (first :: rest) = .lexeme kind lexeme) :
    Longest IsNumber (first :: rest) lexeme := by
  simp only [number] at found
  split at found
  · rename_i after point
    split at found
    · cases found
    · rename_i some
      cases found
      exact float_longest starts point some
  · rename_i noPoint
    split at found
    · cases found
      exact digits_longest starts fun after point => absurd point (noPoint after)
    · cases found

/-- The numbers from which on there is no integer. -/
theorem not_fits_iff {n : Nat} : ¬ Integer.Fits n ↔ Nat.pow 2 63 - 1 < n := by
  have bound : Nat.pow 2 63 - 1 = 9223372036854775807 := rfl
  rw [bound, Integer.Fits]
  omega

theorem number_faulty (starts : first.isDigit = true)
    (found : number (first :: rest) = .fault cause) : Faulty (first :: rest) cause := by
  have split := drop_takeWhile_eq Char.isDigit (first :: rest)
  have isDigits := @isDigits_takeWhile first rest starts
  simp only [number] at found
  split at found
  · rename_i after point
    split at found
    · rename_i none
      cases found
      refine ⟨_, after, digits_longest starts ?_, isDigits, ?_⟩
      · intro after' point'
        rw [point] at point'
        cases point'
        exact none
      · rwa [point] at split
    · cases found
  · rename_i noPoint
    split at found
    · cases found
    · rename_i large
      cases found
      refine ⟨_, _, digits_longest starts fun after point => absurd point (noPoint after), isDigits,
        split, ?_, ?_⟩
      · intro point
        obtain ⟨after, ahead⟩ := List.head?_eq_some_iff.1 point
        exact noPoint after ahead
      · exact not_fits_iff.1 large

/-- A longer number would go on after the digits. -/
theorem takeWhile_of_longest {digits after : List Char} (isDigits : IsDigits digits)
    (longest : Longest IsNumber (digits ++ after) digits) :
    (digits ++ after).takeWhile Char.isDigit = digits := by
  refine takeWhile_append isDigits.digits ?_
  cases after with
  | nil => rfl
  | cons c after =>
      refine Bool.eq_false_iff.2 fun isDigit => ?_
      have more : IsDigits (digits ++ [c]) := by
        refine ⟨List.append_ne_nil_of_right_ne_nil _ nofun, ?_⟩
        refine List.forall_mem_append.2 ⟨isDigits.digits, List.forall_mem_singleton.2 ?_⟩
        simpa using isDigit
      have inside : digits ++ [c] <+: digits ++ c :: after :=
        (List.prefix_append_right_inj _).2 (List.cons_prefix_cons.2 ⟨rfl, List.nil_prefix⟩)
      have shorter := longest.longest _ inside (.digits more)
      rw [List.length_append, List.length_singleton] at shorter
      omega

theorem number_of_noFraction {digits after : List Char} (isDigits : IsDigits digits)
    (longest : Longest IsNumber (digits ++ '.' :: after) digits) :
    number (digits ++ '.' :: after) = .fault .invalidFloat := by
  have none : after.takeWhile Char.isDigit = [] := by
    refine Classical.byContradiction fun some => ?_
    have isFloat : IsNumber (digits ++ '.' :: after.takeWhile Char.isDigit) :=
      .float isDigits ⟨some, fun c => of_mem_takeWhile⟩
    have inside : digits ++ '.' :: after.takeWhile Char.isDigit <+: digits ++ '.' :: after :=
      (List.prefix_append_right_inj _).2
        (List.cons_prefix_cons.2 ⟨rfl, List.takeWhile_prefix _⟩)
    have shorter := longest.longest _ inside isFloat
    rw [List.length_append, List.length_cons] at shorter
    omega
  simp [number, takeWhile_of_longest isDigits longest, none]

theorem number_of_large {digits after : List Char} (isDigits : IsDigits digits)
    (longest : Longest IsNumber (digits ++ after) digits) (noPoint : after.head? ≠ some '.')
    (large : Nat.pow 2 63 - 1 < decimalValue digits) :
    number (digits ++ after) = .fault .invalidInteger := by
  have outside : ¬ Integer.Fits (decimalValue digits) := not_fits_iff.2 large
  simp only [number, takeWhile_of_longest isDigits longest, List.drop_left, if_neg outside]
  split
  · exact absurd rfl noPoint
  · rfl

/-! ## Quoted texts -/

theorem ne_quote {body : List Char} (closed : '"' ∉ body) : ∀ c ∈ body, (c != '"') = true := by
  intro c member
  simp only [bne_iff_ne, ne_eq]
  rintro rfl
  exact closed member

theorem quotedString_longest (found : quotedString rest = .lexeme kind lexeme) :
    Longest Shape.string.Has ('"' :: rest) lexeme := by
  have split := drop_takeWhile_eq (· != '"') rest
  simp only [quotedString] at found
  split at found
  · cases found
  · rename_i quote after ahead
    cases found
    obtain rfl : quote = '"' := by
      rw [drop_length_takeWhile] at ahead
      have stops := List.head?_dropWhile_not (· != '"') rest
      rw [ahead] at stops
      simpa using stops
    rw [ahead] at split
    refine ⟨?_, ⟨_, fun member => ?_, rfl⟩, ?_⟩
    · have whole := (List.prefix_append_right_inj (rest.takeWhile (· != '"'))).2
        (List.cons_prefix_cons.2 ⟨@rfl _ '"', @List.nil_prefix _ after⟩)
      rw [← split] at whole
      exact List.cons_prefix_cons.2 ⟨rfl, whole⟩
    · simpa using of_mem_takeWhile member
    · rintro _ inside ⟨body, closed, rfl⟩
      obtain ⟨_, inside⟩ := List.cons_prefix_cons.1 inside
      have inFront : body <+: rest := (List.prefix_append ..).trans inside
      have shorter := length_le_takeWhile inFront (ne_quote closed)
      simp only [List.length_cons, List.length_append, List.length_nil]
      omega

theorem quotedString_faulty (found : quotedString rest = .fault cause) :
    Faulty ('"' :: rest) cause := by
  have split := drop_takeWhile_eq (· != '"') rest
  simp only [quotedString] at found
  split at found
  · rename_i ahead
    cases found
    rw [ahead, List.append_nil] at split
    refine ⟨rest, rfl, fun member => ?_⟩
    rw [split] at member
    simpa using of_mem_takeWhile member
  · cases found

theorem quotedString_of_noQuote (noQuote : '"' ∉ rest) :
    quotedString rest = .fault .unterminatedString := by
  have taken := takeWhile_append (ne_quote noQuote) (@rfl _ (([] : List Char).head?.any (· != '"')))
  rw [List.append_nil] at taken
  simp [quotedString, taken]

theorem quotedCharacter_longest (found : quotedCharacter rest = .lexeme kind lexeme) :
    Longest Shape.character.Has ('\'' :: rest) lexeme := by
  rw [quotedCharacter.eq_def] at found
  split at found
  · rename_i c after
    split at found
    · cases found
    · rename_i onLine
      cases found
      refine ⟨⟨after, rfl⟩, ⟨c, by simpa using onLine, rfl⟩, ?_⟩
      rintro _ _ ⟨c', _, rfl⟩
      exact Nat.le_refl _
  · cases found

theorem quotedCharacter_eq_fault_iff : quotedCharacter rest = .fault cause ↔
    cause = .invalidCharacter ∧ ¬ ∃ c after, rest = c :: '\'' :: after ∧ c ≠ '\n' := by
  rw [quotedCharacter.eq_def]
  split
  · rename_i c after
    by_cases onLine : c = '\n'
    · simp [onLine, eq_comm]
    · simp [onLine]
  · rename_i other
    refine ⟨fun found => ?_, fun reason => by rw [reason.1]⟩
    cases found
    refine ⟨rfl, ?_⟩
    rintro ⟨c, after, rfl, _⟩
    exact other c after rfl

/-! ## Marks -/

theorem sign_longest (found : sign text = .lexeme kind lexeme) :
    Longest Shape.mark.Has text lexeme := by
  rw [sign] at found
  split at found
  · rename_i mark first
    cases found
    obtain ⟨inFront, before, after, split, earlier⟩ := List.find?_eq_some_iff_append.1 first
    refine ⟨List.isPrefixOf_iff_prefix.1 inFront, ⟨mark, rfl⟩, ?_⟩
    rintro _ inside ⟨other, rfl⟩
    have known := other.mem_all
    have ordered := Mark.pairwise_all
    rw [split] at known ordered
    rcases List.mem_append.1 known with among | among
    · have missed := earlier other among
      simp [List.isPrefixOf_iff_prefix.2 inside] at missed
    · rcases List.mem_cons.1 among with rfl | later
      · exact Nat.le_refl _
      · exact (List.pairwise_cons.1 (List.pairwise_append.1 ordered).2.1).1 other later
  · cases found

theorem sign_eq_fault_iff : sign (first :: rest) = .fault cause ↔
    cause = .unknownToken first ∧ ∀ mark : Mark, ¬ mark.spelling.toList <+: first :: rest := by
  rw [sign]
  split
  · rename_i mark found
    rw [Mark.ofFront?] at found
    have starts := List.find?_some found
    refine ⟨fun found => ?_, fun reason => ?_⟩
    · cases found
    · exact absurd (List.isPrefixOf_iff_prefix.1 starts) (reason.2 mark)
  · rename_i none
    have missing : ∀ mark : Mark, ¬ mark.spelling.toList <+: first :: rest := by
      intro mark inside
      have fails := List.find?_eq_none.1 none mark mark.mem_all
      exact fails (List.isPrefixOf_iff_prefix.2 inside)
    refine ⟨fun found => ?_, fun reason => by rw [reason.1]; rfl⟩
    cases found
    exact ⟨rfl, missing⟩

/-! ## The front of a text -/

/-- **What is found at the front of a text is the longest token there.** -/
theorem front_longest (found : front first rest = .lexeme kind lexeme) :
    Longest Pattern (first :: rest) lexeme := by
  rw [front] at found
  split at found
  · cases found
  split at found
  · cases found
  split at found
  · rename_i isNewline
    cases found
    rw [beq_iff_eq.1 isNewline]
    have single : Longest Shape.newline.Has ('\n' :: rest) ['\n'] :=
      ⟨⟨rest, rfl⟩, rfl, fun other _ same => Nat.le_of_eq (congrArg List.length same)⟩
    exact single.pattern
  split at found
  · rename_i starts
    have longest : Longest Shape.word.Has (first :: rest) lexeme := word_longest starts found
    exact longest.pattern
  split at found
  · rename_i starts
    have longest : Longest Shape.number.Has (first :: rest) lexeme := number_longest starts found
    exact longest.pattern
  split at found
  · rename_i isQuote
    rw [beq_iff_eq.1 isQuote]
    exact (quotedString_longest found).pattern
  split at found
  · rename_i isQuote
    rw [beq_iff_eq.1 isQuote]
    exact (quotedCharacter_longest found).pattern
  · exact (sign_longest found).pattern

theorem front_faulty (found : front first rest = .fault cause) : Faulty (first :: rest) cause := by
  rw [front] at found
  split at found
  · cases found
  split at found
  · cases found
  split at found
  · cases found
  split at found
  · exact absurd found word_ne_fault
  split at found
  · rename_i starts
    exact number_faulty starts found
  split at found
  · rename_i isQuote
    rw [beq_iff_eq.1 isQuote]
    exact quotedString_faulty found
  split at found
  · rename_i isQuote
    rw [beq_iff_eq.1 isQuote]
    obtain ⟨rfl, other⟩ := quotedCharacter_eq_fault_iff.1 found
    exact ⟨rest, rfl, other⟩
  · rename_i notEnd notName notDigit notString notCharacter
    obtain ⟨rfl, noMark⟩ := sign_eq_fault_iff.1 found
    refine ⟨rest, rfl, by simpa using notString, by simpa using notCharacter, ?_⟩
    rintro other inside ⟨shape, has⟩
    obtain ⟨c, others, rfl, ofFirst⟩ := has.head
    obtain ⟨rfl, _⟩ := List.cons_prefix_cons.1 inside
    obtain rfl : shape = .mark := by
      simp [← ofFirst, Shape.ofFirst, notEnd, notName, notDigit, notString, notCharacter]
    obtain ⟨mark, same⟩ := has
    exact noMark mark (same ▸ inside)

/-- Every fault is found, if it does not stand behind a gap. -/
theorem front_of_faulty (notBlank : isBlank first = false) (notComment : first ≠ '#')
    (faulty : Faulty (first :: rest) cause) : front first rest = .fault cause := by
  cases cause with
  | invalidFloat =>
      obtain ⟨digits, after, longest, isDigits, same⟩ := faulty
      cases digits with
      | nil => exact absurd rfl isDigits.nonempty
      | cons c digits =>
          rw [same] at longest
          cases same
          rw [front_of_isDigit isDigits.head]
          exact number_of_noFraction isDigits longest
  | invalidInteger =>
      obtain ⟨digits, after, longest, isDigits, same, noPoint, large⟩ := faulty
      cases digits with
      | nil => exact absurd rfl isDigits.nonempty
      | cons c digits =>
          rw [same] at longest
          cases same
          rw [front_of_isDigit isDigits.head]
          exact number_of_large isDigits longest noPoint large
  | unterminatedString =>
      obtain ⟨_, same, noQuote⟩ := faulty
      cases same
      exact quotedString_of_noQuote noQuote
  | invalidCharacter =>
      obtain ⟨_, same, other⟩ := faulty
      cases same
      exact quotedCharacter_eq_fault_iff.2 ⟨rfl, other⟩
  | unknownToken c =>
      obtain ⟨_, same, notString, notCharacter, noPattern⟩ := faulty
      cases same
      have notEnd : first ≠ '\n' := by
        rintro rfl
        exact noPattern ['\n'] ⟨rest, rfl⟩ ⟨.newline, rfl⟩
      have notName : isNameStart first = false := by
        refine Bool.eq_false_iff.2 fun starts => ?_
        have isWord : IsWord [first] := ⟨by simpa using starts, by
          simpa using isNamePart_of_isNameStart starts⟩
        exact noPattern [first] ⟨rest, rfl⟩ ⟨.word, isWord⟩
      have notDigit : first.isDigit = false := by
        refine Bool.eq_false_iff.2 fun isDigit => ?_
        have isDigits : IsDigits [first] := ⟨nofun, by simpa using isDigit⟩
        exact noPattern [first] ⟨rest, rfl⟩ ⟨.number, .digits isDigits⟩
      have marks : front first rest = sign (first :: rest) := by
        simp [front, notBlank, notComment, notEnd, notName, notDigit, notString, notCharacter]
      rw [marks]
      exact sign_eq_fault_iff.2 ⟨rfl, fun mark inside => noPattern _ inside ⟨.mark, mark, rfl⟩⟩

end Lexer

end Pseudocode
