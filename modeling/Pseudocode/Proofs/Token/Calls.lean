import Pseudocode.Proofs.Token.Scan

/-!
# Calls for the next token

The text that a call starts from is what the calls before it have left over
(`Lexed.ahead`), up to the first fault. What the call gives is told by the longest
token in front of that text, after the gap there (`Lexed.call_longest`).
-/

set_option autoImplicit false

namespace Pseudocode

open Lexer

/-! ## Words -/

theorem Keyword.isWord (keyword : Keyword) : IsWord keyword.spelling.toList := by
  have letters : keyword.spelling.toList.all isNamePart = true := by
    cases keyword <;> decide
  refine ⟨?_, List.all_eq_true.1 letters⟩
  cases keyword <;> decide

theorem Keyword.ofSpelling?_spelling (keyword : Keyword) :
    ofSpelling? keyword.spelling = some keyword := by
  cases keyword <;> decide

/-- A text is the lexeme of only one kind of token. -/
theorem Lexeme.kind_unique {kind other : Kind} {text : List Char} (one : Lexeme kind text)
    (two : Lexeme other text) : kind = other := by
  obtain ⟨first, rest, rfl, found⟩ := one.front []
  obtain ⟨_, _, same, found'⟩ := two.front []
  cases same
  rw [found] at found'
  injection found'

theorem IsWord.isName {text : List Char} (isWord : IsWord text)
    (free : ∀ keyword : Keyword, text ≠ keyword.spelling.toList) : IsName text := by
  refine ⟨isWord.starts, isWord.letters, ?_⟩
  cases spelled : Keyword.ofSpelling? (String.ofList text) with
  | none => rfl
  | some keyword =>
      rw [Keyword.ofSpelling?] at spelled
      have same : keyword.spelling = String.ofList text := by
        simpa using List.find?_some spelled
      exact absurd (by rw [same, String.toList_ofList]) (free keyword)

theorem IsName.ne_spelling {text : List Char} (isName : IsName text) (keyword : Keyword) :
    text ≠ keyword.spelling.toList := by
  rintro rfl
  have free := isName.free
  rw [String.ofList_toList, Keyword.ofSpelling?_spelling] at free
  cases free

section Words

variable {text lexeme : List Char} {kind : Kind}

theorem Longest.of_pattern (longest : Longest Pattern text lexeme) (isWord : IsWord lexeme) :
    Longest IsWord text lexeme :=
  ⟨longest.inFront, isWord, fun other inside has => longest.longest other inside ⟨.word, has⟩⟩

/-- A word in front of a text is the token there. -/
theorem Longest.eq_of_isWord (longest : Longest Pattern text lexeme) {word : List Char}
    (isWord : Longest IsWord text word) : lexeme = word := by
  have some : Longest Shape.word.Has text word := isWord
  exact longest.unique some.pattern

theorem Longest.keyword_iff (longest : Longest Pattern text lexeme) (reads : Lexeme kind lexeme)
    (keyword : Keyword) :
    kind = .keyword keyword ↔ Longest IsWord text keyword.spelling.toList := by
  constructor
  · rintro rfl
    cases reads
    exact longest.of_pattern keyword.isWord
  · intro isWord
    cases longest.eq_of_isWord isWord
    exact reads.kind_unique (.keyword keyword)

theorem Longest.identifier_iff (longest : Longest Pattern text lexeme)
    (reads : Lexeme kind lexeme) :
    kind = .identifier ↔
      ∃ name, Longest IsWord text name ∧ ∀ keyword : Keyword, name ≠ keyword.spelling.toList := by
  constructor
  · rintro rfl
    cases reads with
    | identifier isName =>
        exact ⟨lexeme, longest.of_pattern ⟨isName.starts, isName.letters⟩, isName.ne_spelling⟩
  · rintro ⟨name, isWord, free⟩
    cases longest.eq_of_isWord isWord
    exact reads.kind_unique (.identifier (isWord.has.isName free))

end Words

/-! ## What a call gives -/

namespace Lexer.Scan

variable {line : Nat} {text : List Char} {lexed : Lexed}

theorem view_eof_iff (scan : Scan line text lexed) :
    afterGap text = [] ↔ ∃ line, lexed.view = .ok (.eof line) := by
  cases scan with
  | @ended line _ atEnd => exact ⟨fun _ => ⟨line, rfl⟩, fun _ => atEnd⟩
  | fault here found =>
      rw [here]
      exact ⟨nofun, nofun⟩
  | @token _ _ _ _ _ _ kind _ here found split later =>
      rw [here]
      refine ⟨nofun, fun ⟨_, seen⟩ => ?_⟩
      have isEof : kind = .eof := congrArg Token.kind (Except.ok.inj seen)
      subst isEof
      nomatch front_lexeme found

theorem view_error_iff (scan : Scan line text lexed) (error : LexicalError) :
    lexed.view = .error error ↔ error.line = line ∧ Faulty (afterGap text) error.fault := by
  cases scan with
  | ended atEnd =>
      rw [atEnd]
      exact ⟨nofun, fun ⟨_, faulty⟩ => absurd faulty not_faulty_nil⟩
  | @fault _ _ _ _ cause here found =>
      rw [here]
      obtain ⟨notBlank, notComment⟩ := not_gap_of_afterGap here
      constructor
      · intro same
        cases same
        exact ⟨rfl, front_faulty found⟩
      · rintro ⟨rfl, faulty⟩
        have again := front_of_faulty notBlank notComment faulty
        rw [found] at again
        cases again
        rfl
  | token here found split later =>
      rw [here]
      obtain ⟨notBlank, notComment⟩ := not_gap_of_afterGap here
      refine ⟨nofun, fun ⟨_, faulty⟩ => ?_⟩
      have again := front_of_faulty notBlank notComment faulty
      rw [found] at again
      cases again

theorem view_token (scan : Scan line text lexed) {token : Token} (seen : lexed.view = .ok token)
    (more : afterGap text ≠ []) :
    token.line = line ∧ Lexeme token.kind token.lexeme.toList ∧
      Longest Pattern (afterGap text) token.lexeme.toList := by
  cases scan with
  | ended atEnd => exact absurd atEnd more
  | fault here found => cases seen
  | token here found split later =>
      cases seen
      rw [here, String.toList_ofList]
      exact ⟨rfl, front_lexeme found, front_longest found⟩

end Lexer.Scan

namespace Lexed

/-- The text that a call for the next token starts from. A call passes over the gap
and the token that it finds. -/
def ahead (source : String) : Nat → List Char
  | 0 => source.toList
  | n + 1 =>
    match (ofSource source).call n with
    | .ok token => (afterGap (ahead source n)).drop token.lexeme.toList.length
    | .error _ => ahead source n

/-- What earlier calls have passed over tells the line on which a call starts. -/
theorem exists_before (source : String) (n : Nat) :
    ∃ before, source.toList = before ++ ahead source n ∧
      Scan (1 + before.count '\n') (ahead source n)
        ⟨(ofSource source).tokens.drop n, (ofSource source).stop⟩ := by
  induction n with
  | zero => exact ⟨[], rfl, scan source⟩
  | succ n ih =>
      obtain ⟨before, whole, scan⟩ := ih
      have gap := gapOf_append_afterGap (ahead source n)
      have noLine := (gap_gapOf (ahead source n)).count_newline
      rw [ahead, call_eq, ← List.drop_drop]
      generalize (ofSource source).tokens.drop n = tokens at scan ⊢
      generalize (ofSource source).stop = stop at scan ⊢
      generalize same : Lexed.mk tokens stop = lexed at scan
      cases scan with
      | ended atEnd =>
          cases same
          change ∃ passed, source.toList = passed ++ afterGap (ahead source n) ∧
            Scan (1 + passed.count '\n') (afterGap (ahead source n)) _
          refine ⟨before ++ gapOf (ahead source n), ?_, ?_⟩
          · rw [List.append_assoc, gap, whole]
          · rw [List.count_append, noLine, Nat.add_zero, atEnd]
            exact .ended rfl
      | fault here found =>
          cases same
          exact ⟨before, whole, .fault here found⟩
      | @token _ _ _ lexeme after _ _ _ here found split later =>
          cases same
          have passed : (afterGap (ahead source n)).drop (String.ofList lexeme).toList.length =
              after := by
            rw [String.toList_ofList, here, split, List.drop_left]
          change ∃ before, source.toList = before ++ (afterGap (ahead source n)).drop _ ∧
            Scan (1 + before.count '\n') ((afterGap (ahead source n)).drop _) _
          rw [passed]
          refine ⟨before ++ (gapOf (ahead source n) ++ lexeme), ?_, ?_⟩
          · rw [List.append_assoc, List.append_assoc, ← split, ← here, gap, whole]
          · rw [List.count_append, List.count_append, noLine, Nat.zero_add, ← Nat.add_assoc]
            exact later

theorem scan_ahead (source : String) (n : Nat) :
    ∃ line, Scan line (ahead source n)
      ⟨(ofSource source).tokens.drop n, (ofSource source).stop⟩ := by
  obtain ⟨before, _, scan⟩ := exists_before source n
  exact ⟨_, scan⟩

/-- **A call finds the longest token.** It passes over the longest gap. What remains
is empty and the call gives the end of the text, or it has one of the five faults and
the call fails with it, or the longest beginning with the shape of a token is the
lexeme of the token given. A word is a keyword exactly if all of it spells the
keyword. -/
theorem call_longest (source : String) (n : Nat) :
    ∃ gap remaining, ahead source n = gap ++ remaining ∧ Longest Gap (ahead source n) gap ∧
      (remaining = [] ↔ ∃ line, (ofSource source).call n = .ok (.eof line)) ∧
      (∀ cause, Faulty remaining cause ↔ ∃ line, (ofSource source).call n = .error ⟨cause, line⟩) ∧
      ∀ token, (ofSource source).call n = .ok token → remaining ≠ [] →
        remaining = token.lexeme.toList ++ ahead source (n + 1) ∧
        Longest Pattern remaining token.lexeme.toList ∧
        Lexeme token.kind token.lexeme.toList ∧
        (∀ keyword, token.kind = .keyword keyword ↔
          Longest IsWord remaining keyword.spelling.toList) ∧
        (token.kind = .identifier ↔ ∃ name, Longest IsWord remaining name ∧
          ∀ keyword : Keyword, name ≠ keyword.spelling.toList) := by
  obtain ⟨line, scan⟩ := scan_ahead source n
  refine ⟨gapOf (ahead source n), afterGap (ahead source n),
    (gapOf_append_afterGap _).symm, gapOf_longest _, ?_, fun cause => ?_, fun token seen more => ?_⟩
  · rw [call_eq]
    exact scan.view_eof_iff
  · rw [call_eq]
    refine ⟨fun faulty => ⟨line, (scan.view_error_iff _).2 ⟨rfl, faulty⟩⟩, ?_⟩
    rintro ⟨_, seen⟩
    exact ((scan.view_error_iff _).1 seen).2
  · have next : ahead source (n + 1) =
        (afterGap (ahead source n)).drop token.lexeme.toList.length := by
      rw [ahead, seen]
    rw [call_eq] at seen
    obtain ⟨_, reads, longest⟩ := scan.view_token seen more
    refine ⟨?_, longest, reads, longest.keyword_iff reads, longest.identifier_iff reads⟩
    rw [next]
    exact List.prefix_iff_eq_append.1 longest.inFront |>.symm

end Lexed

end Pseudocode
