import Pseudocode.Grammar.Cursor
import Pseudocode.Proofs.Token.Longest

/-!
# Scanning a text

A text is a gap, then a token, then a shorter text that is scanned in the same way
(`Lexer.Scan`). What stands after the gap is nothing, a fault or a lexeme, and that
decides what the next call for a token gives. Every text is scanned to its end or up
to its first fault (`Lexer.scan_lexFrom`), so that facts about the tokens of a text are
proved by induction on its scan.

The gap in front of a text is the longest one there (`Lexer.gapOf_longest`).
-/

set_option autoImplicit false

namespace Pseudocode

/-- One token before those of a text. -/
def Lexed.push (token : Token) (lexed : Lexed) : Lexed :=
  { lexed with tokens := token :: lexed.tokens }

/-! ## Gaps -/

/-- Blanks and comments, in any order. A comment stays on its line. -/
inductive Gap : List Char → Prop where
  | none : Gap []
  | blank {c : Char} {rest : List Char} (isBlank : Lexer.isBlank c = true) (after : Gap rest) :
      Gap (c :: rest)
  | comment {body rest : List Char} (onLine : '\n' ∉ body) (after : Gap rest) :
      Gap ('#' :: (body ++ rest))

theorem Gap.newline_notMem {text : List Char} (gap : Gap text) : '\n' ∉ text := by
  induction gap with
  | none => exact List.not_mem_nil
  | @blank c rest isBlank after ih =>
      intro member
      rcases List.mem_cons.1 member with rfl | later
      · exact absurd isBlank (by decide)
      · exact ih later
  | comment onLine after ih => simp [onLine, ih]

theorem Gap.count_newline {text : List Char} (gap : Gap text) : text.count '\n' = 0 :=
  List.count_eq_zero.2 gap.newline_notMem

namespace Lexer

/-- The gap in front of a text. -/
def gapOf : List Char → List Char
  | [] => []
  | first :: rest =>
    if isBlank first then first :: gapOf rest
    else if first == '#' then first :: rest.takeWhile (· != '\n')
    else []

/-- The text after the gap in front of it. -/
def afterGap (text : List Char) : List Char := text.drop (gapOf text).length

theorem gap_gapOf (text : List Char) : Gap (gapOf text) := by
  fun_induction gapOf text with
  | case1 => exact .none
  | case2 first rest isBlank ih => exact .blank isBlank ih
  | case3 first rest _ isComment =>
      have onLine : '\n' ∉ rest.takeWhile (· != '\n') := by
        intro member
        simpa using of_mem_takeWhile member
      have whole := Gap.comment onLine .none
      rw [beq_iff_eq.1 isComment]
      rwa [List.append_nil] at whole
  | case4 => exact .none

theorem isPrefix_gapOf (text : List Char) : gapOf text <+: text := by
  fun_induction gapOf text with
  | case1 => exact List.prefix_refl _
  | case2 first rest _ ih => exact List.cons_prefix_cons.2 ⟨rfl, ih⟩
  | case3 first rest => exact List.cons_prefix_cons.2 ⟨rfl, List.takeWhile_prefix _⟩
  | case4 => exact List.nil_prefix

theorem gapOf_append_afterGap (text : List Char) : gapOf text ++ afterGap text = text :=
  List.prefix_iff_eq_append.1 (isPrefix_gapOf text)

/-- No longer gap stands in front of a text. A comment goes on as long as its line
does, so what comes after it cannot be blank. -/
theorem gapOf_longest (text : List Char) : Longest Gap text (gapOf text) := by
  refine ⟨isPrefix_gapOf text, gap_gapOf text, ?_⟩
  fun_induction gapOf text with
  | case1 =>
      intro other inside _
      exact Nat.le_of_eq (congrArg List.length (List.prefix_nil.1 inside))
  | case2 first rest isBlank ih =>
      intro other inside gap
      cases gap with
      | none => exact Nat.zero_le _
      | blank _ after =>
          obtain ⟨_, inRest⟩ := List.cons_prefix_cons.1 inside
          exact Nat.succ_le_succ (ih _ inRest after)
      | comment =>
          obtain ⟨rfl, _⟩ := List.cons_prefix_cons.1 inside
          exact absurd isBlank (by decide)
  | case3 first rest =>
      intro other inside gap
      have onLine := gap.newline_notMem
      cases other with
      | nil => exact Nat.zero_le _
      | cons c others =>
          obtain ⟨_, inside⟩ := List.cons_prefix_cons.1 inside
          refine Nat.succ_le_succ (length_le_takeWhile inside fun c member => ?_)
          simp only [bne_iff_ne, ne_eq]
          rintro rfl
          exact onLine (List.mem_cons_of_mem _ member)
  | case4 first rest notBlank notComment =>
      intro other inside gap
      cases gap with
      | none => exact Nat.le_refl _
      | blank isBlank =>
          obtain ⟨rfl, _⟩ := List.cons_prefix_cons.1 inside
          exact absurd isBlank notBlank
      | comment =>
          obtain ⟨rfl, _⟩ := List.cons_prefix_cons.1 inside
          exact absurd (by decide) notComment

/-- After a gap comes no other one. -/
theorem not_gap_of_afterGap {text rest : List Char} {first : Char}
    (here : afterGap text = first :: rest) : isBlank first = false ∧ first ≠ '#' := by
  fun_induction gapOf text generalizing first rest with
  | case1 => simp [afterGap, gapOf] at here
  | case2 next others isBlank ih =>
      have later : afterGap others = first :: rest := by
        simpa [afterGap, gapOf, isBlank] using here
      exact ih later
  | case3 next others notBlank isComment =>
      have stops := List.head?_dropWhile_not (· != '\n') others
      have rest : others.dropWhile (· != '\n') = first :: rest := by
        rw [← drop_length_takeWhile]
        simpa [afterGap, gapOf, notBlank, isComment] using here
      rw [rest] at stops
      obtain rfl : first = '\n' := by simpa using stops
      decide
  | case4 next others notBlank notComment =>
      have same : next = first := by
        simp [afterGap, gapOf, notBlank, notComment] at here
        exact here.1
      subst same
      exact ⟨Bool.eq_false_iff.2 notBlank, by simpa using notComment⟩

/-! ## One token -/

theorem lexFrom_passing (line : Nat) (text rest : List Char) :
    lexFrom text.length line (text ++ rest) = lexFrom 0 line rest := by
  induction text with
  | nil => rfl
  | cons first text ih => exact ih

/-- Gaps are passed over. -/
theorem lexFrom_afterGap (line : Nat) (text : List Char) :
    lexFrom 0 line text = lexFrom 0 line (afterGap text) := by
  fun_induction gapOf text with
  | case1 => rfl
  | case2 first rest isBlank ih =>
      have skipped : lexFrom 0 line (first :: rest) = lexFrom 0 line rest := by
        simp [lexFrom, front, isBlank]
      rw [skipped, ih]
      simp [afterGap, gapOf, isBlank]
  | case3 first rest notBlank isComment =>
      have passed : lexFrom 0 line (first :: rest) =
          lexFrom (rest.takeWhile (· != '\n')).length line rest := by
        simp [lexFrom, front, notBlank, isComment]
      have skipped := lexFrom_passing line (rest.takeWhile (· != '\n'))
        (rest.dropWhile (· != '\n'))
      rw [List.takeWhile_append_dropWhile] at skipped
      rw [passed, skipped, ← drop_length_takeWhile]
      simp [afterGap, gapOf, notBlank, isComment]
  | case4 first rest notBlank notComment =>
      simp [afterGap, gapOf, notBlank, notComment]

theorem lexFrom_ended (line : Nat) {text : List Char} (atEnd : afterGap text = []) :
    lexFrom 0 line text = ⟨[], .ok line⟩ := by
  rw [lexFrom_afterGap, atEnd, lexFrom]

theorem lexFrom_fault (line : Nat) {text rest : List Char} {first : Char} {cause : Fault}
    (here : afterGap text = first :: rest) (found : front first rest = .fault cause) :
    lexFrom 0 line text = ⟨[], .error ⟨⟨cause, line⟩, afterFault cause (first :: rest)⟩⟩ := by
  rw [lexFrom_afterGap, here, lexFrom, found]

/-- Reading goes on after a token, on the line where the token ends. -/
theorem lexFrom_lexeme (line : Nat) {text rest lexeme after : List Char} {first : Char}
    {kind : Kind} (here : afterGap text = first :: rest)
    (found : front first rest = .lexeme kind lexeme) (split : first :: rest = lexeme ++ after) :
    lexFrom 0 line text =
      (lexFrom 0 (line + lexeme.count '\n') after).push ⟨kind, String.ofList lexeme, line⟩ := by
  have some : lexeme ≠ [] := by
    obtain ⟨_, _, rfl, _⟩ := (front_lexeme found).front []
    nofun
  cases lexeme with
  | nil => exact absurd rfl some
  | cons c others =>
      cases split
      have passed := lexFrom_passing (line + (first :: others).count '\n') others after
      rw [lexFrom_afterGap, here, lexFrom, found]
      simp only [List.length_cons, Nat.add_sub_cancel, List.append_eq, passed]
      rfl

/-- A lexeme with a blank or nothing after it is one token. -/
theorem lexFrom_lexeme_detached {kind : Kind} {lexeme rest : List Char}
    (reads : Lexeme kind lexeme) (detached : Detached rest) (line : Nat) :
    lexFrom 0 line (lexeme ++ rest) =
      (lexFrom 0 (line + lexeme.count '\n') rest).push ⟨kind, String.ofList lexeme, line⟩ := by
  obtain ⟨first, others, rfl, found⟩ := reads.front_detached detached
  have passed := lexFrom_passing (line + (first :: others).count '\n') others rest
  rw [List.cons_append, lexFrom, found]
  simp only [List.length_cons, Nat.add_sub_cancel, passed]
  rfl

theorem lexFrom_lexeme_blank {kind : Kind} {lexeme : List Char} (reads : Lexeme kind lexeme)
    (line : Nat) (rest : List Char) :
    lexFrom 0 line (lexeme ++ ' ' :: rest) =
      (lexFrom 0 (line + lexeme.count '\n') rest).push ⟨kind, String.ofList lexeme, line⟩ :=
  lexFrom_lexeme_detached reads (.blank rfl) line

end Lexer

/-! ## Calls for tokens -/

namespace Lexed

/-- What is in view before the first token. -/
def view (lexed : Lexed) : Except LexicalError Token :=
  (Cursor.ofLexed lexed).map Cursor.current

/-- The place that the calls up to the given one lead to. The first call has the
number zero. -/
def place (lexed : Lexed) : Nat → Except LexicalError Cursor
  | 0 => Cursor.ofLexed lexed
  | n + 1 => do (← lexed.place n).next

/-- What a call for the next token gives. -/
def call (lexed : Lexed) (n : Nat) : Except LexicalError Token :=
  (lexed.place n).map Cursor.current

theorem place_eq (lexed : Lexed) (n : Nat) :
    lexed.place n = Cursor.ofLexed ⟨lexed.tokens.drop n, lexed.stop⟩ := by
  induction n with
  | zero => rfl
  | succ n ih =>
      rw [place, ih, ← List.drop_drop]
      cases lexed.tokens.drop n with
      | cons token rest => rfl
      | nil =>
          cases lexed.stop with
          | ok line => rfl
          | error fault => rfl

theorem call_eq (lexed : Lexed) (n : Nat) :
    lexed.call n = view ⟨lexed.tokens.drop n, lexed.stop⟩ := by
  rw [call, place_eq, view]

theorem call_token {lexed : Lexed} {n : Nat} {token : Token}
    (here : lexed.tokens[n]? = some token) : lexed.call n = .ok token := by
  obtain ⟨short, is⟩ := List.getElem?_eq_some_iff.1 here
  rw [call_eq, List.drop_eq_getElem_cons short, is]
  rfl

theorem call_past {lexed : Lexed} {n : Nat} (past : lexed.tokens.length ≤ n) :
    lexed.call n = lexed.ending.map Token.eof := by
  rw [call_eq, List.drop_eq_nil_of_le past, ending]
  cases lexed.stop <;> rfl

end Lexed

/-! ## One token after the other -/

namespace Lexer

/-- How the tokens of a text come about. -/
inductive Scan : Nat → List Char → Lexed → Prop where
  | ended {line : Nat} {text : List Char} (atEnd : afterGap text = []) :
      Scan line text ⟨[], .ok line⟩
  | fault {line : Nat} {text rest : List Char} {first : Char} {cause : Fault}
      (here : afterGap text = first :: rest) (found : front first rest = .fault cause) :
      Scan line text ⟨[], .error ⟨⟨cause, line⟩, afterFault cause (first :: rest)⟩⟩
  | token {line : Nat} {text rest lexeme after : List Char} {first : Char} {kind : Kind}
      {lexed : Lexed} (here : afterGap text = first :: rest)
      (found : front first rest = .lexeme kind lexeme) (split : first :: rest = lexeme ++ after)
      (later : Scan (line + lexeme.count '\n') after lexed) :
      Scan line text (lexed.push ⟨kind, String.ofList lexeme, line⟩)

theorem front_ne_gap {first : Char} {rest gap : List Char} (notBlank : isBlank first = false)
    (notComment : first ≠ '#') : front first rest ≠ .gap gap := by
  intro found
  simp only [front, notBlank, notComment, beq_iff_eq, Bool.false_eq_true, if_false] at found
  split at found
  · cases found
  split at found
  · simp only [word] at found
    split at found <;> cases found
  split at found
  · simp only [number] at found
    split at found <;> split at found <;> cases found
  split at found
  · simp only [quotedString] at found
    split at found <;> cases found
  split at found
  · rw [quotedCharacter.eq_def] at found
    split at found
    · split at found <;> cases found
    · cases found
  · rw [sign] at found
    split at found <;> cases found

/-- Every text is scanned to its end or up to its first fault. -/
theorem scan_lexFrom (line : Nat) (text : List Char) : Scan line text (lexFrom 0 line text) := by
  generalize size : text.length = n
  induction n using Nat.strongRecOn generalizing line text with
  | ind n ih =>
      cases here : afterGap text with
      | nil =>
          rw [lexFrom_ended line here]
          exact .ended here
      | cons first rest =>
          cases found : front first rest with
          | gap gap =>
              obtain ⟨notBlank, notComment⟩ := not_gap_of_afterGap here
              exact absurd found (front_ne_gap notBlank notComment)
          | fault cause =>
              rw [lexFrom_fault line here found]
              exact .fault here found
          | lexeme kind lexeme =>
              obtain ⟨after, split⟩ := (front_longest found).inFront
              have shorter : after.length < n := by
                obtain ⟨_, _, rfl, _⟩ := (front_lexeme found).front []
                have whole := congrArg List.length (gapOf_append_afterGap text)
                rw [here, ← split] at whole
                simp only [List.length_append, List.length_cons] at whole
                omega
              rw [lexFrom_lexeme line here found split.symm]
              exact .token here found split.symm (ih _ shorter _ _ rfl)

end Lexer

theorem Lexed.scan (source : String) : Lexer.Scan 1 source.toList (Lexed.ofSource source) :=
  Lexer.scan_lexFrom 1 source.toList

end Pseudocode
