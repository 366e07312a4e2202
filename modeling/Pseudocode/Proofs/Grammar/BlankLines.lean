import Pseudocode.Proofs.Grammar.Resumption
import Pseudocode.Proofs.Grammar.Settles

/-!
# Blank lines

A program is read line by line, but how many ends of lines stand in a row does not matter, nor
do the numbers of the lines. Two texts with the same tokens up to this (`Lexed.condensed`) are
read as the same program, or they fail for the same reason
(`Program.parse_eq_up_to_blankLines`).

The readings of the two texts are compared place by place. Places belong together if the same
token is in view and the texts after it are the same up to blank lines. Where the token in view
is the end of a line, the blank lines that follow it do not count.
-/

set_option autoImplicit false

namespace Pseudocode

/-! ## Texts without blank lines -/

/-- A token without its line. -/
def Token.content (token : Token) : Kind × String := (token.kind, token.lexeme)

/-- Whether a token is the end of a line. -/
def isNewline (content : Kind × String) : Bool := content.1 == .newline

/-- Leaves out the ends of lines that come right after another one. It is given whether one
comes right before. -/
def dropBlankLines : Bool → List (Kind × String) → List (Kind × String)
  | _, [] => []
  | afterNewline, first :: rest =>
    if afterNewline && isNewline first then dropBlankLines true rest
    else first :: dropBlankLines (isNewline first) rest

/-- What keeps a text from being read to its end. -/
def Lexed.fault? (lexed : Lexed) : Option Fault :=
  match lexed.ending with
  | .ok _ => none
  | .error error => some error.fault

/-- The tokens of a text with one end of a line for each row of them and none at the beginning,
and how the text ends. -/
def Lexed.condensed (lexed : Lexed) : List (Kind × String) × Option Fault :=
  ((dropBlankLines false (lexed.tokens.map Token.content)).dropWhile isNewline, lexed.fault?)

/-- A text after the blank lines at its beginning. -/
def Lexed.afterBlankLines (lexed : Lexed) : Lexed :=
  { lexed with tokens := lexed.tokens.dropWhile (·.kind == .newline) }

theorem dropWhile_dropBlankLines (contents : List (Kind × String)) :
    (dropBlankLines true contents).dropWhile isNewline = dropBlankLines true contents := by
  induction contents with
  | nil => rfl
  | cons first rest ih =>
      by_cases newline : isNewline first = true
      · simpa [dropBlankLines, newline] using ih
      · simp [dropBlankLines, newline]

/-- A text is condensed as if it came after the end of a line. -/
theorem Lexed.condensed_eq (lexed : Lexed) :
    lexed.condensed = (dropBlankLines true (lexed.tokens.map Token.content), lexed.fault?) := by
  rw [condensed]
  cases lexed.tokens.map Token.content with
  | nil => rfl
  | cons first rest =>
      by_cases newline : isNewline first = true
      · simp [dropBlankLines, newline, dropWhile_dropBlankLines]
      · simp [dropBlankLines, newline]

theorem Lexed.contents_afterBlankLines (lexed : Lexed) :
    dropBlankLines true (lexed.tokens.map Token.content) =
      dropBlankLines false (lexed.afterBlankLines.tokens.map Token.content) := by
  rw [afterBlankLines]
  induction lexed.tokens with
  | nil => rfl
  | cons first rest ih =>
      have same : (first.kind == .newline) = isNewline first.content := rfl
      by_cases newline : isNewline first.content = true
      · simpa [dropBlankLines, same, newline] using ih
      · simp [dropBlankLines, same, newline]

/-! ## The same error on another line -/

/-- The same error on the given line. -/
def LexicalError.onLine (line : Nat) (error : LexicalError) : LexicalError := { error with line }

/-- The same error on the given line. -/
def GrammarError.onLine (line : Nat) : GrammarError → GrammarError
  | .lexical error => .lexical (error.onLine line)
  | .unexpected expected found _ => .unexpected expected found line
  | .badSyntax _ => .badSyntax line

/-- The same error on the given line. Errors of a run have no line. -/
def Error.onLine (line : Nat) : Error → Error
  | .lexical error => .lexical (error.onLine line)
  | .grammar error => .grammar (error.onLine line)
  | .runtime error => .runtime error

theorem Error.ofGrammar_onLine (line : Nat) (error : GrammarError) :
    ofGrammar (error.onLine line) = (ofGrammar error).onLine line := by
  cases error <;> rfl

theorem LexicalError.eq_onLine {error other : LexicalError} (same : error.fault = other.fault) :
    other = error.onLine other.line := by
  simp [onLine, same]

/-- Where a literal cannot be read, the error is on the line of its token. -/
theorem Literal.ofToken_onLine {token other : Token} (same : token.content = other.content) :
    ofToken other = (ofToken token).mapError (LexicalError.onLine other.line) := by
  have kinds : token.kind = other.kind := congrArg Prod.fst same
  have lexemes : token.lexeme = other.lexeme := congrArg Prod.snd same
  simp only [ofToken, kinds, lexemes]
  split
  · rfl
  · rfl
  · cases integer? other.lexeme.toList <;> rfl
  · cases float? other.lexeme.toList <;> rfl
  · cases (unquote? '\'' other.lexeme.toList).bind List.head? <;> rfl
  · cases (unquote? '"' other.lexeme.toList).map String.ofList <;> rfl

namespace Parse

/-! ## Places that belong together -/

/-- Texts that are the same up to blank lines. -/
def upToBlankLines : Correspondence where
  tokens token other := token.content = other.content
  places cursor other := cursor.current.content = other.current.content ∧
    dropBlankLines (isNewline cursor.current.content) (cursor.rest.map Token.content) =
      dropBlankLines (isNewline other.current.content) (other.rest.map Token.content) ∧
    Lexed.fault? ⟨cursor.rest, cursor.stop⟩ = Lexed.fault? ⟨other.rest, other.stop⟩
  openings cursor other := ∃ text text', Cursor.ofLexed text = .ok cursor ∧
    Cursor.ofLexed text' = .ok other ∧ text.condensed = text'.condensed
  errors error _ other _ := ∃ line, other = error.onLine line

theorem upToBlankLines_steady : upToBlankLines.Steady where
  kinds same := congrArg Prod.fst same
  lexemes same := congrArg Prod.snd same
  inView same := same.1
  unexpected {cursor cursor'} same expected := by
    have kinds : cursor.current.kind = cursor'.current.kind := congrArg Prod.fst same.1
    exact ⟨cursor'.current.line, by rw [GrammarError.onLine, kinds]⟩
  badSyntax {cursor cursor'} same := ⟨cursor'.current.line, rfl⟩
  literal {token other} alike {cursor cursor'} same := by
    rw [Grammar.literalOf, Grammar.literalOf, Literal.ofToken_onLine alike]
    cases Literal.ofToken token with
    | ok literal => exact .read same (Nat.le_refl _) (Nat.le_refl _)
    | error error => exact .failed ⟨other.line, rfl⟩

/-- Texts with the same tokens start at places that belong together. -/
theorem upToBlankLines_next {text text' : Lexed} (cursor cursor' : Cursor)
    (same : dropBlankLines false (text.tokens.map Token.content) =
      dropBlankLines false (text'.tokens.map Token.content))
    (ends : text.fault? = text'.fault?) :
    upToBlankLines.Next cursor cursor' (Cursor.ofLexed text) (Cursor.ofLexed text') := by
  obtain ⟨tokens, stop⟩ := text
  obtain ⟨tokens', stop'⟩ := text'
  cases tokens with
  | nil =>
      cases tokens' with
      | cons token' rest' => simp [dropBlankLines] at same
      | nil =>
          cases stop with
          | ok line =>
              cases stop' with
              | ok line' => exact .moved ⟨rfl, rfl, rfl⟩
              | error error' => simp [Lexed.fault?] at ends
          | error fault =>
              cases stop' with
              | ok line' => simp [Lexed.fault?] at ends
              | error fault' =>
                  have faults : fault.error.fault = fault'.error.fault := Option.some.inj ends
                  exact .stopped ⟨fault'.error.line, congrArg _ (LexicalError.eq_onLine faults)⟩
  | cons token rest =>
      cases tokens' with
      | nil => simp [dropBlankLines] at same
      | cons token' rest' =>
          simp only [List.map_cons, dropBlankLines, Bool.false_and, Bool.false_eq_true, if_false,
            List.cons.injEq] at same
          exact .moved ⟨same.1, same.2, ends⟩

/-- The same holds after blank lines. -/
theorem upToBlankLines_nextAfter {text text' : Lexed} (cursor cursor' : Cursor)
    (same : dropBlankLines true (text.tokens.map Token.content) =
      dropBlankLines true (text'.tokens.map Token.content))
    (ends : text.fault? = text'.fault?) :
    upToBlankLines.Next cursor cursor' (Cursor.ofLexed text.afterBlankLines)
      (Cursor.ofLexed text'.afterBlankLines) := by
  rw [Lexed.contents_afterBlankLines, Lexed.contents_afterBlankLines] at same
  exact upToBlankLines_next cursor cursor' same ends

/-! ## Passing over blank lines -/

/-- A rule leads to the first token after blank lines, or fails if this cannot be read. -/
def Lands (moved : Nat) (rule : Parse Unit) (cursor : Cursor) :
    Except LexicalError Cursor → Prop
  | .ok after => rule cursor = .ok () after ∧ after.size + moved ≤ cursor.size
  | .error error => ∃ place, rule cursor = .error (.lexical error) place

theorem Lands.weaken {moved : Nat} {rule : Parse Unit} {cursor : Cursor}
    {goal : Except LexicalError Cursor} (lands : Lands moved rule cursor goal) :
    Lands 0 rule cursor goal := by
  cases goal with
  | error error => exact lands
  | ok after => exact ⟨lands.1, by have fewer := lands.2; omega⟩

theorem Lands.outcome {moved : Nat} {rule : Parse Unit} {cursor cursor' : Cursor}
    {goal goal' : Except LexicalError Cursor} (lands : Lands moved rule cursor goal)
    (lands' : Lands moved rule cursor' goal')
    (same : upToBlankLines.Next cursor cursor' goal goal') :
    upToBlankLines.Outcome moved cursor cursor' (rule cursor) (rule cursor') := by
  cases same with
  | moved there =>
      rw [lands.1, lands'.1]
      exact .read there lands.2 lands'.2
  | stopped blamed =>
      obtain ⟨place, failed⟩ := lands
      obtain ⟨place', failed'⟩ := lands'
      rw [failed, failed']
      exact .failed blamed

/-- Only the end of a text can be out of reach. -/
theorem afterBlankLines_of_error {text : Lexed} {error : LexicalError}
    (unread : Cursor.ofLexed text = .error error) : text.afterBlankLines = text := by
  obtain ⟨tokens, stop⟩ := text
  cases tokens with
  | nil => rfl
  | cons token rest => cases unread

/-- Moving on from the end of a line, and over the blank lines after it. -/
theorem lands_of_advance {cursor : Cursor} (newline : cursor.current.kind = .newline)
    {rule next : Parse Unit} (same : rule cursor = (advance >>= fun _ => next) cursor)
    (lands : ∀ after, cursor.next = .ok after →
      Lands 0 next after (Cursor.ofLexed (Lexed.afterBlankLines ⟨cursor.rest, cursor.stop⟩))) :
    Lands 1 rule cursor (Cursor.ofLexed (Lexed.afterBlankLines ⟨cursor.rest, cursor.stop⟩)) := by
  cases moved : cursor.next with
  | error error =>
      have stopped : advance cursor = .error (.lexical error) cursor.resume := by
        rw [advance, moved]
      have unread : Cursor.ofLexed ⟨cursor.rest, cursor.stop⟩ = .error error := moved
      rw [afterBlankLines_of_error unread, unread]
      exact ⟨cursor.resume, same.trans (Grammar.bind_error stopped)⟩
  | ok later =>
      have passed : advance cursor = .ok cursor.current later := by rw [advance, moved]
      have fewer := Cursor.size_lt_of_next (by simp [newline]) moved
      have onward := lands later moved
      generalize Cursor.ofLexed (Lexed.afterBlankLines ⟨cursor.rest, cursor.stop⟩) = goal
        at onward ⊢
      have step := same.trans (Grammar.bind_ok passed)
      cases goal with
      | error error =>
          obtain ⟨place, failed⟩ := onward
          exact ⟨place, step.trans failed⟩
      | ok after =>
          obtain ⟨read, less⟩ := onward
          exact ⟨step.trans read, by omega⟩

theorem rounds_newline {cursor : Cursor} (newline : cursor.current.kind = .newline) (entry : Token)
    (counter : List Token) :
    rounds (among [.newline]) (fun _ _ => discard advance) (entry :: counter) () cursor =
      (advance >>= fun _ =>
        rounds (among [.newline]) (fun _ _ => discard advance) counter ()) cursor := by
  have asked : among [.newline] cursor.current.kind = some () := among_eq_some.2 (by simp [newline])
  rw [rounds_cons, asked, discard_eq]
  exact congrFun (bind_assoc advance _ _) cursor

theorem rounds_other {cursor : Cursor} (other : cursor.current.kind ≠ .newline) (entry : Token)
    (counter : List Token) :
    rounds (among [.newline]) (fun _ _ => discard advance) (entry :: counter) () cursor =
      .ok () cursor := by
  have asked : among [.newline] cursor.current.kind = none := by simp [among, other]
  rw [rounds_cons, asked]

theorem blankLines_lands {text : Lexed} {cursor : Cursor}
    (here : Cursor.ofLexed text = .ok cursor) :
    Lands 0 blankLines cursor (Cursor.ofLexed text.afterBlankLines) := by
  suffices counted : ∀ counter : List Token, text.tokens.length < counter.length →
      Lands 0 (rounds (among [.newline]) (fun _ _ => discard advance) counter ()) cursor
        (Cursor.ofLexed text.afterBlankLines) from
    counted cursor.allowance (Grammar.length_lt_allowance here)
  obtain ⟨tokens, stop⟩ := text
  intro counter long
  induction tokens generalizing cursor counter with
  | nil =>
      cases counter with
      | nil => cases long
      | cons entry counter =>
          cases stop with
          | error error => cases here
          | ok line =>
              cases here
              exact ⟨rfl, Nat.le_refl _⟩
  | cons token rest ih =>
      cases here
      cases counter with
      | nil => cases long
      | cons entry counter =>
          by_cases newline : token.kind = .newline
          · have skipped : Lexed.afterBlankLines ⟨token :: rest, stop⟩ =
                Lexed.afterBlankLines ⟨rest, stop⟩ := by
              simp [Lexed.afterBlankLines, newline]
            rw [skipped]
            have step := @rounds_newline ⟨token, rest, stop⟩ newline entry counter
            apply (lands_of_advance newline step _).weaken
            intro after moved
            exact ih moved counter (Nat.lt_of_succ_lt_succ long)
          · have stays : Lexed.afterBlankLines ⟨token :: rest, stop⟩ = ⟨token :: rest, stop⟩ := by
              simp [Lexed.afterBlankLines, newline]
            rw [stays]
            exact ⟨rounds_other newline entry counter, Nat.le_refl _⟩

theorem lineEnd_lands {cursor : Cursor} (newline : cursor.current.kind = .newline) :
    Lands 1 lineEnd cursor (Cursor.ofLexed (Lexed.afterBlankLines ⟨cursor.rest, cursor.stop⟩)) :=
  lands_of_advance newline (lineEnd_newline newline) fun _ moved => blankLines_lands moved

/-! ## Reading programs -/

theorem upToBlankLines_lawful : upToBlankLines.Lawful where
  toSteady := upToBlankLines_steady
  passing {cursor cursor'} same _ onLine := by
    obtain ⟨current, rest, ends⟩ := same
    have other : isNewline cursor.current.content = false := by
      simpa [isNewline, Token.content] using onLine
    rw [← current, other] at rest
    exact upToBlankLines_next cursor cursor' rest ends
  opening {cursor cursor'} same := by
    obtain ⟨current, rest, ends⟩ := same
    refine ⟨⟨cursor.current :: cursor.rest, cursor.stop⟩,
      ⟨cursor'.current :: cursor'.rest, cursor'.stop⟩, rfl, rfl, Prod.ext ?_ ends⟩
    simp [Lexed.condensed, dropBlankLines, current, ← rest]
  blankLines {cursor cursor'} same := by
    obtain ⟨text, text', here, here', condensed⟩ := same
    rw [Lexed.condensed_eq, Lexed.condensed_eq, Prod.mk.injEq] at condensed
    have next := upToBlankLines_nextAfter cursor cursor' condensed.1 condensed.2
    exact (blankLines_lands here).outcome (blankLines_lands here') next
  lineEnd {cursor cursor'} same newline := by
    obtain ⟨current, rest, ends⟩ := same
    have newline' : cursor'.current.kind = .newline :=
      (congrArg Prod.fst current).symm.trans newline
    have isNewline : isNewline cursor.current.content = true := by
      simpa [isNewline, Token.content] using newline
    rw [← current, isNewline] at rest
    have next := upToBlankLines_nextAfter cursor cursor' rest ends
    exact (lineEnd_lands newline).outcome (lineEnd_lands newline') next

end Parse

namespace Program

/-- A text that has a fault after its blank lines is not read. -/
theorem parse_of_fault {source : String} {error : LexicalError}
    (unread : Cursor.ofLexed (Lexed.ofSource source).afterBlankLines = .error error) :
    parse source = .error (.lexical error) := by
  rw [parse]
  cases here : Cursor.ofLexed (Lexed.ofSource source) with
  | error other =>
      rw [Parse.afterBlankLines_of_error here, here] at unread
      cases unread
      rfl
  | ok cursor =>
      have lands := Parse.blankLines_lands here
      rw [unread] at lands
      obtain ⟨place, failed⟩ := lands
      have text : Grammar.programText cursor = .error (.lexical error) place :=
        Grammar.bind_error failed
      have whole : Grammar.program cursor = .error (.lexical error) place :=
        Grammar.bind_error text
      simp only [whole]
      rfl

/-- A text that has a token after its blank lines is read from a place on. -/
theorem parse_of_start {source : String} {after : Cursor}
    (there : Cursor.ofLexed (Lexed.ofSource source).afterBlankLines = .ok after) :
    ∃ cursor, Cursor.ofLexed (Lexed.ofSource source) = .ok cursor ∧
      parse source = Grammar.read cursor := by
  cases here : Cursor.ofLexed (Lexed.ofSource source) with
  | ok cursor =>
      refine ⟨cursor, rfl, ?_⟩
      rw [parse, here]
      rfl
  | error error =>
      rw [Parse.afterBlankLines_of_error here, here] at there
      cases there

/-- **Blank lines and the numbers of lines do not matter.** Texts with the same tokens, but for
rows of ends of lines, are read as the same program, or both are refused with the same error
but for its line. -/
theorem parse_eq_up_to_blankLines {source other : String}
    (same : (Lexed.ofSource source).condensed = (Lexed.ofSource other).condensed) :
    (∃ program, parse source = .ok program ∧ parse other = .ok program) ∨
      ∃ error line, parse source = .error error ∧ parse other = .error (error.onLine line) := by
  have contents := same
  rw [Lexed.condensed_eq, Lexed.condensed_eq, Prod.mk.injEq] at contents
  -- Errors are compared without their places, so any will do here.
  have next := Parse.upToBlankLines_nextAfter (.start [] 0) (.start [] 0) contents.1 contents.2
  generalize goal : Cursor.ofLexed (Lexed.ofSource source).afterBlankLines = result at next
  generalize goal' : Cursor.ofLexed (Lexed.ofSource other).afterBlankLines = result' at next
  cases next with
  | stopped blamed =>
      obtain ⟨line, blamed⟩ := blamed
      cases blamed
      exact .inr ⟨_, line, parse_of_fault goal, parse_of_fault goal'⟩
  | moved =>
      obtain ⟨cursor, here, read⟩ := parse_of_start goal
      obtain ⟨cursor', here', read'⟩ := parse_of_start goal'
      have start : Parse.upToBlankLines.openings cursor cursor' := ⟨_, _, here, here', same⟩
      have outcome := Parse.upToBlankLines_lawful.program start
      rw [read, read', Grammar.read, Grammar.read]
      generalize Grammar.program cursor = result at outcome ⊢
      generalize Grammar.program cursor' = result' at outcome ⊢
      cases outcome with
      | read => exact .inl ⟨_, rfl, rfl⟩
      | failed blamed =>
          obtain ⟨line, rfl⟩ := blamed
          exact .inr ⟨_, line, rfl, congrArg Except.error (Error.ofGrammar_onLine line _)⟩

/-- A program with blank lines all over. There is a number too many on the seventh line. -/
def spread : String := "\n\nPROGRAM p\n\n\nBEGIN # begins\nPRINT 1 2\n\nEND"

/-- The same one without blank lines. -/
def dense : String := "PROGRAM p\nBEGIN\nPRINT 1 2\nEND"

theorem spread_eq_up_to_blankLines :
    (Lexed.ofSource spread).condensed = (Lexed.ofSource dense).condensed ∧
      ∃ error line, parse spread = .error error ∧ parse dense = .error (error.onLine line) := by
  have same : (Lexed.ofSource spread).condensed = (Lexed.ofSource dense).condensed := by
    decide +kernel
  have fails : (parse spread).isOk = false := by decide +kernel
  refine ⟨same, ?_⟩
  obtain ⟨program, read, _⟩ | differ := parse_eq_up_to_blankLines same
  · rw [read] at fails
    cases fails
  · exact differ

end Program

end Pseudocode
