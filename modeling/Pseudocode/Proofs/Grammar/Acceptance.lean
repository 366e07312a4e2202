import Pseudocode.Proofs.Grammar.Completeness
import Pseudocode.Proofs.Grammar.ProgramReading
import Pseudocode.Proofs.Token.Literal

/-!
# The programs that are read

A text without lexical errors is read as a program exactly when its tokens derive
one. What is read is derived (`program_sound`). Conversely the expressions of a
derived program are rows of tokens, which are read in full, if perhaps as other
trees than the derived ones. Putting these trees in the place of the derived ones
(`DerivesProgram.replace`) gives a program that is read.

The two programs need not be the same, since a row may be grouped in several ways
around a `NOT`. The tokens of `NOT a + b` derive the negation of a sum and a sum
with a negation.
-/

set_option autoImplicit false

namespace Pseudocode

namespace Grammar

section Replacement

variable {α β : Type} {item : List Token → α → Prop} {item' : List Token → β → Prop}

/-! ## Other trees for the same tokens -/

theorem Listed.replace (trees : ∀ tokens a, item tokens a → ∃ b, item' tokens b)
    {tokens : List Token} {items : List α} (listed : Listed item tokens items) :
    ∃ items', Listed item' tokens items' := by
  induction listed with
  | one first =>
      obtain ⟨b, first⟩ := trees _ _ first
      exact ⟨_, .one first⟩
  | more before isComma last ih =>
      obtain ⟨items', before⟩ := ih
      obtain ⟨b, last⟩ := trees _ _ last
      exact ⟨_, .more before isComma last⟩

theorem Lines.replace (trees : ∀ tokens a, item tokens a → ∃ b, item' tokens b)
    {tokens : List Token} {items : List α} (lines : Lines item tokens items) :
    ∃ items', Lines item' tokens items' := by
  induction lines with
  | none => exact ⟨_, .none⟩
  | more before last ended ih =>
      obtain ⟨items', before⟩ := ih
      obtain ⟨b, last⟩ := trees _ _ last
      exact ⟨_, .more before last ended⟩

theorem Section.replace (trees : ∀ tokens a, item tokens a → ∃ b, item' tokens b)
    {heading : Keyword} {tokens : List Token} {items : List α}
    (lines : Section item heading tokens items) :
    ∃ items', Section item' heading tokens items' := by
  cases lines with
  | absent => exact ⟨_, .absent⟩
  | present isHeading ended lines =>
      obtain ⟨items', lines⟩ := lines.replace trees
      exact ⟨_, .present isHeading ended lines⟩

end Replacement

variable {expr expr' : List Token → Expr → Prop}
  (trees : ∀ tokens a, expr tokens a → ∃ b, expr' tokens b)

/-- The tokens are a phrase of the same form. -/
def Phrase.Replaceable (expr' : List Token → Expr → Prop) (tokens : List Token) : Phrase → Prop
  | .statement _ => ∃ stmt, DerivesStmt expr' tokens (.statement stmt)
  | .block _ => ∃ statements, DerivesStmt expr' tokens (.block statements)
  | .arms _ => ∃ cases, DerivesStmt expr' tokens (.arms cases)
  | .otherwise opening _ => ∃ statements, DerivesStmt expr' tokens (.otherwise opening statements)

include trees

theorem Indexed.replace {tokens : List Token} {index : Option Expr}
    (indexed : Indexed expr tokens index) : ∃ index', Indexed expr' tokens index' := by
  cases indexed with
  | absent => exact ⟨_, .absent⟩
  | present opens within closes =>
      obtain ⟨index', within⟩ := trees _ _ within
      exact ⟨_, .present opens within closes⟩

theorem Stepped.replace {tokens : List Token} {step : Expr}
    (stepped : Stepped expr tokens step) : ∃ step', Stepped expr' tokens step' := by
  cases stepped with
  | absent => exact ⟨_, .absent⟩
  | present isStep within =>
      obtain ⟨step', within⟩ := trees _ _ within
      exact ⟨_, .present isStep within⟩

theorem DerivesStmt.replace {tokens : List Token} {phrase : Phrase}
    (derived : DerivesStmt expr tokens phrase) : phrase.Replaceable expr' tokens := by
  induction derived with
  | assign opens isName isSign within =>
      obtain ⟨value, within⟩ := trees _ _ within
      exact ⟨_, .assign opens isName isSign within⟩
  | assignAt opens isName starts indexed stops isSign within =>
      obtain ⟨index, indexed⟩ := trees _ _ indexed
      obtain ⟨value, within⟩ := trees _ _ within
      exact ⟨_, .assignAt opens isName starts indexed stops isSign within⟩
  | print opens listed =>
      obtain ⟨values, listed⟩ := listed.replace trees
      exact ⟨_, .print opens listed⟩
  | branch opens tested isThen ended _ _ closes yes no =>
      obtain ⟨condition, tested⟩ := trees _ _ tested
      obtain ⟨yes, runs⟩ := yes
      obtain ⟨no, others⟩ := no
      exact ⟨_, .branch opens tested isThen ended runs others closes⟩
  | whileLoop opens tested isDo ended _ closes body =>
      obtain ⟨condition, tested⟩ := trees _ _ tested
      obtain ⟨body, runs⟩ := body
      exact ⟨_, .whileLoop opens tested isDo ended runs closes⟩
  | forLoop opens isName isFrom firsts isTo lasts steps ended _ closes body =>
      obtain ⟨first, firsts⟩ := trees _ _ firsts
      obtain ⟨last, lasts⟩ := trees _ _ lasts
      obtain ⟨step, steps⟩ := steps.replace trees
      obtain ⟨body, runs⟩ := body
      exact ⟨_, .forLoop opens isName isFrom firsts isTo lasts steps ended runs closes⟩
  | repeatLoop opens isUntil tested ended _ closes body =>
      obtain ⟨condition, tested⟩ := trees _ _ tested
      obtain ⟨body, runs⟩ := body
      exact ⟨_, .repeatLoop opens isUntil tested ended runs closes⟩
  | switch opens switched ended _ _ closes cases otherwise =>
      obtain ⟨scrutinee, switched⟩ := trees _ _ switched
      obtain ⟨cases, runs⟩ := cases
      obtain ⟨otherwise, others⟩ := otherwise
      exact ⟨_, .switch opens switched ended runs others closes⟩
  | resize opens isName isTo within =>
      obtain ⟨size, within⟩ := trees _ _ within
      exact ⟨_, .resize opens isName isTo within⟩
  | noStatements => exact ⟨_, .noStatements⟩
  | moreStatements _ _ ended statements stmt =>
      obtain ⟨statements, before⟩ := statements
      obtain ⟨stmt, last⟩ := stmt
      exact ⟨_, .moreStatements before last ended⟩
  | noArms => exact ⟨_, .noArms⟩
  | moreArms _ isCase valued isColon ended _ cases body =>
      obtain ⟨cases, before⟩ := cases
      obtain ⟨value, valued⟩ := trees _ _ valued
      obtain ⟨body, runs⟩ := body
      exact ⟨_, .moreArms before isCase valued isColon ended runs⟩
  | absent => exact ⟨_, .absent⟩
  | present opens ended _ body =>
      obtain ⟨body, runs⟩ := body
      exact ⟨_, .present opens ended runs⟩

theorem DerivesConstant.replace (tokens : List Token) (constant : Constant)
    (derived : DerivesConstant expr tokens constant) :
    ∃ constant', DerivesConstant expr' tokens constant' := by
  cases derived with
  | constant isName isSign within =>
      obtain ⟨value, within⟩ := trees _ _ within
      exact ⟨_, .constant isName isSign within⟩

theorem DerivesVariables.replace (tokens : List Token) (group : List Variable)
    (derived : DerivesVariables expr tokens group) :
    ∃ group', DerivesVariables expr' tokens group' := by
  cases derived with
  | group listed isColon isType spelled indexed =>
      obtain ⟨size, indexed⟩ := indexed.replace trees
      exact ⟨_, .group listed isColon isType spelled indexed⟩

/-- The expressions of a program may be read as other trees. -/
theorem DerivesProgram.replace {tokens : List Token} {program : Program}
    (derived : DerivesProgram expr tokens program) :
    ∃ program', DerivesProgram expr' tokens program' := by
  cases derived with
  | program blank isProgram isName ended constant declared opens started runs closes rest =>
      obtain ⟨constants, constant⟩ := constant.replace (DerivesConstant.replace trees)
      obtain ⟨groups, declared⟩ := declared.replace (DerivesVariables.replace trees)
      obtain ⟨body, runs⟩ := runs.replace trees
      exact ⟨_, .program blank isProgram isName ended constant declared opens started runs closes
        rest⟩

omit trees

/-! ## Whole texts -/

/-- **A program that is derived can be read,** if perhaps as another tree. -/
theorem program_complete {tokens : List Token} {program : Program}
    (derived : DerivesProgram (Derives .expression) tokens program) :
    ∃ program', Reads Grammar.program tokens program' [] := by
  obtain ⟨program', whole⟩ := derived.replace fun _ _ within => within.row.whole
  exact ⟨program', .program whole⟩

/-- The end of a text is none of its tokens. -/
theorem kind_ne_eof {kind : Kind} {text : List Char} (lexeme : Lexeme kind text) :
    kind ≠ .eof := by
  cases lexeme <;> nofun

/-- Literals that could be lexed stand for values that can be written. -/
theorem stands_of_lexeme {token : Token} (lexeme : Lexeme token.kind token.lexeme.toList)
    (isLiteral : token.kind ∈ literalKinds) :
    ∃ value, Literal.ofToken token = .ok value ∧ value.Printable := by
  obtain ⟨value, read, stands⟩ := Literal.ofToken_of_lexeme lexeme isLiteral
  exact ⟨value, read, stands.printable⟩

end Grammar

namespace Program

open Grammar

variable {source : String} {line : Nat} {program : Program}

theorem parse_eq_ok_iff :
    Program.parse source = .ok program ↔
      ∃ cursor after, Cursor.ofLexed (Lexed.ofSource source) = .ok cursor ∧
        Grammar.program cursor = .ok program after := by
  rw [Program.parse]
  cases here : Cursor.ofLexed (Lexed.ofSource source) with
  | error error => simp
  | ok cursor =>
      cases result : Grammar.program cursor with
      | ok found after => simp [result]
      | error error after => simp [result]

/-- A program that is read uses up all tokens of the text. -/
theorem derives_of_parse (read : Program.parse source = .ok program) :
    DerivesProgram (Derives .expression) (Lexed.ofSource source).tokens program := by
  obtain ⟨cursor, after, here, read⟩ := parse_eq_ok_iff.1 read
  have start : Cursor.ofLexed ⟨(Lexed.ofSource source).tokens, (Lexed.ofSource source).stop⟩ =
      .ok cursor := here
  obtain ⟨atEnd, used, rest, split, there, derived⟩ := program_sound start read
  have ended : rest = [] := by
    cases rest with
    | nil => rfl
    | cons token rest =>
        cases there
        have lexeme := Lexed.ofSource_lexeme source token (by rw [split]; simp)
        exact absurd atEnd (kind_ne_eof lexeme)
  rw [ended, List.append_nil] at split
  rwa [split]

theorem parse_of_reads (lexes : (Lexed.ofSource source).ending = .ok line)
    (reads : Reads Grammar.program (Lexed.ofSource source).tokens program []) :
    Program.parse source = .ok program := by
  have here : Cursor.ofLexed (Lexed.ofSource source) =
      .ok (.start (Lexed.ofSource source).tokens line) := by
    rw [← Cursor.ofLexed_eq_start, ← Lexed.ending_eq_ok.1 lexes]
  exact parse_eq_ok_iff.2 ⟨_, _, here, reads line⟩

/-- **A text without lexical errors is read as a program exactly when its tokens
derive one,** and what is read is what they derive. All of its literals stand for
values, so that whether the tokens derive a program is a matter of their kinds. -/
theorem parse_exactly_derived (lexes : (Lexed.ofSource source).ending = .ok line) :
    (∀ program, Program.parse source = .ok program →
      DerivesProgram (Derives .expression) (Lexed.ofSource source).tokens program) ∧
    ((∃ program, DerivesProgram (Derives .expression) (Lexed.ofSource source).tokens program) →
      ∃ program, Program.parse source = .ok program) ∧
    ∀ token ∈ (Lexed.ofSource source).tokens, token.kind ∈ literalKinds →
      ∃ value, Literal.ofToken token = .ok value := by
  refine ⟨fun program => derives_of_parse, ?_, ?_⟩
  · rintro ⟨program, derived⟩
    obtain ⟨program', reads⟩ := program_complete derived
    exact ⟨program', parse_of_reads lexes reads⟩
  · intro token member isLiteral
    obtain ⟨value, stands, _⟩ :=
      stands_of_lexeme (Lexed.ofSource_lexeme source token member) isLiteral
    exact ⟨value, stands⟩

/-- A text with several comparing operators in a comparison. -/
def negations : String :=
  "PROGRAM negations\nBEGIN\nPRINT NOT a < b == c, x AND - NOT NOT a + b <= c ^ 2 ^ NOT d\nEND\n"

theorem negations_exactly_derived :
    ∃ program, Program.parse negations = .ok program ∧
      DerivesProgram (Derives .expression) (Lexed.ofSource negations).tokens program := by
  have lexes : (Lexed.ofSource negations).ending.isOk = true := by decide +kernel
  have reads : (Program.parse negations).isOk = true := by decide +kernel
  cases ending : (Lexed.ofSource negations).ending with
  | error error =>
      rw [ending] at lexes
      cases lexes
  | ok line =>
      cases found : Program.parse negations with
      | error error =>
          rw [found] at reads
          cases reads
      | ok program => exact ⟨program, rfl, (parse_exactly_derived ending).1 program found⟩

end Program

end Pseudocode
