import Pseudocode.Proofs.Grammar.Acceptance
import Pseudocode.Proofs.Printing.Program

/-!
# Printing and reading

Reading undoes printing. A printable program is lexed as the pieces that were
printed, and these derive it with expressions that are read in full.

Every program that is read is printable: its names and literals are lexemes of the
text it was read from, and the grammar keeps out prints of nothing and variables
that hold whole arrays. So a program that was read can be printed and read again
(`Program.parse_print`).
-/

set_option autoImplicit false

namespace Pseudocode

open Grammar

/-- Tokens whose texts are lexemes of their kinds. -/
def Lexical (tokens : List Token) : Prop :=
  ∀ token ∈ tokens, Lexeme token.kind token.lexeme.toList

namespace Lexical

variable {token : Token} {tokens others : List Token}

@[simp]
theorem cons :
    Lexical (token :: tokens) ↔ Lexeme token.kind token.lexeme.toList ∧ Lexical tokens :=
  List.forall_mem_cons

@[simp]
theorem append : Lexical (tokens ++ others) ↔ Lexical tokens ∧ Lexical others :=
  List.forall_mem_append

theorem subset (lexical : Lexical tokens) (inside : others ⊆ tokens) : Lexical others := by
  intro token member
  exact lexical token (inside member)

end Lexical

theorem Lexeme.isName {token : Token} (lexeme : Lexeme token.kind token.lexeme.toList)
    (isName : token.kind = .identifier) : IsName token.lexeme.toList := by
  rw [isName] at lexeme
  cases lexeme with
  | identifier isName => exact isName

namespace Grammar

/-! ## Expressions -/

/-- An expression of lexemes can be printed. -/
theorem Derives.printable {level : Precedence} {tokens : List Token} {expr : Expr}
    (derived : Derives level tokens expr) (lexical : Lexical tokens) : expr.Printable := by
  induction derived with
  | literal isLiteral stands =>
      obtain ⟨lexeme, _⟩ := Lexical.cons.1 lexical
      obtain ⟨value, stands', printable⟩ := stands_of_lexeme lexeme isLiteral
      cases stands.symm.trans stands'
      exact printable
  | name isName =>
      obtain ⟨lexeme, _⟩ := Lexical.cons.1 lexical
      exact lexeme.isName isName
  | element isName opens within closes ih =>
      simp only [Lexical.cons, Lexical.append] at lexical
      obtain ⟨lexeme, _, inner, _⟩ := lexical
      exact ⟨lexeme.isName isName, ih inner⟩
  | not isNot within ih => exact ih (Lexical.cons.1 lexical).2
  | sign isSign within ih => exact ih (Lexical.cons.1 lexical).2
  | group opens within closes ih =>
      simp only [Lexical.cons, Lexical.append] at lexical
      obtain ⟨_, inner, _⟩ := lexical
      exact ih inner
  | single next within ih => exact ih lexical
  | join next before isSign joins after left right =>
      simp only [Lexical.cons, Lexical.append] at lexical
      obtain ⟨first, _, second⟩ := lexical
      exact ⟨left first, right second⟩
  | compare before isSign compares after left right =>
      simp only [Lexical.cons, Lexical.append] at lexical
      obtain ⟨first, _, second⟩ := lexical
      exact ⟨left first, right second⟩
  | power before isSign after left right =>
      simp only [Lexical.cons, Lexical.append] at lexical
      obtain ⟨first, _, second⟩ := lexical
      exact ⟨left first, right second⟩

theorem Indexed.printable {tokens : List Token} {index : Option Expr}
    (indexed : Indexed (Derives .expression) tokens index) (lexical : Lexical tokens) :
    ∀ expr ∈ index, expr.Printable := by
  cases indexed with
  | absent => exact nofun
  | present opens within closes =>
      simp only [Lexical.cons, Lexical.append] at lexical
      obtain ⟨_, inner, _⟩ := lexical
      rintro _ ⟨rfl⟩
      exact within.printable inner

/-- A step that is left out is an integer that can be written. -/
theorem Stepped.printable {tokens : List Token} {step : Expr}
    (stepped : Stepped (Derives .expression) tokens step) (lexical : Lexical tokens) :
    step.Printable := by
  cases stepped with
  | absent => exact Int.one_nonneg
  | present isStep within => exact within.printable (Lexical.cons.1 lexical).2

/-! ## Statements -/

/-- A part of a statement that can be printed. -/
def Phrase.Printable : Phrase → Prop
  | statement stmt => stmt.Printable
  | block statements => ∀ stmt ∈ statements, stmt.Printable
  | arms cases =>
    (∀ arm ∈ cases, arm.1.Printable) ∧ ∀ arm ∈ cases, ∀ stmt ∈ arm.2, stmt.Printable
  | otherwise _ statements => ∀ block ∈ statements, ∀ stmt ∈ block, stmt.Printable

/-- A statement of lexemes can be printed. -/
theorem DerivesStmt.printable {tokens : List Token} {phrase : Phrase}
    (derived : DerivesStmt (Derives .expression) tokens phrase) (lexical : Lexical tokens) :
    phrase.Printable := by
  induction derived with
  | assign opens isName isSign within =>
      simp only [Lexical.cons] at lexical
      obtain ⟨_, lexeme, _, inner⟩ := lexical
      exact .assign (lexeme.isName isName) (within.printable inner)
  | assignAt opens isName starts indexed stops isSign within =>
      simp only [Lexical.cons, Lexical.append] at lexical
      obtain ⟨_, lexeme, _, position, _, _, inner⟩ := lexical
      exact .assignAt (lexeme.isName isName) (indexed.printable position)
        (within.printable inner)
  | print opens listed =>
      obtain ⟨_, row⟩ := Lexical.cons.1 lexical
      obtain ⟨some, each⟩ := listed.items
      refine .print some ?_
      intro value member
      obtain ⟨used, inside, within⟩ := each value member
      exact within.printable (row.subset inside)
  | branch opens tested isThen ended runs others closes yes no =>
      simp only [Lexical.cons, Lexical.append] at lexical
      obtain ⟨_, test, _, _, first, second, _⟩ := lexical
      exact .branch (tested.printable test) (yes first) (no second)
  | whileLoop opens tested isDo ended runs closes body =>
      simp only [Lexical.cons, Lexical.append] at lexical
      obtain ⟨_, test, _, _, inner, _⟩ := lexical
      exact .whileLoop (tested.printable test) (body inner)
  | forLoop opens isName isFrom firsts isTo lasts steps ended runs closes body =>
      simp only [Lexical.cons, Lexical.append] at lexical
      obtain ⟨_, lexeme, _, low, _, high, stepping, _, inner, _⟩ := lexical
      exact .forLoop (lexeme.isName isName) (firsts.printable low) (lasts.printable high)
        (steps.printable stepping) (body inner)
  | repeatLoop opens isUntil tested ended runs closes body =>
      simp only [Lexical.cons, Lexical.append] at lexical
      obtain ⟨_, _, test, _, inner, _⟩ := lexical
      exact .repeatLoop (tested.printable test) (body inner)
  | switch opens switched ended runs others closes arms otherwise =>
      simp only [Lexical.cons, Lexical.append] at lexical
      obtain ⟨_, scrutinee, _, first, second, _⟩ := lexical
      obtain ⟨shown, bodies⟩ := arms first
      exact .switch (switched.printable scrutinee) shown bodies (otherwise second)
  | resize opens isName isTo within =>
      simp only [Lexical.cons] at lexical
      obtain ⟨_, lexeme, _, inner⟩ := lexical
      exact .resize (lexeme.isName isName) (within.printable inner)
  | noStatements => exact nofun
  | moreStatements before last ended statements stmt =>
      simp only [Lexical.append] at lexical
      obtain ⟨first, next, _⟩ := lexical
      exact List.forall_mem_append.2
        ⟨statements first, List.forall_mem_singleton.2 (stmt next)⟩
  | noArms => exact ⟨nofun, nofun⟩
  | moreArms before isCase valued isColon ended runs arms body =>
      simp only [Lexical.cons, Lexical.append] at lexical
      obtain ⟨first, _, shown, _, _, run⟩ := lexical
      obtain ⟨values, bodies⟩ := arms first
      exact ⟨List.forall_mem_append.2
          ⟨values, List.forall_mem_singleton.2 (valued.printable shown)⟩,
        List.forall_mem_append.2 ⟨bodies, List.forall_mem_singleton.2 (body run)⟩⟩
  | absent => exact nofun
  | present opens ended runs body =>
      simp only [Lexical.append] at lexical
      obtain ⟨_, _, inner⟩ := lexical
      rintro _ ⟨rfl⟩
      exact body inner

/-! ## Programs -/

theorem DerivesConstant.printable {tokens : List Token} {constant : Constant}
    (derived : DerivesConstant (Derives .expression) tokens constant)
    (lexical : Lexical tokens) : constant.Printable := by
  cases derived with
  | constant isName isSign within =>
      simp only [Lexical.cons] at lexical
      obtain ⟨lexeme, _, inner⟩ := lexical
      exact ⟨lexeme.isName isName, within.printable inner⟩

theorem DerivesVariables.printable {tokens : List Token} {group : List Variable}
    (derived : DerivesVariables (Derives .expression) tokens group)
    (lexical : Lexical tokens) : ∀ var ∈ group, var.Printable := by
  have typed := derived.type_ne_array
  cases derived with
  | group listed isColon isType spelled indexed =>
      simp only [Lexical.cons, Lexical.append] at lexical
      obtain ⟨row, _, _, sized⟩ := lexical
      intro var member
      obtain ⟨symbol, among, rfl⟩ := List.mem_map.1 member
      obtain ⟨used, inside, named⟩ := listed.items.2 symbol among
      cases named with
      | name isName =>
          obtain ⟨lexeme, _⟩ := Lexical.cons.1 (row.subset inside)
          exact ⟨lexeme.isName isName, typed _ member, indexed.printable sized⟩

/-- **A program of lexemes can be printed.** -/
theorem DerivesProgram.printable {tokens : List Token} {program : Program}
    (derived : DerivesProgram (Derives .expression) tokens program)
    (lexical : Lexical tokens) : program.Printable := by
  cases derived with
  | program blank isProgram isName ended constant declared opens started runs closes rest =>
      simp only [Lexical.cons, Lexical.append] at lexical
      obtain ⟨_, _, lexeme, _, first, second, _, _, inner, _⟩ := lexical
      refine ⟨lexeme.isName isName, ?_, ?_, runs.printable inner⟩
      · intro found member
        obtain ⟨used, inside, derived⟩ := constant.items found member
        exact derived.printable (first.subset inside)
      · intro var member
        obtain ⟨group, member, grouped⟩ := List.mem_flatten.1 member
        obtain ⟨used, inside, derived⟩ := declared.items group member
        exact derived.printable (second.subset inside) var grouped

end Grammar

/-! ## Reading what was printed -/

namespace Program

/-- **Every program that is read can be printed.** -/
theorem printable_of_parse {source : String} {program : Program}
    (read : Program.parse source = .ok program) : program.Printable :=
  (derives_of_parse read).printable (Lexed.ofSource_lexeme source)

/-- **A printed program is read as the program that was printed.** -/
theorem parse_of_printable (floats : FloatSpelling) {program : Program}
    (printable : program.Printable) : Program.parse (program.print floats) = .ok program := by
  obtain ⟨line, lexes, spelled⟩ := Lexed.ofSource_written (program.pieces_lexemes floats printable)
  have derived := program.derives_of_spelled printable spelled
  exact parse_of_reads lexes (.program derived)

/-- **Printing a program and reading it again gives back the program,** for every
program that can be printed and so for every program that was read from a text. -/
theorem parse_print (floats : FloatSpelling) :
    (∀ program : Program, program.Printable →
      Program.parse (program.print floats) = .ok program) ∧
    ∀ (source : String) (program : Program), Program.parse source = .ok program →
      program.Printable ∧ Program.parse (program.print floats) = .ok program := by
  refine ⟨fun program => parse_of_printable floats, ?_⟩
  intro source program read
  have printable := printable_of_parse read
  exact ⟨printable, parse_of_printable floats printable⟩

/-- A program that needs parentheses, and has some optional parts. -/
def grouping : Program where
  name := "grouping"
  declarations.constants := [⟨"quote", .literal (.character '"')⟩]
  declarations.variables := [⟨"a", .boolean, some (.literal (.integer .one))⟩]
  body :=
    [.branch (.unary .not (.binary .or (.name "b") (.unary .not (.name "c"))))
      [.print
        [.binary .power (.binary .power (.name "b") (.name "c")) (.unary .minus (.name "b")),
          .binary .subtract (.name "b") (.binary .subtract (.name "c") (.name "b"))]]
      (some [])]

example : grouping.print .any =
    "PROGRAM grouping \nCONSTANTS \nquote = '\"' \nVARIABLES \na : BOOLEAN [ 1 ] \nBEGIN \n" ++
    "IF NOT ( b OR ( NOT c ) ) THEN \nPRINT ( b ^ c ) ^ - b , b - ( c - b ) \nELSE \nENDIF \n" ++
    "END \n" := by
  decide +kernel

theorem grouping_printable : grouping.Printable := by
  have b : IsName "b".toList := by decide +kernel
  have c : IsName "c".toList := by decide +kernel
  refine ⟨by decide +kernel, ?_, ?_, ?_⟩
  · refine List.forall_mem_singleton.2 ⟨by decide +kernel, ?_⟩
    simp [Expr.Printable, Literal.Printable]
  · refine List.forall_mem_singleton.2 ⟨by decide +kernel, by simp, ?_⟩
    rintro _ ⟨rfl⟩
    exact Int.one_nonneg
  · refine List.forall_mem_singleton.2 (.branch ⟨b, c⟩ ?_ ?_)
    · refine List.forall_mem_singleton.2 (.print (by simp) ?_)
      refine List.forall_mem_cons.2 ⟨⟨⟨b, c⟩, b⟩, ?_⟩
      exact List.forall_mem_singleton.2 ⟨b, c, b⟩
    · simp

/-- A text with blank lines, variables in groups and literals of every type. -/
def literals : String :=
  "\nPROGRAM p\nVARIABLES\ni, j: FLOAT[2]\n\nBEGIN\nFOR i FROM 0 TO 1.50\n" ++
  "LET j[i] = - ((007))\nPRINT NOT (NOT TRUE), \"it's\", '''\nENDFOR\nEND"

theorem grouping_parse_print :
    (grouping.Printable ∧ Program.parse (grouping.print .any) = .ok grouping) ∧
      ∃ program, Program.parse literals = .ok program ∧ program.Printable ∧
        Program.parse (program.print .any) = .ok program := by
  have first := (parse_print .any).1 grouping grouping_printable
  refine ⟨⟨grouping_printable, first⟩, ?_⟩
  have reads : (Program.parse literals).isOk = true := by decide +kernel
  cases found : Program.parse literals with
  | error error =>
      rw [found] at reads
      cases reads
  | ok program => exact ⟨program, rfl, (parse_print .any).2 literals program found⟩

end Program

end Pseudocode
