import Pseudocode.Proofs.Grammar.ProgramReading
import Pseudocode.Proofs.Printing.Expression

/-!
# Reading printed programs

The tokens of a printed statement derive it, with expressions that are read in
full. The pieces follow the rules for statements word by word, and the loops over
statements, arms and lines add what comes to what was there before. So the tokens of
a printed program derive it (`Program.derives_of_spelled`), and are read as it.
-/

set_option autoImplicit false

namespace Pseudocode

open Grammar

/-! ## Lists and lines -/

theorem Spelled.newline {tokens : List Token} {pieces : List Piece}
    (spelled : Spelled tokens (.newline :: pieces)) :
    ∃ ends rest, tokens = ends ++ rest ∧ LineEnd ends ∧ Spelled rest pieces := by
  obtain ⟨token, rest, split, same, spelled⟩ := spelled.cons
  have isNewline : token.kind = .newline := congrArg Piece.kind same
  exact ⟨[token], rest, split, ⟨nofun, List.forall_mem_singleton.2 isNewline⟩, spelled⟩

section Rows

variable {α : Type} {item : List Token → α → Prop} {pieces : α → List Piece}

theorem Grammar.Listed.cons {first tokens : List Token} {comma : Token} {a : α} {items : List α}
    (head : item first a) (isComma : comma.kind = .mark .comma)
    (others : Listed item tokens items) :
    Listed item (first ++ comma :: tokens) (a :: items) := by
  induction others with
  | one last => exact .more (.one head) isComma last
  | more before isComma' last ih =>
      have longer := Listed.more ih isComma' last
      simpa using longer

theorem listed_of_spelled {items : List α}
    (each : ∀ a ∈ items, ∀ tokens, Spelled tokens (pieces a) → item tokens a)
    (some : items ≠ []) {tokens : List Token}
    (spelled : Spelled tokens (commas (items.map pieces))) :
    Listed item tokens items := by
  induction items generalizing tokens with
  | nil => exact absurd rfl some
  | cons a others ih =>
      obtain ⟨first, each⟩ := List.forall_mem_cons.1 each
      cases others with
      | nil => exact .one (first tokens spelled)
      | cons next others =>
          obtain ⟨front, _, rfl, isFirst, spelled⟩ := spelled.append
          obtain ⟨comma, rest, rfl, isComma, spelled⟩ := spelled.mark
          exact .cons (first front isFirst) isComma (ih each nofun spelled)

theorem lines_of_spelled {items : List α}
    (each : ∀ a ∈ items, ∀ tokens, Spelled tokens (pieces a) → item tokens a)
    {before : List Token} {earlier : List α} (lines : Lines item before earlier)
    {tokens : List Token}
    (spelled : Spelled tokens ((items.map pieces).flatMap fun line => line ++ [.newline])) :
    Lines item (before ++ tokens) (earlier ++ items) := by
  induction items generalizing before earlier tokens with
  | nil =>
      obtain rfl := Spelled.nil spelled
      simpa using lines
  | cons a others ih =>
      obtain ⟨first, each⟩ := List.forall_mem_cons.1 each
      rw [List.map_cons, List.flatMap_cons, List.append_assoc] at spelled
      obtain ⟨front, _, rfl, isFirst, spelled⟩ := spelled.append
      obtain ⟨ends, rest, rfl, ended, spelled⟩ := Spelled.newline spelled
      have all := ih each (lines.more (first front isFirst) ended) spelled
      simpa using all

theorem section_of_spelled {heading : Keyword} {items : List α}
    (each : ∀ a ∈ items, ∀ tokens, Spelled tokens (pieces a) → item tokens a)
    {tokens : List Token} (spelled : Spelled tokens (sectionPieces heading (items.map pieces))) :
    Section item heading tokens items := by
  cases items with
  | nil =>
      obtain rfl := Spelled.nil spelled
      exact .absent
  | cons a others =>
      obtain ⟨word, _, rfl, isHeading, spelled⟩ := Spelled.word spelled
      obtain ⟨ends, rest, rfl, ended, spelled⟩ := spelled.newline
      exact .present isHeading ended (lines_of_spelled each .none spelled)

end Rows

/-! ## Statements -/

section Derivations

variable {floats : FloatSpelling}

/-- The tokens of a printed statement derive it. -/
def Derivable (floats : FloatSpelling) (stmt : Stmt) : Prop :=
  ∀ tokens, Spelled tokens (stmt.pieces floats) → DerivesStmt Whole tokens (.statement stmt)

theorem block_after {body : List Stmt} (each : ∀ stmt ∈ body, Derivable floats stmt)
    {before : List Token} {earlier : List Stmt}
    (derived : DerivesStmt Whole before (.block earlier)) {tokens : List Token}
    (spelled : Spelled tokens (blockPieces floats body)) :
    DerivesStmt Whole (before ++ tokens) (.block (earlier ++ body)) := by
  induction body generalizing before earlier tokens with
  | nil =>
      rw [blockPieces] at spelled
      obtain rfl := spelled.nil
      simpa using derived
  | cons stmt others ih =>
      obtain ⟨first, each⟩ := List.forall_mem_cons.1 each
      rw [blockPieces] at spelled
      obtain ⟨front, _, rfl, isFirst, spelled⟩ := spelled.append
      obtain ⟨ends, rest, rfl, ended, spelled⟩ := spelled.newline
      have all := ih each (derived.moreStatements (first front isFirst) ended) spelled
      simpa using all

theorem block_of_spelled {body : List Stmt} (each : ∀ stmt ∈ body, Derivable floats stmt)
    {tokens : List Token} (spelled : Spelled tokens (blockPieces floats body)) :
    DerivesStmt Whole tokens (.block body) :=
  block_after each .noStatements spelled

/-- The body of a loop and the word that closes it. -/
theorem Spelled.bodyUpTo {body : List Stmt} {closing : Keyword}
    (each : ∀ stmt ∈ body, Derivable floats stmt) {tokens : List Token}
    (spelled : Spelled tokens (.newline :: (blockPieces floats body ++ [.word closing]))) :
    ∃ ends block word, tokens = ends ++ (block ++ [word]) ∧ LineEnd ends ∧
      DerivesStmt Whole block (.block body) ∧ word.kind = .keyword closing := by
  obtain ⟨ends, _, rfl, ended, spelled⟩ := spelled.newline
  obtain ⟨block, _, rfl, isBlock, spelled⟩ := spelled.append
  obtain ⟨word, _, rfl, closes, spelled⟩ := spelled.word
  obtain rfl := spelled.nil
  exact ⟨ends, block, word, rfl, ended, block_of_spelled each isBlock, closes⟩

theorem otherwise_of_spelled {opening : List Piece} {otherwise : Option (List Stmt)}
    (each : ∀ block ∈ otherwise, ∀ stmt ∈ block, Derivable floats stmt) {tokens : List Token}
    (spelled : Spelled tokens (otherwisePieces floats opening otherwise)) :
    DerivesStmt Whole tokens (.otherwise (opening.map Piece.kind) otherwise) := by
  cases otherwise with
  | none =>
      rw [otherwisePieces] at spelled
      obtain rfl := spelled.nil
      exact .absent
  | some body =>
      rw [otherwisePieces] at spelled
      obtain ⟨words, _, rfl, opens, spelled⟩ := spelled.append
      obtain ⟨ends, rest, rfl, ended, spelled⟩ := spelled.newline
      have kinds : words.map Token.kind = opening.map Piece.kind := by
        rw [← opens, List.map_map]
        rfl
      exact .present kinds ended (block_of_spelled (each body rfl) spelled)

theorem arms_after {cases : List (Expr × List Stmt)} (shown : ∀ arm ∈ cases, arm.1.Printable)
    (each : ∀ arm ∈ cases, ∀ stmt ∈ arm.2, Derivable floats stmt) {before : List Token}
    {earlier : List (Expr × List Stmt)} (derived : DerivesStmt Whole before (.arms earlier))
    {tokens : List Token} (spelled : Spelled tokens (armPieces floats cases)) :
    DerivesStmt Whole (before ++ tokens) (.arms (earlier ++ cases)) := by
  induction cases generalizing before earlier tokens with
  | nil =>
      rw [armPieces] at spelled
      obtain rfl := spelled.nil
      simpa using derived
  | cons arm others ih =>
      obtain ⟨value, body⟩ := arm
      obtain ⟨valued, shown⟩ := List.forall_mem_cons.1 shown
      obtain ⟨runs, each⟩ := List.forall_mem_cons.1 each
      rw [armPieces] at spelled
      obtain ⟨word, _, rfl, isCase, spelled⟩ := spelled.word
      obtain ⟨tested, _, rfl, valued, spelled⟩ := spelled.expr valued
      obtain ⟨colon, _, rfl, isColon, spelled⟩ := spelled.mark
      obtain ⟨ends, _, rfl, ended, spelled⟩ := spelled.newline
      obtain ⟨block, rest, rfl, isBlock, spelled⟩ := spelled.append
      have longer := derived.moreArms isCase valued isColon ended (block_of_spelled runs isBlock)
      have all := ih shown each longer spelled
      simpa using all

theorem Stmt.derivable {stmt : Stmt} (printable : stmt.Printable) : Derivable floats stmt := by
  induction printable with
  | @assign name value isName printed =>
      intro tokens spelled
      rw [Stmt.pieces] at spelled
      obtain ⟨opening, _, rfl, opens, spelled⟩ := spelled.word
      obtain ⟨symbol, _, rfl, isSymbol, rfl, ahead⟩ := spelled.name
      obtain ⟨sign, rest, rfl, isSign, spelled⟩ := ahead.mark
      exact .assign opens isSymbol isSign (value.pieces_whole printed spelled)
  | @assignAt name index value isName placed printed =>
      intro tokens spelled
      rw [Stmt.pieces] at spelled
      obtain ⟨opening, _, rfl, opens, spelled⟩ := spelled.word
      obtain ⟨symbol, _, rfl, isSymbol, rfl, ahead⟩ := spelled.name
      obtain ⟨left, _, rfl, isLeft, spelled⟩ := ahead.mark
      obtain ⟨inner, _, rfl, placed, spelled⟩ := spelled.expr placed
      obtain ⟨right, _, rfl, isRight, spelled⟩ := spelled.mark
      obtain ⟨sign, rest, rfl, isSign, spelled⟩ := spelled.mark
      exact .assignAt opens isSymbol isLeft placed isRight isSign
        (value.pieces_whole printed spelled)
  | print some printed =>
      intro tokens spelled
      rw [Stmt.pieces] at spelled
      obtain ⟨opening, rest, rfl, opens, spelled⟩ := spelled.word
      refine .print opens (listed_of_spelled ?_ some spelled)
      exact fun value member tokens => value.pieces_whole (printed value member)
  | @branch condition yes no tested _ _ runs others =>
      intro tokens spelled
      rw [Stmt.pieces] at spelled
      obtain ⟨opening, _, rfl, opens, spelled⟩ := spelled.word
      obtain ⟨test, _, rfl, tested, spelled⟩ := spelled.expr tested
      obtain ⟨word, _, rfl, isThen, spelled⟩ := spelled.word
      obtain ⟨ends, _, rfl, ended, spelled⟩ := spelled.newline
      obtain ⟨first, _, rfl, isFirst, spelled⟩ := spelled.append
      obtain ⟨second, _, rfl, isSecond, spelled⟩ := spelled.append
      obtain ⟨closing, _, rfl, closes, spelled⟩ := spelled.word
      obtain rfl := spelled.nil
      exact .branch opens tested isThen ended (block_of_spelled runs isFirst)
        (otherwise_of_spelled others isSecond) closes
  | @whileLoop condition body tested _ runs =>
      intro tokens spelled
      rw [Stmt.pieces] at spelled
      obtain ⟨opening, _, rfl, opens, spelled⟩ := spelled.word
      obtain ⟨test, _, rfl, tested, spelled⟩ := spelled.expr tested
      obtain ⟨word, _, rfl, isDo, spelled⟩ := spelled.word
      obtain ⟨ends, block, closing, rfl, ended, runs, closes⟩ := spelled.bodyUpTo runs
      exact .whileLoop opens tested isDo ended runs closes
  | @forLoop name first last step body isName firsts lasts steps _ runs =>
      intro tokens spelled
      rw [Stmt.pieces] at spelled
      obtain ⟨opening, _, rfl, opens, spelled⟩ := spelled.word
      obtain ⟨symbol, _, rfl, isSymbol, rfl, ahead⟩ := spelled.name
      obtain ⟨fromWord, _, rfl, isFrom, spelled⟩ := ahead.word
      obtain ⟨low, _, rfl, firsts, spelled⟩ := spelled.expr firsts
      obtain ⟨toWord, _, rfl, isTo, spelled⟩ := spelled.word
      obtain ⟨high, _, rfl, lasts, spelled⟩ := spelled.expr lasts
      obtain ⟨stepWord, _, rfl, isStep, spelled⟩ := spelled.word
      obtain ⟨stepping, _, rfl, steps, spelled⟩ := spelled.expr steps
      obtain ⟨ends, block, closing, rfl, ended, runs, closes⟩ := spelled.bodyUpTo runs
      exact .forLoop opens isSymbol isFrom firsts isTo lasts (.present isStep steps) ended runs
        closes
  | @repeatLoop condition body tested _ runs =>
      intro tokens spelled
      rw [Stmt.pieces] at spelled
      obtain ⟨opening, _, rfl, opens, spelled⟩ := spelled.word
      obtain ⟨word, _, rfl, isUntil, spelled⟩ := spelled.word
      obtain ⟨test, _, rfl, tested, spelled⟩ := spelled.expr tested
      obtain ⟨ends, block, closing, rfl, ended, runs, closes⟩ := spelled.bodyUpTo runs
      exact .repeatLoop opens isUntil tested ended runs closes
  | @switch scrutinee cases otherwise switched shown _ _ runs others =>
      intro tokens spelled
      rw [Stmt.pieces] at spelled
      obtain ⟨opening, _, rfl, opens, spelled⟩ := spelled.word
      obtain ⟨test, _, rfl, switched, spelled⟩ := spelled.expr switched
      obtain ⟨ends, _, rfl, ended, spelled⟩ := spelled.newline
      obtain ⟨first, _, rfl, isFirst, spelled⟩ := spelled.append
      obtain ⟨second, _, rfl, isSecond, spelled⟩ := spelled.append
      obtain ⟨closing, _, rfl, closes, spelled⟩ := spelled.word
      obtain rfl := spelled.nil
      exact .switch opens switched ended (arms_after shown runs .noArms isFirst)
        (otherwise_of_spelled others isSecond) closes
  | @resize name size isName printed =>
      intro tokens spelled
      rw [Stmt.pieces] at spelled
      obtain ⟨opening, _, rfl, opens, spelled⟩ := spelled.word
      obtain ⟨symbol, _, rfl, isSymbol, rfl, ahead⟩ := spelled.name
      obtain ⟨toWord, rest, rfl, isTo, spelled⟩ := ahead.word
      exact .resize opens isSymbol isTo (size.pieces_whole printed spelled)

/-! ## Programs -/

theorem Constant.derives_of_spelled {constant : Constant} (printable : constant.Printable)
    {tokens : List Token} (spelled : Spelled tokens (constant.pieces floats)) :
    DerivesConstant Whole tokens constant := by
  obtain ⟨name, value⟩ := constant
  obtain ⟨symbol, _, rfl, isName, same, spelled⟩ := Spelled.name spelled
  obtain ⟨sign, rest, rfl, isSign, spelled⟩ := spelled.mark
  obtain rfl : symbol.lexeme = name := same
  exact .constant isName isSign (value.pieces_whole printable.printed spelled)

theorem indexed_of_spelled {index : Option Expr} (printable : ∀ expr ∈ index, expr.Printable)
    {tokens : List Token} (spelled : Spelled tokens (indexPieces floats index)) :
    Indexed Whole tokens index := by
  cases index with
  | none =>
      obtain rfl := Spelled.nil spelled
      exact .absent
  | some expr =>
      obtain ⟨opening, _, rfl, opens, spelled⟩ := Spelled.mark spelled
      obtain ⟨inner, _, rfl, within, spelled⟩ := spelled.expr (printable expr rfl)
      obtain ⟨closing, _, rfl, closes, spelled⟩ := spelled.mark
      obtain rfl := spelled.nil
      exact .present opens within closes

theorem Variable.derives_of_spelled {var : Variable} (printable : var.Printable)
    {tokens : List Token} (spelled : Spelled tokens (var.pieces floats)) :
    DerivesVariables Whole tokens [var] := by
  obtain ⟨name, type, size⟩ := var
  obtain ⟨keyword, isWord⟩ : ∃ keyword, typeWord? type = some keyword := by
    have typed : type ≠ .array := printable.typed
    cases type with
    | array => exact absurd rfl typed
    | _ => exact ⟨_, rfl⟩
  rw [Variable.pieces, isWord] at spelled
  obtain ⟨symbol, _, rfl, isName, same, spelled⟩ := spelled.name
  obtain ⟨colon, _, rfl, isColon, spelled⟩ := spelled.mark
  obtain ⟨word, rest, rfl, isType, spelled⟩ := Spelled.word spelled
  obtain rfl : symbol.lexeme = name := same
  have listed : Listed Named [symbol] [symbol.lexeme] := .one (.name isName)
  exact .group listed isColon isType isWord (indexed_of_spelled printable.sized spelled)

/-- Every variable is declared on a line of its own, as a group of one. -/
theorem groups_of_spelled {vars : List Variable}
    (printable : ∀ var ∈ vars, var.Printable) {tokens : List Token}
    (spelled : Spelled tokens (sectionPieces .VARIABLES (vars.map (Variable.pieces floats)))) :
    Section (DerivesVariables Whole) .VARIABLES tokens (vars.map fun var => [var]) := by
  have lines : (vars.map fun var => [var]).map (List.flatMap (Variable.pieces floats)) =
      vars.map (Variable.pieces floats) := by
    simp [Function.comp_def]
  rw [← lines] at spelled
  refine section_of_spelled ?_ spelled
  intro group member tokens spelled
  obtain ⟨var, declared, rfl⟩ := List.mem_map.1 member
  rw [List.flatMap_singleton] at spelled
  exact var.derives_of_spelled (printable var declared) spelled

theorem Program.derives_of_spelled {program : Program} (printable : program.Printable)
    {tokens : List Token} (spelled : Spelled tokens (program.pieces floats)) :
    DerivesProgram Whole tokens program := by
  obtain ⟨name, ⟨constants, vars⟩, body⟩ := program
  obtain ⟨heading, _, rfl, isProgram, spelled⟩ := Spelled.word spelled
  obtain ⟨symbol, _, rfl, isName, same, spelled⟩ := spelled.name
  obtain ⟨ends, _, rfl, ended, spelled⟩ := spelled.newline
  obtain ⟨first, _, rfl, isFirst, spelled⟩ := spelled.append
  obtain ⟨second, _, rfl, isSecond, spelled⟩ := spelled.append
  obtain ⟨opening, _, rfl, opens, spelled⟩ := spelled.word
  obtain ⟨starts, _, rfl, started, spelled⟩ := spelled.newline
  obtain ⟨block, _, rfl, isBlock, spelled⟩ := spelled.append
  obtain ⟨closing, _, rfl, closes, spelled⟩ := spelled.word
  obtain ⟨after, _, rfl, closed, spelled⟩ := spelled.newline
  obtain rfl := spelled.nil
  obtain rfl : symbol.lexeme = name := same
  have constant : Section (DerivesConstant Whole) .CONSTANTS first constants :=
    section_of_spelled (fun constant member tokens spelled =>
      constant.derives_of_spelled (printable.constants constant member) spelled) isFirst
  have declared := groups_of_spelled printable.vars isSecond
  have runs : DerivesStmt Whole block (.block body) :=
    block_of_spelled (fun stmt member => stmt.derivable (printable.body stmt member)) isBlock
  have nothing : BlankLines [] := nofun
  have derived := DerivesProgram.program nothing isProgram isName ended constant declared opens
    started runs closes closed.2
  rw [← List.flatMap_def, List.flatMap_singleton'] at derived
  simpa using derived

end Derivations

end Pseudocode
