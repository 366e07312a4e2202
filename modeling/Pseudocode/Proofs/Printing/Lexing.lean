import Pseudocode.Proofs.Printing.Printer
import Pseudocode.Proofs.Token.Scan

/-!
# Lexing printed programs

The text of a row of lexemes, with a blank after each of them, is read as tokens of
just these kinds and texts (`Lexed.ofSource_written`). The pieces of a printable
program are lexemes (`Program.pieces_lexemes`).
-/

set_option autoImplicit false

namespace Pseudocode

open Lexer Grammar

/-- The kind and the text of a token. -/
def Token.piece (token : Token) : Piece := ⟨token.kind, token.lexeme.toList⟩

/-- Pieces that are lexemes of their kinds. -/
def Lexemes (pieces : List Piece) : Prop := ∀ piece ∈ pieces, Lexeme piece.kind piece.text

/-! ## Rows of lexemes -/

namespace Lexer

/-- A piece at the front of a text is its first token. -/
theorem lexFrom_written {piece : Piece} (lexeme : Lexeme piece.kind piece.text) (line : Nat)
    (rest : List Char) :
    ∃ token next, token.piece = piece ∧
      lexFrom 0 line (piece.written ++ rest) =
        { lexFrom 0 next rest with tokens := token :: (lexFrom 0 next rest).tokens } := by
  obtain ⟨kind, text⟩ := piece
  let token : Token := ⟨kind, String.ofList text, line⟩
  have same : token.piece = ⟨kind, text⟩ := by simp [token, Token.piece]
  refine ⟨token, line + text.count '\n', same, ?_⟩
  by_cases isNewline : kind = .newline
  · subst isNewline
    cases lexeme
    rfl
  · have spaced : Piece.written ⟨kind, text⟩ ++ rest = text ++ ' ' :: rest := by
      simp [Piece.written, isNewline]
    rw [spaced, lexFrom_lexeme_blank lexeme]
    rfl

end Lexer

/-- **Printed lexemes are read as tokens of these kinds and texts.** -/
theorem Lexed.ofSource_written {pieces : List Piece} (lexemes : Lexemes pieces) :
    ∃ line, (Lexed.ofSource (String.ofList (pieces.flatMap Piece.written))).ending = .ok line ∧
      (Lexed.ofSource (String.ofList (pieces.flatMap Piece.written))).tokens.map Token.piece =
        pieces := by
  have rows : ∀ start, ∃ line,
      (lexFrom 0 start (pieces.flatMap Piece.written)).ending = .ok line ∧
        (lexFrom 0 start (pieces.flatMap Piece.written)).tokens.map Token.piece = pieces := by
    induction pieces with
    | nil => exact fun start => ⟨start, rfl, rfl⟩
    | cons piece others ih =>
        intro start
        obtain ⟨lexeme, lexemes⟩ := List.forall_mem_cons.1 lexemes
        obtain ⟨token, next, same, read⟩ :=
          lexFrom_written lexeme start (others.flatMap Piece.written)
        obtain ⟨line, ended, rest⟩ := ih lexemes next
        refine ⟨line, ?_, ?_⟩
        · rw [List.flatMap_cons, read]
          exact ended
        · rw [List.flatMap_cons, read, List.map_cons, same, rest]
  rw [Lexed.ofSource, String.toList_ofList]
  exact rows 1

/-! ## The pieces of programs -/

namespace Lexemes

variable {piece : Piece} {pieces others : List Piece}

@[simp]
theorem nil : Lexemes [] := nofun

@[simp]
theorem cons : Lexemes (piece :: pieces) ↔ Lexeme piece.kind piece.text ∧ Lexemes pieces :=
  List.forall_mem_cons

@[simp]
theorem append : Lexemes (pieces ++ others) ↔ Lexemes pieces ∧ Lexemes others :=
  List.forall_mem_append

end Lexemes

namespace Piece

@[simp]
theorem word_lexeme (keyword : Keyword) : Lexeme (word keyword).kind (word keyword).text :=
  .keyword keyword

@[simp]
theorem mark_lexeme (mark : Mark) : Lexeme (Piece.mark mark).kind (Piece.mark mark).text :=
  .mark mark

@[simp]
theorem newline_lexeme : Lexeme newline.kind newline.text := .newline

theorem name_lexeme {name : String} (isName : IsName name.toList) :
    Lexeme (Piece.name name).kind (Piece.name name).text :=
  .identifier isName

end Piece

theorem decimalValue_toDigits (n : Nat) : decimalValue (Nat.toDigits 10 n) = n := by
  rw [decimalValue, ← Nat.ofDigitChars_eq_foldl]
  exact Nat.ofDigitChars_ten_toDigits

theorem isDigits_toDigits (n : Nat) : IsDigits (Nat.toDigits 10 n) :=
  ⟨Nat.toDigits_ne_nil, fun _ => Nat.isDigit_of_mem_toDigits (by decide) (by decide)⟩

variable (floats : FloatSpelling)

theorem Literal.piece_lexeme {value : Literal} (printed : value.Printable) :
    Lexeme (value.piece floats).kind (value.piece floats).text := by
  cases value with
  | integer n =>
      refine .integer (isDigits_toDigits _) ?_
      change Integer.Fits (decimalValue (Nat.toDigits 10 n.val.toNat))
      rw [decimalValue_toDigits, Int.toNat_of_nonneg printed]
      exact n.fits_val
  | float x => exact (floats.spells x printed).1
  | character c => exact .character printed
  | string s => exact .string printed
  | boolean b => cases b <;> exact .keyword _

theorem UnaryOp.piece_lexeme (op : UnaryOp) : Lexeme op.piece.kind op.piece.text := by
  cases op with
  | not => exact .keyword .NOT
  | plus => exact .mark .plus
  | minus => exact .mark .minus

theorem BinaryOp.piece_lexeme (op : BinaryOp) : Lexeme op.piece.kind op.piece.text := by
  cases op with
  | and => exact .keyword .AND
  | or => exact .keyword .OR
  | _ => exact .mark _

theorem grouped_lexemes {needed : Bool} {pieces : List Piece} (lexemes : Lexemes pieces) :
    Lexemes (grouped needed pieces) := by
  cases needed with
  | false => exact lexemes
  | true => simp [grouped, lexemes]

theorem commas_lexemes {rows : List (List Piece)} (lexemes : ∀ row ∈ rows, Lexemes row) :
    Lexemes (commas rows) := by
  induction rows with
  | nil => exact .nil
  | cons row others ih =>
      obtain ⟨first, lexemes⟩ := List.forall_mem_cons.1 lexemes
      cases others with
      | nil => exact first
      | cons next others => simp [commas, first, ih lexemes]

theorem Expr.pieces_lexemes {expr : Expr} (printed : expr.Printable) :
    Lexemes (expr.pieces floats) := by
  induction expr with
  | literal value => simp [Expr.pieces, Literal.piece_lexeme floats printed]
  | name symbol => simp [Expr.pieces, Piece.name_lexeme printed]
  | element symbol index ih =>
      simp [Expr.pieces, Piece.name_lexeme printed.1, ih printed.2]
  | unary op operand ih =>
      have inner := ih printed
      cases op with
      | not => simp [Expr.pieces, grouped_lexemes inner]
      | plus => simp [Expr.pieces, grouped_lexemes inner, UnaryOp.piece_lexeme]
      | minus => simp [Expr.pieces, grouped_lexemes inner, UnaryOp.piece_lexeme]
  | binary op left right first second =>
      simp [Expr.pieces, grouped_lexemes (first printed.1), grouped_lexemes (second printed.2),
        BinaryOp.piece_lexeme]

theorem indexPieces_lexemes {index : Option Expr} (printed : ∀ expr ∈ index, expr.Printable) :
    Lexemes (indexPieces floats index) := by
  cases index with
  | none => exact .nil
  | some expr => simp [indexPieces, expr.pieces_lexemes floats (printed expr rfl)]

/-! ## Statements -/

theorem blockPieces_lexemes {body : List Stmt}
    (lexemes : ∀ stmt ∈ body, Lexemes (stmt.pieces floats)) :
    Lexemes (blockPieces floats body) := by
  induction body with
  | nil => simp [blockPieces]
  | cons stmt others ih =>
      obtain ⟨first, lexemes⟩ := List.forall_mem_cons.1 lexemes
      simp [blockPieces, first, ih lexemes]

theorem otherwisePieces_lexemes {opening : List Piece} {otherwise : Option (List Stmt)}
    (opens : Lexemes opening)
    (lexemes : ∀ block ∈ otherwise, ∀ stmt ∈ block, Lexemes (stmt.pieces floats)) :
    Lexemes (otherwisePieces floats opening otherwise) := by
  cases otherwise with
  | none => simp [otherwisePieces]
  | some body => simp [otherwisePieces, opens, blockPieces_lexemes floats (lexemes body rfl)]

theorem armPieces_lexemes {cases : List (Expr × List Stmt)}
    (shown : ∀ arm ∈ cases, arm.1.Printable)
    (lexemes : ∀ arm ∈ cases, ∀ stmt ∈ arm.2, Lexemes (stmt.pieces floats)) :
    Lexemes (armPieces floats cases) := by
  induction cases with
  | nil => simp [armPieces]
  | cons arm others ih =>
      obtain ⟨first, shown⟩ := List.forall_mem_cons.1 shown
      obtain ⟨runs, lexemes⟩ := List.forall_mem_cons.1 lexemes
      simp [armPieces, Expr.pieces_lexemes floats first, blockPieces_lexemes floats runs,
        ih shown lexemes]

theorem Stmt.pieces_lexemes {stmt : Stmt} (printed : stmt.Printable) :
    Lexemes (stmt.pieces floats) := by
  induction printed with
  | assign isName printed =>
      simp [Stmt.pieces, Piece.name_lexeme isName, Expr.pieces_lexemes floats printed]
  | assignAt isName placed printed =>
      simp [Stmt.pieces, Piece.name_lexeme isName, Expr.pieces_lexemes floats placed,
        Expr.pieces_lexemes floats printed]
  | print some printed =>
      have listed : Lexemes (commas _) := commas_lexemes (List.forall_mem_map.2 fun value member =>
        Expr.pieces_lexemes floats (printed value member))
      simp [Stmt.pieces, listed]
  | branch tested _ _ runs others =>
      simp [Stmt.pieces, Expr.pieces_lexemes floats tested, blockPieces_lexemes floats runs,
        otherwisePieces_lexemes floats _ others]
  | whileLoop tested _ runs =>
      simp [Stmt.pieces, Expr.pieces_lexemes floats tested, blockPieces_lexemes floats runs]
  | forLoop isName firsts lasts steps _ runs =>
      simp [Stmt.pieces, Piece.name_lexeme isName, Expr.pieces_lexemes floats firsts,
        Expr.pieces_lexemes floats lasts, Expr.pieces_lexemes floats steps,
        blockPieces_lexemes floats runs]
  | repeatLoop tested _ runs =>
      simp [Stmt.pieces, Expr.pieces_lexemes floats tested, blockPieces_lexemes floats runs]
  | switch switched shown _ _ runs others =>
      simp [Stmt.pieces, Expr.pieces_lexemes floats switched, armPieces_lexemes floats shown runs,
        otherwisePieces_lexemes floats _ others]
  | resize isName printed =>
      simp [Stmt.pieces, Piece.name_lexeme isName, Expr.pieces_lexemes floats printed]

/-! ## Declarations -/

theorem sectionPieces_lexemes (heading : Keyword) {lines : List (List Piece)}
    (lexemes : ∀ line ∈ lines, Lexemes line) : Lexemes (sectionPieces heading lines) := by
  cases lines with
  | nil => exact .nil
  | cons first others =>
      have all : Lexemes ((first :: others).flatMap fun line => line ++ [.newline]) := by
        intro piece member
        obtain ⟨line, inside, member⟩ := List.mem_flatMap.1 member
        have row : Lexemes (line ++ [.newline]) := by simp [lexemes line inside]
        exact row piece member
      exact Lexemes.cons.2 ⟨.keyword heading, Lexemes.cons.2 ⟨.newline, all⟩⟩

theorem Program.pieces_lexemes {program : Program} (printed : program.Printable) :
    Lexemes (program.pieces floats) := by
  have constants : Lexemes (sectionPieces .CONSTANTS
      (program.declarations.constants.map (Constant.pieces floats))) := by
    refine sectionPieces_lexemes _ (List.forall_mem_map.2 fun constant member => ?_)
    obtain ⟨isName, value⟩ := printed.constants constant member
    simp [Constant.pieces, Piece.name_lexeme isName, Expr.pieces_lexemes floats value]
  have groups : Lexemes (sectionPieces .VARIABLES
      (program.declarations.variables.map (Variable.pieces floats))) := by
    refine sectionPieces_lexemes _ (List.forall_mem_map.2 fun var member => ?_)
    obtain ⟨isName, _, sized⟩ := printed.vars var member
    have typed : Lexemes ((typeWord? var.type).toList.map Piece.word) :=
      List.forall_mem_map.2 fun keyword _ => .keyword keyword
    simp [Variable.pieces, Piece.name_lexeme isName, typed, indexPieces_lexemes floats sized]
  have body : Lexemes (blockPieces floats program.body) :=
    blockPieces_lexemes floats fun stmt member =>
      stmt.pieces_lexemes floats (printed.body stmt member)
  simp [Program.pieces, Piece.name_lexeme printed.isName, constants, groups, body]

end Pseudocode
