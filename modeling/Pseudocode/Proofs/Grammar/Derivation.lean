import Pseudocode.Grammar.Program

/-!
# Derivations

The grammar as a relation between rows of tokens and trees. Nothing here reads
from left to right or looks ahead: a row of tokens derives a tree when it can be
cut into the parts that a rule names.

Expressions have six precedences, from `expression`, where the operators bind
least, to `primary`. A rule for a precedence is either a single phrase of the
next one or joins two phrases by an operator. Since `NOT` takes a whole
comparison and is itself a primary, a row of tokens may derive several trees.

The rules for statements and programs are stated over any relation `expr` for
the expressions in them. With `Derives .expression` for it they are the grammar
of the language.
-/

set_option autoImplicit false

namespace Pseudocode.Grammar

/-! ## Expressions -/

/-- How tightly the parts of an expression hold together. -/
inductive Precedence where
  | expression
  | comparison
  | additive
  | multiplicative
  | exponent
  | primary
deriving DecidableEq

namespace Precedence

/-- The precedence whose phrases are joined at this one. -/
def tighter? : Precedence → Option Precedence
  | expression => some comparison
  | comparison => some additive
  | additive => some multiplicative
  | multiplicative => some exponent
  | exponent => some primary
  | primary => none

/-- The operators that join any number of phrases, from the left. -/
def joining : Precedence → List BinaryOp
  | expression => logical
  | additive => adding
  | multiplicative => multiplying
  | _ => []

end Precedence

/-- The kinds of token that are literals. -/
def literalKinds : List Kind :=
  [.integer, .float, .character, .string, .keyword .TRUE, .keyword .FALSE]

/-- The operator that a sign before a primary stands for. -/
def signOf? : Kind → Option UnaryOp
  | .mark .plus => some .plus
  | .mark .minus => some .minus
  | _ => none

/-- The tokens are an expression of the given precedence, with this tree. -/
inductive Derives : Precedence → List Token → Expr → Prop where
  | literal {token : Token} {value : Literal} (isLiteral : token.kind ∈ literalKinds)
      (stands : Literal.ofToken token = .ok value) : Derives .primary [token] (.literal value)
  | name {token : Token} (isName : token.kind = .identifier) :
      Derives .primary [token] (.name token.lexeme)
  | element {name opening closing : Token} {inner : List Token} {index : Expr}
      (isName : name.kind = .identifier) (opens : opening.kind = .mark .leftBracket)
      (within : Derives .expression inner index) (closes : closing.kind = .mark .rightBracket) :
      Derives .primary (name :: opening :: (inner ++ [closing])) (.element name.lexeme index)
  | not {word : Token} {inner : List Token} {operand : Expr} (isNot : word.kind = .keyword .NOT)
      (within : Derives .comparison inner operand) :
      Derives .primary (word :: inner) (.unary .not operand)
  | sign {sign : Token} {inner : List Token} {op : UnaryOp} {operand : Expr}
      (isSign : signOf? sign.kind = some op) (within : Derives .primary inner operand) :
      Derives .primary (sign :: inner) (.unary op operand)
  | group {opening closing : Token} {inner : List Token} {expr : Expr}
      (opens : opening.kind = .mark .leftParen) (within : Derives .expression inner expr)
      (closes : closing.kind = .mark .rightParen) :
      Derives .primary (opening :: (inner ++ [closing])) expr
  | single {lower upper : Precedence} {tokens : List Token} {expr : Expr}
      (next : upper.tighter? = some lower) (within : Derives lower tokens expr) :
      Derives upper tokens expr
  | join {lower upper : Precedence} {first second : List Token} {sign : Token} {op : BinaryOp}
      {left right : Expr} (next : upper.tighter? = some lower) (before : Derives upper first left)
      (isSign : BinaryOp.ofKind? sign.kind = some op) (joins : op ∈ upper.joining)
      (after : Derives lower second right) :
      Derives upper (first ++ sign :: second) (.binary op left right)
  | compare {first second : List Token} {sign : Token} {op : BinaryOp} {left right : Expr}
      (before : Derives .additive first left) (isSign : BinaryOp.ofKind? sign.kind = some op)
      (compares : op ∈ comparing) (after : Derives .additive second right) :
      Derives .comparison (first ++ sign :: second) (.binary op left right)
  | power {first second : List Token} {sign : Token} {base exponent : Expr}
      (before : Derives .primary first base) (isSign : sign.kind = .mark .caret)
      (after : Derives .exponent second exponent) :
      Derives .exponent (first ++ sign :: second) (.binary .power base exponent)

/-! ## Lines and lists -/

/-- Ends of lines, or nothing. -/
def BlankLines (tokens : List Token) : Prop := ∀ token ∈ tokens, token.kind = .newline

/-- At least one end of a line. -/
def LineEnd (tokens : List Token) : Prop := tokens ≠ [] ∧ BlankLines tokens

section Rows

variable {α : Type} (item : List Token → α → Prop)

/-- At least one item, with commas between them. -/
inductive Listed : List Token → List α → Prop where
  | one {tokens : List Token} {a : α} (first : item tokens a) : Listed tokens [a]
  | more {tokens next : List Token} {items : List α} {comma : Token} {a : α}
      (before : Listed tokens items) (isComma : comma.kind = .mark .comma) (last : item next a) :
      Listed (tokens ++ comma :: next) (items ++ [a])

/-- Items on lines of their own. -/
inductive Lines : List Token → List α → Prop where
  | none : Lines [] []
  | more {tokens next ends : List Token} {items : List α} {a : α} (before : Lines tokens items)
      (last : item next a) (ended : LineEnd ends) :
      Lines (tokens ++ (next ++ ends)) (items ++ [a])

/-- Lines of items under a word, or nothing. -/
inductive Section (heading : Keyword) : List Token → List α → Prop where
  | absent : Section heading [] []
  | present {word : Token} {ends tokens : List Token} {items : List α}
      (isHeading : word.kind = .keyword heading) (ended : LineEnd ends)
      (lines : Lines item tokens items) : Section heading (word :: (ends ++ tokens)) items

variable {item}

theorem Listed.items {tokens : List Token} {items : List α} (listed : Listed item tokens items) :
    items ≠ [] ∧ ∀ a ∈ items, ∃ used, used ⊆ tokens ∧ item used a := by
  induction listed with
  | one first => exact ⟨nofun, List.forall_mem_singleton.2 ⟨_, List.Subset.refl _, first⟩⟩
  | more before isComma last ih =>
      refine ⟨List.append_ne_nil_of_right_ne_nil _ nofun, ?_⟩
      refine List.forall_mem_append.2 ⟨?_, List.forall_mem_singleton.2 ⟨_, ?_, last⟩⟩
      · intro a member
        obtain ⟨used, inside, item⟩ := ih.2 a member
        exact ⟨used, List.subset_append_of_subset_left _ inside, item⟩
      · exact List.subset_append_of_subset_right _ (List.subset_cons_self ..)

theorem Lines.items {tokens : List Token} {items : List α} (lines : Lines item tokens items) :
    ∀ a ∈ items, ∃ used, used ⊆ tokens ∧ item used a := by
  induction lines with
  | none => exact nofun
  | more before last ended ih =>
      refine List.forall_mem_append.2 ⟨?_, List.forall_mem_singleton.2 ⟨_, ?_, last⟩⟩
      · intro a member
        obtain ⟨used, inside, item⟩ := ih a member
        exact ⟨used, List.subset_append_of_subset_left _ inside, item⟩
      · exact List.subset_append_of_subset_right _ (List.subset_append_left ..)

theorem Section.items {heading : Keyword} {tokens : List Token} {items : List α}
    (lines : Section item heading tokens items) :
    ∀ a ∈ items, ∃ used, used ⊆ tokens ∧ item used a := by
  cases lines with
  | absent => exact nofun
  | present isHeading ended lines =>
      intro a member
      obtain ⟨used, inside, item⟩ := lines.items a member
      refine ⟨used, ?_, item⟩
      exact List.subset_cons_of_subset _ (List.subset_append_of_subset_right _ inside)

end Rows

section Statements

variable (expr : List Token → Expr → Prop)

/-- An index in brackets, or nothing. -/
inductive Indexed : List Token → Option Expr → Prop where
  | absent : Indexed [] none
  | present {opening closing : Token} {inner : List Token} {index : Expr}
      (opens : opening.kind = .mark .leftBracket) (within : expr inner index)
      (closes : closing.kind = .mark .rightBracket) :
      Indexed (opening :: (inner ++ [closing])) (some index)

/-- The step of a counting loop, which is one where it is left out. -/
inductive Stepped : List Token → Expr → Prop where
  | absent : Stepped [] (.literal (.integer .one))
  | present {word : Token} {tokens : List Token} {step : Expr}
      (isStep : word.kind = .keyword .STEP) (within : expr tokens step) :
      Stepped (word :: tokens) step

/-! ## Statements -/

/-- What statements are made of. -/
inductive Phrase where
  | statement (stmt : Stmt)
  | block (statements : List Stmt)
  | arms (cases : List (Expr × List Stmt))
  /-- The block that a statement may have after these kinds of token. -/
  | otherwise (opening : List Kind) (statements : Option (List Stmt))

/-- The tokens are a statement or a part of one. -/
inductive DerivesStmt : List Token → Phrase → Prop where
  | assign {opening name sign : Token} {tokens : List Token} {value : Expr}
      (opens : opening.kind = .keyword .LET) (isName : name.kind = .identifier)
      (isSign : sign.kind = .mark .assign) (within : expr tokens value) :
      DerivesStmt (opening :: name :: sign :: tokens) (.statement (.assign name.lexeme value))
  | assignAt {opening name sign left right : Token} {position tokens : List Token}
      {index value : Expr} (opens : opening.kind = .keyword .LET)
      (isName : name.kind = .identifier) (starts : left.kind = .mark .leftBracket)
      (indexed : expr position index) (stops : right.kind = .mark .rightBracket)
      (isSign : sign.kind = .mark .assign) (within : expr tokens value) :
      DerivesStmt (opening :: name :: left :: (position ++ right :: sign :: tokens))
        (.statement (.assignAt name.lexeme index value))
  | print {opening : Token} {tokens : List Token} {values : List Expr}
      (opens : opening.kind = .keyword .PRINT) (listed : Listed expr tokens values) :
      DerivesStmt (opening :: tokens) (.statement (.print values))
  | branch {opening word closing : Token} {test ends first second : List Token}
      {condition : Expr} {yes : List Stmt} {no : Option (List Stmt)}
      (opens : opening.kind = .keyword .IF) (tested : expr test condition)
      (isThen : word.kind = .keyword .THEN) (ended : LineEnd ends)
      (runs : DerivesStmt first (.block yes))
      (others : DerivesStmt second (.otherwise [.keyword .ELSE] no))
      (closes : closing.kind = .keyword .ENDIF) :
      DerivesStmt (opening :: (test ++ word :: (ends ++ (first ++ (second ++ [closing])))))
        (.statement (.branch condition yes no))
  | whileLoop {opening word closing : Token} {test ends tokens : List Token} {condition : Expr}
      {body : List Stmt} (opens : opening.kind = .keyword .WHILE) (tested : expr test condition)
      (isDo : word.kind = .keyword .DO) (ended : LineEnd ends)
      (runs : DerivesStmt tokens (.block body)) (closes : closing.kind = .keyword .ENDWHILE) :
      DerivesStmt (opening :: (test ++ word :: (ends ++ (tokens ++ [closing]))))
        (.statement (.whileLoop condition body))
  | forLoop {opening name fromWord toWord closing : Token}
      {low high stepping ends tokens : List Token} {first last step : Expr} {body : List Stmt}
      (opens : opening.kind = .keyword .FOR)
      (isName : name.kind = .identifier) (isFrom : fromWord.kind = .keyword .FROM)
      (firsts : expr low first) (isTo : toWord.kind = .keyword .TO) (lasts : expr high last)
      (steps : Stepped expr stepping step) (ended : LineEnd ends)
      (runs : DerivesStmt tokens (.block body)) (closes : closing.kind = .keyword .ENDFOR) :
      DerivesStmt (opening :: name :: fromWord ::
          (low ++ toWord :: (high ++ (stepping ++ (ends ++ (tokens ++ [closing]))))))
        (.statement (.forLoop name.lexeme first last step body))
  | repeatLoop {opening word closing : Token} {test ends tokens : List Token} {condition : Expr}
      {body : List Stmt} (opens : opening.kind = .keyword .REPEAT)
      (isUntil : word.kind = .keyword .UNTIL) (tested : expr test condition)
      (ended : LineEnd ends) (runs : DerivesStmt tokens (.block body))
      (closes : closing.kind = .keyword .ENDREPEAT) :
      DerivesStmt (opening :: word :: (test ++ (ends ++ (tokens ++ [closing]))))
        (.statement (.repeatLoop condition body))
  | switch {opening closing : Token} {tokens ends first second : List Token} {scrutinee : Expr}
      {cases : List (Expr × List Stmt)} {otherwise : Option (List Stmt)}
      (opens : opening.kind = .keyword .SWITCH) (switched : expr tokens scrutinee)
      (ended : LineEnd ends) (runs : DerivesStmt first (.arms cases))
      (others : DerivesStmt second (.otherwise [.keyword .DEFAULT, .mark .colon] otherwise))
      (closes : closing.kind = .keyword .ENDSWITCH) :
      DerivesStmt (opening :: (tokens ++ (ends ++ (first ++ (second ++ [closing])))))
        (.statement (.switch scrutinee cases otherwise))
  | resize {opening name toWord : Token} {tokens : List Token} {size : Expr}
      (opens : opening.kind = .keyword .RESIZE) (isName : name.kind = .identifier)
      (isTo : toWord.kind = .keyword .TO) (within : expr tokens size) :
      DerivesStmt (opening :: name :: toWord :: tokens) (.statement (.resize name.lexeme size))
  | noStatements : DerivesStmt [] (.block [])
  | moreStatements {tokens next ends : List Token} {statements : List Stmt} {stmt : Stmt}
      (before : DerivesStmt tokens (.block statements))
      (last : DerivesStmt next (.statement stmt)) (ended : LineEnd ends) :
      DerivesStmt (tokens ++ (next ++ ends)) (.block (statements ++ [stmt]))
  | noArms : DerivesStmt [] (.arms [])
  | moreArms {tokens shown ends run : List Token} {word colon : Token}
      {cases : List (Expr × List Stmt)} {value : Expr} {body : List Stmt}
      (before : DerivesStmt tokens (.arms cases)) (isCase : word.kind = .keyword .CASE)
      (valued : expr shown value) (isColon : colon.kind = .mark .colon) (ended : LineEnd ends)
      (runs : DerivesStmt run (.block body)) :
      DerivesStmt (tokens ++ word :: (shown ++ colon :: (ends ++ run)))
        (.arms (cases ++ [(value, body)]))
  | absent {opening : List Kind} : DerivesStmt [] (.otherwise opening none)
  | present {opening : List Kind} {words ends tokens : List Token} {body : List Stmt}
      (opens : words.map Token.kind = opening) (ended : LineEnd ends)
      (runs : DerivesStmt tokens (.block body)) :
      DerivesStmt (words ++ (ends ++ tokens)) (.otherwise opening (some body))

/-! ## Programs -/

/-- The word for the type of variables. Variables cannot be declared to hold
whole arrays. -/
def typeWord? : DataType → Option Keyword
  | .integer => some .INTEGER
  | .float => some .FLOAT
  | .character => some .CHARACTER
  | .string => some .STRING
  | .boolean => some .BOOLEAN
  | .array => none

/-- A name and nothing else. -/
inductive Named : List Token → String → Prop where
  | name {token : Token} (isName : token.kind = .identifier) : Named [token] token.lexeme

/-- A constant and its value. -/
inductive DerivesConstant : List Token → Constant → Prop where
  | constant {name sign : Token} {tokens : List Token} {value : Expr}
      (isName : name.kind = .identifier) (isSign : sign.kind = .mark .assign)
      (within : expr tokens value) :
      DerivesConstant (name :: sign :: tokens) ⟨name.lexeme, value⟩

/-- Variables of one type and size. -/
inductive DerivesVariables : List Token → List Variable → Prop where
  | group {tokens sized : List Token} {colon word : Token} {names : List String}
      {keyword : Keyword} {type : DataType} {size : Option Expr}
      (listed : Listed Named tokens names) (isColon : colon.kind = .mark .colon)
      (isType : word.kind = .keyword keyword) (spelled : typeWord? type = some keyword)
      (indexed : Indexed expr sized size) :
      DerivesVariables (tokens ++ colon :: word :: sized)
        (names.map fun name => ⟨name, type, size⟩)

/-- The tokens are a program with the blank lines around it. -/
inductive DerivesProgram : List Token → Program → Prop where
  | program {before ends first second starts tokens after : List Token}
      {heading name opening closing : Token} {constants : List Constant}
      {groups : List (List Variable)} {body : List Stmt} (blank : BlankLines before)
      (isProgram : heading.kind = .keyword .PROGRAM) (isName : name.kind = .identifier)
      (ended : LineEnd ends) (constant : Section (DerivesConstant expr) .CONSTANTS first constants)
      (declared : Section (DerivesVariables expr) .VARIABLES second groups)
      (opens : opening.kind = .keyword .BEGIN) (started : LineEnd starts)
      (runs : DerivesStmt expr tokens (.block body)) (closes : closing.kind = .keyword .END)
      (rest : BlankLines after) :
      DerivesProgram
        (before ++ heading :: name :: (ends ++ (first ++ (second ++ opening ::
          (starts ++ (tokens ++ closing :: after))))))
        ⟨name.lexeme, ⟨constants, groups.flatten⟩, body⟩

end Statements

/-- Variables hold no whole arrays. -/
theorem DerivesVariables.type_ne_array {expr : List Token → Expr → Prop} {tokens : List Token}
    {group : List Variable} (derived : DerivesVariables expr tokens group) :
    ∀ var ∈ group, var.type ≠ .array := by
  cases derived with
  | group listed isColon isType spelled indexed =>
      intro var member
      obtain ⟨name, _, rfl⟩ := List.mem_map.1 member
      rintro rfl
      cases spelled

theorem DerivesProgram.variable_type {expr : List Token → Expr → Prop} {tokens : List Token}
    {program : Program} (derived : DerivesProgram expr tokens program) :
    ∀ var ∈ program.declarations.variables, var.type ≠ .array := by
  cases derived with
  | program blank isProgram isName ended constant declared =>
      intro var member
      obtain ⟨group, inside, member⟩ := List.mem_flatten.1 member
      obtain ⟨used, _, derived⟩ := declared.items group inside
      exact derived.type_ne_array var member

end Pseudocode.Grammar
