import Pseudocode.Proofs.Grammar.Reading

/-!
# Reading statements and programs

Statements are read word by word, with one token in view. Once it is known that
the expressions inside are read in full, the same holds of blocks, statements and
whole programs (`Reads.program`): each word or mark on the way tells apart what
may come next.

A statement contains shorter statements only, so that the counter that bounds
their nesting is always long enough (`Reads.statement`).
-/

set_option autoImplicit false

namespace Pseudocode.Grammar

/-! ## Statements -/

/-- A statement starts with one of the words for statements. -/
theorem DerivesStmt.starts {expr : List Token → Expr → Prop} {tokens : List Token} {stmt : Stmt}
    (derived : DerivesStmt expr tokens (.statement stmt)) :
    tokens ≠ [] ∧ headKind tokens ∈ statementStart := by
  cases derived with
  | assign opens => exact ⟨by simp, by rw [headKind, opens]; decide⟩
  | assignAt opens => exact ⟨by simp, by rw [headKind, opens]; decide⟩
  | print opens => exact ⟨by simp, by rw [headKind, opens]; decide⟩
  | branch opens => exact ⟨by simp, by rw [headKind, opens]; decide⟩
  | whileLoop opens => exact ⟨by simp, by rw [headKind, opens]; decide⟩
  | forLoop opens => exact ⟨by simp, by rw [headKind, opens]; decide⟩
  | repeatLoop opens => exact ⟨by simp, by rw [headKind, opens]; decide⟩
  | switch opens => exact ⟨by simp, by rw [headKind, opens]; decide⟩
  | resize opens => exact ⟨by simp, by rw [headKind, opens]; decide⟩

/-- A block consists of statements on lines of their own. -/
theorem DerivesStmt.lines {expr : List Token → Expr → Prop} {tokens : List Token}
    {body : List Stmt} (derived : DerivesStmt expr tokens (.block body)) :
    Lines (fun used stmt => DerivesStmt expr used (.statement stmt)) tokens body := by
  generalize isBlock : Phrase.block body = phrase at derived
  induction derived generalizing body with
  | noStatements =>
      cases isBlock
      exact .none
  | moreStatements before last ended ih =>
      cases isBlock
      exact .more (ih rfl) last ended
  | _ => cases isBlock

/-- No blank line comes before a block if none comes after it. -/
theorem DerivesStmt.block_notNewline {expr : List Token → Expr → Prop} {tokens rest : List Token}
    {body : List Stmt} (derived : DerivesStmt expr tokens (.block body))
    (stops : headKind rest ≠ .newline) : headKind (tokens ++ rest) ≠ .newline := by
  refine derived.lines.headKind_ne ?_ stops
  intro used stmt derived
  obtain ⟨nonempty, starts⟩ := derived.starts
  refine ⟨nonempty, ?_⟩
  intro isNewline
  rw [isNewline] at starts
  exact absurd starts (by decide)

/-- The block that a statement may have starts with the words for it, or is not
there. -/
theorem DerivesStmt.otherwise_starts {expr : List Token → Expr → Prop} {tokens rest : List Token}
    {first : Kind} {others : List Kind} {body : Option (List Stmt)}
    (derived : DerivesStmt expr tokens (.otherwise (first :: others) body)) :
    headKind (tokens ++ rest) = first ∨ headKind (tokens ++ rest) = headKind rest := by
  cases derived with
  | absent => exact .inr rfl
  | @present _ words ends tokens body opens ended runs =>
      cases words with
      | nil => cases opens
      | cons word words => exact .inl (List.cons.inj opens).1

/-- One arm of a choice by value. -/
inductive Arm (expr : List Token → Expr → Prop) : List Token → Expr × List Stmt → Prop where
  | arm {shown ends run : List Token} {word colon : Token} {value : Expr} {body : List Stmt}
      (isCase : word.kind = .keyword .CASE) (valued : expr shown value)
      (isColon : colon.kind = .mark .colon) (ended : LineEnd ends)
      (runs : DerivesStmt expr run (.block body)) :
      Arm expr (word :: (shown ++ colon :: (ends ++ run))) (value, body)

/-- Arms, one after another. -/
inductive Arms (expr : List Token → Expr → Prop) :
    List Token → List (Expr × List Stmt) → Prop where
  | none : Arms expr [] []
  | more {tokens next : List Token} {cases : List (Expr × List Stmt)} {arm : Expr × List Stmt}
      (before : Arms expr tokens cases) (last : Arm expr next arm) :
      Arms expr (tokens ++ next) (cases ++ [arm])

theorem DerivesStmt.eachArm {expr : List Token → Expr → Prop} {tokens : List Token}
    {cases : List (Expr × List Stmt)} (derived : DerivesStmt expr tokens (.arms cases)) :
    Arms expr tokens cases := by
  generalize areArms : Phrase.arms cases = phrase at derived
  induction derived generalizing cases with
  | noArms =>
      cases areArms
      exact .none
  | moreArms before isCase valued isColon ended runs ih =>
      cases areArms
      exact .more (ih rfl) (.arm isCase valued isColon ended runs)
  | _ => cases areArms

theorem Arm.starts {expr : List Token → Expr → Prop} {tokens : List Token}
    {arm : Expr × List Stmt} (derived : Arm expr tokens arm) :
    tokens ≠ [] ∧ headKind tokens = .keyword .CASE := by
  cases derived with
  | arm isCase => exact ⟨by simp, isCase⟩

/-- Arms start with the word for them, unless there is none. -/
theorem Arms.starts {expr : List Token → Expr → Prop} {tokens : List Token}
    {cases : List (Expr × List Stmt)} (arms : Arms expr tokens cases) (rest : List Token) :
    headKind (tokens ++ rest) = .keyword .CASE ∨ headKind (tokens ++ rest) = headKind rest := by
  induction arms generalizing rest with
  | none => exact .inr rfl
  | @more tokens next cases arm before last ih =>
      rw [List.append_assoc]
      rcases ih (next ++ rest) with isCase | same
      · exact .inl isCase
      · left
        rw [same, headKind_append last.starts.1, last.starts.2]

/-- A rule reads all statements of fewer than the given number of tokens. -/
def ReadsStatements (bound : Nat) (statement : Parse Stmt) : Prop :=
  ∀ tokens stmt, tokens.length < bound → DerivesStmt Whole tokens (.statement stmt) →
    ∀ rest, headKind rest = .newline → Reads statement (tokens ++ rest) stmt rest

/-- A block is over at these tokens. -/
def Closes (closing : List Keyword) (rest : List Token) : Prop :=
  ∃ keyword ∈ closing, headKind rest = .keyword keyword

section Statements

variable {bound : Nat} {statement : Parse Stmt} (reads : ReadsStatements bound statement)

include reads

omit reads in
/-- Words that end a block start no statement. -/
theorem readsLines (reads : ReadsStatements bound statement) {closing : List Keyword}
    (apart : ∀ keyword ∈ closing, Kind.keyword keyword ∉ statementStart) :
    ReadsLines (fun used stmt => DerivesStmt Whole used (.statement stmt)) statement
      (.eof :: closing.map Kind.keyword) bound where
  starts := by
    intro used stmt derived
    obtain ⟨nonempty, starts⟩ := derived.starts
    refine ⟨nonempty, ?_⟩
    intro isNewline
    rw [isNewline] at starts
    exact absurd starts (by decide)
  goesOn := by
    intro used stmt derived member
    obtain ⟨_, starts⟩ := derived.starts
    rcases List.mem_cons.1 member with isEnd | isClosing
    · rw [isEnd] at starts
      exact absurd starts (by decide)
    · obtain ⟨keyword, inside, same⟩ := List.mem_map.1 isClosing
      exact apart keyword inside (same ▸ starts)
  reads := reads

theorem Reads.block {closing : List Keyword}
    (apart : ∀ keyword ∈ closing, Kind.keyword keyword ∉ statementStart) {tokens : List Token}
    {body : List Stmt} (derived : DerivesStmt Whole tokens (.block body))
    (short : tokens.length < bound) {rest : List Token} (closes : Closes closing rest) :
    Reads (Grammar.block statement closing) (tokens ++ rest) body rest := by
  obtain ⟨keyword, member, is⟩ := closes
  have stopped : headKind rest ∈ Kind.eof :: closing.map Kind.keyword := by
    rw [is]
    exact List.mem_cons_of_mem _ (List.mem_map_of_mem member)
  have stops : headKind rest ≠ .newline := by
    rw [is]
    simp
  have adds : ∀ (items : List Stmt) stmt, (items ++ [stmt]).toArray = items.toArray.push stmt :=
    fun items stmt => (List.push_toArray items stmt).symm
  exact .bind (derived.lines.reads adds (readsLines reads apart) short stops stopped) .pure

theorem Reads.bodyUpTo {closing : Keyword} (apart : Kind.keyword closing ∉ statementStart)
    {ends tokens : List Token} {word : Token} {body : List Stmt} (ended : LineEnd ends)
    (derived : DerivesStmt Whole tokens (.block body)) (short : tokens.length < bound)
    (closes : word.kind = .keyword closing) {rest : List Token} :
    Reads (Grammar.bodyUpTo statement closing) (ends ++ (tokens ++ word :: rest)) body rest := by
  have stops : headKind (word :: rest) ≠ .newline := by
    rw [headKind, closes]
    simp
  refine .bind (.lineEnd ended (derived.block_notNewline stops)) ?_
  refine .bind (.block reads (List.forall_mem_singleton.2 apart) derived short ?_) ?_
  · exact ⟨closing, List.mem_singleton.2 rfl, closes⟩
  · exact .bind (.word closes) .pure

/-- The rounds of the arms, with whatever the loop reads after them. -/
theorem arms_rounds {tokens : List Token} {cases : List (Expr × List Stmt)}
    (arms : Arms Whole tokens cases) (short : tokens.length < bound) {rest last : List Token}
    {final : Array (Expr × List Stmt)} (closes : Closes [.CASE, .DEFAULT, .ENDSWITCH] rest)
    (others : Rounds (Parse.among [.keyword .CASE])
      (fun found _ => do
        let _ ← Parse.advance
        return found.push (← caseArm statement)) rest cases.toArray final last) :
    Rounds (Parse.among [.keyword .CASE])
      (fun found _ => do
        let _ ← Parse.advance
        return found.push (← caseArm statement)) (tokens ++ rest) #[] final last := by
  induction arms generalizing rest with
  | none => exact others
  | @more tokens next cases arm before derived ih =>
      cases derived with
      | @arm shown ends run word colon value body isCase valued isColon ended runs =>
          simp only [List.length_append, List.length_cons] at short
          have stops : headKind rest ≠ .newline := by
            obtain ⟨keyword, _, is⟩ := closes
            rw [is]
            simp
          have asks : Parse.among [.keyword .CASE] word.kind = some () := by
            rw [isCase]
            rfl
          have armRead : Reads (caseArm statement) (shown ++ colon :: (ends ++ (run ++ rest)))
              (value, body) rest := by
            refine .bind (valued _ (.of_headKind isColon (by simp) rfl)) (.bind (.mark isColon) ?_)
            refine .bind (.lineEnd ended (runs.block_notNewline stops)) ?_
            exact .bind (.block reads (by decide) runs (by omega) closes) .pure
          have fewer :
              rest.length < (word :: (shown ++ colon :: (ends ++ (run ++ rest)))).length := by
            simp only [List.length_append, List.length_cons]
            omega
          rw [← List.push_toArray] at others
          simp only [List.append_assoc, List.cons_append]
          refine ih (by omega) ⟨.CASE, by decide, isCase⟩ (.next asks ?_ fewer others)
          exact .bind .advance (.bind armRead .pure)

theorem Reads.branching {test ends first second rest : List Token} {word closing : Token}
    {condition : Expr} {yes : List Stmt} {no : Option (List Stmt)} (tested : Whole test condition)
    (isThen : word.kind = .keyword .THEN) (ended : LineEnd ends)
    (runs : DerivesStmt Whole first (.block yes)) (short : first.length < bound)
    (others : DerivesStmt Whole second (.otherwise [.keyword .ELSE] no))
    (shorter : second.length < bound) (closes : closing.kind = .keyword .ENDIF) :
    Reads (Grammar.branching statement)
      (test ++ word :: (ends ++ (first ++ (second ++ closing :: rest))))
      (.branch condition yes no) rest := by
  have goesOn : Closes [.ELSE, .ENDIF] (second ++ closing :: rest) := by
    rcases others.otherwise_starts with isElse | same
    · exact ⟨.ELSE, by decide, isElse⟩
    · exact ⟨.ENDIF, by decide, same.trans closes⟩
  have stops : headKind (second ++ closing :: rest) ≠ .newline := by
    obtain ⟨keyword, _, is⟩ := goesOn
    rw [is]
    simp
  refine .bind (tested _ (.of_headKind isThen (by simp) rfl)) (.bind (.word isThen) ?_)
  refine .bind (.lineEnd ended (runs.block_notNewline stops)) ?_
  refine .bind (.block reads (by decide) runs short goesOn) ?_
  have otherwise : Reads
      (Parse.following? (.keyword .ELSE) do
        Parse.lineEnd
        Grammar.block statement [.ENDIF]) (second ++ closing :: rest) no (closing :: rest) := by
    have closed : headKind (closing :: rest) ≠ .newline := by
      rw [headKind, closes]
      simp
    cases others with
    | absent =>
        refine .notFollowing ?_
        rw [List.nil_append, headKind, closes]
        simp
    | @present _ words ends tokens body opens ended runs =>
        obtain ⟨word, rfl, isElse⟩ := List.map_eq_singleton_iff.1 opens
        simp only [List.length_append, List.length_singleton] at shorter
        simp only [List.cons_append, List.nil_append, List.append_assoc]
        refine .following isElse (.bind (.lineEnd ended (runs.block_notNewline closed)) ?_)
        exact .block reads (by decide) runs (by omega) ⟨.ENDIF, by decide, closes⟩
  exact .bind otherwise (.bind (.word closes) .pure)

theorem Reads.forLooping {low high stepping ends tokens rest : List Token}
    {name fromWord toWord closing : Token} {first last step : Expr} {body : List Stmt}
    (isName : name.kind = .identifier) (isFrom : fromWord.kind = .keyword .FROM)
    (firsts : Whole low first) (isTo : toWord.kind = .keyword .TO) (lasts : Whole high last)
    (steps : Stepped Whole stepping step) (ended : LineEnd ends)
    (runs : DerivesStmt Whole tokens (.block body)) (short : tokens.length < bound)
    (closes : closing.kind = .keyword .ENDFOR) :
    Reads (Grammar.forLooping statement)
      (name :: fromWord :: (low ++ toWord ::
        (high ++ (stepping ++ (ends ++ (tokens ++ closing :: rest))))))
      (.forLoop name.lexeme first last step body) rest := by
  have newline : headKind (ends ++ (tokens ++ closing :: rest)) = .newline := ended.headKind _
  obtain ⟨found, stepRead, rfl, ending⟩ : ∃ found,
      Reads (Parse.following? (.keyword .STEP) expression)
        (stepping ++ (ends ++ (tokens ++ closing :: rest))) found
        (ends ++ (tokens ++ closing :: rest)) ∧
      found.getD (.literal (.integer .one)) = step ∧
      Ends [] (stepping ++ (ends ++ (tokens ++ closing :: rest))) := by
    cases steps with
    | absent =>
        refine ⟨none, .notFollowing ?_, rfl, .newline newline⟩
        rw [List.nil_append, newline]
        simp
    | present isStep within =>
        refine ⟨_, .following isStep (within _ (.newline newline)), rfl, ?_⟩
        exact .of_headKind isStep (by simp) rfl
  refine .bind (.identifier isName) (.bind (.word isFrom) ?_)
  refine .bind (firsts _ (.of_headKind isTo (by simp) rfl)) (.bind (.word isTo) ?_)
  refine .bind (lasts _ ending) (.bind stepRead (.bind ?_ .pure))
  exact .bodyUpTo reads (by decide) ended runs short closes

theorem Reads.switching {tokens ends first second rest : List Token} {closing : Token}
    {scrutinee : Expr} {cases : List (Expr × List Stmt)} {otherwise : Option (List Stmt)}
    (switched : Whole tokens scrutinee) (ended : LineEnd ends)
    (arms : Arms Whole first cases) (short : first.length < bound)
    (others : DerivesStmt Whole second (.otherwise [.keyword .DEFAULT, .mark .colon] otherwise))
    (shorter : second.length < bound) (closes : closing.kind = .keyword .ENDSWITCH) :
    Reads (Grammar.switching statement)
      (tokens ++ (ends ++ (first ++ (second ++ closing :: rest))))
      (.switch scrutinee cases otherwise) rest := by
  have after : headKind (second ++ closing :: rest) = .keyword .DEFAULT ∨
      headKind (second ++ closing :: rest) = .keyword .ENDSWITCH := by
    rcases others.otherwise_starts with isDefault | same
    · exact .inl isDefault
    · exact .inr (same.trans closes)
  have goesOn : Closes [.CASE, .DEFAULT, .ENDSWITCH] (second ++ closing :: rest) := by
    rcases after with is | is
    · exact ⟨.DEFAULT, by decide, is⟩
    · exact ⟨.ENDSWITCH, by decide, is⟩
  have stop : Parse.among [.keyword .CASE] (headKind (second ++ closing :: rest)) = none := by
    rcases after with is | is
    · rw [is]
      rfl
    · rw [is]
      rfl
  have stops : headKind (first ++ (second ++ closing :: rest)) ≠ .newline := by
    rcases arms.starts (second ++ closing :: rest) with is | same
    · rw [is]
      simp
    · obtain ⟨keyword, _, is⟩ := goesOn
      rw [same, is]
      simp
  have newline := ended.headKind (first ++ (second ++ closing :: rest))
  refine .bind (switched _ (.newline newline)) (.bind (.lineEnd ended stops) ?_)
  refine .bind (arms_rounds reads arms short goesOn (.stop stop)).reads ?_
  have otherwiseRead : Reads
      (Parse.following? (.keyword .DEFAULT) do
        Parse.mark .colon
        Parse.lineEnd
        Grammar.block statement [.ENDSWITCH]) (second ++ closing :: rest) otherwise
        (closing :: rest) := by
    have closed : headKind (closing :: rest) ≠ .newline := by
      rw [headKind, closes]
      simp
    cases others with
    | absent =>
        refine .notFollowing ?_
        rw [List.nil_append, headKind, closes]
        simp
    | @present _ words ends tokens body opens ended runs =>
        obtain ⟨word, _, rfl, isDefault, opens⟩ := List.map_eq_cons_iff.1 opens
        obtain ⟨colon, _, rfl, isColon, opens⟩ := List.map_eq_cons_iff.1 opens
        obtain rfl := List.map_eq_nil_iff.1 opens
        simp only [List.length_append, List.length_cons] at shorter
        simp only [List.cons_append, List.nil_append, List.append_assoc]
        refine .following isDefault (.bind (.mark isColon) ?_)
        refine .bind (.lineEnd ended (runs.block_notNewline closed)) ?_
        exact .block reads (by decide) runs (by omega) ⟨.ENDSWITCH, by decide, closes⟩
  exact .bind otherwiseRead (.bind (.word closes) .pure)

/-- The statements inside one are shorter, so they are read by the rule inside. -/
theorem Reads.statementRule : ReadsStatements (bound + 1) (Grammar.statementRule statement) := by
  intro tokens stmt short derived rest newline
  have ending : Ends [] rest := .newline newline
  have opened : ∀ {keyword : Keyword} {opening : Token} {others : List Token},
      opening.kind = .keyword keyword → Kind.keyword keyword ∈ statementStart →
      Reads (statementAfter statement (.keyword keyword)) others stmt rest →
      Reads (Grammar.statementRule statement) (opening :: others) stmt rest := by
    intro keyword opening others is member reads
    refine .bind (.expectAny (is ▸ member)) ?_
    rw [is]
    exact reads
  cases derived with
  | @assign opening name sign tokens value opens isName isSign within =>
      refine opened opens (by decide) ?_
      refine .bind (.identifier isName) (.bind (.notFollowing ?_) ?_)
      · change sign.kind ≠ _
        rw [isSign]
        simp
      · exact .bind (.mark isSign) (.bind (within rest ending) .pure)
  | @assignAt opening name sign left right position tokens index value opens isName starts
      indexed stops isSign within =>
      have indexRead := Whole.index (.present starts indexed stops : Indexed Whole _ _)
        (show headKind (sign :: (tokens ++ rest)) ≠ .mark .leftBracket by
          rw [headKind, isSign]; simp)
      simp only [List.cons_append, List.append_assoc, List.nil_append] at indexRead ⊢
      refine opened opens (by decide) ?_
      refine .bind (.identifier isName) (.bind indexRead ?_)
      exact .bind (.mark isSign) (.bind (within rest ending) .pure)
  | @print opening tokens values opens listed =>
      refine opened opens (by decide) ?_
      refine .listed (fun tokens a rest whole ends => whole rest ends)
        (fun token rest isComma => .of_headKind isComma (by simp) rfl) listed ending ?_ ?_
      · rw [newline]
        simp
      · exact .pure
  | @branch opening word closing test ends first second condition yes no opens tested isThen
      ended runs others closes =>
      simp only [List.length_cons, List.length_append] at short
      simp only [List.cons_append, List.append_assoc, List.nil_append]
      refine opened opens (by decide) ?_
      exact .branching reads tested isThen ended runs (by omega) others (by omega) closes
  | @whileLoop opening word closing test ends tokens condition body opens tested isDo ended runs
      closes =>
      simp only [List.length_cons, List.length_append] at short
      simp only [List.cons_append, List.append_assoc, List.nil_append]
      refine opened opens (by decide) ?_
      refine .bind (tested _ (.of_headKind isDo (by simp) rfl)) (.bind (.word isDo) ?_)
      exact .bind (.bodyUpTo reads (by decide) ended runs (by omega) closes) .pure
  | @forLoop opening name fromWord toWord closing low high stepping ends tokens first last step
      body opens isName isFrom firsts isTo lasts steps ended runs closes =>
      simp only [List.length_cons, List.length_append] at short
      simp only [List.cons_append, List.append_assoc, List.nil_append]
      refine opened opens (by decide) ?_
      exact .forLooping reads isName isFrom firsts isTo lasts steps ended runs (by omega) closes
  | @repeatLoop opening word closing test ends tokens condition body opens isUntil tested ended
      runs closes =>
      simp only [List.length_cons, List.length_append] at short
      simp only [List.cons_append, List.append_assoc, List.nil_append]
      refine opened opens (by decide) ?_
      refine .bind (.word isUntil) (.bind (tested _ (.newline (ended.headKind _))) ?_)
      exact .bind (.bodyUpTo reads (by decide) ended runs (by omega) closes) .pure
  | @switch opening closing tokens ends first second scrutinee cases otherwise opens switched
      ended runs others closes =>
      simp only [List.length_cons, List.length_append] at short
      simp only [List.cons_append, List.append_assoc, List.nil_append]
      refine opened opens (by decide) ?_
      exact .switching reads switched ended runs.eachArm (by omega) others (by omega) closes
  | @resize opening name toWord tokens size opens isName isTo within =>
      refine opened opens (by decide) ?_
      exact .bind (.identifier isName) (.bind (.word isTo) (.bind (within rest ending) .pure))

end Statements

/-- Each rule inside another is there for statements of one token less. -/
theorem nested_readsStatements (counter : List Token) :
    ReadsStatements counter.length (Parse.nested Grammar.statementRule counter) := by
  induction counter with
  | nil => exact fun _ _ short => absurd short (Nat.not_lt_zero _)
  | cons _ counter ih => exact Reads.statementRule ih

theorem Reads.statement (bound : Nat) : ReadsStatements bound Grammar.statement := by
  intro tokens stmt _ derived rest newline line
  have enough : tokens.length < (Cursor.start (tokens ++ rest) line).allowance.length := by
    have ahead := length_lt_length_allowance (tokens ++ rest) line
    rw [List.length_append] at ahead
    omega
  exact nested_readsStatements _ tokens stmt enough derived rest newline line

/-! ## Programs -/

section Sections

variable {α β : Type} {item : List Token → β → Prop} {tokens rest : List Token} {items : List β}
  {heading : Keyword}

/-- A section starts with its heading, unless it is not there. -/
theorem Section.starts (lines : Section item heading tokens items) (rest : List Token) :
    headKind (tokens ++ rest) = .keyword heading ∨ headKind (tokens ++ rest) = headKind rest := by
  cases lines with
  | absent => exact .inr rfl
  | present isHeading => exact .inl isHeading

theorem Section.reads {rule : Parse β} {stopping : List Kind} (total : List β → Array α)
    (add : Array α → β → Array α) (empty : total [] = #[])
    (adds : ∀ items b, total (items ++ [b]) = add (total items) b)
    (each : ∀ bound, ReadsLines item rule stopping bound)
    (lines : Section item heading tokens items) (stops : headKind rest ≠ .newline)
    (stopped : headKind rest ∈ stopping) (other : headKind rest ≠ .keyword heading) :
    ∃ found,
      Reads
        (Parse.following? (.keyword heading) do
          Parse.lineEnd
          Parse.loop (Parse.outside stopping) (lineRound rule add) #[])
        (tokens ++ rest) found rest ∧ found.getD #[] = total items := by
  cases lines with
  | absent => exact ⟨none, .notFollowing other, empty.symm⟩
  | @present word ends tokens items isHeading ended lines =>
      refine ⟨some (total items), ?_, rfl⟩
      have inner := lines.reads adds (each (tokens.length + 1)) (Nat.lt_succ_self _) stops stopped
      rw [empty] at inner
      simp only [List.cons_append, List.append_assoc]
      exact .following isHeading
        (.bind (.lineEnd ended (lines.headKind_ne (each 0).starts stops)) inner)

end Sections

/-- Constants start with their names. -/
theorem constant_readsLines (bound : Nat) :
    ReadsLines (DerivesConstant Whole) constant [.keyword .VARIABLES, .keyword .BEGIN] bound where
  starts := by
    intro used declared derived
    cases derived with
    | constant isName =>
        rw [headKind, isName]
        exact ⟨by simp, by simp⟩
  goesOn := by
    intro used declared derived
    cases derived with
    | constant isName =>
        rw [headKind, isName]
        decide
  reads := by
    intro used declared _ derived rest newline
    cases derived with
    | constant isName isSign within =>
        exact .bind (.identifier isName)
          (.bind (.mark isSign) (.bind (within rest (.newline newline)) .pure))

theorem Reads.typeName {word : Token} {rest : List Token} {keyword : Keyword} {type : DataType}
    (isType : word.kind = .keyword keyword) (spelled : typeWord? type = some keyword) :
    Reads Grammar.typeName (word :: rest) type rest := by
  have known : Kind.keyword keyword ∈ typeWords ∧ typeOfWord (.keyword keyword) = type := by
    cases type <;> cases spelled <;> decide
  refine .bind (.expectAny (isType ▸ known.1)) ?_
  rw [isType, known.2]
  exact .pure

theorem Listed.named_starts {tokens : List Token} {names : List String}
    (listed : Listed Named tokens names) : tokens ≠ [] ∧ headKind tokens = .identifier := by
  induction listed with
  | one first =>
      cases first with
      | name isName => exact ⟨by simp, isName⟩
  | more before isComma last ih =>
      refine ⟨List.append_ne_nil_of_left_ne_nil ih.1 _, ?_⟩
      rw [headKind_append ih.1]
      exact ih.2

/-- Variables start with the first of their names. -/
theorem variableGroup_readsLines (bound : Nat) :
    ReadsLines (DerivesVariables Whole) variableGroup [.keyword .BEGIN] bound where
  starts := by
    intro used declared derived
    cases derived with
    | group listed =>
        obtain ⟨nonempty, isName⟩ := listed.named_starts
        refine ⟨List.append_ne_nil_of_left_ne_nil nonempty _, ?_⟩
        rw [headKind_append nonempty, isName]
        simp
  goesOn := by
    intro used declared derived
    cases derived with
    | group listed =>
        obtain ⟨nonempty, isName⟩ := listed.named_starts
        rw [headKind_append nonempty, isName]
        decide
  reads := by
    intro used declared _ derived rest newline
    cases derived with
    | @group tokens sized colon word names keyword type size listed isColon isType spelled
        indexed =>
        have notIndex : headKind rest ≠ .mark .leftBracket := by
          rw [newline]
          simp
        simp only [List.append_assoc, List.cons_append]
        have nameRead : ∀ used name rest, Named used name → True →
            Reads Parse.identifier (used ++ rest) name rest := by
          intro used name rest named _
          cases named with
          | name isName => exact .identifier isName
        refine .listed nameRead (fun _ _ _ => trivial) listed trivial ?_ ?_
        · rw [headKind, isColon]
          simp
        · exact .bind (.mark isColon) (.bind (.typeName isType spelled)
            (.bind (Whole.index indexed notIndex) .pure))

theorem Reads.declarations {first second rest : List Token} {constants : List Constant}
    {groups : List (List Variable)}
    (constant : Section (DerivesConstant Whole) .CONSTANTS first constants)
    (declared : Section (DerivesVariables Whole) .VARIABLES second groups)
    (begins : headKind rest = .keyword .BEGIN) :
    Reads Grammar.declarations (first ++ (second ++ rest)) ⟨constants, groups.flatten⟩ rest := by
  have after : headKind (second ++ rest) = .keyword .VARIABLES ∨
      headKind (second ++ rest) = .keyword .BEGIN := by
    rcases declared.starts rest with isHeading | same
    · exact .inl isHeading
    · exact .inr (same.trans begins)
  have pushes : ∀ (items : List Constant) item,
      (items ++ [item]).toArray = items.toArray.push item :=
    fun items item => (List.push_toArray items item).symm
  have appends : ∀ (groups : List (List Variable)) group,
      (groups ++ [group]).flatten.toArray = groups.flatten.toArray ++ group.toArray := by
    simp
  have notLine : headKind (second ++ rest) ≠ .newline := by
    rcases after with is | is <;> simp [is]
  have stopped : headKind (second ++ rest) ∈ [Kind.keyword .VARIABLES, .keyword .BEGIN] := by
    rcases after with is | is <;> rw [is] <;> decide
  have other : headKind (second ++ rest) ≠ .keyword .CONSTANTS := by
    rcases after with is | is <;> simp [is]
  obtain ⟨found, constantRead, same⟩ :=
    constant.reads List.toArray Array.push rfl pushes constant_readsLines notLine stopped other
  have notLine : headKind rest ≠ .newline := by
    rw [begins]
    simp
  have stopped : headKind rest ∈ [Kind.keyword .BEGIN] := List.mem_singleton.2 begins
  have other : headKind rest ≠ .keyword .VARIABLES := by
    rw [begins]
    simp
  obtain ⟨others, variableRead, also⟩ := declared.reads (fun groups => groups.flatten.toArray)
    (fun found next => found ++ next.toArray) rfl appends variableGroup_readsLines notLine stopped
    other
  have constantsRead : Reads constantSection (first ++ (second ++ rest)) constants
      (second ++ rest) := by
    refine .bind constantRead ?_
    rw [same]
    exact .pure
  have variablesRead : Reads variableSection (second ++ rest) groups.flatten rest := by
    refine .bind variableRead ?_
    rw [also]
    exact .pure
  exact .bind constantsRead (.bind variablesRead .pure)

/-- **A program whose expressions are read in full is read to the end of the
text.** -/
theorem Reads.program {tokens : List Token} {program : Program}
    (derived : DerivesProgram Whole tokens program) :
    Reads Grammar.program tokens program [] := by
  cases derived with
  | @program before ends first second starts tokens after heading name opening closing constants
      groups body blank isProgram isName ended constant declared opens started runs closes rest =>
      have closed : headKind (closing :: after) ≠ .newline := by
        rw [headKind, closes]
        simp
      have begun : headKind (opening :: (starts ++ (tokens ++ closing :: after))) ≠ .newline := by
        rw [headKind, opens]
        simp
      have variablesStart : headKind (second ++ opening :: (starts ++ (tokens ++ closing :: after)))
          ≠ .newline := by
        rcases declared.starts (opening :: (starts ++ (tokens ++ closing :: after))) with is | same
        · rw [is]
          simp
        · rwa [same]
      have declarationsStart : headKind (first ++ (second ++ opening ::
          (starts ++ (tokens ++ closing :: after)))) ≠ .newline := by
        rcases constant.starts (second ++ opening :: (starts ++ (tokens ++ closing :: after)))
          with is | same
        · rw [is]
          simp
        · rwa [same]
      have text : Reads programText
          (before ++ heading :: name :: (ends ++ (first ++ (second ++ opening ::
            (starts ++ (tokens ++ closing :: after))))))
          ⟨name.lexeme, ⟨constants, groups.flatten⟩, body⟩ [] := by
        refine .bind (.blankLines blank ?_) (.bind (.word isProgram) ?_)
        · rw [headKind, isProgram]
          simp
        refine .bind (.identifier isName) (.bind (.lineEnd ended declarationsStart) ?_)
        refine .bind (.declarations constant declared opens) (.bind (.word opens) ?_)
        refine .bind (.lineEnd started (runs.block_notNewline closed)) ?_
        refine .bind (.block (.statement _) (by decide) runs (Nat.lt_succ_self _)
          ⟨.END, by decide, closes⟩) (.bind (.word closes) ?_)
        have last : Reads Parse.blankLines (after ++ []) () [] :=
          .blankLines rest (by simp [headKind])
        rw [List.append_nil] at last
        exact .bind last .pure
      exact .bind text (.kind .pure)

end Pseudocode.Grammar
