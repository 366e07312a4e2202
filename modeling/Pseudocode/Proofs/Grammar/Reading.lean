import Pseudocode.Proofs.Grammar.Derivation

/-!
# Reading what was derived

Here the text is known to be readable to its end, so a place is given by the
tokens ahead. A rule reads a result when it finds it in front of the tokens ahead
and leaves the others, whatever the line on which the text ends.

Loops and nesting are bounded by a counter. It never runs out: a loop reads what
its rounds read one after another, if each of them leaves fewer tokens
(`Rounds.reads`).

An expression is read in full (`Whole`) when it is read wherever something
follows that cannot belong to it. Items with commas between them and items on
lines of their own are read one by one, whatever the items are.
-/

set_option autoImplicit false

namespace Pseudocode

/-- The place before the given tokens in a text that ends on the given line. -/
def Cursor.start : List Token → Nat → Cursor
  | [], line => ⟨.eof line, [], .ok line⟩
  | token :: rest, line => ⟨token, rest, .ok line⟩

theorem Cursor.ofLexed_eq_start (tokens : List Token) (line : Nat) :
    Cursor.ofLexed ⟨tokens, .ok line⟩ = .ok (.start tokens line) := by
  cases tokens <;> rfl

namespace Grammar

/-- The kind of the token in view. -/
def headKind : List Token → Kind
  | [] => .eof
  | token :: _ => token.kind

theorem start_kind (tokens : List Token) (line : Nat) :
    (Cursor.start tokens line).current.kind = headKind tokens := by
  cases tokens <;> rfl

theorem headKind_append {tokens : List Token} (some : tokens ≠ []) (rest : List Token) :
    headKind (tokens ++ rest) = headKind tokens := by
  cases tokens with
  | nil => exact absurd rfl some
  | cons token others => rfl

variable {α β : Type}

/-- A rule finds a result in front of the given tokens and leaves the rest. -/
def Reads (rule : Parse α) (tokens : List Token) (a : α) (rest : List Token) : Prop :=
  ∀ line, rule (.start tokens line) = .ok a (.start rest line)

namespace Reads

variable {tokens middle rest : List Token} {a : α} {b : β} {token : Token}

/-! ## Sequences and tokens -/

theorem pure : Reads (Pure.pure a) tokens a tokens := fun _ => rfl

theorem bind {first : Parse α} {second : α → Parse β} (earlier : Reads first tokens a middle)
    (later : Reads (second a) middle b rest) : Reads (first >>= second) tokens b rest := by
  intro line
  rw [show (first >>= second) (.start tokens line) = EStateM.bind first second _ from rfl,
    EStateM.bind, earlier line]
  exact later line

theorem kind {next : Kind → Parse α} (reads : Reads (next (headKind tokens)) tokens a rest) :
    Reads (Parse.kind >>= next) tokens a rest := by
  intro line
  rw [show (Parse.kind >>= next) (.start tokens line) =
    next (Cursor.start tokens line).current.kind (.start tokens line) from rfl, start_kind]
  exact reads line

theorem discard {rule : Parse α} (reads : Reads rule tokens a rest) :
    Reads (Functor.discard rule) tokens () rest := by
  intro line
  rw [show Functor.discard rule (.start tokens line) =
    EStateM.map (Function.const α ()) rule _ from rfl, EStateM.map, reads line]

theorem advance : Reads Parse.advance (token :: rest) token rest := by
  intro line
  rw [Parse.advance, Cursor.next, Cursor.start, Cursor.ofLexed_eq_start]

theorem expectAny {expected : List Kind} (member : token.kind ∈ expected) :
    Reads (Parse.expectAny expected) (token :: rest) token rest := by
  refine kind ?_
  rw [headKind, if_pos member]
  exact advance

theorem expect {expected : Kind} (is : token.kind = expected) :
    Reads (Parse.expect expected) (token :: rest) token rest :=
  expectAny (List.mem_singleton.2 is)

theorem word {keyword : Keyword} (is : token.kind = .keyword keyword) :
    Reads (Parse.word keyword) (token :: rest) () rest :=
  discard (expect is)

theorem mark {mark : Mark} (is : token.kind = .mark mark) :
    Reads (Parse.mark mark) (token :: rest) () rest :=
  discard (expect is)

theorem identifier (is : token.kind = .identifier) :
    Reads Parse.identifier (token :: rest) token.lexeme rest :=
  bind (expect is) pure

theorem following {opening : Kind} {rule : Parse α} (is : token.kind = opening)
    (reads : Reads rule middle a rest) :
    Reads (Parse.following? opening rule) (token :: middle) (some a) rest := by
  refine kind ?_
  rw [headKind, if_pos is]
  exact bind advance (bind reads pure)

theorem notFollowing {opening : Kind} {rule : Parse α} (other : headKind tokens ≠ opening) :
    Reads (Parse.following? opening rule) tokens none tokens := by
  refine kind ?_
  rw [if_neg other]
  exact pure

end Reads

/-! ## Loops -/

/-- What the rounds of a loop read one after another, up to a token that does not
ask for more. -/
inductive Rounds (more : Kind → Option β) (step : α → β → Parse α) :
    List Token → α → α → List Token → Prop where
  | stop {tokens : List Token} {a : α} (stops : more (headKind tokens) = none) :
      Rounds more step tokens a a tokens
  | next {tokens middle rest : List Token} {a a' final : α} {b : β}
      (asks : more (headKind tokens) = some b) (reads : Reads (step a b) tokens a' middle)
      (fewer : middle.length < tokens.length) (others : Rounds more step middle a' final rest) :
      Rounds more step tokens a final rest

theorem length_lt_length_allowance (tokens : List Token) (line : Nat) :
    tokens.length < (Cursor.start tokens line).allowance.length := by
  cases tokens with
  | nil => exact Nat.zero_lt_succ _
  | cons token rest => exact Nat.lt_succ_self _

/-- The counter of a loop is longer than the tokens ahead, and each round leaves
fewer of them. -/
theorem Rounds.reads {more : Kind → Option β} {step : α → β → Parse α} {tokens rest : List Token}
    {a final : α} (rounds : Rounds more step tokens a final rest) :
    Reads (Parse.loop more step a) tokens final rest := by
  have counted : ∀ counter : List Token, tokens.length < counter.length →
      Reads (Parse.rounds more step counter a) tokens final rest := by
    induction rounds with
    | stop stops =>
        intro counter enough
        cases counter with
        | nil => cases enough
        | cons _ counter =>
            refine Reads.kind ?_
            rw [stops]
            exact .pure
    | next asks reads fewer _ ih =>
        intro counter enough
        cases counter with
        | nil => cases enough
        | cons _ counter =>
            refine Reads.kind ?_
            rw [asks]
            refine Reads.bind reads (ih counter ?_)
            rw [List.length_cons] at enough
            omega
  intro line
  exact counted _ (length_lt_length_allowance tokens line) line

/-! ## Ends of lines -/

theorem Reads.blankLines {tokens rest : List Token} (blank : BlankLines tokens)
    (stops : headKind rest ≠ .newline) : Reads Parse.blankLines (tokens ++ rest) () rest := by
  refine Rounds.reads ?_
  induction tokens with
  | nil =>
      refine .stop ?_
      rw [List.nil_append, Parse.among, if_neg (by simpa using stops)]
  | cons token others ih =>
      obtain ⟨isNewline, blank⟩ := List.forall_mem_cons.1 blank
      have asks : Parse.among [.newline] token.kind = some () := by
        rw [isNewline]
        rfl
      exact .next asks (.discard .advance) (Nat.lt_succ_self _) (ih blank)

theorem Reads.lineEnd {tokens rest : List Token} (ended : LineEnd tokens)
    (stops : headKind rest ≠ .newline) : Reads Parse.lineEnd (tokens ++ rest) () rest := by
  obtain ⟨nonempty, blank⟩ := ended
  cases tokens with
  | nil => exact absurd rfl nonempty
  | cons token others =>
      obtain ⟨isNewline, blank⟩ := List.forall_mem_cons.1 blank
      exact .bind (.discard (.expect isNewline)) (.blankLines blank stops)

theorem LineEnd.headKind {tokens : List Token} (ended : LineEnd tokens) (rest : List Token) :
    Grammar.headKind (tokens ++ rest) = .newline := by
  obtain ⟨nonempty, blank⟩ := ended
  cases tokens with
  | nil => exact absurd rfl nonempty
  | cons token others => exact blank token List.mem_cons_self

/-! ## What follows expressions -/

/-- The tokens ahead do not go on with an expression, apart from the given
operators. -/
def Ends (allowed : List BinaryOp) (rest : List Token) : Prop :=
  headKind rest ≠ .mark .leftBracket ∧
    ∀ op, BinaryOp.ofKind? (headKind rest) = some op → op ∈ allowed

theorem Ends.mono {allowed more : List BinaryOp} {rest : List Token} (ends : Ends allowed rest)
    (wider : ∀ op ∈ allowed, op ∈ more) : Ends more rest :=
  ⟨ends.1, fun op found => wider op (ends.2 op found)⟩

theorem Ends.of_headKind {allowed : List BinaryOp} {rest : List Token} {kind : Kind}
    (is : headKind rest = kind) (notIndex : kind ≠ .mark .leftBracket)
    (notOperator : BinaryOp.ofKind? kind = none) : Ends allowed rest := by
  refine ⟨is ▸ notIndex, fun op found => ?_⟩
  rw [is, notOperator] at found
  cases found

theorem Ends.newline {allowed : List BinaryOp} {rest : List Token}
    (is : headKind rest = .newline) : Ends allowed rest :=
  .of_headKind is nofun rfl

/-- The tokens are read in full as an expression wherever it may end. -/
def Whole (tokens : List Token) (expr : Expr) : Prop :=
  ∀ rest, Ends [] rest → Reads expression (tokens ++ rest) expr rest

theorem Whole.index {tokens rest : List Token} {index : Option Expr}
    (indexed : Indexed Whole tokens index) (other : headKind rest ≠ .mark .leftBracket) :
    Reads index? (tokens ++ rest) index rest := by
  cases indexed with
  | absent => exact .notFollowing other
  | @present opening closing inner index opens within closes =>
      have ends : Ends [] (closing :: rest) := .of_headKind closes nofun rfl
      have inside := within (closing :: rest) ends
      simp only [List.cons_append, List.append_assoc, List.nil_append]
      exact .following opens (.bind inside (.bind (.mark closes) .pure))

/-- Items with commas between them, and then whatever is made of them. -/
theorem Reads.listed {item : List Token → α → Prop} {rule : Parse α} {ends : List Token → Prop}
    (reads : ∀ tokens a rest, item tokens a → ends rest → Reads rule (tokens ++ rest) a rest)
    (comma : ∀ token rest, token.kind = .mark .comma → ends (token :: rest))
    {tokens rest last : List Token} {items : List α} {next : Array α → Parse β} {b : β}
    (listed : Listed item tokens items) (stops : ends rest)
    (other : headKind rest ≠ .mark .comma) (goes : Reads (next items.toArray) rest b last) :
    Reads
      (do
        let first ← rule
        let found ← Parse.loop (Parse.among [.mark .comma])
          (fun found _ => do
            let _ ← Parse.advance
            return found.push (← rule))
          #[first]
        next found)
      (tokens ++ rest) b last := by
  have whole : ∀ (tokens : List Token) (items : List α), Listed item tokens items →
      ∀ rest final last, ends rest →
      Rounds (Parse.among [.mark .comma])
        (fun found _ => do
          let _ ← Parse.advance
          return found.push (← rule)) rest items.toArray final last →
      Reads
        (do
          let first ← rule
          Parse.loop (Parse.among [.mark .comma])
            (fun found _ => do
              let _ ← Parse.advance
              return found.push (← rule))
            #[first])
        (tokens ++ rest) final last := by
    intro tokens items listed
    induction listed with
    | one first =>
        intro rest final last stops others
        exact .bind (reads _ _ rest first stops) others.reads
    | @more tokens following items sign a before isComma final ih =>
        intro rest result last stops others
        have asks : Parse.among [.mark .comma] sign.kind = some () := by
          rw [isComma]
          rfl
        have fewer : rest.length < (sign :: (following ++ rest)).length := by
          simp only [List.length_cons, List.length_append]
          omega
        rw [← List.push_toArray] at others
        rw [List.append_assoc]
        exact ih _ result last (comma sign _ isComma)
          (.next asks (.bind .advance (.bind (reads following a rest final stops) .pure)) fewer
            others)
  have stop : Parse.among [.mark .comma] (headKind rest) = none :=
    if_neg fun member => other (List.mem_singleton.1 member)
  have all := whole tokens items listed rest items.toArray rest stops (.stop stop)
  have bound := Reads.bind all goes
  rwa [bind_assoc] at bound

/-! ## Lines -/

/-- Lines of items are empty or start with an item. -/
theorem Lines.headKind_ne {item : List Token → β → Prop} {tokens rest : List Token}
    {items : List β} (starts : ∀ used b, item used b → used ≠ [] ∧ headKind used ≠ .newline)
    (lines : Lines item tokens items) (stops : headKind rest ≠ .newline) :
    headKind (tokens ++ rest) ≠ .newline := by
  induction lines generalizing rest with
  | none => exact stops
  | @more tokens next ends items b before last ended ih =>
      obtain ⟨nonempty, other⟩ := starts next b last
      rw [List.append_assoc, List.append_assoc]
      refine ih ?_
      rwa [headKind_append nonempty]

/-- One round of a loop over lines. -/
abbrev lineRound (rule : Parse β) (add : Array α → β → Array α) (found : Array α) (_ : Unit) :
    Parse (Array α) := do
  let next ← rule
  Parse.lineEnd
  return add found next

/-- What the items of a loop over lines have to be: they start with a token that
neither is a blank line nor stops the loop, and the rule reads those of fewer
than the given number of tokens. -/
structure ReadsLines (item : List Token → β → Prop) (rule : Parse β) (stopping : List Kind)
    (bound : Nat) : Prop where
  starts : ∀ used b, item used b → used ≠ [] ∧ headKind used ≠ .newline
  goesOn : ∀ used b, item used b → headKind used ∉ stopping
  reads : ∀ used b, used.length < bound → item used b →
    ∀ rest, headKind rest = .newline → Reads rule (used ++ rest) b rest

section Lines

variable {item : List Token → β → Prop} {rule : Parse β} {stopping : List Kind} {bound : Nat}
  {tokens rest : List Token} {items : List β} {add : Array α → β → Array α}
  {total : List β → Array α} (adds : ∀ items b, total (items ++ [b]) = add (total items) b)
  (each : ReadsLines item rule stopping bound)

include adds each

/-- The rounds of a loop over lines, with whatever the loop reads after them. -/
theorem Lines.rounds (lines : Lines item tokens items) (short : tokens.length < bound)
    {last : List Token} {final : Array α} (stops : headKind rest ≠ .newline)
    (others : Rounds (Parse.outside stopping) (lineRound rule add) rest (total items) final last) :
    Rounds (Parse.outside stopping) (lineRound rule add) (tokens ++ rest) (total []) final
      last := by
  induction lines generalizing rest with
  | none => exact others
  | @more tokens next ends items b before derived ended ih =>
      obtain ⟨nonempty, other⟩ := each.starts next b derived
      have apart := each.goesOn next b derived
      rw [← headKind_append nonempty (ends ++ rest)] at other apart
      simp only [List.length_append] at short
      have itemRead : Reads rule (next ++ (ends ++ rest)) b (ends ++ rest) :=
        each.reads next b (by omega) derived _ (ended.headKind rest)
      have round : Reads (lineRound rule add (total items) ()) (next ++ (ends ++ rest))
          (total (items ++ [b])) rest := by
        rw [adds]
        exact .bind itemRead (.bind (.lineEnd ended stops) .pure)
      have fewer : rest.length < (next ++ (ends ++ rest)).length := by
        have positive := List.length_pos_iff.2 nonempty
        simp only [List.length_append]
        omega
      simp only [List.append_assoc]
      exact ih (by omega) other (.next (if_neg apart) round fewer others)

/-- A loop over lines reads them up to a token that stops it. -/
theorem Lines.reads (lines : Lines item tokens items) (short : tokens.length < bound)
    (stops : headKind rest ≠ .newline) (stopped : headKind rest ∈ stopping) :
    Reads (Parse.loop (Parse.outside stopping) (lineRound rule add) (total [])) (tokens ++ rest)
      (total items) rest :=
  (lines.rounds adds each short stops (.stop (if_pos stopped))).reads

end Lines

end Grammar

end Pseudocode
