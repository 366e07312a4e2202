import Pseudocode.Proofs.Grammar.Reading
import Pseudocode.Proofs.Grammar.Soundness

/-!
# The rule for primaries contains itself

A primary is read by a rule inside itself, as deep as a counter allows. The
counter is longer than the tokens ahead, and each rule inside has moved on by a
token, so that the counter cannot be told from one without end: what the rule
for primaries reads, it reads with itself in the place of the rule inside it
(`Reads.primary`).

The argument compares two rules on places with few tokens ahead (`Agree`). Rules
that are built in the same way from agreeing ones agree, since no rule ever goes
back (`Forward`).
-/

set_option autoImplicit false

namespace Pseudocode.Grammar

variable {α β : Type}

/-! ## No rule goes back -/

/-- A rule leaves at most the tokens that were ahead. -/
def Forward (rule : Parse α) : Prop :=
  ∀ tokens line a after, rule (.start tokens line) = .ok a after →
    ∃ rest, after = .start rest line ∧ rest.length ≤ tokens.length

/-- The place of a sound rule is after the tokens it has read. -/
theorem Sound.split {rule : Parse α} {derives : List Token → α → Prop}
    (sound : Sound anyKind rule derives) {tokens : List Token} {line : Nat} {a : α}
    {after : Cursor} (read : rule (.start tokens line) = .ok a after) :
    ∃ used rest, tokens = used ++ rest ∧ after = .start rest line ∧ derives used a := by
  obtain ⟨used, rest, split, there, derived⟩ :=
    sound tokens (.ok line) _ a after (Cursor.ofLexed_eq_start tokens line) trivial read
  rw [Cursor.ofLexed_eq_start] at there
  exact ⟨used, rest, split, (Except.ok.inj there).symm, derived⟩

namespace Forward

theorem ofSound {rule : Parse α} {derives : List Token → α → Prop}
    (sound : Sound anyKind rule derives) : Forward rule := by
  intro tokens line a after read
  obtain ⟨used, rest, rfl, rfl, _⟩ := sound.split read
  refine ⟨rest, rfl, ?_⟩
  rw [List.length_append]
  omega

theorem pure {a : α} : Forward (Pure.pure a) := by
  intro tokens line b after read
  cases read
  exact ⟨tokens, rfl, Nat.le_refl _⟩

theorem advance : Forward Parse.advance := by
  intro tokens line token after read
  cases tokens with
  | nil =>
      cases read
      exact ⟨[], rfl, Nat.le_refl _⟩
  | cons first rest =>
      have moved : Parse.advance (.start (first :: rest) line) = .ok first (.start rest line) :=
        Reads.advance line
      rw [moved] at read
      cases read
      exact ⟨rest, rfl, Nat.le_succ _⟩

theorem bind {first : Parse α} {second : α → Parse β} (earlier : Forward first)
    (later : ∀ a, Forward (second a)) : Forward (first >>= second) := by
  intro tokens line b after read
  rw [show (first >>= second) (.start tokens line) = EStateM.bind first second _ from rfl,
    EStateM.bind] at read
  cases found : first (.start tokens line) with
  | error error place =>
      rw [found] at read
      cases read
  | ok a middle =>
      rw [found] at read
      obtain ⟨between, rfl, fewer⟩ := earlier tokens line a middle found
      obtain ⟨rest, rfl, fewest⟩ := later a between line b after read
      exact ⟨rest, rfl, Nat.le_trans fewest fewer⟩

end Forward

/-! ## Rules that agree -/

/-- Two rules do the same where fewer than the given number of tokens are
ahead. -/
def Agree (bound : Nat) (first second : Parse α) : Prop :=
  ∀ tokens line, tokens.length < bound →
    first (.start tokens line) = second (.start tokens line)

namespace Agree

variable {bound : Nat}

theorem refl (rule : Parse α) : Agree bound rule rule := fun _ _ _ => rfl

theorem bind {first first' : Parse α} {second second' : α → Parse β}
    (earlier : Agree bound first first') (forward : Forward first)
    (later : ∀ a, Agree bound (second a) (second' a)) :
    Agree bound (first >>= second) (first' >>= second') := by
  intro tokens line few
  rw [show (first >>= second) (.start tokens line) = EStateM.bind first second _ from rfl,
    show (first' >>= second') (.start tokens line) = EStateM.bind first' second' _ from rfl,
    EStateM.bind, EStateM.bind, ← earlier tokens line few]
  cases found : first (.start tokens line) with
  | error error place => rfl
  | ok a middle =>
      obtain ⟨between, rfl, fewer⟩ := forward tokens line a middle found
      exact later a between line (by omega)

theorem bindSame {first first' : Parse α} {second : α → Parse β}
    (agree : Agree bound first first') : Agree bound (first >>= second) (first' >>= second) := by
  intro tokens line few
  rw [show (first >>= second) (.start tokens line) = EStateM.bind first second _ from rfl,
    show (first' >>= second) (.start tokens line) = EStateM.bind first' second _ from rfl,
    EStateM.bind, EStateM.bind, agree tokens line few]

/-- After a token was read there are fewer ahead. -/
theorem passing {first : Parse α} {second second' : α → Parse β}
    {derives : List Token → α → Prop} (sound : Sound anyKind first derives)
    (passes : ∀ used a, derives used a → used ≠ [])
    (later : ∀ a, Agree bound (second a) (second' a)) :
    Agree (bound + 1) (first >>= second) (first >>= second') := by
  intro tokens line few
  rw [show (first >>= second) (.start tokens line) = EStateM.bind first second _ from rfl,
    show (first >>= second') (.start tokens line) = EStateM.bind first second' _ from rfl,
    EStateM.bind, EStateM.bind]
  cases found : first (.start tokens line) with
  | error error place => rfl
  | ok a middle =>
      obtain ⟨used, rest, rfl, rfl, derived⟩ := sound.split found
      have positive := List.length_pos_iff.2 (passes used a derived)
      rw [List.length_append] at few
      exact later a rest line (by omega)

theorem kind {next next' : Kind → Parse α} (looks : ∀ kind, Agree bound (next kind) (next' kind)) :
    Agree bound (Parse.kind >>= next) (Parse.kind >>= next') :=
  fun tokens line few => looks _ tokens line few

theorem following? {opening : Kind} {rule rule' : Parse α} (agree : Agree bound rule rule') :
    Agree bound (Parse.following? opening rule) (Parse.following? opening rule') := by
  refine kind fun found => ?_
  by_cases here : found = opening
  · rw [if_pos here, if_pos here]
    exact bind (refl _) .advance fun _ => bindSame agree
  · rw [if_neg here, if_neg here]
    exact refl _

theorem loop {more : Kind → Option β} {step step' : α → β → Parse α}
    (agree : ∀ a b, Agree bound (step a b) (step' a b)) (forward : ∀ a b, Forward (step a b))
    (a : α) : Agree bound (Parse.loop more step a) (Parse.loop more step' a) := by
  have counted : ∀ counter a,
      Agree bound (Parse.rounds more step counter a) (Parse.rounds more step' counter a) := by
    intro counter
    induction counter with
    | nil => exact fun _ => refl _
    | cons _ counter ih =>
        intro a
        refine kind fun found => ?_
        cases more found with
        | none => exact refl _
        | some b => exact bind (agree a b) (forward a b) ih
  exact fun tokens line few => counted _ a tokens line few

/-! ## Expressions -/

theorem leftChain {operand operand' : Parse Expr} (level : List BinaryOp)
    (agree : Agree bound operand operand') (forward : Forward operand) :
    Agree bound (leftChain level operand) (leftChain level operand') := by
  refine bind agree forward (loop ?_ ?_)
  · intro left op
    exact bind (refl _) .advance fun _ => bindSame agree
  · intro left op
    exact .bind .advance fun _ => .bind forward fun _ => .pure

section Primaries

variable {primary primary' : Parse Expr} (agree : Agree bound primary primary')
  (sound : Sound anyKind primary (Derives .primary))

include agree sound

theorem exponent : Agree bound (exponent primary) (exponent primary') := by
  have forward : Forward primary := .ofSound sound
  refine bind agree forward fun base => bindSame (loop ?_ ?_ #[])
  · intro found _
    exact bind (refl _) .advance fun _ => bindSame agree
  · intro found _
    exact .bind .advance fun _ => .bind forward fun _ => .pure

theorem additive : Agree bound (additive primary) (additive primary') := by
  have factors : Agree bound (multiplicative primary) (multiplicative primary') :=
    leftChain multiplying (exponent agree sound) (.ofSound (exponent_sound sound))
  exact leftChain adding factors (.ofSound (multiplicative_sound sound))

theorem comparison : Agree bound (comparison primary) (comparison primary') := by
  have terms := additive agree sound
  refine bind terms (.ofSound (additive_sound sound)) fun left => kind fun found => ?_
  cases operatorOf comparing found with
  | none => exact refl _
  | some op => exact bind (refl _) .advance fun _ => bindSame terms

theorem expressionOf : Agree bound (expressionOf primary) (expressionOf primary') :=
  leftChain logical (comparison agree sound) (.ofSound (comparison_sound sound))

theorem symbolOf (name : String) : Agree bound (symbolOf name primary) (symbolOf name primary') :=
  bindSame (following? (bindSame (expressionOf agree sound)))

/-- Primaries agree on one token more than the primaries inside them. -/
theorem primaryRule : Agree (bound + 1) (primaryRule primary) (primaryRule primary') := by
  have passes : ∀ (used : List Token) (token : Token),
      used = [token] ∧ token.kind ∈ primaryStart → used ≠ [] := by
    rintro _ _ ⟨rfl, _⟩
    nofun
  refine passing (.expectAny (by decide)) passes fun token => ?_
  split
  · exact symbolOf agree sound _
  · exact bindSame (comparison agree sound)
  · exact bindSame agree
  · exact bindSame agree
  · exact bindSame (expressionOf agree sound)
  · exact refl _

end Primaries

end Agree

/-! ## The counter does not matter -/

theorem nested_sound (counter : List Token) :
    Sound anyKind (Parse.nested primaryRule counter) (Derives .primary) := by
  induction counter with
  | nil => exact .badSyntax
  | cons _ counter ih => exact primaryRule_sound ih

/-- Two counters give the same rule as far as both of them reach. -/
theorem nested_agree (first second : List Token) :
    Agree (min first.length second.length) (Parse.nested primaryRule first)
      (Parse.nested primaryRule second) := by
  induction first generalizing second with
  | nil =>
      intro tokens line few
      simp at few
  | cons _ first ih =>
      cases second with
      | nil =>
          intro tokens line few
          simp at few
      | cons _ second =>
          rw [List.length_cons, List.length_cons, Nat.add_min_add_right]
          exact (ih second).primaryRule (nested_sound first)

/-- The rule for primaries is one that contains itself. -/
theorem primary_start (tokens : List Token) (line : Nat) :
    primary (.start tokens line) = primaryRule primary (.start tokens line) := by
  have inner : ∀ counter : List Token,
      Agree counter.length (Parse.nested primaryRule counter) primary := by
    intro counter others line few
    refine nested_agree counter _ others line (Nat.lt_min.2 ⟨few, ?_⟩)
    exact length_lt_length_allowance others line
  have enough := length_lt_length_allowance tokens line
  let counter := (Cursor.start tokens line).current :: (Cursor.start tokens line).rest
  exact (inner counter).primaryRule (nested_sound counter) tokens line enough

/-- **A primary is read by the rule that has itself inside.** -/
theorem Reads.primary {tokens rest : List Token} {expr : Expr}
    (reads : Reads (primaryRule Grammar.primary) tokens expr rest) :
    Reads Grammar.primary tokens expr rest := by
  intro line
  rw [primary_start]
  exact reads line

end Pseudocode.Grammar
