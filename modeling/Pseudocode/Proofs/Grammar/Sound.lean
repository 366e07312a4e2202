import Pseudocode.Proofs.Grammar.Derivation

/-!
# Sound rules

A rule is sound for a relation between tokens and trees if the tokens that it
moves past are related to its result, whenever it has one. There is one lemma for
each way of building rules. Those for loops (`Sound.loop`) and for nesting
(`Sound.recursive`) are the inductions that the soundness of a grammar rests on.
-/

set_option autoImplicit false

namespace Pseudocode

/-- Tokens of the given kinds ask for another round. -/
theorem Parse.among_eq_some {kinds : List Kind} {kind : Kind} {found : Unit} :
    Parse.among kinds kind = some found ↔ kind ∈ kinds := by
  by_cases member : kind ∈ kinds
  · simp [Parse.among, member]
  · simp [Parse.among, member]

namespace Grammar

variable {α β : Type}

/-- At a place with a token of certain kinds, whatever a rule reads is related to
the tokens it moves past. -/
def Sound (starts : Kind → Prop) (rule : Parse α) (derives : List Token → α → Prop) : Prop :=
  ∀ tokens stop cursor a after, Cursor.ofLexed ⟨tokens, stop⟩ = .ok cursor →
    starts cursor.current.kind → rule cursor = .ok a after →
    ∃ used rest, tokens = used ++ rest ∧ Cursor.ofLexed ⟨rest, stop⟩ = .ok after ∧
      derives used a

theorem bind_ok {first : Parse α} {second : α → Parse β} {cursor middle : Cursor} {a : α}
    (found : first cursor = .ok a middle) : (first >>= second) cursor = second a middle := by
  rw [show (first >>= second) cursor = EStateM.bind first second cursor from rfl, EStateM.bind,
    found]

theorem bind_error {first : Parse α} {second : α → Parse β} {cursor place : Cursor}
    {error : GrammarError} (found : first cursor = .error error place) :
    (first >>= second) cursor = .error error place := by
  rw [show (first >>= second) cursor = EStateM.bind first second cursor from rfl, EStateM.bind,
    found]

/-- No kind is asked for. -/
abbrev anyKind : Kind → Prop := fun _ => True

namespace Sound

variable {starts : Kind → Prop} {derives : List Token → α → Prop}

/-! ## Sequences -/

theorem weaken {rule : Parse α} {derives' : List Token → α → Prop}
    (sound : Sound starts rule derives) (weaker : ∀ used a, derives used a → derives' used a) :
    Sound starts rule derives' := by
  intro tokens stop cursor a after here start read
  obtain ⟨used, rest, split, there, derived⟩ := sound tokens stop cursor a after here start read
  exact ⟨used, rest, split, there, weaker used a derived⟩

theorem restrict {rule : Parse α} {starts' : Kind → Prop} (sound : Sound starts rule derives)
    (fewer : ∀ kind, starts' kind → starts kind) : Sound starts' rule derives :=
  fun tokens stop cursor a after here start =>
    sound tokens stop cursor a after here (fewer _ start)

theorem pure {a : α} (derived : derives [] a) : Sound starts (Pure.pure a) derives := by
  intro tokens stop cursor b after here _ read
  cases read
  exact ⟨[], tokens, rfl, here, derived⟩

/-- What the second rule reads is derived together with what the first has
read. -/
theorem bind {first : Parse α} {second : α → Parse β} {derivesAll : List Token → β → Prop}
    (earlier : Sound starts first derives)
    (later : ∀ used a, derives used a →
      Sound anyKind (second a) fun others b => derivesAll (used ++ others) b) :
    Sound starts (first >>= second) derivesAll := by
  intro tokens stop cursor b last here start read
  cases found : first cursor with
  | error error place =>
      rw [bind_error found] at read
      cases read
  | ok a middle =>
      rw [bind_ok found] at read
      obtain ⟨used, rest, rfl, there, derived⟩ :=
        earlier tokens stop cursor a middle here start found
      obtain ⟨others, rest, rfl, there, derived⟩ :=
        later used a derived rest stop middle b last there trivial read
      exact ⟨used ++ others, rest, (List.append_assoc ..).symm, there, derived⟩

/-- Nothing of a result is kept but that there was one. -/
theorem discard {rule : Parse α} (sound : Sound starts rule derives) :
    Sound starts (Functor.discard rule) fun used _ => ∃ a, derives used a := by
  intro tokens stop cursor _ after here start read
  rw [show Functor.discard rule cursor = EStateM.map (Function.const α ()) rule cursor from rfl,
    EStateM.map] at read
  cases found : rule cursor with
  | error error place =>
      rw [found] at read
      cases read
  | ok a middle =>
      rw [found] at read
      cases read
      obtain ⟨used, rest, split, there, derived⟩ :=
        sound tokens stop cursor a after here start found
      exact ⟨used, rest, split, there, a, derived⟩

/-- Looking at the kind of the token in view. -/
theorem kind {next : Kind → Parse α}
    (looks : ∀ kind, starts kind → Sound (· = kind) (next kind) derives) :
    Sound starts (Parse.kind >>= next) derives :=
  fun tokens stop cursor a after here start read =>
    looks cursor.current.kind start tokens stop cursor a after here rfl read

/-! ## Tokens -/

theorem unexpected {expected : List Kind} :
    Sound starts (Parse.unexpected expected : Parse α) derives := by
  intro tokens stop cursor a after here _ read
  cases read

theorem badSyntax : Sound starts (Parse.badSyntax : Parse α) derives := by
  intro tokens stop cursor a after here _ read
  cases read

/-- The token in view is the next one, unless the text is at its end. -/
theorem advance (before : ∀ kind, starts kind → kind ≠ .eof) :
    Sound starts Parse.advance fun used token => used = [token] ∧ starts token.kind := by
  intro tokens stop cursor token after here start read
  cases tokens with
  | nil =>
      cases stop with
      | error error => cases here
      | ok line =>
          cases here
          exact absurd rfl (before _ start)
  | cons first rest =>
      cases here
      cases moved : Cursor.next ⟨first, rest, stop⟩ with
      | error error =>
          simp only [Parse.advance, moved] at read
          cases read
      | ok next =>
          simp only [Parse.advance, moved] at read
          cases read
          exact ⟨[token], rest, rfl, moved, rfl, start⟩

/-- Moving on in a loop that does not go past the end. -/
theorem pass {more : Kind → Option β} (stops : more .eof = none) {b : β} :
    Sound (more · = some b) Parse.advance
      fun used token => used = [token] ∧ more token.kind = some b := by
  refine advance fun kind again atEnd => ?_
  rw [atEnd, stops] at again
  cases again

theorem expectAny {expected : List Kind} (inner : Kind.eof ∉ expected) :
    Sound anyKind (Parse.expectAny expected)
      fun used token => used = [token] ∧ token.kind ∈ expected := by
  refine kind fun found _ => ?_
  by_cases member : found ∈ expected
  · rw [if_pos member]
    have passes : Sound (· = found) Parse.advance
        fun used token => used = [token] ∧ token.kind = found := by
      refine advance fun kind same atEnd => inner ?_
      rwa [← atEnd, same]
    exact passes.weaken fun used token passed => ⟨passed.1, passed.2 ▸ member⟩
  · rw [if_neg member]
    exact unexpected

theorem expect {expected : Kind} (inner : expected ≠ .eof) :
    Sound anyKind (Parse.expect expected)
      fun used token => used = [token] ∧ token.kind = expected := by
  have absent : Kind.eof ∉ [expected] := fun member => inner (List.mem_singleton.1 member).symm
  exact (expectAny absent).weaken fun used token passed =>
    ⟨passed.1, List.mem_singleton.1 passed.2⟩

theorem word (keyword : Keyword) :
    Sound anyKind (Parse.word keyword)
      fun used _ => ∃ token, used = [token] ∧ token.kind = .keyword keyword :=
  discard (expect nofun)

theorem mark (mark : Mark) :
    Sound anyKind (Parse.mark mark)
      fun used _ => ∃ token, used = [token] ∧ token.kind = .mark mark :=
  discard (expect nofun)

theorem identifier : Sound anyKind Parse.identifier Named := by
  refine bind (expect nofun) ?_
  rintro _ token ⟨rfl, isName⟩
  exact pure (.name isName)

/-! ## Loops and nesting -/

/-- What may stand after a token. -/
theorem following? (opening : Kind) {rule : Parse α} (inner : opening ≠ .eof)
    (sound : Sound anyKind rule derives) :
    Sound anyKind (Parse.following? opening rule) fun used found =>
      (used = [] ∧ found = none) ∨
        ∃ token others a, used = token :: others ∧ token.kind = opening ∧ derives others a ∧
          found = some a := by
  refine kind fun found _ => ?_
  by_cases here : found = opening
  · rw [if_pos here]
    subst here
    refine bind (advance fun kind same atEnd => inner (same ▸ atEnd)) ?_
    rintro _ token ⟨rfl, isOpening⟩
    refine bind sound fun used a derived =>
      pure (.inr ⟨token, used, a, ?_, isOpening, derived, rfl⟩)
    rw [List.append_nil]
    rfl
  · rw [if_neg here]
    exact pure (.inl ⟨rfl, rfl⟩)

/-- A loop is sound if each of its rounds adds to what was derived before. -/
theorem loop {more : Kind → Option β} {step : α → β → Parse α}
    (rounds : ∀ used a b, derives used a → Sound (more · = some b) (step a b)
      fun others a' => derives (used ++ others) a')
    {used : List Token} {a : α} (derived : derives used a) :
    Sound anyKind (Parse.loop more step a) fun others a' => derives (used ++ others) a' := by
  have counted : ∀ counter used a, derives used a → Sound anyKind
      (Parse.rounds more step counter a) fun others a' => derives (used ++ others) a' := by
    intro counter
    induction counter with
    | nil => exact fun _ _ _ => badSyntax
    | cons _ counter ih =>
        intro used a derived
        refine kind fun found _ => ?_
        cases again : more found with
        | none => exact pure (by rwa [List.append_nil])
        | some b =>
            refine bind ((rounds used a b derived).restrict ?_) ?_
            · rintro _ rfl
              exact again
            · intro others a' longer
              refine (ih (used ++ others) a' longer).weaken fun last a'' whole => ?_
              rwa [List.append_assoc] at whole
  exact fun tokens stop cursor => counted cursor.allowance used a derived tokens stop cursor

/-- A rule that contains itself is sound if it is so whenever the rule inside it
is. -/
theorem recursive {rule : Parse α → Parse α}
    (sound : ∀ inner, Sound anyKind inner derives → Sound anyKind (rule inner) derives) :
    Sound anyKind (Parse.recursive rule) derives := by
  have counted : ∀ counter, Sound anyKind (Parse.nested rule counter) derives := by
    intro counter
    induction counter with
    | nil => exact badSyntax
    | cons _ counter ih => exact sound _ ih
  exact fun tokens stop cursor => counted cursor.allowance tokens stop cursor

/-! ## Ends of lines -/

theorem blankLines : Sound anyKind Parse.blankLines fun used _ => BlankLines used := by
  have passes : ∀ used (_ : Unit) b, BlankLines used →
      Sound (Parse.among [.newline] · = some b) (Functor.discard Parse.advance)
        fun others _ => BlankLines (used ++ others) := by
    intro used _ b blank
    refine (pass rfl).discard.weaken ?_
    rintro _ _ ⟨token, rfl, again⟩
    refine List.forall_mem_append.2 ⟨blank, List.forall_mem_singleton.2 ?_⟩
    exact List.mem_singleton.1 (Parse.among_eq_some.1 again)
  exact loop passes (nofun : BlankLines [])

theorem lineEnd : Sound anyKind Parse.lineEnd fun used _ => LineEnd used := by
  refine bind (discard (expect nofun)) ?_
  rintro _ _ ⟨token, rfl, isNewline⟩
  refine blankLines.weaken fun others _ blank => ⟨nofun, ?_⟩
  exact List.forall_mem_cons.2 ⟨isNewline, blank⟩

end Sound

end Grammar

end Pseudocode
