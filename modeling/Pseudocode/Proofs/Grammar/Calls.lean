import Pseudocode.Proofs.Grammar.Sound
import Pseudocode.Proofs.Token.Scan

/-!
# The calls that a rule makes

A rule looks at the token in view, calls for the next token, and goes on with another rule
after what it has found. `Parse.Calls` follows a rule through these steps and lists the places
where it calls. The places are those of the text, one after the other
(`Parse.Calls.places_eq`).

A rule is nothing but a function from places to results, so there might be several ways to
follow it. They all lead to the same calls (`Parse.Calls.unique`), because the function tells
how far it calls: when the text breaks off with a fault in the place of some token, the rule
fails with this fault if it calls for the token, and does what it did before if not.
-/

set_option autoImplicit false

namespace Pseudocode

variable {α β : Type}

/-! ## Texts that break off -/

namespace Cursor

/-- The same place in a text that breaks off with a fault after so many calls. -/
def brokenOff (fault : LexicalError) : Nat → Cursor → Cursor
  | 0, cursor => ⟨cursor.current, [], .error ⟨fault, []⟩⟩
  | n + 1, cursor =>
    match cursor.next with
    | .ok after =>
      let later := brokenOff fault n after
      ⟨cursor.current, later.current :: later.rest, later.stop⟩
    | .error _ => cursor

variable {fault : LexicalError} {n : Nat} {cursor after : Cursor}

@[simp] theorem brokenOff_current (fault : LexicalError) (n : Nat) (cursor : Cursor) :
    (cursor.brokenOff fault n).current = cursor.current := by
  cases n with
  | zero => rfl
  | succ n =>
      rw [brokenOff]
      cases cursor.next <;> rfl

theorem next_brokenOff (moved : cursor.next = .ok after) :
    (cursor.brokenOff fault (n + 1)).next = .ok (after.brokenOff fault n) := by
  simp only [brokenOff, moved]
  rfl

theorem brokenOff_mk (token : Token) {rest : List Token} (stop : Except Break Nat)
    (fault : LexicalError) {n : Nat} (inside : n ≤ rest.length) :
    brokenOff fault n ⟨token, rest, stop⟩ = ⟨token, rest.take n, .error ⟨fault, []⟩⟩ := by
  induction n generalizing token rest with
  | zero => rfl
  | succ n ih =>
      cases rest with
      | nil => cases inside
      | cons next rest =>
          have later := ih next (Nat.le_of_succ_le_succ inside)
          simp only [brokenOff, Cursor.next, ofLexed, later, List.take_succ_cons]

theorem brokenOff_of_error {error : LexicalError} (stopped : cursor.next = .error error) :
    cursor.brokenOff fault (n + 1) = cursor := by
  simp only [brokenOff, stopped]

/-- The tokens from the one in view on. -/
def lexed (cursor : Cursor) : Lexed := ⟨cursor.current :: cursor.rest, cursor.stop⟩

theorem place_lexed (cursor : Cursor) : cursor.lexed.place 0 = .ok cursor := rfl

end Cursor

namespace Parse

open Grammar (bind_ok bind_error)

/-! ## Calls -/

/-- The rule that only looks at the token in view. -/
def inView (look : Token → Except GrammarError α) : Parse α := fun cursor =>
  match look cursor.current with
  | .ok a => .ok a cursor
  | .error error => .error error cursor

/-- The places where a rule calls for the next token, from a place on. -/
inductive Calls : {α : Type} → Parse α → Cursor → List Cursor → Prop where
  | view {α : Type} (look : Token → Except GrammarError α) (cursor : Cursor) :
      Calls (inView look) cursor []
  | advance (cursor : Cursor) : Calls Parse.advance cursor [cursor]
  | onward {α β : Type} {first : Parse α} {second : α → Parse β} {cursor middle : Cursor} {a : α}
      {places others : List Cursor} (earlier : Calls first cursor places)
      (found : first cursor = .ok a middle) (later : Calls (second a) middle others) :
      Calls (first >>= second) cursor (places ++ others)
  | failed {α β : Type} {first : Parse α} {second : α → Parse β} {cursor place : Cursor}
      {error : GrammarError} {places : List Cursor} (earlier : Calls first cursor places)
      (found : first cursor = .error error place) : Calls (first >>= second) cursor places

/-! ## Results of single steps -/

theorem inView_eq_ok {look : Token → Except GrammarError α} {cursor after : Cursor} {a : α} :
    inView look cursor = .ok a after ↔ look cursor.current = .ok a ∧ after = cursor := by
  rw [inView]
  cases look cursor.current <;> simp [eq_comm]

theorem inView_eq_error {look : Token → Except GrammarError α} {cursor place : Cursor}
    {error : GrammarError} :
    inView look cursor = .error error place ↔
      look cursor.current = .error error ∧ place = cursor := by
  rw [inView]
  cases look cursor.current <;> simp [eq_comm]

theorem advance_eq_ok {cursor after : Cursor} {token : Token} :
    advance cursor = .ok token after ↔ token = cursor.current ∧ cursor.next = .ok after := by
  rw [advance]
  cases cursor.next <;> simp [eq_comm]

theorem advance_eq_error {cursor place : Cursor} {cause : GrammarError} :
    advance cursor = .error cause place ↔
      place = cursor.resume ∧ ∃ error, cause = .lexical error ∧ cursor.next = .error error := by
  rw [advance]
  cases cursor.next <;> simp [eq_comm, and_comm]

namespace Calls

variable {rule : Parse α} {cursor after : Cursor} {places : List Cursor} {a : α}

/-! ## How far a rule calls -/

/-- A fault after all of its calls does not change what a rule finds. -/
theorem unnoticed (calls : Calls rule cursor places) (found : rule cursor = .ok a after)
    (fault : LexicalError) (n : Nat) :
    rule (cursor.brokenOff fault (places.length + n)) = .ok a (after.brokenOff fault n) := by
  induction calls generalizing after n with
  | view look cursor =>
      obtain ⟨seen, rfl⟩ := inView_eq_ok.1 found
      apply inView_eq_ok.2
      simp [seen]
  | advance cursor =>
      obtain ⟨rfl, moved⟩ := advance_eq_ok.1 found
      rw [List.length_singleton, Nat.add_comm]
      exact advance_eq_ok.2 ⟨by simp, Cursor.next_brokenOff moved⟩
  | onward _ middle _ ih ih' =>
      rw [bind_ok middle] at found
      rw [List.length_append, Nat.add_assoc, bind_ok (ih middle _)]
      exact ih' found n
  | failed _ stopped _ =>
      rw [bind_error stopped] at found
      cases found

/-- Nor does it change the error with which a rule fails. -/
theorem unnoticed_error (calls : Calls rule cursor places) {cause : GrammarError} {place : Cursor}
    (found : rule cursor = .error cause place) (fault : LexicalError) :
    ∃ place', rule (cursor.brokenOff fault places.length) = .error cause place' := by
  induction calls with
  | view look cursor =>
      obtain ⟨seen, rfl⟩ := inView_eq_error.1 found
      exact ⟨_, inView_eq_error.2 ⟨by simp [seen], rfl⟩⟩
  | advance cursor =>
      obtain ⟨rfl, error, _, stopped⟩ := advance_eq_error.1 found
      rw [List.length_singleton, Cursor.brokenOff_of_error stopped]
      exact ⟨_, found⟩
  | onward earlier middle _ _ ih' =>
      rw [bind_ok middle] at found
      rw [List.length_append, bind_ok (earlier.unnoticed middle fault _)]
      exact ih' found
  | failed _ stopped ih =>
      rw [bind_error stopped] at found
      cases found
      obtain ⟨place', again⟩ := ih stopped
      exact ⟨place', bind_error again⟩

/-- A fault in the place of a token that a rule calls for is what it fails with. -/
theorem noticed (calls : Calls rule cursor places) (fault : LexicalError) {n : Nat}
    (called : n < places.length) :
    ∃ place, rule (cursor.brokenOff fault n) = .error (.lexical fault) place := by
  induction calls generalizing n with
  | view look cursor => cases called
  | advance cursor =>
      obtain rfl : n = 0 := by simpa using called
      exact ⟨_, rfl⟩
  | @onward _ _ _ _ _ _ _ places _ earlier middle _ ih ih' =>
      rw [List.length_append] at called
      rcases Nat.lt_or_ge n places.length with early | late
      · obtain ⟨place, stopped⟩ := ih early
        exact ⟨place, bind_error stopped⟩
      · obtain ⟨m, rfl⟩ := Nat.exists_eq_add_of_le late
        rw [bind_ok (earlier.unnoticed middle fault m)]
        exact ih' (by omega)
  | failed _ _ ih =>
      obtain ⟨place, stopped⟩ := ih called
      exact ⟨place, bind_error stopped⟩

theorem length_le {others : List Cursor} (one : Calls rule cursor places)
    (other : Calls rule cursor others) : others.length ≤ places.length := by
  apply Nat.le_of_not_lt
  intro more
  -- Two faults, since one of them might be the error of the rule anyway.
  obtain ⟨_, stopped⟩ := other.noticed ⟨.invalidFloat, 0⟩ more
  obtain ⟨_, stopped'⟩ := other.noticed ⟨.invalidInteger, 0⟩ more
  cases found : rule cursor with
  | ok a after =>
      have again := one.unnoticed found ⟨.invalidFloat, 0⟩ 0
      rw [Nat.add_zero, stopped] at again
      cases again
  | error error place =>
      obtain ⟨_, again⟩ := one.unnoticed_error found ⟨.invalidFloat, 0⟩
      obtain ⟨_, again'⟩ := one.unnoticed_error found ⟨.invalidInteger, 0⟩
      rw [stopped] at again
      rw [stopped'] at again'
      cases again
      cases again'

/-! ## The places of a text -/

section Places

variable {text : Lexed} {n : Nat}

/-- After its calls a rule is as many tokens further on. -/
theorem place_after (calls : Calls rule cursor places) (found : rule cursor = .ok a after)
    (there : text.place n = .ok cursor) : text.place (n + places.length) = .ok after := by
  induction calls generalizing after n with
  | view look cursor =>
      obtain ⟨_, rfl⟩ := inView_eq_ok.1 found
      exact there
  | advance cursor =>
      obtain ⟨_, moved⟩ := advance_eq_ok.1 found
      simp only [List.length_singleton, Lexed.place, there]
      exact moved
  | onward _ middle _ ih ih' =>
      rw [bind_ok middle] at found
      rw [List.length_append, ← Nat.add_assoc]
      exact ih' found (ih middle there)
  | failed _ stopped _ =>
      rw [bind_error stopped] at found
      cases found

/-- A rule that fails does so at the place that its calls lead to, or because the last of them
has failed. -/
theorem place_of_error (calls : Calls rule cursor places) {cause : GrammarError} {place : Cursor}
    (found : rule cursor = .error cause place) (there : text.place n = .ok cursor) :
    text.place (n + places.length) = .ok place ∨
      ∃ error, cause = .lexical error ∧ text.place (n + places.length) = .error error := by
  induction calls generalizing n with
  | view look cursor =>
      obtain ⟨_, rfl⟩ := inView_eq_error.1 found
      exact .inl there
  | advance cursor =>
      obtain ⟨_, error, same, stopped⟩ := advance_eq_error.1 found
      refine .inr ⟨error, same, ?_⟩
      simp only [List.length_singleton, Lexed.place, there]
      exact stopped
  | onward earlier middle _ _ ih' =>
      rw [bind_ok middle] at found
      rw [List.length_append, ← Nat.add_assoc]
      exact ih' found (earlier.place_after middle there)
  | failed _ stopped ih =>
      rw [bind_error stopped] at found
      cases found
      exact ih stopped there

/-- A rule calls at one place after the other, once at each. -/
theorem places_eq (calls : Calls rule cursor places) (there : text.place n = .ok cursor) :
    places.map Except.ok = (List.range' n places.length).map text.place := by
  induction calls generalizing n with
  | view look cursor => rfl
  | advance cursor => simp [there]
  | onward earlier middle _ ih ih' =>
      have onward := earlier.place_after middle there
      rw [List.map_append, ih there, ih' onward, ← List.map_append, List.length_append,
        List.range'_append_1]
  | failed _ _ ih => exact ih there

theorem place_of_getElem (calls : Calls rule cursor places) (there : text.place n = .ok cursor)
    {j : Nat} (inside : j < places.length) : text.place (n + j) = .ok places[j] := by
  have same := congrArg (·[j]?) (calls.places_eq there)
  simpa [inside] using same.symm

end Places

/-! ## Rules that do not call -/

/-- The same result at another place. -/
def resultAt (other : Cursor) :
    EStateM.Result GrammarError Cursor α → EStateM.Result GrammarError Cursor α
  | .ok a _ => .ok a other
  | .error error _ => .error error other

/-- A rule that does not call stays where it is. -/
theorem stays (calls : Calls rule cursor []) (found : rule cursor = .ok a after) :
    after = cursor := by
  have there := calls.place_after found cursor.place_lexed
  exact Except.ok.inj (there.symm.trans cursor.place_lexed)

/-- It depends on the token in view only. -/
theorem eq_resultAt (calls : Calls rule cursor []) {other : Cursor}
    (same : other.current = cursor.current) : rule other = resultAt other (rule cursor) := by
  generalize none : ([] : List Cursor) = places at calls
  induction calls with
  | view look cursor =>
      rw [inView, inView, same]
      cases look cursor.current <;> rfl
  | advance cursor => cases none
  | onward earlier middle later ih ih' =>
      obtain ⟨rfl, rfl⟩ := List.append_eq_nil_iff.1 none.symm
      cases earlier.stays middle
      have again := ih same rfl
      rw [middle] at again
      rw [bind_ok middle, bind_ok again]
      exact ih' same rfl
  | failed _ stopped ih =>
      have again := ih same none
      rw [stopped] at again
      rw [bind_error stopped, bind_error again]
      rfl

/-- **The calls of a rule are told by the rule.** -/
theorem unique {others : List Cursor} (one : Calls rule cursor places)
    (other : Calls rule cursor others) : places = others := by
  have same : places.length = others.length :=
    Nat.le_antisymm (other.length_le one) (one.length_le other)
  have alike := one.places_eq cursor.place_lexed
  rw [same, ← other.places_eq cursor.place_lexed] at alike
  exact (List.map_inj_right fun _ _ => Except.ok.inj).1 alike

end Calls

end Parse

end Pseudocode
