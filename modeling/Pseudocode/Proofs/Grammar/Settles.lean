import Pseudocode.Proofs.Grammar.Sound
import Pseudocode.Proofs.Token.Layout

/-!
# Rules that settle what they read

A rule moves past some tokens and then has a result or fails. It settles what it reads
(`Settles`) if at that point nothing was done too early or too late:

* The tokens that it has moved past can be completed to something that it reads. If it
  expects tokens of certain kinds then each of them could come next.
* The token in view was looked at, but nothing after it. Other texts that start with the
  same tokens have the same result, whatever follows.

Loops and nesting are bounded by counters that depend on the whole text. Therefore rules
are compared with others that are built alike but have other counters, and for texts
with fewer tokens than the counters have entries. There is one lemma for each way of
building rules, as there is for soundness.
-/

set_option autoImplicit false

namespace Pseudocode

open Lexer

/-- A text with more tokens in front. -/
def Lexed.behind (rest : Lexed) (used : List Token) : Lexed :=
  ⟨used ++ rest.tokens, rest.stop⟩

namespace Lexed

theorem behind_nil (rest : Lexed) : rest.behind [] = rest := rfl

theorem behind_behind (rest : Lexed) (used others : List Token) :
    (rest.behind others).behind used = rest.behind (used ++ others) := by
  simp [behind]

/-- Only the first token is in view. -/
theorem view_behind {rest other : Lexed} (seen : other.view = rest.view) (used : List Token) :
    (other.behind used).view = (rest.behind used).view := by
  cases used with
  | nil => exact seen
  | cons token used => rfl

theorem ofLexed_of_view {rest other : Lexed} {after : Cursor} (seen : other.view = rest.view)
    (there : Cursor.ofLexed rest = .ok after) :
    ∃ after', Cursor.ofLexed other = .ok after' ∧ after'.current = after.current := by
  simp only [view, there] at seen
  cases found : Cursor.ofLexed other with
  | error error =>
      rw [found] at seen
      cases seen
  | ok after' =>
      rw [found] at seen
      exact ⟨after', rfl, Except.ok.inj seen⟩

theorem ofLexed_error {rest : Lexed} {error : LexicalError} :
    Cursor.ofLexed rest = .error error ↔ rest.view = .error error := by
  rw [view]
  cases Cursor.ofLexed rest with
  | error other =>
      refine ⟨fun same => ?_, fun same => ?_⟩
      · exact congrArg Except.error (Except.error.inj same)
      · exact congrArg Except.error (Except.error.inj same)
  | ok after =>
      refine ⟨fun same => ?_, fun same => ?_⟩
      · cases same
      · cases same

end Lexed

namespace Grammar

variable {α β : Type}

/-! ## Completions -/

/-- Some token has the given kind. -/
def Writable (kind : Kind) : Prop := ∃ text, Lexeme kind text

/-- The tokens from the given line on can be completed to derive something. -/
def Completes (line : Nat) (derives : List Token → α → Prop) (used : List Token) : Prop :=
  ∃ more a, Written line (used ++ more) ∧ derives (used ++ more) a

theorem Completes.of_derives {line : Nat} {derives : List Token → α → Prop} {used : List Token}
    {a : α} (written : Written line used) (derived : derives used a) :
    Completes line derives used := by
  refine ⟨[], a, ?_, ?_⟩
  · rwa [List.append_nil]
  · rwa [List.append_nil]

/-- What comes after something that was derived can be completed by itself. -/
theorem Completes.extend {line : Nat} {derives : List Token → β → Prop} {before used : List Token}
    (written : Written line before)
    (completes : Completes (lineAfter line before) (fun others b => derives (before ++ others) b)
      used) :
    Completes line derives (before ++ used) := by
  obtain ⟨more, b, row, derived⟩ := completes
  refine ⟨more, b, ?_, ?_⟩
  · rw [List.append_assoc]
    exact Written.append.2 ⟨written, row⟩
  · rwa [List.append_assoc]

theorem Completes.bind {line : Nat} {derives : List Token → α → Prop} {used : List Token}
    {derivesAll : List Token → β → Prop} (completes : Completes line derives used)
    (later : ∀ tokens a, derives tokens a →
      ∀ line, Completes line (fun others b => derivesAll (tokens ++ others) b) []) :
    Completes line derivesAll used := by
  obtain ⟨more, a, written, derived⟩ := completes
  obtain ⟨last, b, row, whole⟩ := (later _ a derived (lineAfter line (used ++ more))).extend written
  refine ⟨more ++ last, b, ?_, ?_⟩
  · simpa using row
  · simpa using whole

theorem Completes.weaken {line : Nat} {derives derives' : List Token → α → Prop}
    {used : List Token} (completes : Completes line derives used)
    (weaker : ∀ tokens a, derives tokens a → derives' tokens a) :
    Completes line derives' used := by
  obtain ⟨more, a, written, derived⟩ := completes
  exact ⟨more, a, written, weaker _ a derived⟩

/-! ## Results -/

/-- An error after the given tokens is right: it is the one of the text, or any of the
expected kinds of token could have come next. -/
inductive Blamed (completes : List Token → Prop) (line : Nat) (used : List Token) (rest : Lexed) :
    GrammarError → Cursor → Prop where
  | lexical {error : LexicalError} {place : Cursor} (stops : rest.view = .error error) :
      Blamed completes line used rest (.lexical error) place
  | unexpected {expected : List Kind} {place : Cursor} (there : Cursor.ofLexed rest = .ok place)
      (some : expected ≠ [])
      (accepts : ∀ kind ∈ expected, Writable kind ∧ ∀ text, Lexeme kind text →
        completes (used ++ [⟨kind, String.ofList text, lineAfter line used⟩])) :
      Blamed completes line used rest
        (.unexpected expected place.current.kind place.current.line) place

theorem Blamed.extend {completes completes' : List Token → Prop} {line : Nat}
    {before used : List Token} {rest : Lexed} {error : GrammarError} {place : Cursor}
    (blamed : Blamed completes (lineAfter line before) used rest error place)
    (longer : ∀ tokens, completes tokens → completes' (before ++ tokens)) :
    Blamed completes' line (before ++ used) rest error place := by
  cases blamed with
  | lexical stops => exact .lexical stops
  | unexpected there some accepts =>
      refine .unexpected there some fun kind member =>
        ⟨(accepts kind member).1, fun text lexeme => ?_⟩
      rw [lineAfter_append, List.append_assoc]
      exact longer _ ((accepts kind member).2 text lexeme)

/-- The result of a rule that has moved past the given tokens. -/
def Settled (line : Nat) (derives : List Token → α → Prop) (used : List Token) (rest : Lexed) :
    EStateM.Result GrammarError Cursor α → Prop
  | .ok a after => Cursor.ofLexed rest = .ok after ∧ derives used a
  | .error error place =>
    Completes line derives used ∧ Blamed (Completes line derives) line used rest error place

/-- The second result is the first one with another text to follow. -/
inductive Same (other : Lexed) : EStateM.Result GrammarError Cursor α →
    EStateM.Result GrammarError Cursor α → Prop where
  | read {a : α} {after after' : Cursor} (there : Cursor.ofLexed other = .ok after') :
      Same other (.ok a after) (.ok a after')
  | failed {error : GrammarError} {place place' : Cursor} :
      Same other (.error error place) (.error error place')

/-! ## Settling rules -/

/-- At a place with a token of certain kinds and fewer than the given number of tokens
ahead, a rule moves past some tokens and then has a result. Up to there the tokens can
be completed, and the token after them was seen but nothing beyond it: rules that are
alike do the same with any other text that starts with these tokens. -/
structure Settles {ι : Type} (bound : Nat) (limit : ι → Nat) (starts : Kind → Prop)
    (rule : Parse α) (alike : ι → Parse α) (derives : List Token → α → Prop) : Prop where
  possible : ∀ line kind, Writable kind → starts kind → Completes line derives []
  runs : ∀ line text cursor, Written line text.tokens → text.tokens.length < bound →
    Cursor.ofLexed text = .ok cursor → starts cursor.current.kind →
    ∃ used rest, text = rest.behind used ∧ Settled line derives used rest (rule cursor) ∧
      ∀ i other cursor', (other.behind used).tokens.length < limit i → other.view = rest.view →
        Cursor.ofLexed (other.behind used) = .ok cursor' →
        Same other (rule cursor) (alike i cursor')

/-- Past its first token a text goes on as before. -/
theorem next_behind {rest : Lexed} {token : Token} {cursor : Cursor}
    (here : Cursor.ofLexed (rest.behind [token]) = .ok cursor) :
    cursor.current = token ∧ cursor.next = Cursor.ofLexed rest := by
  cases here
  exact ⟨rfl, rfl⟩

theorem advance_ok {rest : Lexed} {token : Token} {cursor after : Cursor}
    (here : Cursor.ofLexed (rest.behind [token]) = .ok cursor)
    (moved : Cursor.ofLexed rest = .ok after) : Parse.advance cursor = .ok token after := by
  obtain ⟨rfl, ahead⟩ := next_behind here
  simp only [Parse.advance, ahead, moved]

theorem advance_error {rest : Lexed} {token : Token} {cursor : Cursor} {error : LexicalError}
    (here : Cursor.ofLexed (rest.behind [token]) = .ok cursor)
    (moved : Cursor.ofLexed rest = .error error) :
    Parse.advance cursor = .error (.lexical error) cursor.resume := by
  simp only [Parse.advance, (next_behind here).2, moved]

/-- The counter of a loop is longer than the tokens ahead. -/
theorem length_lt_allowance {text : Lexed} {cursor : Cursor}
    (here : Cursor.ofLexed text = .ok cursor) :
    text.tokens.length < cursor.allowance.length := by
  obtain ⟨tokens, stop⟩ := text
  cases tokens with
  | nil => exact Nat.zero_lt_succ _
  | cons token rest =>
      cases here
      exact Nat.lt_succ_self _

namespace Settles

variable {ι κ : Type} {bound : Nat} {limit : ι → Nat} {starts : Kind → Prop} {rule : Parse α}
  {alike : ι → Parse α} {derives : List Token → α → Prop}

theorem completes (settles : Settles bound limit anyKind rule alike derives) (line : Nat) :
    Completes line derives [] :=
  settles.possible line .newline ⟨_, .newline⟩ trivial

theorem weaken {derives' : List Token → α → Prop}
    (settles : Settles bound limit starts rule alike derives)
    (weaker : ∀ used a, derives used a → derives' used a) :
    Settles bound limit starts rule alike derives' := by
  refine ⟨fun line kind writable start => (settles.possible line kind writable start).weaken weaker,
    fun line text cursor written short here start => ?_⟩
  obtain ⟨used, rest, split, settled, same⟩ :=
    settles.runs line text cursor written short here start
  refine ⟨used, rest, split, ?_, same⟩
  cases found : rule cursor with
  | ok a after =>
      rw [found] at settled
      exact ⟨settled.1, weaker used a settled.2⟩
  | error error place =>
      rw [found] at settled
      refine ⟨settled.1.weaken weaker, ?_⟩
      have blamed : Blamed (Completes line derives') line ([] ++ used) rest error place :=
        settled.2.extend fun tokens done => done.weaken weaker
      exact blamed

theorem restrict {starts' : Kind → Prop} (settles : Settles bound limit starts rule alike derives)
    (fewer : ∀ kind, starts' kind → starts kind) :
    Settles bound limit starts' rule alike derives :=
  ⟨fun line kind writable start => settles.possible line kind writable (fewer _ start),
    fun line text cursor written short here start =>
      settles.runs line text cursor written short here (fewer _ start)⟩

/-- Fewer tokens, and alike rules among those that were known to be alike. -/
theorem reindex {bound' : Nat} {limit' : κ → Nat} {alike' : κ → Parse α}
    (settles : Settles bound limit starts rule alike derives) (fewer : bound' ≤ bound)
    (among : ∀ k, limit' k = 0 ∨ ∃ i, limit' k ≤ limit i ∧ alike' k = alike i) :
    Settles bound' limit' starts rule alike' derives := by
  refine ⟨settles.possible, fun line text cursor written short here start => ?_⟩
  obtain ⟨used, rest, split, settled, same⟩ :=
    settles.runs line text cursor written (by omega) here start
  refine ⟨used, rest, split, settled, fun k other cursor' few seen there => ?_⟩
  rcases among k with none | ⟨i, lower, is⟩
  · omega
  · rw [is]
    exact same i other cursor' (by omega) seen there

/-! ## Sequences -/

theorem pure {a : α} (derived : derives [] a) :
    Settles bound limit starts (Pure.pure a) (fun _ => Pure.pure a) derives := by
  refine ⟨fun line kind _ _ => .of_derives trivial derived,
    fun line text cursor written short here start => ?_⟩
  refine ⟨[], text, rfl, ⟨here, derived⟩, fun i other cursor' few seen there => ?_⟩
  exact .read there

/-- The second rule settles what comes after the first one. It may be known to do so
only for fewer tokens, if the first one has moved past enough of them. -/
theorem bindWith {first : Parse α} {first' : ι → Parse α} {second : α → Parse β}
    {second' : ι → α → Parse β} {derivesAll : List Token → β → Prop} {fewer : Nat}
    {lower : ι → Nat} (earlier : Settles bound limit starts first first' derives)
    (later : ∀ used a, derives used a → Settles fewer lower anyKind (second a)
      (fun i => second' i a) fun others b => derivesAll (used ++ others) b)
    (passes : ∀ used a, derives used a →
      bound ≤ fewer + used.length ∧ ∀ i, limit i ≤ lower i + used.length) :
    Settles bound limit starts (first >>= second) (fun i => first' i >>= second' i)
      derivesAll := by
  have completed : ∀ line used, Completes line derives used → Completes line derivesAll used :=
    fun line used done => done.bind fun tokens a derived => (later tokens a derived).completes
  refine ⟨fun line kind writable start =>
    completed line [] (earlier.possible line kind writable start),
    fun line text cursor written short here start => ?_⟩
  obtain ⟨used, rest, rfl, settled, same⟩ :=
    earlier.runs line text cursor written short here start
  cases found : first cursor with
  | error error place =>
      rw [found] at settled same
      rw [bind_error found]
      refine ⟨used, rest, rfl, ⟨completed line used settled.1, ?_⟩, ?_⟩
      · have blamed : Blamed (Completes line derivesAll) line ([] ++ used) rest error place :=
          settled.2.extend fun tokens => completed line tokens
        exact blamed
      · intro i other cursor' few seen there
        cases found' : first' i cursor' with
        | ok a after => nomatch found' ▸ same i other cursor' few seen there
        | error error' place' =>
            rw [bind_error found']
            cases found' ▸ same i other cursor' few seen there
            exact .failed
  | ok a middle =>
      rw [found] at settled same
      rw [bind_ok found]
      obtain ⟨there, derived⟩ := settled
      obtain ⟨enough, enough'⟩ := passes used a derived
      obtain ⟨row, rows⟩ := Written.append.1 written
      simp only [Lexed.behind, List.length_append] at short
      obtain ⟨others, last, rfl, settled, same'⟩ :=
        (later used a derived).runs (lineAfter line used) rest middle rows (by omega) there trivial
      refine ⟨used ++ others, last, Lexed.behind_behind .., ?_, ?_⟩
      · cases result : second a middle with
        | ok b after =>
            rw [result] at settled
            exact settled
        | error error place =>
            rw [result] at settled
            exact ⟨settled.1.extend row, settled.2.extend fun tokens done => done.extend row⟩
      · intro i other cursor' few seen there'
        rw [← Lexed.behind_behind] at there' few
        have again :=
          same i (other.behind others) cursor' few (Lexed.view_behind seen others) there'
        cases found' : first' i cursor' with
        | error error place => nomatch found' ▸ again
        | ok a' middle' =>
            rw [bind_ok found']
            rw [found'] at again
            cases again with
            | read there =>
                refine same' i other middle' ?_ seen there
                have room := enough' i
                simp only [Lexed.behind, List.length_append] at few ⊢
                omega

theorem bind {first : Parse α} {first' : ι → Parse α} {second : α → Parse β}
    {second' : ι → α → Parse β} {derivesAll : List Token → β → Prop}
    (earlier : Settles bound limit starts first first' derives)
    (later : ∀ used a, derives used a → Settles bound limit anyKind (second a)
      (fun i => second' i a) fun others b => derivesAll (used ++ others) b) :
    Settles bound limit starts (first >>= second) (fun i => first' i >>= second' i) derivesAll :=
  bindWith earlier later fun _ _ _ => ⟨Nat.le_add_right .., fun _ => Nat.le_add_right ..⟩

/-- After a token was read there are fewer ahead. -/
theorem passing {first : Parse α} {first' : ι → Parse α} {second : α → Parse β}
    {second' : ι → α → Parse β} {derivesAll : List Token → β → Prop}
    (earlier : Settles (bound + 1) (fun i => limit i + 1) starts first first' derives)
    (passes : ∀ used a, derives used a → used ≠ [])
    (later : ∀ used a, derives used a → Settles bound limit anyKind (second a)
      (fun i => second' i a) fun others b => derivesAll (used ++ others) b) :
    Settles (bound + 1) (fun i => limit i + 1) starts (first >>= second)
      (fun i => first' i >>= second' i) derivesAll := by
  refine bindWith earlier later fun used a derived => ?_
  have positive := List.length_pos_iff.2 (passes used a derived)
  exact ⟨by omega, fun i => by omega⟩

/-- Nothing of a result is kept but that there was one. -/
theorem discard (settles : Settles bound limit starts rule alike derives) :
    Settles bound limit starts (Functor.discard rule) (fun i => Functor.discard (alike i))
      fun used _ => ∃ a, derives used a :=
  bind settles fun used a derived => pure ⟨a, by rwa [List.append_nil]⟩

/-- Looking at the kind of the token in view. -/
theorem kind {next : Kind → Parse α} {next' : ι → Kind → Parse α}
    (looks : ∀ kind, starts kind → Settles bound limit (· = kind) (next kind)
      (fun i => next' i kind) derives) :
    Settles bound limit starts (Parse.kind >>= next) (fun i => Parse.kind >>= next' i)
      derives := by
  refine ⟨fun line kind writable start => (looks kind start).possible line kind writable rfl,
    fun line text cursor written short here start => ?_⟩
  obtain ⟨used, rest, rfl, settled, same⟩ :=
    (looks _ start).runs line text cursor written short here rfl
  refine ⟨used, rest, rfl, settled, fun i other cursor' few seen there => ?_⟩
  obtain ⟨cursor', again, is⟩ := Lexed.ofLexed_of_view (Lexed.view_behind seen used) here
  cases there.symm.trans again
  change Same other (next cursor.current.kind cursor) (next' i cursor'.current.kind cursor')
  rw [is]
  exact same i other cursor' few seen there

/-! ## Tokens -/

/-- The token in view is the next one, unless the text is at its end. -/
theorem advance (before : ∀ kind, starts kind → kind ≠ .eof) :
    Settles bound limit starts Parse.advance (fun _ => Parse.advance) fun used token =>
      used = [token] ∧ starts token.kind ∧ Lexeme token.kind token.lexeme.toList := by
  refine ⟨fun line kind writable start => ?_,
    fun line text cursor written short here start => ?_⟩
  · obtain ⟨text, lexeme⟩ := writable
    have written := Written.single lexeme line
    exact ⟨[_], _, written, rfl, start, written.2.1⟩
  · obtain ⟨token, rest, rfl⟩ : ∃ token rest, text = Lexed.behind rest [token] := by
      obtain ⟨tokens, stop⟩ := text
      cases tokens with
      | cons token rest => exact ⟨token, ⟨rest, stop⟩, rfl⟩
      | nil =>
          cases stop with
          | error fault => cases here
          | ok line =>
              cases here
              exact absurd rfl (before _ start)
    refine ⟨[token], rest, rfl, ?_, fun i other cursor' few seen there => ?_⟩
    · cases here
      have derived : [token] = [token] ∧ starts token.kind ∧
        Lexeme token.kind token.lexeme.toList := ⟨rfl, start, written.2.1⟩
      cases moved : Cursor.ofLexed rest with
      | ok after =>
          rw [advance_ok rfl moved]
          exact ⟨moved, derived⟩
      | error error =>
          rw [advance_error rfl moved]
          refine ⟨.of_derives ⟨written.1, written.2.1, trivial⟩ derived, ?_⟩
          exact .lexical (Lexed.ofLexed_error.1 moved)
    · cases moved : Cursor.ofLexed rest with
      | ok after =>
          obtain ⟨after', moved', _⟩ := Lexed.ofLexed_of_view seen moved
          rw [advance_ok here moved, advance_ok there moved']
          exact .read moved'
      | error error =>
          have moved' : Cursor.ofLexed other = .error error := by
            rw [Lexed.ofLexed_error, seen, ← Lexed.ofLexed_error, moved]
          rw [advance_error here moved, advance_error there moved']
          exact .failed

/-- Moving on in a loop that does not go past the end. -/
theorem pass {more : Kind → Option β} (stops : more .eof = none) {b : β} :
    Settles bound limit (more · = some b) Parse.advance (fun _ => Parse.advance)
      fun used token => used = [token] ∧ more token.kind = some b := by
  refine (advance fun kind again atEnd => ?_).weaken fun used token passed =>
    ⟨passed.1, passed.2.1⟩
  rw [atEnd, stops] at again
  cases again

/-- Every expected token could be the next one. -/
theorem unexpected {expected : List Kind} (some : expected ≠ [])
    (accepts : ∀ kind ∈ expected, Writable kind ∧ ∀ line text, Lexeme kind text →
      Completes line derives [⟨kind, String.ofList text, line⟩]) :
    Settles bound limit starts (Parse.unexpected expected) (fun _ => Parse.unexpected expected)
      derives := by
  have possible : ∀ line, Completes line derives [] := by
    intro line
    obtain ⟨kind, member⟩ := List.exists_mem_of_ne_nil expected some
    obtain ⟨⟨text, lexeme⟩, accepts⟩ := accepts kind member
    obtain ⟨more, a, written, derived⟩ := accepts line text lexeme
    exact ⟨_, a, written, derived⟩
  refine ⟨fun line _ _ _ => possible line, fun line text cursor written short here start => ?_⟩
  refine ⟨[], text, rfl, ⟨possible line, .unexpected here some ?_⟩,
    fun i other cursor' _ seen there => ?_⟩
  · exact fun kind member => ⟨(accepts kind member).1, (accepts kind member).2 line⟩
  · obtain ⟨_, again, is⟩ := Lexed.ofLexed_of_view seen here
    cases there.symm.trans again
    rw [Parse.unexpected, Parse.unexpected, is]
    exact .failed

theorem expectAny {expected : List Kind} (some : expected ≠ [])
    (writable : ∀ kind ∈ expected, Writable kind) :
    Settles bound limit anyKind (Parse.expectAny expected) (fun _ => Parse.expectAny expected)
      fun used token => used = [token] ∧ token.kind ∈ expected ∧
        Lexeme token.kind token.lexeme.toList := by
  refine kind fun found _ => ?_
  by_cases member : found ∈ expected
  · simp only [if_pos member]
    have before : ∀ kind, kind = found → kind ≠ .eof := by
      rintro _ rfl rfl
      obtain ⟨text, lexeme⟩ := writable _ member
      cases lexeme
    exact (advance before).weaken fun used token passed =>
      ⟨passed.1, passed.2.1 ▸ member, passed.2.2⟩
  · simp only [if_neg member]
    refine unexpected some fun kind member => ⟨writable kind member, fun line text lexeme => ?_⟩
    have written := Written.single lexeme line
    exact .of_derives written ⟨rfl, member, written.2.1⟩

theorem expect {expected : Kind} (writable : Writable expected) :
    Settles bound limit anyKind (Parse.expect expected) (fun _ => Parse.expect expected)
      fun used token => used = [token] ∧ token.kind = expected := by
  have any := @expectAny ι bound limit [expected] nofun (List.forall_mem_singleton.2 writable)
  exact any.weaken fun used token passed => ⟨passed.1, List.mem_singleton.1 passed.2.1⟩

theorem word (keyword : Keyword) :
    Settles bound limit anyKind (Parse.word keyword) (fun _ => Parse.word keyword)
      fun used _ => ∃ token, used = [token] ∧ token.kind = .keyword keyword :=
  discard (expect ⟨_, .keyword keyword⟩)

theorem mark (mark : Mark) :
    Settles bound limit anyKind (Parse.mark mark) (fun _ => Parse.mark mark)
      fun used _ => ∃ token, used = [token] ∧ token.kind = .mark mark :=
  discard (expect ⟨_, .mark mark⟩)

theorem identifier :
    Settles bound limit anyKind Parse.identifier (fun _ => Parse.identifier) Named := by
  have writable : Writable .identifier := by
    refine ⟨['x'], .identifier ?_⟩
    decide
  refine bind (expect writable) ?_
  rintro _ token ⟨rfl, isName⟩
  exact pure (.name isName)

/-- What may stand after a token. -/
theorem following? (opening : Kind) (inner : opening ≠ .eof)
    (settles : Settles bound limit anyKind rule alike derives) :
    Settles bound limit anyKind (Parse.following? opening rule)
      (fun i => Parse.following? opening (alike i)) fun used found =>
        (used = [] ∧ found = none) ∨
          ∃ token others a, used = token :: others ∧ token.kind = opening ∧ derives others a ∧
            found = some a := by
  refine kind fun found _ => ?_
  by_cases here : found = opening
  · simp only [if_pos here]
    subst here
    refine bind (advance fun kind same atEnd => inner (same ▸ atEnd)) ?_
    rintro _ token ⟨rfl, isOpening, _⟩
    refine bind settles fun used a derived =>
      pure (.inr ⟨token, used, a, ?_, isOpening, derived, rfl⟩)
    rw [List.append_nil]
    rfl
  · simp only [if_neg here]
    exact pure (.inl ⟨rfl, rfl⟩)

/-! ## Loops and nesting -/

section Loops

variable {more : Kind → Option β} {step : α → β → Parse α} {step' : ι → α → β → Parse α}
  (each : ∀ used a b, derives used a → Settles bound limit (more · = some b) (step a b)
    (fun i => step' i a b) fun others a' => others ≠ [] ∧ derives (used ++ others) a')

include each

/-- One round and then the others, which have one token less ahead and one entry of the
counter. -/
theorem round {counter : List Token} (entry : Token) {used : List Token} {a : α}
    (derived : derives used a)
    (rest : ∀ used a, derives used a →
      Settles (min bound counter.length)
        (fun index : ι × List Token => min (limit index.1) index.2.length) anyKind
        (Parse.rounds more step counter a)
        (fun index => Parse.rounds more (step' index.1) index.2 a)
        fun others a' => derives (used ++ others) a') :
    Settles (min bound (counter.length + 1))
      (fun index : ι × List Token => min (limit index.1) (index.2.length + 1)) anyKind
      (Parse.rounds more step (entry :: counter) a)
      (fun index => Parse.rounds more (step' index.1) (entry :: index.2) a)
      fun others a' => derives (used ++ others) a' := by
  refine kind fun found _ => ?_
  cases again : more found with
  | none => exact pure (by rwa [List.append_nil])
  | some b =>
      have first : Settles (min bound (counter.length + 1))
          (fun index : ι × List Token => min (limit index.1) (index.2.length + 1))
          (· = found) (step a b) (fun index => step' index.1 a b)
          fun others a' => others ≠ [] ∧ derives (used ++ others) a' := by
        refine ((each used a b derived).restrict ?_).reindex (Nat.min_le_left ..) ?_
        · rintro _ rfl
          exact again
        · exact fun index => .inr ⟨index.1, Nat.min_le_left .., rfl⟩
      have later : ∀ others a', others ≠ [] ∧ derives (used ++ others) a' →
          Settles (min bound counter.length)
            (fun index : ι × List Token => min (limit index.1) index.2.length) anyKind
            (Parse.rounds more step counter a')
            (fun index => Parse.rounds more (step' index.1) index.2 a')
            fun last a'' => derives (used ++ (others ++ last)) a'' := by
        intro others a' longer
        refine (rest (used ++ others) a' longer.2).weaken fun last a'' whole => ?_
        rwa [List.append_assoc] at whole
      refine bindWith first later fun others a' longer => ?_
      have positive := List.length_pos_iff.2 longer.1
      exact ⟨by omega, fun index => by omega⟩

theorem rounds (counter : List Token) {used : List Token} {a : α} (derived : derives used a) :
    Settles (min bound counter.length)
      (fun index : ι × List Token => min (limit index.1) index.2.length) anyKind
      (Parse.rounds more step counter a) (fun index => Parse.rounds more (step' index.1) index.2 a)
      fun others a' => derives (used ++ others) a' := by
  induction counter generalizing used a with
  | nil =>
      refine ⟨fun line _ _ _ => .of_derives trivial (by rwa [List.append_nil]), ?_⟩
      intro line text cursor written short
      simp at short
  | cons entry counter ih =>
      refine (round each entry derived fun used a => ih).reindex (Nat.le_refl _) ?_
      rintro ⟨i, counter'⟩
      cases counter' with
      | nil => exact .inl (Nat.min_zero _)
      | cons entry' counter' => exact .inr ⟨(i, counter'), Nat.le_refl _, rfl⟩

/-- A loop settles what its rounds settle one after another. It could stop after each
of them, and each of them moves past at least one token, so that no counter runs
out. -/
theorem loop {used : List Token} {a : α} (derived : derives used a) :
    Settles bound limit anyKind (Parse.loop more step a) (fun i => Parse.loop more (step' i) a)
      fun others a' => derives (used ++ others) a' := by
  refine ⟨(rounds each [] derived).possible, fun line text cursor written short here start => ?_⟩
  obtain ⟨others, rest, split, settled, same⟩ := (rounds each cursor.allowance derived).runs line
    text cursor written (Nat.lt_min.2 ⟨short, length_lt_allowance here⟩) here start
  refine ⟨others, rest, split, settled, fun i other cursor' few seen there => ?_⟩
  exact same (i, cursor'.allowance) other cursor' (Nat.lt_min.2 ⟨few, length_lt_allowance there⟩)
    seen there

end Loops

/-- A rule that contains itself settles what it does if it does so whenever the rules
inside it do for fewer tokens. -/
theorem recursive {nest : Parse α → Parse α} (possible : ∀ line, Completes line derives [])
    (settles : ∀ {κ : Type} {bound : Nat} {limit : κ → Nat} {inner : Parse α}
      {inners : κ → Parse α}, Settles bound limit anyKind inner inners derives →
      Settles (bound + 1) (fun k => limit k + 1) anyKind (nest inner) (fun k => nest (inners k))
        derives) :
    Settles bound limit anyKind (Parse.recursive nest) (fun _ => Parse.recursive nest)
      derives := by
  have counted : ∀ counter : List Token, Settles counter.length List.length anyKind
      (Parse.nested nest counter) (Parse.nested nest) derives := by
    intro counter
    induction counter with
    | nil =>
        refine ⟨fun line _ _ _ => possible line, fun line text cursor written short => ?_⟩
        cases short
    | cons entry counter ih =>
        refine (settles ih).reindex (Nat.le_refl _) fun counter' => ?_
        cases counter' with
        | nil => exact .inl rfl
        | cons entry' counter' => exact .inr ⟨counter', Nat.le_refl _, rfl⟩
  refine ⟨fun line _ _ _ => possible line, fun line text cursor written short here start => ?_⟩
  obtain ⟨used, rest, split, settled, same⟩ := (counted cursor.allowance).runs line text cursor
    written (length_lt_allowance here) here start
  refine ⟨used, rest, split, settled, fun i other cursor' few seen there => ?_⟩
  exact same cursor'.allowance other cursor' (length_lt_allowance there) seen there

/-! ## Ends of lines -/

theorem blankLines : Settles bound limit anyKind Parse.blankLines (fun _ => Parse.blankLines)
    fun used _ => BlankLines used := by
  have passes : ∀ used (_ : Unit) b, BlankLines used →
      Settles bound limit (Parse.among [.newline] · = some b) (Functor.discard Parse.advance)
        (fun _ => Functor.discard Parse.advance)
        fun others _ => others ≠ [] ∧ BlankLines (used ++ others) := by
    intro used _ b blank
    refine (pass rfl).discard.weaken ?_
    rintro _ _ ⟨token, rfl, again⟩
    refine ⟨nofun, List.forall_mem_append.2 ⟨blank, List.forall_mem_singleton.2 ?_⟩⟩
    exact List.mem_singleton.1 (Parse.among_eq_some.1 again)
  exact loop passes (nofun : BlankLines [])

theorem lineEnd : Settles bound limit anyKind Parse.lineEnd (fun _ => Parse.lineEnd)
    fun used _ => LineEnd used := by
  refine bind (discard (expect ⟨_, .newline⟩)) ?_
  rintro _ _ ⟨token, rfl, isNewline⟩
  refine blankLines.weaken fun others _ blank => ⟨nofun, ?_⟩
  exact List.forall_mem_cons.2 ⟨isNewline, blank⟩

end Settles

end Grammar

end Pseudocode
