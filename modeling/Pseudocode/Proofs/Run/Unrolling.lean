import Pseudocode.Proofs.Run.Equivalence
import Pseudocode.Proofs.Run.Patience

/-!
# Unrolling a loop

A loop that tests its condition after each pass is its body, followed by a loop that tests the
negated condition before each pass. The two do not take the same number of passes, so with the
same patience one may be given up before the other. They are the same in what they come to with
enough patience, and in whether any patience is enough.

A run that goes on for ever still prints. What it prints is what its runs print until they are
given up: a longer run prints all that a shorter one has printed, and may print more
(`Run.Outlasts`).
-/

set_option autoImplicit false

namespace Pseudocode

/-! ## Negated conditions -/

/-- One expression holds where the other does not, and fails as a condition where the other
does, in the same way. -/
def Expr.Negates (one other : Expr) : Prop :=
  ∀ table, one.eval table >>= Value.condition =
    (other.eval table >>= Value.condition) >>= fun holds => pure !holds

theorem Expr.negates_not (condition : Expr) : (Expr.unary .not condition).Negates condition := by
  intro table
  rw [Expr.eval]
  cases condition.eval table with
  | error error => rfl
  | ok value =>
      show (value.condition >>= _) >>= _ = value.condition >>= _
      cases value.condition <;> rfl

theorem Expr.Negates.symm {one other : Expr} (negates : one.Negates other) :
    other.Negates one := by
  intro table
  rw [negates table]
  cases other.eval table >>= Value.condition with
  | error error => rfl
  | ok holds => cases holds <;> rfl

variable [Writer]

namespace Run

variable {α β : Type}

/-! ## Longer runs -/

/-- A run that only adds to the output and takes no notice of the journal. -/
structure Steady (run : Run α) : Prop where
  adds : run.Adds
  blind : run.Equivalent run

/-- A longer run shows the same, or the shorter one was given up. What it had printed by then
the longer run prints too. -/
structure Outlasts (longer shorter : Run α) : Prop where
  steady : longer.Steady
  outlasts : ∀ (state : State) (journal : Journal),
    (shorter.shows state).1 = .error .unfinished ∧
        (∃ added, Writer.written (longer.after { state with journal }).output =
          Writer.written (shorter.after state).output ++ added) ∨
      longer.shows { state with journal } = shorter.shows state

theorem Steady.composable : Composable fun {_} run => Steady run where
  pure a := ⟨Adds.composable.pure a, Equivalent.composable.pure a⟩
  stop stop := ⟨Adds.composable.stop stop, Equivalent.composable.stop stop⟩
  bind first second := ⟨first.adds.bind fun a => (second a).adds,
    first.blind.bind fun a => (second a).blind⟩
  note level origin message := ⟨Adds.composable.note level origin message,
    Equivalent.composable.note level origin message⟩

theorem Steady.test (condition : Expr) : (Run.test condition).Steady :=
  composable.test ⟨.eval condition, .eval condition⟩

/-- What is printed is part of what is shown. -/
theorem output_after (run : Run α) (state : State) :
    (run.after state).output = (run.shows state).2.2 := by
  rw [after, shows]
  cases run state <;> rfl

theorem eq_error_of_shows {run : Run α} {state : State} {stop : Stop}
    (stopped : (run.shows state).1 = .error stop) : ∃ next, run state = .error stop next := by
  rw [shows] at stopped
  cases ran : run state with
  | ok a next =>
      rw [ran] at stopped
      cases stopped
  | error other next =>
      rw [ran] at stopped
      obtain rfl := Except.error.inj stopped
      exact ⟨next, rfl⟩

namespace Outlasts

theorem of_equivalent {longer shorter : Run α} (steady : longer.Steady)
    (same : longer.Equivalent shorter) : longer.Outlasts shorter :=
  ⟨steady, fun state journal => .inr (same state journal)⟩

theorem unfinished {longer : Run α} (steady : longer.Steady) :
    longer.Outlasts (throw .unfinished) where
  steady := steady
  outlasts state journal := .inl ⟨rfl, steady.adds { state with journal }⟩

theorem bind {first first' : Run α} {second second' : α → Run β} (earlier : first'.Outlasts first)
    (later : ∀ a, (second' a).Outlasts (second a)) :
    (first' >>= second').Outlasts (first >>= second) where
  steady := Steady.composable.bind earlier.steady fun a => (later a).steady
  outlasts state journal := by
    rcases earlier.outlasts state journal with ⟨gaveUp, added, wrote⟩ | same
    · left
      obtain ⟨next, stopped⟩ := eq_error_of_shows gaveUp
      rw [after_error stopped] at wrote
      rw [shows, bind_error stopped, after_error (bind_error stopped)]
      refine ⟨rfl, ?_⟩
      cases ran : first' { state with journal } with
      | error stop last =>
          rw [after_error ran] at wrote
          rw [after_error (bind_error ran)]
          exact ⟨added, wrote⟩
      | ok a last =>
          rw [after_ok ran] at wrote
          obtain ⟨more, wroteMore⟩ := (later a).steady.adds last
          rw [after_bind ran, wroteMore, wrote, ByteArray.append_assoc]
          exact ⟨added ++ more, rfl⟩
    · rw [shows, shows] at same
      cases ran : first state with
      | error stop next =>
          right
          rw [ran] at same
          obtain ⟨records, stopped⟩ := Outcome.of_shown_error same
          rw [shows, shows, bind_error stopped, bind_error ran]
          rfl
      | ok a next =>
          rw [ran] at same
          obtain ⟨records, ended⟩ := Outcome.of_shown_ok same
          rw [shows, shows, bind_ok ended, bind_ok ran, after_bind ended, after_bind ran]
          exact (later a).outlasts next records

theorem trans {long middle short : Run α} (upper : long.Outlasts middle)
    (lower : middle.Outlasts short) : long.Outlasts short where
  steady := upper.steady
  outlasts state journal := by
    rcases upper.outlasts state journal with ⟨gaveUp, added, wrote⟩ | same
    · rcases lower.outlasts state state.journal with ⟨gaveUpToo, more, wroteMore⟩ | sameToo
      · left
        rw [wrote, wroteMore, ByteArray.append_assoc]
        exact ⟨gaveUpToo, more ++ added, rfl⟩
      · left
        rw [wrote, output_after middle, sameToo, ← output_after short, ← sameToo]
        exact ⟨gaveUp, added, rfl⟩
    · rcases lower.outlasts state state.journal with ⟨gaveUp, more, wroteMore⟩ | sameToo
      · left
        rw [output_after long, same, ← output_after middle]
        exact ⟨gaveUp, more, wroteMore⟩
      · exact .inr (same.trans sameToo)

theorem refl {run : Run α} (steady : run.Steady) : run.Outlasts run :=
  of_equivalent steady steady.blind

end Outlasts

/-! ## Conditions side by side -/

theorem test_equivalent {one other : Expr} (negates : one.Negates other) :
    (test one).Equivalent (do return !(← test other)) := by
  intro state journal
  have same (holds : Bool) := Equivalent.composable.pure (!holds)
  have shown := shows_bind_computed (shows_test other state) same
  rw [shows_test, shown]
  show ((one.eval state.table >>= _).mapError _, _) = _
  rw [negates state.table]
  cases other.eval state.table >>= Value.condition <;> rfl

/-- Two runs that begin with a test and with its negation are compared side by side. -/
theorem Outlasts.negated {one other : Expr} (negates : one.Negates other)
    {next next' : Bool → Run α} (goes : ∀ holds, (next' (!holds)).Outlasts (next holds)) :
    (test one >>= next').Outlasts (test other >>= next) := by
  have steady (holds : Bool) : (next' holds).Steady := by
    rw [← Bool.not_not holds]
    exact (goes (!holds)).steady
  have flips : (test one >>= next').Outlasts ((do return !(← test other)) >>= next') :=
    .bind (.of_equivalent (Steady.test one) (test_equivalent negates)) fun holds =>
      .refl (steady holds)
  apply flips.trans
  rw [bind_assoc]
  refine .bind (.refl (.test other)) fun holds => ?_
  rw [pure_bind]
  exact goes holds

/-! ## Two loops -/

section Loops

variable {condition negation : Expr} {body body' : Run Unit}

/-- The loop that tests at the start may take one pass more before it is given up. -/
theorem whileHolds_outlasts (negates : negation.Negates condition) (runs : body'.Outlasts body)
    (passes : Nat) :
    Outlasts (body' >>= fun _ => Loop.whileHolds (test negation) body' passes)
      (Loop.untilHolds (test condition) body passes) := by
  induction passes with
  | zero =>
      apply Outlasts.unfinished
      exact Steady.composable.bind runs.steady fun _ =>
        Steady.composable.whileHolds (Steady.test negation) runs.steady 0
  | succ passes ih =>
      rw [Loop.untilHolds_succ, Loop.whileHolds_succ]
      refine .bind runs fun _ => .negated negates fun holds => ?_
      cases holds with
      | true => exact Outlasts.refl (Steady.composable.pure ())
      | false => exact ih

/-- With one pass more it is the other way round. -/
theorem untilHolds_outlasts (negates : negation.Negates condition) (runs : body'.Outlasts body)
    (passes : Nat) :
    Outlasts (Loop.untilHolds (test condition) body' (passes + 1))
      (body >>= fun _ => Loop.whileHolds (test negation) body passes) := by
  induction passes with
  | zero =>
      rw [Loop.untilHolds_succ]
      refine .bind runs fun _ => .unfinished ?_
      refine Steady.composable.bind (Steady.test condition) fun holds => ?_
      cases holds with
      | true => exact Steady.composable.pure ()
      | false => exact Steady.composable.stop .unfinished
  | succ passes ih =>
      rw [Loop.untilHolds_succ, Loop.whileHolds_succ]
      refine .bind runs fun _ => .negated negates.symm fun holds => ?_
      cases holds with
      | true => exact ih
      | false => exact Outlasts.refl (Steady.composable.pure ())

end Loops

/-! ## Runs with more and more patience -/

section Families

variable {runs runs' : Nat → Run Unit} {state : State}

/-- With enough patience a run ends, and there is this to see at its end. -/
def Reaches (runs : Nat → Run Unit) (state : State)
    (ending : Except RuntimeError Unit × Table × Writer.Stream) : Prop :=
  ∃ enough, ∀ patience ≥ enough,
    (runs patience).shows state = (ending.1.mapError .failed, ending.2)

/-- No patience is enough. -/
def Diverges (runs : Nat → Run Unit) (state : State) : Prop :=
  ∀ patience, ((runs patience).shows state).1 = .error .unfinished

/-- Sooner or later, what is printed begins with these bytes. -/
def Emits (runs : Nat → Run Unit) (state : State) (bytes : ByteArray) : Prop :=
  ∃ patience rest, Writer.written ((runs patience).after state).output = bytes ++ rest

/-- With so much more patience, the runs of one family outlast those of another. -/
def Follows (delay : Nat) (runs' runs : Nat → Run Unit) : Prop :=
  ∀ patience, (runs' (patience + delay)).Outlasts (runs patience)

namespace Follows

variable {delay : Nat} (follows : Follows delay runs' runs)

include follows

theorem reaches {ending : Except RuntimeError Unit × Table × Writer.Stream}
    (reached : Reaches runs state ending) : Reaches runs' state ending := by
  obtain ⟨enough, ends⟩ := reached
  refine ⟨enough + delay, fun patience more => ?_⟩
  obtain ⟨patience, rfl⟩ := Nat.exists_eq_add_of_le' (Nat.le_trans (Nat.le_add_left _ _) more)
  have shown := ends patience (Nat.le_of_add_le_add_right more)
  rcases (follows patience).outlasts state state.journal with ⟨gaveUp, -⟩ | same
  · rw [shown] at gaveUp
    cases result : ending.1 with
    | ok value =>
        rw [result] at gaveUp
        cases gaveUp
    | error error =>
        rw [result] at gaveUp
        cases gaveUp
  · exact same.trans shown

theorem diverges (goesOn : Diverges runs' state) : Diverges runs state := by
  intro patience
  rcases (follows patience).outlasts state state.journal with ⟨gaveUp, -⟩ | same
  · exact gaveUp
  · rw [← same]
    exact goesOn (patience + delay)

theorem emits {bytes : ByteArray} (emitted : Emits runs state bytes) : Emits runs' state bytes := by
  obtain ⟨patience, rest, wrote⟩ := emitted
  refine ⟨patience + delay, ?_⟩
  rcases (follows patience).outlasts state state.journal with ⟨-, added, wroteMore⟩ | same
  · refine ⟨rest ++ added, ?_⟩
    rw [← ByteArray.append_assoc, ← wrote]
    exact wroteMore
  · refine ⟨rest, ?_⟩
    rw [← wrote, output_after (runs patience), ← same, ← output_after]

end Follows

end Families

end Run

/-! ## Statements -/

open Run

variable [Memory]

theorem Stmt.admits_steady (stmt : Stmt) : stmt.Admits fun {_} run => run.Steady := by
  obtain ⟨readsAdd, actsAdd⟩ := stmt.admits_adds
  obtain ⟨readsBlind, actsBlind⟩ := stmt.admits_equivalent
  refine ⟨fun expr member => ⟨readsAdd expr member, readsBlind expr member⟩, ?_⟩
  cases stmt with
  | assign | forLoop | resize =>
      exact ⟨⟨actsAdd.1, actsBlind.1⟩, fun value => ⟨actsAdd.2 value, actsBlind.2 value⟩⟩
  | assignAt =>
      exact ⟨⟨actsAdd.1, actsBlind.1⟩, fun index value =>
        ⟨actsAdd.2 index value, actsBlind.2 index value⟩⟩
  | print => exact fun line => ⟨actsAdd line, actsBlind line⟩
  | branch | whileLoop | repeatLoop | switch => trivial

theorem Run.Outlasts.comparable : Comparable (fun {_} run => Steady run)
    (fun {_} longer shorter => Outlasts longer shorter) where
  composable := Steady.composable
  admits := Stmt.admits_steady
  refl := .refl
  bind := .bind
  tame_above := Outlasts.steady
  unfinished := .unfinished

theorem Stmt.exec_steady (patience : Nat) (stmt : Stmt) : (stmt.exec patience).Steady :=
  exec_composed Steady.composable fun part _ => part.admits_steady

theorem execAll_steady (patience : Nat) (block : List Stmt) : (execAll patience block).Steady :=
  execAll_composed Steady.composable fun stmt _ => stmt.exec_steady patience

theorem compound_steady (patience : Nat) (block : List Stmt) :
    (compound block.length (execAll patience block)).Steady :=
  block_composed Steady.composable fun stmt _ => stmt.exec_steady patience

theorem execAll_append (patience : Nat) (first second : List Stmt) :
    execAll patience (first ++ second) = (do execAll patience first; execAll patience second) := by
  induction first with
  | nil => rw [List.nil_append, execAll, pure_bind]
  | cons stmt rest ih => rw [List.cons_append, execAll, execAll, ih, bind_assoc]

section Repetition

variable (condition : Expr) (body : List Stmt)

theorem Stmt.repeatLoop_equivalent (patience : Nat) :
    ((Stmt.repeatLoop condition body).exec patience).Equivalent
      (Loop.untilHolds (test condition) (compound body.length (execAll patience body))
        patience) := by
  have pass := (compound_steady patience body).blind
  have loop := Equivalent.composable.untilHolds (Steady.test condition).blind pass patience
  rw [Stmt.exec]
  exact loop.noted _ _ _

theorem Stmt.whileLoop_equivalent (patience : Nat) :
    (execAll patience (body ++ [.whileLoop condition body])).Equivalent
      (compound body.length (execAll patience body) >>= fun _ =>
        Loop.whileHolds (test condition) (compound body.length (execAll patience body))
          patience) := by
  have pass := (compound_steady patience body).blind
  have loop := Equivalent.composable.whileHolds (Steady.test condition).blind pass patience
  rw [execAll_append, execAll_single, Stmt.exec]
  exact .bind (compound_equivalent patience _ body).symm fun _ => loop.noted _ _ _

theorem Stmt.whileLoop_follows :
    Follows 0 (fun patience => execAll patience (body ++ [.whileLoop (.unary .not condition) body]))
      (fun patience => (Stmt.repeatLoop condition body).exec patience) := by
  intro patience
  have pass := compound_steady patience body
  have loop := Steady.composable.untilHolds (Steady.test condition) pass patience
  have compared := whileHolds_outlasts condition.negates_not
    (.of_equivalent pass pass.blind) patience
  apply (Outlasts.of_equivalent (execAll_steady patience _)
    (whileLoop_equivalent _ body patience)).trans
  apply compared.trans
  exact .of_equivalent loop (repeatLoop_equivalent condition body patience).symm

theorem Stmt.repeatLoop_follows :
    Follows 1 (fun patience => (Stmt.repeatLoop condition body).exec patience)
      (fun patience =>
        execAll patience (body ++ [.whileLoop (.unary .not condition) body])) := by
  intro patience
  have longer := Outlasts.comparable.block fun stmt (_ : stmt ∈ body) =>
    stmt.exec_compared Outlasts.comparable (Nat.le_succ patience)
  have pass := compound_steady patience body
  have unrolled := Steady.composable.bind pass fun _ =>
    Steady.composable.whileHolds (Steady.test (.unary .not condition)) pass patience
  have compared := untilHolds_outlasts condition.negates_not longer patience
  apply (Outlasts.of_equivalent (exec_steady (patience + 1) _)
    (repeatLoop_equivalent condition body (patience + 1))).trans
  apply compared.trans
  exact .of_equivalent unrolled (whileLoop_equivalent _ body patience).symm

end Repetition

/-- **A loop that tests at the end is its body and a loop that tests at the start.** The two come
to the same end with enough patience. If no patience is enough for one of them, none is for the
other, and what they print for ever is the same. -/
theorem Stmt.repeat_agrees_with_while (condition : Expr) (body : List Stmt) (state : State) :
    let looping patience := (Stmt.repeatLoop condition body).exec patience
    let unrolled patience :=
      execAll patience (body ++ [.whileLoop (.unary .not condition) body])
    (∀ ending, Reaches looping state ending ↔ Reaches unrolled state ending) ∧
      (Diverges looping state ↔ Diverges unrolled state) ∧
      ∀ bytes, Emits looping state bytes ↔ Emits unrolled state bytes := by
  intro looping unrolled
  have later := whileLoop_follows condition body
  have sooner := repeatLoop_follows condition body
  refine ⟨fun ending => ⟨later.reaches, sooner.reaches⟩, ⟨sooner.diverges, later.diverges⟩, ?_⟩
  exact fun bytes => ⟨later.emits, sooner.emits⟩

end Pseudocode
