import Pseudocode.Proofs.Run.Footprint

/-!
# Runs that cannot be told apart

What a run comes to is its result or the reason why it stopped, together with the table and
the output that it leaves (`Outcome.shown`). The journal is left out: two runs are equivalent
if they show the same, whatever was recorded before them and whatever they record
(`Run.Equivalent`).

No step looks at the journal. So every statement is equivalent to itself, which says that
the records made before it have no influence on it (`Stmt.exec_equivalent`).
-/

set_option autoImplicit false

namespace Pseudocode

variable [Writer]

/-- The table and the output of a state. -/
def State.contents (state : State) : Table × Writer.Stream := (state.table, state.output)

/-- What there is to see of an outcome: the result or the reason to stop, the table and the
output. -/
def Outcome.shown {α : Type} : Outcome α → Except Stop α × Table × Writer.Stream
  | .ok a next => (.ok a, next.contents)
  | .error stop next => (.error stop, next.contents)

theorem State.contents_unrecorded : State.Unrecorded State.contents := fun _ _ => rfl

namespace Outcome

variable {α : Type} {outcome : Outcome α} {table : Table} {output : Writer.Stream}

theorem of_shown_ok {a : α} (same : outcome.shown = (.ok a, table, output)) :
    ∃ journal, outcome = .ok a ⟨table, output, journal⟩ := by
  cases outcome with
  | ok b last =>
      obtain ⟨table', output', journal⟩ := last
      simp only [shown, State.contents, Prod.mk.injEq, Except.ok.injEq] at same
      obtain ⟨rfl, rfl, rfl⟩ := same
      exact ⟨journal, rfl⟩
  | error stop last => simp [shown] at same

theorem of_shown_error {stop : Stop} (same : outcome.shown = (.error stop, table, output)) :
    ∃ journal, outcome = .error stop ⟨table, output, journal⟩ := by
  cases outcome with
  | ok b last => simp [shown] at same
  | error other last =>
      obtain ⟨table', output', journal⟩ := last
      simp only [shown, State.contents, Prod.mk.injEq, Except.error.injEq] at same
      obtain ⟨rfl, rfl, rfl⟩ := same
      exact ⟨journal, rfl⟩

end Outcome

namespace Run

variable {α β : Type}

/-- What there is to see of a run from a state on. -/
def shows (run : Run α) (state : State) : Except Stop α × Table × Writer.Stream :=
  Outcome.shown (run state)

/-! ## What steps show -/

section Steps

variable {first : Run α} {second : α → Run β} {state next : State}

/-- Where the first of two steps stops, both do. -/
theorem shows_bind_error {stop : Stop} {contents : Table × Writer.Stream}
    (stopped : first.shows state = (.error stop, contents)) :
    (first >>= second).shows state = (.error stop, contents) := by
  obtain ⟨table, output⟩ := contents
  obtain ⟨journal, ran⟩ := Outcome.of_shown_error stopped
  rw [shows, bind_error ran]
  rfl

/-- Where the first ends, the second goes on from there. -/
theorem shows_bind_ok {a : α} (ended : first.shows state = (.ok a, next.contents)) :
    ∃ journal, (first >>= second).shows state = (second a).shows { next with journal } := by
  obtain ⟨journal, ran⟩ := Outcome.of_shown_ok ended
  exact ⟨journal, by rw [shows, bind_ok ran, shows]⟩

theorem shows_lift (computed : Except RuntimeError α) (state : State) :
    (lift computed).shows state = (computed.mapError .failed, state.contents) := by
  cases computed <;> rfl

/-- A value is computed from the table, and nothing is changed by it. -/
theorem shows_eval (expr : Expr) (state : State) :
    (eval expr).shows state = ((expr.eval state.table).mapError .failed, state.contents) := by
  obtain ⟨recorded, spec⟩ := eval_spec expr
  rw [shows, spec]
  exact shows_lift (expr.eval state.table)
    { state with journal := recorded state.table state.journal }

theorem shows_test (condition : Expr) (state : State) :
    (test condition).shows state =
      ((condition.eval state.table >>= Value.condition).mapError .failed, state.contents) := by
  have computed := shows_eval condition state
  cases found : condition.eval state.table with
  | error error =>
      rw [found] at computed
      exact shows_bind_error computed
  | ok value =>
      rw [found] at computed
      obtain ⟨journal, shown⟩ := shows_bind_ok computed
      exact shown.trans (shows_lift value.condition { state with journal })

end Steps

/-! ## Equivalent runs -/

/-- Two runs show the same from the same table and output, whatever the journals. -/
def Equivalent (left right : Run α) : Prop :=
  ∀ (state : State) (journal : Journal), left.shows { state with journal } = right.shows state

namespace Equivalent

theorem symm {left right : Run α} (same : left.Equivalent right) : right.Equivalent left := by
  intro state journal
  exact (same { state with journal } state.journal).symm

theorem bind {first first' : Run α} {second second' : α → Run β}
    (earlier : first.Equivalent first') (later : ∀ a, (second a).Equivalent (second' a)) :
    (first >>= second).Equivalent (first' >>= second') := by
  intro state journal
  have same := earlier state journal
  cases ran : first' state with
  | error stop next =>
      rw [shows, shows, ran] at same
      obtain ⟨records, stopped⟩ := Outcome.of_shown_error same
      rw [shows, shows, bind_error stopped, bind_error ran]
      rfl
  | ok a next =>
      rw [shows, shows, ran] at same
      obtain ⟨records, ended⟩ := Outcome.of_shown_ok same
      rw [shows, shows, bind_ok ended, bind_ok ran]
      exact later a next records

/-- What is only recorded does not show. -/
theorem noted {run other : Run α} (same : run.Equivalent other) (level : Level) (origin : Origin)
    (message : Unit → String) :
    Equivalent (do note level origin message; run) other := by
  intro state journal
  exact same state (journal.add level origin message)

theorem composable : Composable fun {_} run => Equivalent run run where
  pure _ _ _ := rfl
  stop _ _ _ := rfl
  bind := bind
  note _ _ _ _ _ := rfl

/-! ## Steps -/

theorem eval (expr : Expr) : (Run.eval expr).Equivalent (Run.eval expr) := by
  intro state journal
  rw [shows_eval, shows_eval]
  rfl

theorem symbol (name : String) : (Run.symbol name).Equivalent (Run.symbol name) := by
  intro state journal
  have shows (state : State) : (Run.symbol name).shows state =
      ((state.table.get name).mapError .failed, state.contents) :=
    shows_lift (state.table.get name) state
  rw [shows, shows]
  rfl

theorem update (operation : Update α) :
    (Run.update operation).Equivalent (Run.update operation) := by
  intro state journal
  simp only [shows, Run.update]
  cases operation state.table <;> rfl

theorem resize [Memory] (name : String) (size : Value) :
    (Run.resize name size).Equivalent (Run.resize name size) :=
  bind (update _) fun _ => bind (composable.note _ _ _) fun _ => update _

theorem ask (request : Writer.Stream → Except String Unit × Writer.Stream) :
    (Run.ask request).Equivalent (Run.ask request) := by
  intro state journal
  rcases asked : request state.output with ⟨answer, output⟩
  have asked' : request ({ state with journal } : State).output = (answer, output) := asked
  cases answer with
  | ok => rw [shows, shows, ask_ok asked, ask_ok asked']; rfl
  | error reason => rw [shows, shows, ask_error asked, ask_error asked']; rfl

theorem print (line : String) : (Run.print line).Equivalent (Run.print line) :=
  bind (ask _) fun _ => ask _

end Equivalent

/-- What there is to see when something was computed and a run goes on with the result. -/
def showsNext (run : α → Run β) (state : State) :
    Except RuntimeError α → Except Stop β × Table × Writer.Stream
  | .ok a => (run a).shows state
  | .error error => (.error (.failed error), state.contents)

/-- A step that only computes something shows nothing of its own. -/
theorem shows_bind_computed {first : Run α} {second second' : α → Run β} {state : State}
    {computed : Except RuntimeError α}
    (shown : first.shows state = (computed.mapError .failed, state.contents))
    (same : ∀ a, (second a).Equivalent (second' a)) :
    (first >>= second).shows state = showsNext second' state computed := by
  cases computed with
  | error error => exact shows_bind_error shown
  | ok a =>
      obtain ⟨journal, after⟩ : ∃ journal,
          (first >>= second).shows state = (second a).shows { state with journal } :=
        shows_bind_ok shown
      exact after.trans (same a state journal)

end Run

/-! ## Statements -/

variable [Memory]

theorem Stmt.admits_equivalent (stmt : Stmt) :
    stmt.Admits fun {_} run => run.Equivalent run := by
  refine ⟨fun expr _ => .eval expr, ?_⟩
  cases stmt with
  | assign name expr => exact ⟨.symbol name, fun _ => .update _⟩
  | assignAt name position expr => exact ⟨.symbol name, fun _ _ => .update _⟩
  | forLoop name first last step body => exact ⟨.symbol name, fun _ => .update _⟩
  | resize name size => exact ⟨.symbol name, .resize name⟩
  | print values => exact .print
  | branch | whileLoop | repeatLoop | switch => trivial

/-- **What was recorded before a statement has no influence on it.** -/
theorem Stmt.exec_equivalent (patience : Nat) (stmt : Stmt) :
    (stmt.exec patience).Equivalent (stmt.exec patience) :=
  exec_composed Run.Equivalent.composable fun part _ => part.admits_equivalent

theorem execAll_equivalent (patience : Nat) (block : List Stmt) :
    (execAll patience block).Equivalent (execAll patience block) :=
  execAll_composed Run.Equivalent.composable fun stmt _ => stmt.exec_equivalent patience

theorem execAll_single (patience : Nat) (stmt : Stmt) :
    execAll patience [stmt] = stmt.exec patience := by
  rw [execAll, execAll]
  exact bind_pure_unit

/-- That a block is run makes a record, and shows no more than its statements do. -/
theorem compound_equivalent (patience count : Nat) (block : List Stmt) :
    (Run.compound count (execAll patience block)).Equivalent (execAll patience block) :=
  (execAll_equivalent patience block).noted _ _ _

end Pseudocode
