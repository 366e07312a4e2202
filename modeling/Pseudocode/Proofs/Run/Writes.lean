import Pseudocode.Proofs.Run.Footprint

/-!
# What a run writes to

`Stmt.targets` lists the names that a statement could write to, in any state. Which of them
it does write to depends on the state that it is run in: on the branches that are taken and
on where it stops. `Run.Writes` lists these names. Every statement has such a list in every
state (`Stmt.exec_writes`), and the symbols of all other names stay as they are
(`Run.Writes.find?_eq`).
-/

set_option autoImplicit false

namespace Pseudocode

variable [Writer]

namespace Run

variable {α β : Type}

/-- The names that a run writes to from a state on, in order. A write that is refused is not
in the list. -/
inductive Writes : {α : Type} → Run α → State → List String → Prop where
  | nothing {α : Type} {run : Run α} {state : State} (leaves : run.Leaves State.table) :
      Writes run state []
  | write {name : String} {plan : Table → Except RuntimeError (Symbol → Symbol)} {state : State}
      {change : Symbol → Symbol} (planned : plan state.table = .ok change) :
      Writes (Run.write name plan) state [name]
  | refused {name : String} {plan : Table → Except RuntimeError (Symbol → Symbol)} {state : State}
      {error : RuntimeError} (failed : plan state.table = .error error) :
      Writes (Run.write name plan) state []
  | bind {α β : Type} {first : Run α} {second : α → Run β} {state next : State} {a : α}
      {earlier later : List String} (ran : first state = .ok a next)
      (writes : Writes first state earlier) (more : Writes (second a) next later) :
      Writes (first >>= second) state (earlier ++ later)
  | stopped {α β : Type} {first : Run α} {second : α → Run β} {state next : State} {stop : Stop}
      {earlier : List String} (ran : first state = .error stop next)
      (writes : Writes first state earlier) : Writes (first >>= second) state earlier

namespace Writes

/-- **What a run does not write to is as before.** -/
theorem find?_eq {run : Run α} {state : State} {names : List String}
    (writes : run.Writes state names) {name : String} (unwritten : name ∉ names) :
    (run.after state).table.find? name = state.table.find? name := by
  induction writes with
  | nothing leaves => rw [leaves]
  | @write target plan state change planned =>
      have different : name ≠ target := by simpa using unwritten
      rw [after_ok (write_ok planned), Table.find?_modify_of_ne _ different]
  | @refused target plan state error failed => rw [after_error (write_error failed)]
  | bind ran _ _ first second =>
      rw [List.mem_append, not_or] at unwritten
      have kept := first unwritten.1
      rw [after_ok ran] at kept
      rw [after_bind ran, second unwritten.2, kept]
  | stopped ran _ first =>
      have kept := first unwritten
      rw [after_error ran] at kept
      rw [after_error (bind_error ran), kept]

end Writes

/-- The names that a run writes to can be listed, from every state on. -/
def WritesListed (run : Run α) : Prop := ∀ state, ∃ names, run.Writes state names

namespace WritesListed

theorem of_leaves {run : Run α} (leaves : run.Leaves State.table) : run.WritesListed :=
  fun _ => ⟨[], .nothing leaves⟩

theorem write (name : String) (plan : Table → Except RuntimeError (Symbol → Symbol)) :
    (Run.write name plan).WritesListed := by
  intro state
  cases planned : plan state.table with
  | ok change => exact ⟨[name], .write planned⟩
  | error error => exact ⟨[], .refused planned⟩

theorem assign (name : String) (value : Value) : (Run.assign name value).WritesListed := by
  rw [assign_eq_write]
  exact write name _

theorem assignAt (name : String) (index : Integer) (value : Value) :
    (Run.assignAt name index value).WritesListed := by
  rw [assignAt_eq_write]
  exact write name _

theorem bind {first : Run α} {second : α → Run β} (earlier : first.WritesListed)
    (later : ∀ a, (second a).WritesListed) : (first >>= second).WritesListed := by
  intro state
  obtain ⟨names, writes⟩ := earlier state
  cases ran : first state with
  | ok a next =>
      obtain ⟨others, more⟩ := later a next
      exact ⟨names ++ others, .bind ran writes more⟩
  | error stop next => exact ⟨names, .stopped ran writes⟩

theorem composable : Composable fun {_} run => WritesListed run where
  pure _ := of_leaves fun _ => rfl
  stop _ := of_leaves fun _ => rfl
  bind := bind
  note _ _ _ := of_leaves fun _ => rfl

theorem resize [Memory] (name : String) (size : Value) : (Run.resize name size).WritesListed := by
  have looks : (get : Run State).WritesListed := of_leaves fun _ => rfl
  rw [resize_eq]
  refine bind (bind looks fun state => composable.lift _) fun lengths => ?_
  exact bind (composable.note _ _ _) fun _ => write name _

end WritesListed

end Run

variable [Memory]

theorem Stmt.admits_writesListed (stmt : Stmt) :
    stmt.Admits fun {_} run => run.WritesListed := by
  have unrecorded : State.Unrecorded State.table := fun _ _ => rfl
  have looks : ∀ name, (Run.symbol name).WritesListed := fun name =>
    .of_leaves (.symbol unrecorded name)
  refine ⟨fun expr _ => .of_leaves (.eval unrecorded expr), ?_⟩
  cases stmt with
  | assign name expr => exact ⟨looks name, fun value => .assign name value⟩
  | assignAt name position expr => exact ⟨looks name, fun index value => .assignAt name index value⟩
  | forLoop name first last step body => exact ⟨looks name, fun counter => .assign name _⟩
  | resize name size => exact ⟨looks name, .resize name⟩
  | print values => exact fun line => .of_leaves (.print id line)
  | branch | whileLoop | repeatLoop | switch => trivial

theorem Stmt.exec_writes (patience : Nat) (stmt : Stmt) : (stmt.exec patience).WritesListed :=
  exec_composed Run.WritesListed.composable fun part _ => part.admits_writesListed

end Pseudocode
