import Pseudocode.Proofs.Run.Composition
import Pseudocode.Proofs.Run.Permanence

/-!
# What a statement can change

A statement writes only to names that stand in it as the target of an assignment, the
variable of a counting loop or an array whose length is changed (`Stmt.targets`). All
other symbols are as before when it has ended, failed or was given up. Arrays keep their
length unless a change of it stands in the statement (`Stmt.resized`), and nothing is
printed unless a statement for that does (`Stmt.prints`).

All three are the same kind of fact: of some part of the state, that every step leaves it
as it was (`Run.Leaves`).

A statement that prints only adds to what was printed before (`Run.Adds`).
-/

set_option autoImplicit false

namespace Pseudocode

/-! ## Parts of the state that are left alone -/

namespace Run

variable [Writer] {α γ : Type}

/-- The state that a run leads to, whether it ends or stops. -/
def after (run : Run α) (state : State) : State :=
  match run state with
  | .ok _ next => next
  | .error _ next => next

theorem after_ok {run : Run α} {state next : State} {a : α} (ran : run state = .ok a next) :
    run.after state = next := by
  rw [after, ran]

theorem after_error {run : Run α} {state next : State} {stop : Stop}
    (ran : run state = .error stop next) : run.after state = next := by
  rw [after, ran]

theorem after_bind {first : Run α} {second : α → Run γ} {state next : State} {a : α}
    (ran : first state = .ok a next) :
    (first >>= second).after state = (second a).after next := by
  rw [after, after, bind_ok ran]

/-- A run does not change what is seen of the state. -/
def Leaves (view : State → γ) (run : Run α) : Prop := ∀ state, view (run.after state) = view state

end Run

/-- A view of the state that does not show the journal. -/
def State.Unrecorded [Writer] {γ : Type} (view : State → γ) : Prop :=
  ∀ state journal, view { state with journal } = view state

namespace Run.Leaves

variable [Writer] {α β γ : Type} {view : State → γ}

theorem bind {first : Run α} {second : α → Run β} (earlier : Leaves view first)
    (later : ∀ a, Leaves view (second a)) : Leaves view (first >>= second) := by
  intro state
  have kept := earlier state
  cases ran : first state with
  | error stop next =>
      rw [after_error ran] at kept
      rwa [after_error (bind_error ran)]
  | ok a next =>
      rw [after_ok ran] at kept
      rw [after_bind ran]
      exact (later a next).trans kept

theorem composable (unrecorded : State.Unrecorded view) :
    Composable fun {_} run => Leaves view run where
  pure _ _ := rfl
  stop _ _ := rfl
  bind := bind
  note _ _ _ state := unrecorded state _

/-- A write leaves alone what its change does not show. -/
theorem write {name : String} {plan : Table → Except RuntimeError (Symbol → Symbol)}
    (hidden : ∀ state change, plan state.table = .ok change →
      view { state with table := state.table.modify name change } = view state) :
    Leaves view (Run.write name plan) := by
  intro state
  cases planned : plan state.table with
  | ok change =>
      rw [after_ok (write_ok planned)]
      exact hidden state change planned
  | error error => rw [after_error (write_error planned)]

theorem assign {name : String} {value : Value}
    (hidden : ∀ state change, state.table.assignment name value = .ok change →
      view { state with table := state.table.modify name change } = view state) :
    Leaves view (Run.assign name value) := by
  rw [assign_eq_write]
  exact write hidden

theorem assignAt {name : String} {index : Integer} {value : Value}
    (hidden : ∀ state change, state.table.elementAssignment name index value = .ok change →
      view { state with table := state.table.modify name change } = view state) :
    Leaves view (Run.assignAt name index value) := by
  rw [assignAt_eq_write]
  exact write hidden

/-- Asking the writer changes the output and nothing else. -/
theorem ask (view : Table → γ)
    (request : Writer.Stream → Except String Unit × Writer.Stream) :
    Leaves (fun state => view state.table) (Run.ask request) := by
  intro state
  rcases asked : request state.output with ⟨answer, output⟩
  cases answer with
  | ok => rw [after_ok (ask_ok asked)]
  | error reason => rw [after_error (ask_error asked)]

theorem print (view : Table → γ) (line : String) :
    Leaves (fun state => view state.table) (Run.print line) :=
  bind (ask view _) fun _ => ask view _

variable (unrecorded : State.Unrecorded view)

include unrecorded

theorem lift_recorded (computed : Except RuntimeError α) (state : State) (journal : Journal) :
    view ((Run.lift computed).after { state with journal }) = view state := by
  cases computed with
  | ok a => exact unrecorded state journal
  | error error => exact unrecorded state journal

theorem eval (expr : Expr) : Leaves view (Run.eval expr) := by
  obtain ⟨recorded, spec⟩ := Run.eval_spec expr
  intro state
  rw [Run.after, spec]
  exact lift_recorded unrecorded (expr.eval state.table) state _

theorem symbol (name : String) : Leaves view (Run.symbol name) :=
  fun state => lift_recorded unrecorded (state.table.get name) state state.journal

theorem resize [Memory] {name : String} {size : Value}
    (hidden : ∀ state change, state.table.resizing name size = .ok change →
      view { state with table := state.table.modify name change } = view state) :
    Leaves view (Run.resize name size) := by
  obtain ⟨recorded, spec⟩ := Run.resize_spec name size
  have writes : Leaves view (Run.write name fun table => table.resizing name size) := write hidden
  intro state
  rw [Run.after, spec]
  exact (writes { state with journal := recorded state.table state.journal }).trans
    (unrecorded state _)

end Run.Leaves

/-! ## What the forms of statements write -/

namespace Stmt

/-- A change that a statement itself can make to the symbol of a name. -/
inductive Changes : Stmt → String → (Symbol → Symbol) → Prop where
  | assign (name : String) (expr : Expr) (value : Value) :
      Changes (.assign name expr) name (Symbol.store value)
  | assignAt (name : String) (position expr : Expr) (offset : Nat) (value : Value) :
      Changes (.assignAt name position expr) name (Symbol.storeAt offset value)
  | forLoop (name : String) (first last step : Expr) (body : List Stmt) (counter : Integer) :
      Changes (.forLoop name first last step body) name (Symbol.store (.integer counter))
  | resize (name : String) (size : Expr) (length : Nat) :
      Changes (.resize name size) name (Symbol.setLength length)

/-- What a change or a line would not show is left alone by the steps that a statement
takes by itself. -/
theorem admits_leaves [Memory] [Writer] {γ : Type} {view : State → γ}
    (unrecorded : State.Unrecorded view) {stmt : Stmt}
    (hidden : ∀ name change, stmt.Changes name change → ∀ state : State,
      view { state with table := state.table.modify name change } = view state)
    (silent : ∀ values, stmt = .print values → ∀ line, Run.Leaves view (Run.print line)) :
    stmt.Admits fun {_} run => Run.Leaves view run := by
  refine ⟨fun expr _ => .eval unrecorded expr, ?_⟩
  cases stmt with
  | assign name expr =>
      refine ⟨.symbol unrecorded name, fun value => .assign fun state change planned => ?_⟩
      obtain ⟨_, rfl⟩ := Table.store_of_assignment planned
      exact hidden name _ (.assign name expr value) state
  | assignAt name position expr =>
      refine ⟨.symbol unrecorded name, fun index value => .assignAt fun state change planned => ?_⟩
      obtain ⟨offset, rfl⟩ := Table.storeAt_of_elementAssignment planned
      exact hidden name _ (.assignAt name position expr offset value) state
  | forLoop name first last step body =>
      refine ⟨.symbol unrecorded name, fun counter => .assign fun state change planned => ?_⟩
      obtain ⟨_, rfl⟩ := Table.store_of_assignment planned
      exact hidden name _ (.forLoop name first last step body counter) state
  | resize name expr =>
      refine ⟨.symbol unrecorded name,
        fun size => .resize unrecorded fun state change planned => ?_⟩
      obtain ⟨length, rfl⟩ := Table.setLength_of_resizing planned
      exact hidden name _ (.resize name expr length) state
  | print values => exact silent values rfl
  | branch | whileLoop | repeatLoop | switch => trivial

/-! ## Footprints -/

/-- The name that a statement itself writes to. -/
def target? : Stmt → Option String
  | .assign name _ => some name
  | .assignAt name _ _ => some name
  | .forLoop name _ _ _ _ => some name
  | .resize name _ => some name
  | _ => none

/-- The array of which a statement itself changes the length. -/
def resized? : Stmt → Option String
  | .resize name _ => some name
  | _ => none

/-- Whether a statement itself prints. -/
def isPrint : Stmt → Bool
  | .print _ => true
  | _ => false

/-- The names that are written to somewhere in a statement. -/
def targets (stmt : Stmt) : List String := stmt.parts.filterMap target?

/-- The arrays of which the length is changed somewhere in a statement. -/
def resized (stmt : Stmt) : List String := stmt.parts.filterMap resized?

/-- Whether anything is printed in a statement. -/
def prints (stmt : Stmt) : Bool := stmt.parts.any isPrint

theorem Changes.target?_eq {stmt : Stmt} {name : String} {change : Symbol → Symbol}
    (changes : stmt.Changes name change) : stmt.target? = some name := by
  cases changes <;> rfl

end Stmt

/-- The length of an array. -/
def Symbol.length? (symbol : Symbol) : Option Nat :=
  match symbol.slot with
  | .array elements => some elements.size
  | .scalar _ => none

/-- The length of the array with the given name. -/
def Table.length? (table : Table) (name : String) : Option Nat :=
  (table.find? name).bind Symbol.length?

namespace Symbol

theorem length?_store (value : Value) (symbol : Symbol) :
    (store value symbol).length? = symbol.length? := by
  obtain ⟨slot, type, constant⟩ := symbol
  cases slot <;> rfl

theorem length?_storeAt (offset : Nat) (value : Value) (symbol : Symbol) :
    (storeAt offset value symbol).length? = symbol.length? := by
  obtain ⟨slot, type, constant⟩ := symbol
  cases slot with
  | scalar old => rfl
  | array elements => simp [storeAt, length?]

end Symbol

namespace Table

theorem find?_modify_of_ne (table : Table) {name other : String} (different : other ≠ name)
    (change : Symbol → Symbol) : (table.modify name change).find? other = table.find? other := by
  rw [find?_modify, if_neg different]

/-- A change that keeps the length of an array keeps all lengths. -/
theorem length?_modify (table : Table) (name : String) {change : Symbol → Symbol}
    (keeps : ∀ symbol, (change symbol).length? = symbol.length?) (other : String) :
    (table.modify name change).length? other = table.length? other := by
  rw [length?, length?, find?_modify]
  by_cases same : other = name
  · subst same
    rw [if_pos rfl]
    cases table.find? other with
    | none => rfl
    | some symbol => exact keeps symbol
  · rw [if_neg same]

end Table

namespace Stmt

variable [Memory] [Writer] {patience : Nat} {stmt : Stmt} {name : String}

theorem exec_leaves_symbol (untouched : name ∉ stmt.targets) :
    Run.Leaves (fun state => state.table.find? name) (stmt.exec patience) := by
  refine exec_composed (Run.Leaves.composable fun _ _ => rfl) fun part isPart => ?_
  refine admits_leaves (fun _ _ => rfl) (fun target change changes state => ?_)
    fun _ _ line => .print (·.find? name) line
  refine Table.find?_modify_of_ne _ ?_ change
  rintro rfl
  exact untouched (List.mem_filterMap.2 ⟨part, isPart, changes.target?_eq⟩)

theorem exec_leaves_length (unresized : name ∉ stmt.resized) :
    Run.Leaves (fun state => state.table.length? name) (stmt.exec patience) := by
  refine exec_composed (Run.Leaves.composable fun _ _ => rfl) fun part isPart => ?_
  refine admits_leaves (fun _ _ => rfl) (fun target change changes state => ?_)
    fun _ _ line => .print (·.length? name) line
  cases changes with
  | assign _ _ value => exact Table.length?_modify _ _ (Symbol.length?_store value) name
  | forLoop _ _ _ _ _ counter => exact Table.length?_modify _ _ (Symbol.length?_store _) name
  | assignAt _ _ _ offset value =>
      exact Table.length?_modify _ _ (Symbol.length?_storeAt offset value) name
  | resize _ size length =>
      have different : name ≠ target := by
        rintro rfl
        exact unresized (List.mem_filterMap.2 ⟨_, isPart, rfl⟩)
      simp only [Table.length?, Table.find?_modify_of_ne _ different]

theorem exec_leaves_output (silent : stmt.prints = false) :
    Run.Leaves State.output (stmt.exec patience) := by
  refine exec_composed (Run.Leaves.composable fun _ _ => rfl) fun part isPart => ?_
  refine admits_leaves (fun _ _ => rfl) (fun _ _ _ _ => rfl) ?_
  rintro values rfl
  have none := List.any_eq_false.1 silent _ isPart
  exact absurd rfl none

/-- **A statement changes no more than what it names.** Whether it ends, fails or is given
up, it leaves all symbols alone that are not the target of an assignment, the variable of
a counting loop or an array with a new length somewhere in it. An array of which the
length is not changed in it keeps its length. Without a statement that prints in it, it
leaves the output alone. -/
theorem exec_footprint (patience : Nat) (stmt : Stmt) (state : State) :
    (∀ name, name ∉ stmt.targets →
        ((stmt.exec patience).after state).table.find? name = state.table.find? name) ∧
      (∀ name, name ∉ stmt.resized →
        ((stmt.exec patience).after state).table.length? name = state.table.length? name) ∧
      (stmt.prints = false → ((stmt.exec patience).after state).output = state.output) :=
  ⟨fun _ untouched => exec_leaves_symbol untouched state,
    fun _ unresized => exec_leaves_length unresized state,
    fun silent => exec_leaves_output silent state⟩

end Stmt

namespace Stmt

/-- Writes the numbers from one to three into an array. -/
def filling : Stmt :=
  .forLoop "i" (.literal (.integer .one)) (.name "n") (.literal (.integer .one))
    [.assignAt "a" (.name "i") (.name "i")]

/-- An array that is too short for that. -/
def tooShort : Table :=
  Table.empty.after [.declareConstant "n" (.integer ⟨3, by decide, by decide⟩),
    .declareVariable "i" .integer, .declareArray "a" .integer 2 .usual]

/-- The loop fails in its third pass. The constant is what it was, the array is as long as
it was, and nothing was printed. -/
theorem filling_footprint :
    let state : State := ⟨tooShort, .unbounded, .off⟩
    let after := (filling.exec 5).after state
    after.table.render = "- a: INT_TYPE[] -> [1, 2]\n- i: INT_TYPE -> 3\n- n: INT_TYPE -> 3\n" ∧
      after.table.find? "n" = state.table.find? "n" ∧
      after.table.length? "a" = state.table.length? "a" ∧ after.output = state.output := by
  intro state after
  obtain ⟨symbols, lengths, output⟩ := exec_footprint 5 filling state
  have untouched : "n" ∉ filling.targets := by decide
  have unresized : "a" ∉ filling.resized := by decide
  refine ⟨?_, symbols "n" untouched, lengths "a" unresized, output rfl⟩
  decide +kernel

end Stmt

/-! ## What was printed stays -/

section Adding

variable [Writer]

namespace Run

variable {α β : Type}

/-- What the writer has taken before a run stays, whatever the run comes to. -/
def Adds (run : Run α) : Prop :=
  ∀ state, ∃ added,
    Writer.written (run.after state).output = Writer.written state.output ++ added

namespace Adds

theorem of_leaves {run : Run α} (leaves : run.Leaves State.output) : run.Adds := by
  intro state
  exact ⟨.empty, by rw [leaves state, ByteArray.append_empty]⟩

theorem bind {first : Run α} {second : α → Run β} (earlier : first.Adds)
    (later : ∀ a, (second a).Adds) : (first >>= second).Adds := by
  intro state
  obtain ⟨added, wrote⟩ := earlier state
  cases ran : first state with
  | error stop next =>
      rw [after_error ran] at wrote
      exact ⟨added, by rw [after_error (bind_error ran), wrote]⟩
  | ok a next =>
      obtain ⟨more, wroteMore⟩ := later a next
      rw [after_ok ran] at wrote
      exact ⟨added ++ more, by rw [after_bind ran, wroteMore, wrote, ByteArray.append_assoc]⟩

theorem composable : Composable fun {_} run => Adds run where
  pure _ := of_leaves fun _ => rfl
  stop _ := of_leaves fun _ => rfl
  bind := bind
  note _ _ _ := of_leaves fun _ => rfl

theorem eval (expr : Expr) : (Run.eval expr).Adds := of_leaves (.eval (fun _ _ => rfl) expr)

theorem symbol (name : String) : (Run.symbol name).Adds :=
  of_leaves (.symbol (fun _ _ => rfl) name)

theorem update (operation : Update α) : (Run.update operation).Adds := by
  apply of_leaves
  intro state
  rw [after, Run.update]
  cases operation state.table <;> rfl

theorem put (text : String) : (Run.put text).Adds := by
  intro state
  rcases wrote : Writer.write state.output text with ⟨result, next⟩
  cases result with
  | ok _ =>
      have whole := Writer.written_of_ok wrote
      exact ⟨text.toUTF8, by rw [Run.put, after_ok (ask_ok wrote), whole]⟩
  | error reason =>
      obtain ⟨count, part⟩ := Writer.written_of_error wrote
      exact ⟨_, by rw [Run.put, after_error (ask_error wrote), part]⟩

theorem print (line : String) : (Run.print line).Adds := bind (put line) fun _ => put "\n"

end Adds

end Run

/-- The steps of a statement only add to what was printed, whatever the writer refuses. -/
theorem Stmt.admits_adds [Memory] (stmt : Stmt) : stmt.Admits fun {_} run => run.Adds := by
  refine ⟨fun expr _ => .eval expr, ?_⟩
  cases stmt with
  | assign name expr => exact ⟨.symbol name, fun value => .update _⟩
  | assignAt name position expr => exact ⟨.symbol name, fun index value => .update _⟩
  | forLoop name first last step body => exact ⟨.symbol name, fun counter => .update _⟩
  | resize name expr =>
      refine ⟨.symbol name, fun size => .bind (.update _) fun lengths => ?_⟩
      exact .bind (Run.Adds.composable.note _ _ _) fun _ => .update _
  | print values => exact .print
  | branch | whileLoop | repeatLoop | switch => trivial

end Adding

end Pseudocode
