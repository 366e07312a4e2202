import Pseudocode.Proofs.Run.Statement
import Pseudocode.Proofs.Typing.Scope

/-!
# Declarations are permanent

A name that was declared stays declared, with the type it was declared with, as
the constant, variable or array that it was. A constant keeps its value.

No single test in the operations ensures all of this. Writing a variable asks
whether the symbol is a constant; writing an element and changing a length do
not ask. They need an array, and no constant is one: constants are made from a
value and arrays are made as variables. `Table.Built` holds of the tables that
come from such declarations, and `Table.Built.regular` says that their constants
are scalars.

What an operation can do to a table is said once, by `Table.Step`. Statements
have the three writes only, so a body neither adds names nor changes what is
declared about them, however long it runs and however it stops.
-/

set_option autoImplicit false

namespace Pseudocode

/-! ## Symbols -/

namespace Symbol

/-- What never changes about a symbol: its declared type, whether it is a
constant and whether it is an array. A scalar constant does not change at
all. -/
structure Keeps (before after : Symbol) : Prop where
  type : after.type = before.type
  constant : after.constant = before.constant
  isArray : after.isArray = before.isArray
  value : before.constant = true → before.isArray = false → after = before

/-- A symbol that is not both a constant and an array. -/
def Regular (symbol : Symbol) : Prop := symbol.constant = true → symbol.isArray = false

theorem Keeps.refl (symbol : Symbol) : symbol.Keeps symbol := ⟨rfl, rfl, rfl, fun _ _ => rfl⟩

theorem Keeps.trans {first second third : Symbol} (earlier : first.Keeps second)
    (later : second.Keeps third) : first.Keeps third where
  type := later.type.trans earlier.type
  constant := later.constant.trans earlier.constant
  isArray := later.isArray.trans earlier.isArray
  value := by
    intro constant scalar
    obtain rfl := earlier.value constant scalar
    exact later.value constant scalar

theorem Keeps.regular {before after : Symbol} (keeps : before.Keeps after)
    (regular : before.Regular) : after.Regular := by
  intro constant
  rw [keeps.isArray]
  exact regular (keeps.constant ▸ constant)

/-- Storing asks nothing, so here the symbol has to be known not to be a
constant. -/
theorem keeps_store {symbol : Symbol} (isVariable : symbol.constant = false) (value : Value) :
    symbol.Keeps (store value symbol) := by
  obtain ⟨slot, type, constant⟩ := symbol
  subst isVariable
  cases slot with
  | scalar old => exact ⟨rfl, rfl, rfl, nofun⟩
  | array elements => exact .refl _

theorem keeps_storeAt (symbol : Symbol) (offset : Nat) (value : Value) :
    symbol.Keeps (storeAt offset value symbol) := by
  obtain ⟨slot, type, constant⟩ := symbol
  cases slot with
  | scalar old => exact .refl _
  | array elements => exact ⟨rfl, rfl, rfl, nofun⟩

theorem keeps_setLength (symbol : Symbol) (length : Nat) :
    symbol.Keeps (setLength length symbol) := by
  obtain ⟨slot, type, constant⟩ := symbol
  cases slot with
  | scalar old => exact .refl _
  | array elements => exact ⟨rfl, rfl, rfl, nofun⟩

theorem regular_ofConstant (value : Value) : (ofConstant value).Regular := fun _ => rfl

theorem regular_ofVariable (type : DataType) : (ofVariable type).Regular := nofun

theorem regular_ofArray [Memory] {type : DataType} {length : Nat} {symbol : Symbol}
    (made : ofArray type length = .ok symbol) : symbol.Regular := by
  unfold ofArray at made
  split at made
  · obtain rfl := Except.ok.inj made
    nofun
  · cases made

end Symbol

/-! ## Tables -/

namespace Table

variable {table later : Table} {name : String}

/-- Every name of the first table has a symbol in the second, of which all that
never changes is the same. -/
def Keeps (before after : Table) : Prop :=
  ∀ name symbol, before.find? name = some symbol →
    ∃ later, after.find? name = some later ∧ symbol.Keeps later

theorem Keeps.refl (table : Table) : table.Keeps table :=
  fun _ symbol found => ⟨symbol, found, .refl symbol⟩

theorem Keeps.trans {first second third : Table} (earlier : first.Keeps second)
    (later : second.Keeps third) : first.Keeps third := by
  intro name symbol found
  obtain ⟨middle, foundMiddle, one⟩ := earlier name symbol found
  obtain ⟨last, foundLast, two⟩ := later name middle foundMiddle
  exact ⟨last, foundLast, one.trans two⟩

theorem Keeps.contains (keeps : table.Keeps later) (known : table.contains name = true) :
    later.contains name = true := by
  obtain ⟨symbol, found⟩ := Option.isSome_iff_exists.1 known
  obtain ⟨kept, foundLater, _⟩ := keeps name symbol found
  exact Option.isSome_iff_exists.2 ⟨kept, foundLater⟩

/-- A constant that is a scalar stands for the same symbol ever after. -/
theorem Keeps.find?_constant (keeps : table.Keeps later) {symbol : Symbol}
    (found : table.find? name = some symbol) (constant : symbol.constant = true)
    (regular : symbol.Regular) : later.find? name = some symbol := by
  obtain ⟨_, foundLater, kept⟩ := keeps name symbol found
  rw [foundLater, kept.value constant (regular constant)]

/-! ### Declaring -/

/-- A name that is known cannot be declared. -/
theorem declare_of_contains (known : table.contains name = true) (symbol : Symbol) :
    table.declare name symbol = .error (.alreadyDeclared name) :=
  (table.declare_eq_error name).2 ⟨known, rfl⟩

theorem keeps_of_declare {symbol : Symbol} (declared : table.declare name symbol = .ok later) :
    table.Keeps later := by
  intro other found isFound
  have different : other ≠ name := by
    rintro rfl
    have known : table.contains other = true := Option.isSome_iff_exists.2 ⟨found, isFound⟩
    rw [declare_of_contains known] at declared
    cases declared
  refine ⟨found, ?_, .refl found⟩
  rw [find?_of_declare declared, if_neg different, isFound]

/-! ### Writing -/

/-- A change that keeps what the name stands for. -/
def Lawful (table : Table) (name : String) (change : Symbol → Symbol) : Prop :=
  ∀ symbol, table.find? name = some symbol → symbol.Keeps (change symbol)

theorem keeps_modify {change : Symbol → Symbol} (lawful : table.Lawful name change) :
    table.Keeps (table.modify name change) := by
  intro other symbol found
  by_cases same : other = name
  · subst same
    refine ⟨change symbol, ?_, lawful symbol found⟩
    rw [find?_modify, if_pos rfl, found, Option.map_some]
  · refine ⟨symbol, ?_, .refl symbol⟩
    rw [find?_modify, if_neg same, found]

theorem contains_modify (table : Table) (name : String) (change : Symbol → Symbol)
    (other : String) : (table.modify name change).contains other = table.contains other := by
  rw [contains, contains, find?_modify]
  by_cases same : other = name
  · rw [if_pos same, Option.isSome_map, same]
  · rw [if_neg same]

/-- The one write that asks whether it writes to a constant. -/
theorem store_of_assignment {value : Value} {change : Symbol → Symbol}
    (planned : table.assignment name value = .ok change) :
    (∃ symbol, table.find? name = some symbol ∧ symbol.constant = false) ∧
      change = Symbol.store value := by
  obtain ⟨symbol, got, planned⟩ := bind_eq_ok.1 planned
  split at planned
  · cases planned
  · split at planned
    · cases planned
    · rename_i notConstant
      exact ⟨⟨symbol, demand_eq_ok.1 got, Bool.eq_false_iff.2 notConstant⟩,
        (Except.ok.inj planned).symm⟩

theorem storeAt_of_elementAssignment {index : Integer} {value : Value}
    {change : Symbol → Symbol}
    (planned : table.elementAssignment name index value = .ok change) :
    ∃ offset, change = Symbol.storeAt offset value := by
  obtain ⟨symbol, _, planned⟩ := bind_eq_ok.1 planned
  obtain ⟨elements, _, planned⟩ := bind_eq_ok.1 planned
  obtain ⟨offset, _, planned⟩ := bind_eq_ok.1 planned
  exact ⟨offset, (Except.ok.inj planned).symm⟩

theorem setLength_of_resizing [Memory] {size : Value} {change : Symbol → Symbol}
    (planned : table.resizing name size = .ok change) :
    ∃ length, change = Symbol.setLength length := by
  obtain ⟨⟨old, new⟩, _, planned⟩ := bind_eq_ok.1 planned
  dsimp only at planned
  split at planned
  · exact ⟨new, (Except.ok.inj planned).symm⟩
  · cases planned

theorem lawful_assignment {value : Value} {change : Symbol → Symbol}
    (planned : table.assignment name value = .ok change) : table.Lawful name change := by
  obtain ⟨⟨known, isKnown, notConstant⟩, rfl⟩ := store_of_assignment planned
  intro symbol found
  obtain rfl : symbol = known := Option.some.inj (found.symm.trans isKnown)
  exact Symbol.keeps_store notConstant value

theorem lawful_elementAssignment {index : Integer} {value : Value} {change : Symbol → Symbol}
    (planned : table.elementAssignment name index value = .ok change) :
    table.Lawful name change := by
  obtain ⟨offset, rfl⟩ := storeAt_of_elementAssignment planned
  exact fun symbol _ => symbol.keeps_storeAt offset value

theorem lawful_resizing [Memory] {size : Value} {change : Symbol → Symbol}
    (planned : table.resizing name size = .ok change) : table.Lawful name change := by
  obtain ⟨length, rfl⟩ := setLength_of_resizing planned
  exact fun symbol _ => symbol.keeps_setLength length

/-- An invariant that lawful changes keep is kept by every write. -/
theorem KeptByWrites.of_lawful [Memory] {inv : Table → Prop}
    (kept : ∀ table name change, inv table → table.Lawful name change →
      inv (table.modify name change)) : KeptByWrites inv where
  assignment holds planned := kept _ _ _ holds (lawful_assignment planned)
  elementAssignment holds planned := kept _ _ _ holds (lawful_elementAssignment planned)
  resizing holds planned := kept _ _ _ holds (lawful_resizing planned)

/-! ## Operations in a row -/

/-- What a table can be asked. The memory is that of the moment, so each operation that needs room
has its own. -/
inductive Operation where
  | declareConstant (name : String) (value : Value)
  | declareVariable (name : String) (type : DataType)
  | declareArray (name : String) (type : DataType) (length : Nat) (memory : Memory)
  | assign (name : String) (value : Value)
  | assignAt (name : String) (index : Integer) (value : Value)
  | resize (name : String) (size : Value) (memory : Memory)
  | read (name : String)
  | readAt (name : String) (index : Integer)

namespace Operation

/-- What an operation does. -/
def update : Operation → Update Unit
  | declareConstant name value => .declare name (.ofConstant value)
  | declareVariable name type => .declare name (.ofVariable type)
  | declareArray name type length memory => do
    let symbol ← Update.look fun _ => @Symbol.ofArray memory type length
    Update.declare name symbol
  | assign name value => .assign name value
  | assignAt name index value => .assignAt name index value
  | resize name size memory => @Update.resize memory name size
  | read name => do
    let _ ← Update.look (·.read name)
  | readAt name index => do
    let _ ← Update.look (·.readAt name index)

/-- **The checks of every operation come first.** -/
theorem checksFirst (operation : Operation) : operation.update.ChecksFirst := by
  have nothing : (pure () : Update Unit).ChecksFirst := fun _ _ _ => nofun
  cases operation with
  | declareConstant name value => exact Update.declare_checksFirst name _
  | declareVariable name type => exact Update.declare_checksFirst name _
  | declareArray name type length memory =>
      exact Update.look_bind_checksFirst _ fun symbol => Update.declare_checksFirst name symbol
  | assign name value => exact Update.assign_checksFirst name value
  | assignAt name index value => exact Update.assignAt_checksFirst name index value
  | resize name size memory => exact Update.resize_checksFirst name size
  | read name => exact Update.look_bind_checksFirst _ fun _ => nothing
  | readAt name index => exact Update.look_bind_checksFirst _ fun _ => nothing

end Operation

/-- The table that an operation leads to, if it does not fail. -/
def perform (table : Table) (operation : Operation) : Except RuntimeError Table :=
  operation.update.result table

/-- The table after an operation, whether or not it has failed. -/
def next (table : Table) (operation : Operation) : Table :=
  match operation.update table with
  | .ok _ after => after
  | .error _ after => after

theorem next_of_ok {operation : Operation} (performed : table.perform operation = .ok later) :
    table.next operation = later := by
  rw [perform, Update.result] at performed
  rw [next]
  cases done : operation.update table with
  | ok a after =>
      rw [done] at performed
      exact Except.ok.inj performed
  | error error after => rw [done] at performed; cases performed

theorem next_of_error {operation : Operation} {error : RuntimeError}
    (failed : table.perform operation = .error error) : table.next operation = table := by
  rw [perform, Update.result] at failed
  rw [next]
  cases done : operation.update table with
  | ok a after => rw [done] at failed; cases failed
  | error error after => exact operation.checksFirst _ _ _ done

/-- An array is declared if there is room for it. -/
theorem perform_declareArray (type : DataType) (length : Nat) (memory : Memory) :
    table.perform (.declareArray name type length memory) =
      @Symbol.ofArray memory type length >>= fun symbol => table.declare name symbol :=
  Update.result_look_bind _ _ table

/-- Reading leads nowhere else. -/
theorem perform_read :
    table.perform (.read name) = table.read name >>= fun _ => .ok table :=
  Update.result_look_bind _ _ table

theorem perform_readAt (index : Integer) :
    table.perform (.readAt name index) = table.readAt name index >>= fun _ => .ok table :=
  Update.result_look_bind _ _ table

/-- The table after operations in a row. -/
def after (table : Table) (operations : List Operation) : Table := operations.foldl next table

/-- What an operation can do to a table. -/
inductive Step (table : Table) : Table → Prop where
  | declare {name : String} {symbol : Symbol} {after : Table} (regular : symbol.Regular)
      (declared : table.declare name symbol = .ok after) : Step table after
  | modify {name : String} {change : Symbol → Symbol} (lawful : table.Lawful name change) :
      Step table (table.modify name change)
  | stay : Step table table

theorem step_of_perform {operation : Operation} (performed : table.perform operation = .ok later) :
    table.Step later := by
  cases operation with
  | declareConstant name value => exact .declare (Symbol.regular_ofConstant value) performed
  | declareVariable name type => exact .declare (Symbol.regular_ofVariable type) performed
  | declareArray name type length memory =>
      obtain ⟨symbol, made, declared⟩ :=
        bind_eq_ok.1 ((perform_declareArray type length memory).symm.trans performed)
      exact .declare (Symbol.regular_ofArray made) declared
  | assign name value =>
      obtain ⟨change, planned, done⟩ :=
        bind_eq_ok.1 ((table.assign_eq name value).symm.trans performed)
      exact Except.ok.inj done ▸ .modify (lawful_assignment planned)
  | assignAt name index value =>
      obtain ⟨change, planned, done⟩ :=
        bind_eq_ok.1 ((table.assignAt_eq name index value).symm.trans performed)
      exact Except.ok.inj done ▸ .modify (lawful_elementAssignment planned)
  | resize name size memory =>
      obtain ⟨change, planned, done⟩ :=
        bind_eq_ok.1 ((table.resize_eq name size).symm.trans performed)
      exact Except.ok.inj done ▸ .modify (lawful_resizing planned)
  | read name =>
      obtain ⟨_, _, done⟩ := bind_eq_ok.1 (perform_read.symm.trans performed)
      exact Except.ok.inj done ▸ .stay
  | readAt name index =>
      obtain ⟨_, _, done⟩ := bind_eq_ok.1 ((perform_readAt index).symm.trans performed)
      exact Except.ok.inj done ▸ .stay

theorem step_next (table : Table) (operation : Operation) : table.Step (table.next operation) := by
  cases performed : table.perform operation with
  | ok after =>
      rw [next_of_ok performed]
      exact step_of_perform performed
  | error error =>
      rw [next_of_error performed]
      exact .stay

theorem Step.keeps (step : table.Step later) : table.Keeps later := by
  cases step with
  | declare _ declared => exact keeps_of_declare declared
  | modify lawful => exact keeps_modify lawful
  | stay => exact .refl table

/-- Every run of operations keeps what one operation keeps. -/
theorem keeps_after (table : Table) (operations : List Operation) :
    table.Keeps (table.after operations) := by
  induction operations generalizing table with
  | nil => exact .refl table
  | cons operation rest ih => exact (table.step_next operation).keeps.trans (ih _)

/-! ## Tables that operations lead to -/

/-- A table that operations make out of nothing. -/
def Built (table : Table) : Prop := ∃ operations, table = empty.after operations

theorem Built.next (built : table.Built) (operation : Operation) :
    (table.next operation).Built := by
  obtain ⟨operations, rfl⟩ := built
  refine ⟨operations ++ [operation], ?_⟩
  rw [Table.after, Table.after, List.foldl_append, List.foldl_cons, List.foldl_nil]

theorem Built.of_perform (built : table.Built) (operation : Operation)
    (performed : table.perform operation = .ok later) : later.Built :=
  next_of_ok performed ▸ built.next operation

/-- A table without arrays among its constants. -/
def Regular (table : Table) : Prop :=
  ∀ name symbol, table.find? name = some symbol → symbol.Regular

theorem Step.regular (step : table.Step later) (regular : table.Regular) : later.Regular := by
  intro name symbol found
  cases step with
  | declare new declared =>
      rw [find?_of_declare declared] at found
      split at found
      · exact Option.some.inj found ▸ new
      · exact regular name symbol found
  | @modify changed change lawful =>
      have known : table.contains name = true := by
        rw [← contains_modify table changed change name]
        exact Option.isSome_iff_exists.2 ⟨symbol, found⟩
      obtain ⟨old, isOld⟩ := Option.isSome_iff_exists.1 known
      obtain ⟨new, isNew, keeps⟩ := keeps_modify lawful name old isOld
      obtain rfl : new = symbol := Option.some.inj (isNew.symm.trans found)
      exact keeps.regular (regular name old isOld)
  | stay => exact regular name symbol found

theorem Regular.after (regular : table.Regular) (operations : List Operation) :
    (table.after operations).Regular := by
  induction operations generalizing table with
  | nil => exact regular
  | cons operation rest ih => exact ih ((table.step_next operation).regular regular)

/-- The constants of a table that is built are scalars. -/
theorem Built.regular (built : table.Built) : table.Regular := by
  obtain ⟨operations, rfl⟩ := built
  have nothing : empty.Regular := fun _ _ found => nomatch found
  exact nothing.after operations

theorem keptByWrites_built [Memory] : KeptByWrites Built where
  assignment := by
    intro table name value change built planned
    refine built.of_perform (.assign name value) ((table.assign_eq name value).trans ?_)
    rw [planned]
    rfl
  elementAssignment := by
    intro table name index value change built planned
    refine built.of_perform (.assignAt name index value) ?_
    refine (table.assignAt_eq name index value).trans ?_
    rw [planned]
    rfl
  resizing := by
    intro table name size change built planned
    refine built.of_perform (.resize name size inferInstance) ?_
    refine (table.resize_eq name size).trans ?_
    rw [planned]
    rfl

end Table

/-! ## Runs -/

open Run (Ensures anything)

section Runs

variable [Writer]

/-- The table that a run leaves, whether it ended or stopped. -/
def Run.leaves {α : Type} (run : Run α) (state : State) : Table :=
  match run state with
  | .ok _ next => next.table
  | .error _ next => next.table

theorem Run.Ensures.leaves {α : Type} {inv : Table → Prop} {stops : Stop → Prop} {run : Run α}
    {result : α → Prop} (ensures : Ensures inv stops run result) {state : State}
    (holds : inv state.table) : inv (run.leaves state) := by
  have outcome := ensures state holds
  unfold Run.leaves
  cases ran : run state with
  | ok a next =>
      rw [ran] at outcome
      exact outcome.1
  | error stop next =>
      rw [ran] at outcome
      exact outcome.1

theorem Constant.exec_built (constant : Constant) :
    Ensures Table.Built (fun _ => True) constant.exec anything := by
  refine .bind (.note _ _ _) fun _ _ => .bind (.evalAnyhow constant.value) fun value _ => ?_
  refine .declare (fun table later built declared => ?_) fun _ _ _ _ => trivial
  exact built.of_perform (.declareConstant constant.name value) declared

variable [Memory]

/-- A body leaves the same names, with all that never changes about them. -/
theorem execAll_leaves (patience : Nat) (body : List Stmt) (state : State) :
    state.table.Keeps ((execAll patience body).leaves state) ∧
      ∀ name, ((execAll patience body).leaves state).contains name =
        state.table.contains name := by
  have kept : Table.KeptByWrites fun table =>
      state.table.Keeps table ∧ ∀ name, table.contains name = state.table.contains name := by
    refine .of_lawful fun table name change holds lawful => ?_
    refine ⟨holds.1.trans (Table.keeps_modify lawful), fun other => ?_⟩
    rw [Table.contains_modify, holds.2]
  exact (execAll_keeps kept patience body).leaves ⟨.refl _, fun _ => rfl⟩

theorem Variable.exec_built (var : Variable) :
    Ensures Table.Built (fun _ => True) var.exec anything := by
  obtain ⟨name, type, size⟩ := var
  refine .bind (.note _ _ _) fun _ _ => ?_
  cases size with
  | none =>
      refine .declare (fun table later built declared => ?_) fun _ _ _ _ => trivial
      exact built.of_perform (.declareVariable name type) declared
  | some size =>
      refine .bind (.evalAnyhow size) fun value _ => .bind (.liftAnyhow _) fun length _ => ?_
      have made : Ensures Table.Built (fun _ => True) (Run.lift (Symbol.ofArray type length))
          (fun symbol => Symbol.ofArray type length = .ok symbol) :=
        .lift (fun _ found => found) fun _ _ => trivial
      refine .bind made fun symbol isMade => ?_
      refine .declare (fun table later built declared => ?_) fun _ _ _ _ => trivial
      refine built.of_perform (.declareArray name type length inferInstance) ?_
      rw [Table.perform_declareArray, isMade]
      exact declared

/-- Every program leads from a table that is built to another one. -/
theorem Program.exec_built (patience : Nat) (program : Program) :
    Ensures Table.Built (fun _ => True) (program.exec patience) anything := by
  have declares : Ensures Table.Built (fun _ => True) program.declarations.exec anything :=
    .bind (.note _ _ _) fun _ _ => .bind (.forM fun constant _ => constant.exec_built)
      fun _ _ => .forM fun var _ => var.exec_built
  have runs := execAll_keeps Table.keptByWrites_built patience program.body
  refine .bind (.note _ _ _) fun _ _ => .bind declares fun _ _ => ?_
  refine .bind (.compound runs) fun _ _ => ?_
  exact .bind (.flush fun _ => trivial) fun _ _ => .note _ _ _

/-- **Declarations are permanent and constants do not change.** Operations in any
number, whether or not they succeed, keep every name with its type, as the
constant, variable or array that it is, and no name can be declared again. The
same holds of a run of any body, which also adds no name. A constant of a table
that is built stands for the same symbol after either, and every table that a
program leaves is built. -/
theorem Table.declarations_permanent (table : Table) (operations : List Operation) :
    table.Keeps (table.after operations) ∧
      (∀ name symbol, table.contains name = true →
        (table.after operations).declare name symbol = .error (.alreadyDeclared name)) ∧
      (∀ patience body output journal,
        table.Keeps ((execAll patience body).leaves ⟨table, output, journal⟩) ∧
        ∀ name, ((execAll patience body).leaves ⟨table, output, journal⟩).contains name =
          table.contains name) ∧
      (table.Built → ∀ name symbol, table.find? name = some symbol → symbol.constant = true →
        (table.after operations).find? name = some symbol ∧
        ∀ patience body output journal,
          ((execAll patience body).leaves ⟨table, output, journal⟩).find? name = some symbol) ∧
      ∀ (program : Program) patience output journal,
        ((program.exec patience).leaves ⟨Table.empty, output, journal⟩).Built := by
  have kept := table.keeps_after operations
  have left := fun patience body output journal =>
    execAll_leaves patience body ⟨table, output, journal⟩
  refine ⟨kept, ?_, left, ?_, ?_⟩
  · intro name symbol known
    exact declare_of_contains (kept.contains known) symbol
  · intro built name symbol found constant
    have regular := built.regular name symbol found
    refine ⟨kept.find?_constant found constant regular, ?_⟩
    intro patience body output journal
    exact (left patience body output journal).1.find?_constant found constant regular
  · intro program patience output journal
    have nothing : Table.empty.Built := ⟨[], rfl⟩
    exact (program.exec_built patience).leaves nothing

end Runs

/-- A constant is still what it was after every way to write to it was tried. -/
theorem Table.limit_permanent :
    let table := Table.empty.after [.declareConstant "limit" (.boolean true)]
    let tried : List Operation := [.assign "limit" (.boolean false),
      .assignAt "limit" ⟨1, by decide, by decide⟩ (.boolean false),
      .resize "limit" (.boolean false) .usual, .declareVariable "limit" .integer]
    table.Built ∧ table.find? "limit" = some (.ofConstant (.boolean true)) ∧
      (table.after tried).find? "limit" = some (.ofConstant (.boolean true)) := by
  intro table tried
  have built : table.Built := ⟨_, rfl⟩
  have found : table.find? "limit" = some (.ofConstant (.boolean true)) := rfl
  obtain ⟨_, _, _, constants, _⟩ := declarations_permanent table tried
  exact ⟨built, found, (constants built "limit" _ found rfl).1⟩

end Pseudocode
