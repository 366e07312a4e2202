import Pseudocode.State

/-!
# Checks come before changes

An operation on a table looks at the table first, and changes a symbol only when nothing can fail
any more. So it comes in two parts: a plan, which is made from the table alone and may be refused,
and the change that was planned (`Update.planned`). Each operation is shown to be its plan, carried
out in this way. One that fails therefore leaves the table as it was (`Update.ChecksFirst`).

The steps of a run that write to the table are planned writes as well (`Run.write`).
-/

set_option autoImplicit false

namespace Pseudocode

/-! ## Plans -/

namespace Table

/-- How a variable is written. -/
def assignment (table : Table) (name : String) (value : Value) :
    Except RuntimeError (Symbol → Symbol) := do
  let symbol ← table.get name
  if symbol.isArray then .error (.isAnArray name)
  else if symbol.constant then .error (.constantMutation name)
  else .ok (Symbol.store value)

/-- How an element of an array is written. -/
def elementAssignment (table : Table) (name : String) (index : Integer) (value : Value) :
    Except RuntimeError (Symbol → Symbol) := do
  let length := (← (← table.get name).elements name).size
  let offset ← index.offset length
  .ok (Symbol.storeAt offset value)

/-- The present and the wanted length of an array. -/
def newLength (table : Table) (name : String) (size : Value) :
    Except RuntimeError (Nat × Nat) := do
  let old := (← (← table.get name).elements name).size
  match size with
  | .integer n => return (old, ← n.arrayLength)
  | _ => .error .invalidArraySize

/-- How the length of an array is changed. There must be room for it to grow. -/
def resizing [Memory] (table : Table) (name : String) (size : Value) :
    Except RuntimeError (Symbol → Symbol) := do
  let (old, new) ← table.newLength name size
  if new ≤ old ∨ Memory.hasRoom new then .ok (Symbol.setLength new)
  else .error .invalidArraySize

end Table

namespace Update

variable {α β γ : Type}

/-- Only looks at the table. -/
def look (ask : Table → Except RuntimeError α) : Update α := fun table =>
  match ask table with
  | .ok a => .ok a table
  | .error error => .error error table

/-- Makes a plan from the table and changes the symbol of a name as planned. -/
def planned (name : String) (plan : Table → Except RuntimeError (Symbol → Symbol)) :
    Update Unit := fun table =>
  match plan table with
  | .ok change => .ok () (table.modify name change)
  | .error error => .error error table

/-! ## Looking at a table -/

theorem look_bind (ask : Table → Except RuntimeError α) (next : α → Update β) (table : Table) :
    (look ask >>= next) table =
      match ask table with
      | .ok a => next a table
      | .error error => .error error table := by
  change EStateM.bind (look ask) next table = _
  rw [EStateM.bind, look]
  cases ask table <;> rfl

/-- Looking twice is looking once. -/
theorem look_look (ask : Table → Except RuntimeError α) (more : α → Table → Except RuntimeError β)
    (next : β → Update γ) :
    (look ask >>= fun a => look (more a) >>= next) =
      look (fun table => ask table >>= fun a => more a table) >>= next := by
  funext table
  rw [look_bind, look_bind]
  cases ask table with
  | error error => rfl
  | ok a => exact look_bind (more a) next table

theorem lift_eq_look (result : Except RuntimeError α) : lift result = look fun _ => result := by
  funext table
  rw [look]
  cases result <;> rfl

theorem symbol_eq_look (name : String) : symbol name = look (·.get name) := by
  funext table
  change lift (table.get name) table = _
  rw [lift_eq_look]
  rfl

theorem length_eq_look (name : String) :
    length name = look fun table => do return (← (← table.get name).elements name).size := by
  funext table
  rw [length, symbol_eq_look, look_bind, look]
  cases table.get name with
  | error error => rfl
  | ok symbol =>
      simp only [lift_eq_look, look_bind]
      simp only [bind, Except.bind]
      cases symbol.elements name <;> rfl

theorem newLength_eq_look (name : String) (size : Value) :
    newLength name size = look (·.newLength name size) := by
  funext table
  rw [newLength, length_eq_look, look_bind, look, Table.newLength]
  cases table.get name with
  | error error => rfl
  | ok symbol =>
      simp only [bind, Except.bind]
      cases symbol.elements name with
      | error error => rfl
      | ok elements =>
          cases size with
          | integer n =>
              simp only [lift_eq_look, pure, Except.pure]
              exact (look_bind _ _ table).trans (by cases n.arrayLength <;> rfl)
          | _ => rfl

/-! ## Operations and their plans -/

theorem assign_eq_planned (name : String) (value : Value) :
    assign name value = planned name (·.assignment name value) := by
  funext table
  rw [assign, symbol_eq_look, look_bind, planned, Table.assignment]
  cases table.get name with
  | error error => rfl
  | ok symbol =>
      simp only [bind, Except.bind]
      cases symbol.isArray with
      | true => rfl
      | false => cases symbol.constant <;> rfl

theorem assignAt_eq_planned (name : String) (index : Integer) (value : Value) :
    assignAt name index value = planned name (·.elementAssignment name index value) := by
  funext table
  rw [assignAt, length_eq_look, look_bind, planned, Table.elementAssignment]
  cases table.get name with
  | error error => rfl
  | ok symbol =>
      simp only [bind, Except.bind]
      cases symbol.elements name with
      | error error => rfl
      | ok elements =>
          simp only [lift_eq_look, pure, Except.pure]
          exact (look_bind _ _ table).trans (by cases index.offset elements.size <;> rfl)

section Lengths

variable [Memory]

/-- After the lengths are known, changing the length does what is planned for the array. -/
theorem setLength_eq_planned {name : String} {size : Value} {table : Table} {old new : Nat}
    (known : table.newLength name size = .ok (old, new)) :
    setLength name old new table = planned name (·.resizing name size) table := by
  have plan : table.resizing name size =
      if new ≤ old ∨ Memory.hasRoom new then .ok (Symbol.setLength new)
      else .error .invalidArraySize := by
    rw [Table.resizing, known]
    rfl
  rw [planned, plan, setLength]
  by_cases longer : old < new
  · rw [if_pos longer, grow]
    by_cases room : Memory.hasRoom new = true
    · rw [if_pos room, if_pos (.inr room)]
      rfl
    · rw [if_neg room, if_neg (not_or.2 ⟨Nat.not_le.2 longer, room⟩)]
      rfl
  · rw [if_neg longer, if_pos (.inl (Nat.le_of_not_lt longer))]
    rfl

theorem resize_eq_planned (name : String) (size : Value) :
    resize name size = planned name (·.resizing name size) := by
  funext table
  rw [resize, newLength_eq_look, look_bind]
  cases known : table.newLength name size with
  | ok lengths => exact setLength_eq_planned known
  | error error =>
      have plan : table.resizing name size = .error error := by
        rw [Table.resizing, known]
        rfl
      rw [planned, plan]

end Lengths

/-! ## Operations that fail -/

/-- An operation whose checks come before its changes: if it fails then the table is as it was. -/
def ChecksFirst (update : Update α) : Prop :=
  ∀ (table after : Table) (error : RuntimeError), update table = .error error after → after = table

theorem planned_checksFirst (name : String)
    (plan : Table → Except RuntimeError (Symbol → Symbol)) : (planned name plan).ChecksFirst := by
  intro table after error failed
  rw [planned] at failed
  cases made : plan table with
  | ok change => rw [made] at failed; cases failed
  | error cause =>
      rw [made] at failed
      cases failed
      rfl

theorem declare_checksFirst (name : String) (symbol : Symbol) :
    (declare name symbol).ChecksFirst := by
  intro table after error failed
  rw [declare] at failed
  split at failed
  · cases failed
  · cases failed
    rfl

theorem assign_checksFirst (name : String) (value : Value) : (assign name value).ChecksFirst := by
  rw [assign_eq_planned]
  exact planned_checksFirst name _

theorem assignAt_checksFirst (name : String) (index : Integer) (value : Value) :
    (assignAt name index value).ChecksFirst := by
  rw [assignAt_eq_planned]
  exact planned_checksFirst name _

theorem resize_checksFirst [Memory] (name : String) (size : Value) :
    (resize name size).ChecksFirst := by
  rw [resize_eq_planned]
  exact planned_checksFirst name _

/-- Looking at the table comes before the checks of what follows. -/
theorem look_bind_checksFirst (ask : Table → Except RuntimeError α) {next : α → Update β}
    (checks : ∀ a, (next a).ChecksFirst) : (look ask >>= next).ChecksFirst := by
  intro table after error failed
  rw [look_bind] at failed
  cases found : ask table with
  | ok a =>
      rw [found] at failed
      exact checks a table after error failed
  | error cause =>
      rw [found] at failed
      cases failed
      rfl

theorem result_look_bind (ask : Table → Except RuntimeError α) (next : α → Update Unit)
    (table : Table) :
    (look ask >>= next).result table = ask table >>= fun a => (next a).result table := by
  rw [result, look_bind]
  cases ask table <;> rfl

theorem result_planned (name : String) (plan : Table → Except RuntimeError (Symbol → Symbol))
    (table : Table) :
    (planned name plan).result table = do return table.modify name (← plan table) := by
  rw [result, planned]
  cases plan table <;> rfl

end Update

/-! ## Tables that operations lead to -/

namespace Table

variable (table : Table) (name : String)

theorem assign_eq (value : Value) :
    table.assign name value = do return table.modify name (← table.assignment name value) := by
  rw [assign, Update.assign_eq_planned, Update.result_planned]

theorem assignAt_eq (index : Integer) (value : Value) :
    table.assignAt name index value =
      do return table.modify name (← table.elementAssignment name index value) := by
  rw [assignAt, Update.assignAt_eq_planned, Update.result_planned]

theorem resize_eq [Memory] (size : Value) :
    table.resize name size = do return table.modify name (← table.resizing name size) := by
  rw [resize, Update.resize_eq_planned, Update.result_planned]

theorem declare_eq_error {symbol : Symbol} {error : RuntimeError} :
    table.declare name symbol = .error error ↔
      table.contains name = true ∧ error = .alreadyDeclared name := by
  rw [declare, Update.result, Update.declare, contains, Option.isSome_iff_ne_none, find?]
  by_cases fresh : table.entries.lookup name = none
  · simp [fresh]
  · simp [fresh, eq_comm]

end Table

/-! ## Steps of a run -/

namespace Run

variable [Writer]

/-- Changes the symbol of a name as planned from the table. -/
def write (name : String) (plan : Table → Except RuntimeError (Symbol → Symbol)) : Run Unit :=
  update (.planned name plan)

theorem write_ok {name : String} {plan : Table → Except RuntimeError (Symbol → Symbol)}
    {state : State} {change : Symbol → Symbol} (planned : plan state.table = .ok change) :
    write name plan state = .ok () { state with table := state.table.modify name change } := by
  simp only [write, update, Update.planned, planned]

theorem write_error {name : String} {plan : Table → Except RuntimeError (Symbol → Symbol)}
    {state : State} {error : RuntimeError} (refused : plan state.table = .error error) :
    write name plan state = .error (.failed error) state := by
  simp only [write, update, Update.planned, refused]

theorem assign_eq_write (name : String) (value : Value) :
    assign name value = write name (·.assignment name value) := by
  rw [assign, Update.assign_eq_planned, write]

theorem assignAt_eq_write (name : String) (index : Integer) (value : Value) :
    assignAt name index value = write name (·.elementAssignment name index value) := by
  rw [assignAt, Update.assignAt_eq_planned, write]

/-- The new length is asked for twice, first for the record and then to change the array. -/
theorem resize_eq [Memory] (name : String) (size : Value) :
    resize name size = (do
      let lengths ← (do lift ((← get).table.newLength name size) : Run (Nat × Nat))
      note .trace .table fun _ => s!"resize {name}: {lengths.1} -> {lengths.2}"
      write name (·.resizing name size)) := by
  funext state
  change EStateM.bind (update (.newLength name size)) _ state =
    EStateM.bind (fun state : State => lift (state.table.newLength name size) state) _ state
  simp only [EStateM.bind, Update.newLength_eq_look, update, Update.look]
  cases known : state.table.newLength name size with
  | error error => rfl
  | ok lengths =>
      have same := Update.setLength_eq_planned known
      change update (.setLength name lengths.1 lengths.2) { state with journal := _ } =
        update (.planned name (·.resizing name size)) { state with journal := _ }
      simp only [update]
      rw [same]

/-- An operation whose checks come first is a step to the table that it leads to, or fails and
changes nothing. -/
theorem update_eq {operation : Update Unit} (checks : operation.ChecksFirst) (state : State) :
    update operation state =
      match operation.result state.table with
      | .ok table => .ok () { state with table }
      | .error error => .error (.failed error) state := by
  simp only [update, Update.result]
  cases done : operation state.table with
  | ok a after => rfl
  | error error after =>
      obtain rfl := checks _ _ _ done
      rfl

end Run

end Pseudocode
