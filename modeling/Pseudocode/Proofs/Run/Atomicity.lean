import Pseudocode.Proofs.Run.Equivalence

/-!
# What fails changes nothing

An operation on the table looks at all that it needs before it changes anything. So where it
fails, the table is as it was (`Update.ChecksFirst`). A step of a run does what its operation does
(`Run.Performs`), and a statement that assigns or changes a length, which computes its values
first, leaves both the table and the output as they were (`Run.AllOrNothing`). A line is printed
when all its values are known, so one of them that has no value keeps the whole line from being
printed.

The other statements have blocks. What they do before they enter the first of them is a run of
its own (`Stmt.entry`), with which every statement begins (`Stmt.exec_eq_entry`). A statement
that stops there, in a condition, a bound or a value, changes nothing either.
-/

set_option autoImplicit false

namespace Pseudocode

section Steps

variable [Writer]

namespace Run

variable {α β : Type}

/-! ## Operations on the table -/

/-- A run does what an operation on the table does: it ends with the table of the operation, or
fails with its error and the table that the operation leaves then. It leaves the output alone. -/
def Performs (run : Run Unit) (operation : Update Unit) : Prop :=
  ∀ state : State, run.shows state =
    match operation state.table with
    | .ok _ table => (.ok (), table, state.output)
    | .error error table => (.error (.failed error), table, state.output)

theorem performs_update (operation : Update Unit) : (update operation).Performs operation := by
  intro state
  simp only [shows, update]
  cases operation state.table <;> rfl

theorem performs_declare (name : String) (symbol : Symbol) :
    (declare name symbol).Performs (.declare name symbol) := by
  intro state
  have shown := performs_update (.declare name symbol) state
  rw [declare]
  cases done : Update.declare name symbol state.table with
  | ok a table =>
      rw [done] at shown
      obtain ⟨journal, ran⟩ := Outcome.of_shown_ok shown
      rw [shows, bind_ok ran]
      rfl
  | error error table =>
      rw [done] at shown
      exact shows_bind_error shown

/-- The record of the two lengths stands between the checks and the change. -/
theorem performs_resize [Memory] (name : String) (size : Value) :
    (resize name size).Performs (.resize name size) := by
  obtain ⟨recorded, spec⟩ := resize_spec name size
  intro state
  rw [shows, spec, Update.resize_eq_planned]
  exact performs_update (.planned name (·.resizing name size))
    { state with journal := recorded state.table state.journal }

section Results

variable {run : Run Unit} {operation : Update Unit} {state : State}

theorem Performs.shows_ok {table : Table} (performs : run.Performs operation)
    (done : operation.result state.table = .ok table) :
    run.shows state = (.ok (), State.contents { state with table }) := by
  have shown := performs state
  rw [Update.result] at done
  cases ended : operation state.table with
  | ok a after =>
      rw [ended] at done shown
      rw [← Except.ok.inj done]
      exact shown
  | error error after =>
      rw [ended] at done
      cases done

theorem Performs.shows_error {error : RuntimeError} (performs : run.Performs operation)
    (checks : operation.ChecksFirst) (failed : operation.result state.table = .error error) :
    run.shows state = (.error (.failed error), state.contents) := by
  have shown := performs state
  rw [Update.result] at failed
  cases ended : operation state.table with
  | ok a after =>
      rw [ended] at failed
      cases failed
  | error cause after =>
      rw [ended] at failed shown
      rw [← Except.error.inj failed, State.contents, ← checks _ _ _ ended]
      exact shown

end Results

/-! ## Runs that do all or nothing -/

/-- A run that has changed neither the table nor the output if it stops. -/
def AllOrNothing (run : Run α) : Prop :=
  ∀ (state : State) (stop : Stop) (next : State), run state = .error stop next →
    next.contents = state.contents

theorem Performs.allOrNothing {run : Run Unit} {operation : Update Unit}
    (performs : run.Performs operation) (checks : operation.ChecksFirst) : run.AllOrNothing := by
  intro state stop next stopped
  have shown := performs state
  rw [shows, stopped] at shown
  cases done : operation state.table with
  | ok a table => simp [done, Outcome.shown] at shown
  | error error table =>
      obtain rfl := checks _ _ _ done
      simp only [done, Outcome.shown, Prod.mk.injEq] at shown
      exact shown.2

namespace AllOrNothing

theorem of_leaves {run : Run α} (leaves : run.Leaves State.contents) : run.AllOrNothing := by
  intro state stop next stopped
  have kept := leaves state
  rwa [after_error stopped] at kept

/-- Steps that change nothing, before one that does all or nothing. -/
theorem bind {first : Run α} {second : α → Run β} (earlier : first.Leaves State.contents)
    (later : ∀ a, (second a).AllOrNothing) : (first >>= second).AllOrNothing := by
  intro state stop next stopped
  have kept := earlier state
  cases ran : first state with
  | error cause last =>
      rw [bind_error ran] at stopped
      cases stopped
      rwa [after_error ran] at kept
  | ok a middle =>
      rw [bind_ok ran] at stopped
      rw [after_ok ran] at kept
      rw [later a middle stop next stopped, kept]

/-- To give a result afterwards cannot fail. -/
theorem returning {run : Run α} (whole : run.AllOrNothing) (b : β) :
    (do let _ ← run; return b : Run β).AllOrNothing := by
  intro state stop next stopped
  cases ran : run state with
  | error cause last =>
      rw [bind_error ran] at stopped
      cases stopped
      exact whole state stop next ran
  | ok a middle =>
      rw [bind_ok ran] at stopped
      cases stopped

theorem ite {condition : Prop} [Decidable condition] {yes no : Run α} (first : yes.AllOrNothing)
    (second : no.AllOrNothing) : (if condition then yes else no).AllOrNothing := by
  by_cases met : condition
  · rwa [if_pos met]
  · rwa [if_neg met]

end AllOrNothing

/-! ## Lines -/

/-- Where one of some values is missing, the first that is missing is the error. -/
theorem shows_evalAll_error {values : List Expr} {state : State}
    (missing : ∃ expr ∈ values, ∃ error, expr.eval state.table = .error error) :
    ∃ error, (∃ expr ∈ values, expr.eval state.table = .error error) ∧
      (evalAll values).shows state = (.error (.failed error), state.contents) := by
  induction values generalizing state with
  | nil =>
      obtain ⟨expr, member, _⟩ := missing
      cases member
  | cons first rest ih =>
      have shown := shows_eval first state
      cases computed : first.eval state.table with
      | error error =>
          rw [computed] at shown
          refine ⟨error, ⟨first, List.mem_cons_self, computed⟩, ?_⟩
          exact shows_bind_error shown
      | ok value =>
          rw [computed] at shown
          obtain ⟨journal, ran⟩ := Outcome.of_shown_ok shown
          have later : ∃ expr ∈ rest, ∃ error, expr.eval state.table = .error error := by
            obtain ⟨expr, member, error, failed⟩ := missing
            rcases List.mem_cons.1 member with rfl | inRest
            · rw [computed] at failed
              cases failed
            · exact ⟨expr, inRest, error, failed⟩
          have stopped := @ih { state with journal } later
          obtain ⟨error, ⟨expr, member, failed⟩, shown⟩ := stopped
          refine ⟨error, ⟨expr, List.mem_cons_of_mem first member, failed⟩, ?_⟩
          rw [evalAll, shows, bind_ok ran]
          exact shows_bind_error shown

/-! ## Before the first block -/

/-- The bounds of a counting loop, if it can count with its variable and between them. -/
def bounds (name : String) (first last step : Expr) : Run (Integer × Integer × Integer) := do
  let symbol ← symbol name
  if symbol.isArray then fail (.isAnArray name)
  if symbol.type ≠ .integer then fail (.invalidLoopType symbol.type)
  let first ← eval first
  let last ← eval last
  let step ← eval step
  let first ← lift first.loopBound
  let last ← lift last.loopBound
  let step ← lift step.loopBound
  note .trace .loop fun _ =>
    s!"FOR {name} from {first.text} to {last.text} step {step.text}"
  return (first, last, step)

/-- The block that a choice by value is to run, if any. -/
def chosen (scrutinee : Value) (otherwise : Option (List Stmt)) :
    List (Expr × List Stmt) → Run (Option (List Stmt))
  | [] => pure otherwise
  | (value, body) :: rest => do
    if (← eval value).same scrutinee then
      note .trace .loop fun _ => s!"CASE {scrutinee.render} matched"
      return some body
    else chosen scrutinee otherwise rest

theorem count_eq_bounds (patience : Nat) (name : String) (first last step : Expr)
    (body : Run Unit) :
    count patience name first last step body =
      (bounds name first last step >>= fun (low, high, stride) =>
        Loop.counting name high stride body patience low) := by
  unfold count bounds
  rw [bind_assoc]
  apply bind_congr
  intro symbol
  by_cases isArray : symbol.isArray = true
  · simp only [if_pos isArray]
    rfl
  · by_cases integer : symbol.type ≠ .integer
    · simp only [if_neg isArray, if_pos integer]
      rfl
    · simp only [if_neg isArray, if_neg integer]
      -- The six steps and the record, one after the other.
      symm
      iterate 7 refine (bind_assoc _ _ _).trans (bind_congr fun _ => ?_)
      exact pure_bind _ _

theorem bounds_leaves (name : String) (first last step : Expr) :
    (bounds name first last step).Leaves State.contents := by
  have unrecorded := State.contents_unrecorded
  have composable := Leaves.composable unrecorded
  unfold bounds
  apply composable.bind (.symbol unrecorded name)
  intro symbol
  by_cases isArray : symbol.isArray = true
  · simp only [if_pos isArray]
    exact fun _ => rfl
  · by_cases integer : symbol.type ≠ .integer
    · simp only [if_neg isArray, if_pos integer]
      exact fun _ => rfl
    · simp only [if_neg isArray, if_neg integer]
      refine composable.bind (.eval unrecorded first) fun first => ?_
      refine composable.bind (.eval unrecorded last) fun last => ?_
      refine composable.bind (.eval unrecorded step) fun step => ?_
      refine composable.bind (composable.lift first.loopBound) fun low => ?_
      refine composable.bind (composable.lift last.loopBound) fun high => ?_
      refine composable.bind (composable.lift step.loopBound) fun stride => ?_
      exact composable.bind (composable.note _ _ _) fun _ => composable.pure _

theorem chosen_leaves (scrutinee : Value) (otherwise : Option (List Stmt))
    (cases : List (Expr × List Stmt)) :
    (chosen scrutinee otherwise cases).Leaves State.contents := by
  have unrecorded := State.contents_unrecorded
  have composable := Leaves.composable unrecorded
  induction cases with
  | nil => exact composable.pure otherwise
  | cons arm rest ih =>
      rw [chosen]
      apply composable.bind (.eval unrecorded arm.1)
      intro value
      by_cases same : value.same scrutinee = true
      · rw [if_pos same]
        exact composable.bind (composable.note _ _ _) fun _ => composable.pure _
      · rwa [if_neg same]

/-- Values and positions are computed before they are written. -/
theorem assignExpr_allOrNothing (name : String) (value : Expr) :
    (assignExpr name value).AllOrNothing := by
  have unrecorded := State.contents_unrecorded
  have composable := Leaves.composable unrecorded
  apply AllOrNothing.bind (composable.acceptable (.symbol unrecorded name) (.eval unrecorded value))
  intro accepted
  exact (performs_update _).allOrNothing (Update.assign_checksFirst name accepted)

theorem assignExprAt_allOrNothing (name : String) (position value : Expr) :
    (assignExprAt name position value).AllOrNothing := by
  have unrecorded := State.contents_unrecorded
  have composable := Leaves.composable unrecorded
  apply AllOrNothing.bind (composable.acceptable (.symbol unrecorded name) (.eval unrecorded value))
  intro accepted
  apply AllOrNothing.bind (composable.index (.eval unrecorded position))
  intro index
  exact (performs_update _).allOrNothing (Update.assignAt_checksFirst name index accepted)

theorem resizeTo_allOrNothing [Memory] (name : String) (size : Expr) :
    (resizeTo name size).AllOrNothing := by
  have unrecorded := State.contents_unrecorded
  apply AllOrNothing.bind (.symbol unrecorded name)
  intro _
  apply AllOrNothing.bind (.eval unrecorded size)
  intro value
  exact (performs_resize name value).allOrNothing (Update.resize_checksFirst name value)

end Run

open Run

variable [Memory]

/-- A block that a statement enters, and what the statement does after it. -/
structure Entry where
  block : List Stmt
  onward : Run Unit

/-- Runs the block that was entered, if any, and goes on. -/
def Entry.run (patience : Nat) : Option Entry → Run Unit
  | none => pure ()
  | some entry => do
    compound entry.block.length (execAll patience entry.block)
    entry.onward

/-- A block after which nothing is left to do. -/
def Entry.last (block : List Stmt) : Entry := ⟨block, pure ()⟩

/-- What a statement does before it enters a block. The result is the block that it enters; a
statement without blocks does all that it does here. The given passes are those that a loop
has left after its first one. -/
def Stmt.entry (passes : Nat) (stmt : Stmt) : Run (Option Entry) := do
  note .trace .statement fun _ => s!"execute {stmt.category}"
  match stmt with
  | .assign name value => do
    assignExpr name value
    return none
  | .assignAt name position value => do
    assignExprAt name position value
    return none
  | .print values => do
    printAll values
    return none
  | .branch condition yes no => do
    return if ← test condition then some (.last yes) else no.map Entry.last
  | .whileLoop condition body => do
    let pass := compound body.length (execAll (passes + 1) body)
    let onward := Loop.whileHolds (test condition) pass passes
    return if ← test condition then some ⟨body, onward⟩ else none
  | .forLoop name first last step body => do
    let (low, high, stride) ← bounds name first last step
    if low.val ≤ high.val then
      Run.assign name (.integer low)
      let pass := compound body.length (execAll (passes + 1) body)
      let onward := match low.add? stride with
        | some next => Loop.counting name high stride pass passes next
        | none => pure ()
      return some ⟨body, onward⟩
    else return none
  | .repeatLoop condition body => do
    let pass := compound body.length (execAll (passes + 1) body)
    let onward := do
      if ← test condition then pure () else Loop.untilHolds (test condition) pass passes
    return some ⟨body, onward⟩
  | .switch scrutinee cases otherwise => do
    return (← chosen (← eval scrutinee) otherwise cases).map Entry.last
  | .resize name size => do
    resizeTo name size
    return none

theorem Entry.run_last (patience : Nat) (block : List Stmt) :
    Entry.run patience (some (.last block)) = compound block.length (execAll patience block) := by
  simp only [Entry.run, Entry.last, bind_pure_unit]

theorem execCases_eq_chosen (patience : Nat) (scrutinee : Value) (otherwise : Option (List Stmt))
    (cases : List (Expr × List Stmt)) :
    execCases patience scrutinee (Entry.run patience (otherwise.map Entry.last)) cases =
      (chosen scrutinee otherwise cases >>= fun block =>
        Entry.run patience (block.map Entry.last)) := by
  induction cases with
  | nil => rw [execCases, chosen, pure_bind]
  | cons arm rest ih =>
      rw [execCases, chosen, bind_assoc]
      apply bind_congr
      intro value
      by_cases same : value.same scrutinee = true
      · simp only [if_pos same, bind_assoc, pure_bind, Option.map_some, Entry.run_last]
      · simp only [if_neg same, ih]

/-- **Every statement begins with what it does before it enters a block.** -/
theorem Stmt.exec_eq_entry (passes : Nat) (stmt : Stmt) :
    stmt.exec (passes + 1) = stmt.entry passes >>= Entry.run (passes + 1) := by
  unfold Stmt.entry
  rw [bind_assoc]
  cases stmt with
  | assign | assignAt | print | resize =>
      rw [Stmt.exec]
      apply bind_congr
      intro _
      simp only [bind_assoc, pure_bind, Entry.run, bind_pure_unit]
  | branch condition yes no =>
      cases no with
      | none =>
          rw [Stmt.exec]
          apply bind_congr
          intro _
          simp only [bind_assoc, pure_bind]
          apply bind_congr
          intro holds
          cases holds
          · rfl
          · exact (Entry.run_last _ yes).symm
      | some no =>
          rw [Stmt.exec]
          apply bind_congr
          intro _
          simp only [bind_assoc, pure_bind]
          apply bind_congr
          intro holds
          cases holds
          · exact (Entry.run_last _ no).symm
          · exact (Entry.run_last _ yes).symm
  | whileLoop condition body =>
      rw [Stmt.exec, Loop.whileHolds_succ]
      apply bind_congr
      intro _
      simp only [bind_assoc, pure_bind]
      apply bind_congr
      intro holds
      cases holds <;> rfl
  | forLoop name first last step body =>
      rw [Stmt.exec, count_eq_bounds]
      apply bind_congr
      intro _
      rw [bind_assoc]
      apply bind_congr
      rintro ⟨low, high, stride⟩
      dsimp only
      rw [Loop.counting_succ]
      by_cases inside : low.val ≤ high.val
      · simp only [if_pos inside, bind_assoc, pure_bind]
        rfl
      · simp only [if_neg inside, pure_bind]
        rfl
  | repeatLoop condition body =>
      rw [Stmt.exec, Loop.untilHolds_succ]
      rfl
  | switch scrutinee cases otherwise =>
      have chooses (value : Value) :=
        execCases_eq_chosen (passes + 1) value otherwise cases
      cases otherwise with
      | none =>
          rw [Stmt.exec]
          apply bind_congr
          intro _
          simp only [bind_assoc, pure_bind, ← chooses]
          rfl
      | some otherwise =>
          rw [Stmt.exec]
          apply bind_congr
          intro _
          simp only [bind_assoc, pure_bind, ← chooses]
          simp only [Option.map_some, Entry.run_last]

/-! ## Statements that stop before a block -/

namespace Stmt

/-- Only printing can fail with something done. -/
theorem entry_allOrNothing (passes : Nat) {stmt : Stmt} (silent : stmt.isPrint = false) :
    (stmt.entry passes).AllOrNothing := by
  have unrecorded := State.contents_unrecorded
  have composable := Leaves.composable unrecorded
  unfold entry
  apply AllOrNothing.bind (composable.note _ _ _)
  intro _
  cases stmt with
  | assign name value => exact (assignExpr_allOrNothing name value).returning none
  | assignAt name position value =>
      exact (assignExprAt_allOrNothing name position value).returning none
  | print values => cases silent
  | branch condition yes no =>
      apply AllOrNothing.of_leaves
      exact composable.bind (composable.test (.eval unrecorded condition)) fun _ =>
        composable.pure _
  | whileLoop condition body =>
      apply AllOrNothing.of_leaves
      exact composable.bind (composable.test (.eval unrecorded condition)) fun _ =>
        composable.pure _
  | forLoop name first last step body =>
      apply AllOrNothing.bind (bounds_leaves name first last step)
      rintro ⟨low, high, stride⟩
      apply AllOrNothing.ite _ (.of_leaves (composable.pure none))
      have checks := Update.assign_checksFirst name (.integer low)
      exact ((performs_update _).allOrNothing checks).returning _
  | repeatLoop condition body => exact .of_leaves (composable.pure _)
  | switch scrutinee cases otherwise =>
      apply AllOrNothing.of_leaves
      apply composable.bind (.eval unrecorded scrutinee)
      intro value
      exact composable.bind (chosen_leaves value otherwise cases) fun _ => composable.pure _
  | resize name size => exact (resizeTo_allOrNothing name size).returning none

/-- No line is printed if one of its values is missing. -/
theorem shows_print_error (patience : Nat) {values : List Expr} {state : State}
    (missing : ∃ expr ∈ values, ∃ error, expr.eval state.table = .error error) :
    ∃ error, (∃ expr ∈ values, expr.eval state.table = .error error) ∧
      ((Stmt.print values).exec patience).shows state =
        (.error (.failed error), state.contents) := by
  let noted : State := { state with
    journal := state.journal.add .trace .statement fun _ => s!"execute {(print values).category}" }
  have missing : ∃ expr ∈ values, ∃ error, expr.eval noted.table = .error error := missing
  obtain ⟨error, found, shown⟩ := shows_evalAll_error missing
  refine ⟨error, found, ?_⟩
  rw [Stmt.exec]
  have stopped : (printAll values).shows noted = (.error (.failed error), noted.contents) :=
    shows_bind_error shown
  exact stopped

/-- **What fails changes nothing.** An operation that is refused leaves the table as it was, for
whatever reason it is refused, and the steps of a run do what the operations do. An assignment or a
change of length that fails leaves the table and the output as they were, and so does a line with a
value that is missing. Every other statement begins with what it does before it enters a block, and
if it stops there, it has changed neither the table nor the output. -/
theorem failure_changes_nothing (patience passes : Nat) :
    ((∀ name symbol, (Update.declare name symbol).ChecksFirst ∧
        (Run.declare name symbol).Performs (.declare name symbol)) ∧
      (∀ name value, (Update.assign name value).ChecksFirst ∧
        (Run.assign name value).Performs (.assign name value)) ∧
      (∀ name index value, (Update.assignAt name index value).ChecksFirst ∧
        (Run.assignAt name index value).Performs (.assignAt name index value)) ∧
      ∀ name size, (Update.resize name size).ChecksFirst ∧
        (Run.resize name size).Performs (.resize name size)) ∧
    ((∀ name value, ((Stmt.assign name value).exec patience).AllOrNothing) ∧
      (∀ name position value,
        ((Stmt.assignAt name position value).exec patience).AllOrNothing) ∧
      ∀ name size, ((Stmt.resize name size).exec patience).AllOrNothing) ∧
    (∀ (values : List Expr) (state : State),
      (∃ expr ∈ values, ∃ error, expr.eval state.table = .error error) →
        ∃ error, (∃ expr ∈ values, expr.eval state.table = .error error) ∧
          ((Stmt.print values).exec patience).shows state =
            (.error (.failed error), state.contents)) ∧
    ∀ stmt : Stmt, stmt.exec (passes + 1) = (stmt.entry passes >>= Entry.run (passes + 1)) ∧
      (stmt.isPrint = false → ∀ state stop next, stmt.entry passes state = .error stop next →
        stmt.exec (passes + 1) state = .error stop next ∧ next.contents = state.contents) := by
  have note := (Leaves.composable State.contents_unrecorded).note
  refine ⟨⟨?_, ?_, ?_, ?_⟩, ⟨?_, ?_, ?_⟩, ?_, ?_⟩
  · exact fun name symbol => ⟨Update.declare_checksFirst name symbol, performs_declare name symbol⟩
  · exact fun name value => ⟨Update.assign_checksFirst name value, performs_update _⟩
  · exact fun name index value =>
      ⟨Update.assignAt_checksFirst name index value, performs_update _⟩
  · exact fun name size => ⟨Update.resize_checksFirst name size, performs_resize name size⟩
  · intro name value
    rw [Stmt.exec]
    exact .bind (note _ _ _) fun _ => assignExpr_allOrNothing name value
  · intro name position value
    rw [Stmt.exec]
    exact .bind (note _ _ _) fun _ => assignExprAt_allOrNothing name position value
  · intro name size
    rw [Stmt.exec]
    exact .bind (note _ _ _) fun _ => resizeTo_allOrNothing name size
  · intro values state missing
    exact shows_print_error patience missing
  · intro stmt
    refine ⟨exec_eq_entry passes stmt, fun silent state stop next stopped => ?_⟩
    rw [exec_eq_entry, bind_error stopped]
    exact ⟨rfl, entry_allOrNothing passes silent state stop next stopped⟩

end Stmt

end Steps

namespace Stmt

/-- A constant, a variable without a value and an array. -/
def guarded : Table :=
  Table.empty.after [.declareConstant "k" (.integer .one), .declareVariable "i" .integer,
    .declareArray "a" .integer 2 .usual]

/-- A loop cannot count with a constant. -/
def countingConstant : Stmt :=
  .forLoop "k" (.name "k") (.name "k") (.name "k") [.print [.name "k"]]

/-- The value of the second case is missing. -/
def choosingMissing : Stmt :=
  .switch (.name "k") [(.literal (.integer .zero), []), (.name "i", [])] none

/-- A length that there is no room for, a line with a value missing, a loop that cannot count
and a choice that cannot be made. -/
theorem guarded_unchanged :
    let state : State := ⟨guarded, .unbounded, .off⟩
    let huge : Value := .integer ⟨1000000000000000000, by decide, by decide⟩
    (Run.resize "a" huge).shows state =
        (.error (.failed .invalidArraySize), state.table, state.output) ∧
      (∃ error, ((Stmt.print [.name "k", .name "i"]).exec 3).shows state =
        (.error (.failed error), state.contents)) ∧
      (∃ next, countingConstant.exec 3 state = .error (.failed (.constantMutation "k")) next ∧
        next.contents = state.contents) ∧
      ∃ next, choosingMissing.exec 3 state = .error (.failed (.unassigned "i")) next ∧
        next.contents = state.contents := by
  intro state huge
  obtain ⟨⟨-, -, -, resizes⟩, -, prints, others⟩ := failure_changes_nothing 3 2
  refine ⟨?_, ?_, ?_, ?_⟩
  · have refused : Update.resize "a" huge state.table = .error .invalidArraySize state.table := by
      rfl
    obtain ⟨-, performs⟩ := resizes "a" huge
    have shown := performs state
    rw [shown, refused]
  · have missing : (Expr.name "i").eval state.table = .error (.unassigned "i") := by rfl
    obtain ⟨error, -, shown⟩ := prints [.name "k", .name "i"] state
      ⟨.name "i", by simp, .unassigned "i", missing⟩
    exact ⟨error, shown⟩
  · have stopped : countingConstant.entry 2 state =
        .error (.failed (.constantMutation "k")) state := by rfl
    exact ⟨state, (others countingConstant).2 rfl state _ state stopped⟩
  · have stopped : choosingMissing.entry 2 state =
        .error (.failed (.unassigned "i")) state := by rfl
    exact ⟨state, (others choosingMissing).2 rfl state _ state stopped⟩

end Stmt

end Pseudocode
