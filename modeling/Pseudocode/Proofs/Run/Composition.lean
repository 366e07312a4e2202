import Pseudocode.Proofs.Run.Statement

/-!
# Properties of runs that pass from steps to statements

A statement is run in steps of a few kinds: it computes values, looks up the symbol
of a name, writes to it, and prints. Many properties of runs hold of steps in a row
as soon as they hold of each of them (`Run.Composable`). Such a property holds of a
statement if it holds of the steps that the statements inside it take by themselves
(`Stmt.exec_composed`), and of a program if it holds of all steps
(`Program.exec_composed`).

What stands inside a statement is listed by `Stmt.parts`. A property that is known
of some steps only can then be used for those statements in which no others occur.
-/

set_option autoImplicit false

namespace Pseudocode

/-! ## What a statement contains -/

mutual

/-- All the statements inside a statement. -/
def Stmt.inner : Stmt → List Stmt
  | .assign _ _ => []
  | .assignAt _ _ _ => []
  | .print _ => []
  | .branch _ yes none => partsOfAll yes
  | .branch _ yes (some no) => partsOfAll yes ++ partsOfAll no
  | .whileLoop _ body => partsOfAll body
  | .forLoop _ _ _ _ body => partsOfAll body
  | .repeatLoop _ body => partsOfAll body
  | .switch _ cases none => partsOfCases cases
  | .switch _ cases (some otherwise) => partsOfCases cases ++ partsOfAll otherwise
  | .resize _ _ => []

/-- The statements of a block and all those inside them. -/
def partsOfAll : List Stmt → List Stmt
  | [] => []
  | stmt :: rest => stmt :: (stmt.inner ++ partsOfAll rest)

/-- The statements in the cases of a choice and all those inside them. -/
def partsOfCases : List (Expr × List Stmt) → List Stmt
  | [] => []
  | (_, body) :: rest => partsOfAll body ++ partsOfCases rest

end

namespace Stmt

/-- A statement and all those inside it. -/
def parts (stmt : Stmt) : List Stmt := stmt :: stmt.inner

/-- The expressions of a statement itself, without those of the statements inside. -/
def exprs : Stmt → List Expr
  | .assign _ value => [value]
  | .assignAt _ index value => [index, value]
  | .print values => values
  | .branch condition _ _ => [condition]
  | .whileLoop condition _ => [condition]
  | .forLoop _ first last step _ => [first, last, step]
  | .repeatLoop condition _ => [condition]
  | .switch scrutinee cases _ => scrutinee :: cases.map Prod.fst
  | .resize _ size => [size]

theorem parts_subset_of_mem {stmt : Stmt} {block : List Stmt} (member : stmt ∈ block) :
    stmt.parts ⊆ partsOfAll block := by
  induction block with
  | nil => cases member
  | cons first rest ih =>
      rw [partsOfAll, ← List.cons_append]
      rcases List.mem_cons.1 member with rfl | later
      · exact List.subset_append_left _ _
      · exact List.Subset.trans (ih later) (List.subset_append_right _ _)

theorem parts_subset_of_mem_cases {stmt : Stmt} {cases : List (Expr × List Stmt)}
    {arm : Expr × List Stmt} (isArm : arm ∈ cases) (member : stmt ∈ arm.2) :
    stmt.parts ⊆ partsOfCases cases := by
  induction cases with
  | nil => cases isArm
  | cons first rest ih =>
      rw [partsOfCases]
      rcases List.mem_cons.1 isArm with rfl | later
      · exact List.Subset.trans (parts_subset_of_mem member) (List.subset_append_left _ _)
      · exact List.Subset.trans (ih later) (List.subset_append_right _ _)

end Stmt

/-! ## Single steps

What a step does to the table and the output, and what it gives, does not depend on the
journal. What it records is a function of the table and the journal. -/

variable [Writer]

namespace Run

section Sequences

variable {α β : Type} {first : Run α} {second : α → Run β} {state next : State}

theorem bind_ok {a : α} (ran : first state = .ok a next) :
    (first >>= second) state = second a next := by
  change EStateM.bind first second state = _
  rw [EStateM.bind, ran]

theorem bind_error {stop : Stop} (ran : first state = .error stop next) :
    (first >>= second) state = .error stop next := by
  change EStateM.bind first second state = _
  rw [EStateM.bind, ran]

end Sequences

theorem noteVisits_spec (expr : Expr) :
    ∃ recorded : Table → Journal → Journal, ∀ table output journal,
      noteVisits expr ⟨table, output, journal⟩ =
        .ok () ⟨table, output, recorded table journal⟩ := by
  refine ⟨fun table journal => if journal.keeps .trace then
    (expr.visited table).foldl
      (fun journal visited =>
        journal.add .trace .expression fun _ => s!"eval {visited.category}") journal
    else journal, fun table output journal => ?_⟩
  by_cases keeps : journal.keeps .trace = true
  · simp only [noteVisits, if_pos keeps]
  · simp only [noteVisits, if_neg keeps]

theorem eval_spec (expr : Expr) :
    ∃ recorded : Table → Journal → Journal, ∀ table output journal,
      eval expr ⟨table, output, journal⟩ =
        lift (expr.eval table) ⟨table, output, recorded table journal⟩ := by
  obtain ⟨recorded, notes⟩ := noteVisits_spec expr
  refine ⟨recorded, fun table output journal => ?_⟩
  change EStateM.bind (noteVisits expr) _ _ = _
  rw [EStateM.bind, notes]
  rfl

/-- The length is asked for twice, with the same answer. -/
theorem resize_spec [Memory] (name : String) (size : Value) :
    ∃ recorded : Table → Journal → Journal, ∀ table output journal,
      resize name size ⟨table, output, journal⟩ =
        write name (fun table => table.resizing name size)
          ⟨table, output, recorded table journal⟩ := by
  refine ⟨fun table journal => match table.newLength name size with
    | .ok (old, new) => journal.add .trace .table fun _ => s!"resize {name}: {old} -> {new}"
    | .error _ => journal, fun table output journal => ?_⟩
  have step : resize name size ⟨table, output, journal⟩ =
      (lift (table.newLength name size) >>= fun lengths => do
        note .trace .table fun _ => s!"resize {name}: {lengths.1} -> {lengths.2}"
        write name fun table => table.resizing name size) ⟨table, output, journal⟩ := by
    rw [resize_eq]
    rfl
  rw [step]
  cases asked : table.newLength name size with
  | ok lengths =>
      simp only [asked]
      rfl
  | error error =>
      have refused : table.resizing name size = .error error := by
        rw [Table.resizing, asked]
        rfl
      rw [write_error refused]
      simp only [asked]
      rfl

section Requests

variable {request : Writer.Stream → Except String Unit × Writer.Stream} {state : State}
  {output : Writer.Stream}

theorem ask_ok (granted : request state.output = (.ok (), output)) :
    ask request state = .ok () { state with output } := by
  simp only [ask, granted]

theorem ask_error {reason : String} (refused : request state.output = (.error reason, output)) :
    ask request state = .error (.failed (.output reason)) { state with output } := by
  simp only [ask, refused]

end Requests

theorem declare_spec (name : String) (symbol : Symbol) :
    ∃ recorded : Journal → Journal, ∀ table output journal,
      declare name symbol ⟨table, output, journal⟩ =
        match table.declare name symbol with
        | .ok after => .ok () ⟨after, output, recorded journal⟩
        | .error error => .error (.failed error) ⟨table, output, journal⟩ := by
  refine ⟨fun journal => journal.add .trace .table fun _ => s!"declare {name}: {symbol.typeText}",
    fun table output journal => ?_⟩
  have step := update_eq (Update.declare_checksFirst name symbol) ⟨table, output, journal⟩
  rw [← Table.declare] at step
  rw [declare]
  cases declared : table.declare name symbol with
  | ok after =>
      simp only [declared] at step
      exact bind_ok step
  | error error =>
      simp only [declared] at step
      exact bind_error step

end Run

/-! ## Loops as sequences -/

namespace Loop

variable (test : Run Bool) (body : Run Unit)

theorem whileHolds_zero : whileHolds test body 0 = (throw .unfinished : Run Unit) := rfl

theorem whileHolds_succ (passes : Nat) :
    whileHolds test body (passes + 1) = (test >>= fun holds =>
      if holds then body >>= fun _ => whileHolds test body passes else pure () : Run Unit) := by
  funext state
  change _ = EStateM.bind test _ state
  simp only [whileHolds, EStateM.bind]
  cases test state with
  | error stop next => rfl
  | ok holds next =>
      cases holds with
      | false => rfl
      | true =>
          change _ = EStateM.bind body _ next
          simp only [EStateM.bind]
          cases body next <;> rfl

theorem untilHolds_zero : untilHolds test body 0 = (throw .unfinished : Run Unit) := rfl

theorem untilHolds_succ (passes : Nat) :
    untilHolds test body (passes + 1) = (body >>= fun _ => test >>= fun holds =>
      if holds then pure () else untilHolds test body passes : Run Unit) := by
  funext state
  change _ = EStateM.bind body _ state
  simp only [untilHolds, EStateM.bind]
  cases body state with
  | error stop next => rfl
  | ok _ next =>
      change _ = EStateM.bind test _ next
      simp only [EStateM.bind]
      cases test next with
      | error stop last => rfl
      | ok holds last => cases holds <;> rfl

variable (name : String) (last step : Integer)

theorem counting_zero (counter : Integer) :
    counting name last step body 0 counter = (throw .unfinished : Run Unit) := rfl

theorem counting_succ (passes : Nat) (counter : Integer) :
    counting name last step body (passes + 1) counter =
      (if counter.val ≤ last.val then
        Run.assign name (.integer counter) >>= fun _ => body >>= fun _ =>
          match counter.add? step with
          | some next => counting name last step body passes next
          | none => pure ()
      else pure () : Run Unit) := by
  funext state
  by_cases inside : counter.val ≤ last.val
  · simp only [counting, if_pos inside]
    change _ = EStateM.bind (Run.assign name (.integer counter)) _ state
    simp only [EStateM.bind]
    cases Run.assign name (.integer counter) state with
    | error stop next => rfl
    | ok _ next =>
        change _ = EStateM.bind body _ next
        simp only [EStateM.bind]
        cases body next with
        | error stop after => rfl
        | ok _ after => cases counter.add? step <;> rfl
  · simp only [counting, if_neg inside]
    rfl

end Loop

/-! ## Composable properties -/

namespace Run

/-- A property of runs that holds of steps in a row if it holds of each of them, and of
every step that does no more than give a result, stop, or make a record. -/
structure Composable (holds : ∀ {α : Type}, Run α → Prop) : Prop where
  pure : ∀ {α : Type} (a : α), holds (Pure.pure a : Run α)
  stop : ∀ {α : Type} (stop : Stop), holds (throw stop : Run α)
  bind : ∀ {α β : Type} {first : Run α} {second : α → Run β},
    holds first → (∀ a, holds (second a)) → holds (first >>= second)
  note : ∀ level origin message, holds (Run.note level origin message)

namespace Composable

variable {holds : ∀ {α : Type}, Run α → Prop} {α : Type}

theorem ite {condition : Prop} [Decidable condition] {first second : Run α}
    (yes : holds first) (no : holds second) : holds (if condition then first else second) := by
  by_cases met : condition
  · rwa [if_pos met]
  · rwa [if_neg met]

variable (composable : Composable holds)

include composable

theorem lift (computed : Except RuntimeError α) : holds (Run.lift computed) := by
  cases computed with
  | ok a => exact composable.pure a
  | error error => exact composable.stop (.failed error)

/-! ### Reading -/

theorem test {condition : Expr} (value : holds (Run.eval condition)) :
    holds (Run.test condition) :=
  composable.bind value fun _ => composable.lift _

theorem index {position : Expr} (value : holds (Run.eval position)) :
    holds (Run.index position) :=
  composable.bind value fun _ => composable.lift _

theorem acceptable {name : String} {expr : Expr} (looks : holds (Run.symbol name))
    (value : holds (Run.eval expr)) : holds (Run.acceptable name expr) :=
  composable.bind looks fun _ => composable.bind value fun _ => composable.lift _

theorem evalAll {exprs : List Expr} (values : ∀ expr ∈ exprs, holds (Run.eval expr)) :
    holds (Run.evalAll exprs) := by
  induction exprs with
  | nil => exact composable.pure []
  | cons expr rest ih =>
      obtain ⟨first, others⟩ := List.forall_mem_cons.1 values
      refine composable.bind first fun value => ?_
      exact composable.bind (ih others) fun values => composable.pure (value :: values)

/-! ### Loops -/

section Loops

variable {condition : Run Bool} {body : Run Unit}

theorem whileHolds (tests : holds condition) (runs : holds body) (passes : Nat) :
    holds (Loop.whileHolds condition body passes : Run Unit) := by
  induction passes with
  | zero =>
      rw [Loop.whileHolds_zero]
      exact composable.stop .unfinished
  | succ passes ih =>
      rw [Loop.whileHolds_succ]
      refine composable.bind tests fun _ => ite ?_ (composable.pure ())
      exact composable.bind runs fun _ => ih

theorem untilHolds (tests : holds condition) (runs : holds body) (passes : Nat) :
    holds (Loop.untilHolds condition body passes : Run Unit) := by
  induction passes with
  | zero =>
      rw [Loop.untilHolds_zero]
      exact composable.stop .unfinished
  | succ passes ih =>
      rw [Loop.untilHolds_succ]
      refine composable.bind runs fun _ => composable.bind tests fun _ => ?_
      exact ite (composable.pure ()) ih

theorem counting {name : String} (last step : Integer)
    (writes : ∀ counter, holds (Run.assign name (.integer counter))) (runs : holds body)
    (passes : Nat) (counter : Integer) :
    holds (Loop.counting name last step body passes counter : Run Unit) := by
  induction passes generalizing counter with
  | zero =>
      rw [Loop.counting_zero]
      exact composable.stop .unfinished
  | succ passes ih =>
      rw [Loop.counting_succ]
      refine ite ?_ (composable.pure ())
      refine composable.bind (writes counter) fun _ => composable.bind runs fun _ => ?_
      cases counter.add? step with
      | none => exact composable.pure ()
      | some next => exact ih next

/-- The bounds of a counting loop are computed once, before its passes. -/
theorem count {patience : Nat} {name : String} {first last step : Expr}
    (looks : holds (Run.symbol name))
    (values : ∀ expr ∈ [first, last, step], holds (Run.eval expr))
    (writes : ∀ counter, holds (Run.assign name (.integer counter))) (runs : holds body) :
    holds (Run.count patience name first last step body) := by
  -- What comes after a check of the variable also follows its error, in every branch.
  have fails : ∀ (error : RuntimeError) (next : Unit → Run Unit), (∀ a, holds (next a)) →
      holds (Run.fail error >>= next) :=
    fun error next goes => composable.bind (composable.stop (.failed error)) goes
  have counts : ∀ first last step : Value, holds (do
      let first ← Run.lift first.loopBound
      let last ← Run.lift last.loopBound
      let step ← Run.lift step.loopBound
      Run.note .trace .loop fun _ =>
        s!"FOR {name} from {first.text} to {last.text} step {step.text}"
      Loop.counting name last step body patience first : Run Unit) := by
    intro first last step
    refine composable.bind (composable.lift _) fun first => ?_
    refine composable.bind (composable.lift _) fun last => ?_
    refine composable.bind (composable.lift _) fun step => ?_
    exact composable.bind (composable.note _ _ _) fun _ =>
      composable.counting last step writes runs patience first
  have bounds : holds (do
      let first ← Run.eval first
      let last ← Run.eval last
      let step ← Run.eval step
      let first ← Run.lift first.loopBound
      let last ← Run.lift last.loopBound
      let step ← Run.lift step.loopBound
      Run.note .trace .loop fun _ =>
        s!"FOR {name} from {first.text} to {last.text} step {step.text}"
      Loop.counting name last step body patience first : Run Unit) := by
    refine composable.bind (values first (by simp)) fun first => ?_
    refine composable.bind (values last (by simp)) fun last => ?_
    exact composable.bind (values step (by simp)) fun step => counts first last step
  refine composable.bind looks fun symbol => ite ?_ (ite ?_ bounds)
  · exact fails _ _ fun _ => ite (fails _ _ fun _ => bounds) bounds
  · exact fails _ _ fun _ => bounds

end Loops

end Composable

end Run

/-! ## Statements -/

variable [Memory]

/-- A property holds of the steps that a statement takes by itself, without those of the
statements inside it. -/
structure Stmt.Admits (holds : ∀ {α : Type}, Run α → Prop) (stmt : Stmt) : Prop where
  reads : ∀ expr ∈ stmt.exprs, holds (Run.eval expr)
  acts :
    match stmt with
    | .assign name _ => holds (Run.symbol name) ∧ ∀ value, holds (Run.assign name value)
    | .assignAt name _ _ =>
      holds (Run.symbol name) ∧ ∀ index value, holds (Run.assignAt name index value)
    | .forLoop name _ _ _ _ =>
      holds (Run.symbol name) ∧ ∀ counter, holds (Run.assign name (.integer counter))
    | .resize name _ => holds (Run.symbol name) ∧ ∀ size, holds (Run.resize name size)
    | .print _ => ∀ line, holds (Run.print line)
    | _ => True

section Statements

variable {holds : ∀ {α : Type}, Run α → Prop} (composable : Run.Composable holds) {patience : Nat}

include composable

open Run.Composable (ite)

theorem execAll_composed {block : List Stmt}
    (runs : ∀ stmt ∈ block, holds (stmt.exec patience)) : holds (execAll patience block) := by
  induction block with
  | nil =>
      rw [execAll]
      exact composable.pure ()
  | cons stmt rest ih =>
      obtain ⟨first, others⟩ := List.forall_mem_cons.1 runs
      rw [execAll]
      exact composable.bind first fun _ => ih others

theorem block_composed {block : List Stmt} (runs : ∀ stmt ∈ block, holds (stmt.exec patience)) :
    holds (Run.compound block.length (execAll patience block)) :=
  composable.bind (composable.note _ _ _) fun _ => execAll_composed composable runs

theorem execCases_composed {scrutinee : Value} {otherwise : Run Unit}
    {cases : List (Expr × List Stmt)} (values : ∀ arm ∈ cases, holds (Run.eval arm.1))
    (runs : ∀ arm ∈ cases, ∀ stmt ∈ arm.2, holds (stmt.exec patience)) (falls : holds otherwise) :
    holds (execCases patience scrutinee otherwise cases) := by
  induction cases with
  | nil =>
      rw [execCases]
      exact falls
  | cons arm rest ih =>
      obtain ⟨value, others⟩ := List.forall_mem_cons.1 values
      obtain ⟨body, bodies⟩ := List.forall_mem_cons.1 runs
      rw [execCases]
      refine composable.bind value fun found => ite ?_ (ih others bodies)
      exact composable.bind (composable.note _ _ _) fun _ => block_composed composable body

/-- **What holds of the steps inside a statement holds of the statement.** -/
theorem Stmt.exec_composed {stmt : Stmt} (admits : ∀ part ∈ stmt.parts, part.Admits holds) :
    holds (stmt.exec patience) := by
  -- What is known of all parts of a block is known of each of its statements.
  have below : ∀ {block : List Stmt}, (∀ part ∈ partsOfAll block, part.Admits holds) →
      ∀ stmt ∈ block, ∀ part ∈ stmt.parts, part.Admits holds :=
    fun inside stmt member part isPart => inside part (parts_subset_of_mem member isPart)
  induction stmt using Stmt.induction with
  | assign name value =>
      obtain ⟨reads, looks, writes⟩ := admits _ List.mem_cons_self
      have value := reads value List.mem_cons_self
      rw [Stmt.exec]
      refine composable.bind (composable.note _ _ _) fun _ => ?_
      exact composable.bind (composable.acceptable looks value) fun found => writes found
  | assignAt name position value =>
      obtain ⟨reads, looks, writes⟩ := admits _ List.mem_cons_self
      obtain ⟨position, others⟩ := List.forall_mem_cons.1 reads
      have value := others value List.mem_cons_self
      rw [Stmt.exec]
      refine composable.bind (composable.note _ _ _) fun _ => ?_
      refine composable.bind (composable.acceptable looks value) fun found => ?_
      exact composable.bind (composable.index position) fun index => writes index found
  | print values =>
      obtain ⟨reads, prints⟩ := admits _ List.mem_cons_self
      rw [Stmt.exec]
      refine composable.bind (composable.note _ _ _) fun _ => ?_
      exact composable.bind (composable.evalAll reads) fun _ => prints _
  | branch condition yes no runs others =>
      obtain ⟨own, inside⟩ := List.forall_mem_cons.1 admits
      have tests := composable.test (own.reads condition List.mem_cons_self)
      cases no with
      | none =>
          have yes := block_composed composable fun stmt member =>
            runs stmt member (below inside stmt member)
          rw [Stmt.exec]
          refine composable.bind (composable.note _ _ _) fun _ => composable.bind tests fun _ => ?_
          exact ite yes (composable.pure ())
      | some no =>
          rw [inner, List.forall_mem_append] at inside
          have yes := block_composed composable fun stmt member =>
            runs stmt member (below inside.1 stmt member)
          have no := block_composed composable fun stmt member =>
            others no rfl stmt member (below inside.2 stmt member)
          rw [Stmt.exec]
          refine composable.bind (composable.note _ _ _) fun _ => composable.bind tests fun _ => ?_
          exact ite yes no
  | whileLoop condition body runs =>
      obtain ⟨own, inside⟩ := List.forall_mem_cons.1 admits
      have tests := composable.test (own.reads condition List.mem_cons_self)
      have body := block_composed composable fun stmt member =>
        runs stmt member (below inside stmt member)
      rw [Stmt.exec]
      exact composable.bind (composable.note _ _ _) fun _ =>
        composable.whileHolds tests body patience
  | repeatLoop condition body runs =>
      obtain ⟨own, inside⟩ := List.forall_mem_cons.1 admits
      have tests := composable.test (own.reads condition List.mem_cons_self)
      have body := block_composed composable fun stmt member =>
        runs stmt member (below inside stmt member)
      rw [Stmt.exec]
      exact composable.bind (composable.note _ _ _) fun _ =>
        composable.untilHolds tests body patience
  | forLoop name first last step body runs =>
      obtain ⟨⟨reads, looks, writes⟩, inside⟩ := List.forall_mem_cons.1 admits
      have body := block_composed composable fun stmt member =>
        runs stmt member (below inside stmt member)
      rw [Stmt.exec]
      exact composable.bind (composable.note _ _ _) fun _ =>
        composable.count looks reads writes body
  | switch scrutinee cases otherwise runs others =>
      obtain ⟨own, inside⟩ := List.forall_mem_cons.1 admits
      obtain ⟨value, values⟩ := List.forall_mem_cons.1 own.reads
      rw [List.forall_mem_map] at values
      have arms : (∀ part ∈ partsOfCases cases, part.Admits holds) →
          ∀ arm ∈ cases, ∀ stmt ∈ arm.2, holds (stmt.exec patience) :=
        fun inside arm isArm stmt member => runs arm isArm stmt member fun part isPart =>
          inside part (parts_subset_of_mem_cases isArm member isPart)
      cases otherwise with
      | none =>
          rw [Stmt.exec]
          refine composable.bind (composable.note _ _ _) fun _ => composable.bind value fun _ => ?_
          exact execCases_composed composable values (arms inside) (composable.pure ())
      | some otherwise =>
          rw [inner, List.forall_mem_append] at inside
          have falls := block_composed composable fun stmt member =>
            others otherwise rfl stmt member (below inside.2 stmt member)
          rw [Stmt.exec]
          refine composable.bind (composable.note _ _ _) fun _ => composable.bind value fun _ => ?_
          exact execCases_composed composable values (arms inside.1) falls
  | resize name size =>
      obtain ⟨reads, looks, writes⟩ := admits _ List.mem_cons_self
      rw [Stmt.exec]
      refine composable.bind (composable.note _ _ _) fun _ => composable.bind looks fun _ => ?_
      exact composable.bind (reads size List.mem_cons_self) fun found => writes found

/-- **What holds of all steps holds of every program.** -/
theorem Program.exec_composed (reads : ∀ expr, holds (Run.eval expr))
    (admits : ∀ stmt : Stmt, stmt.Admits holds)
    (declares : ∀ name symbol, holds (Run.declare name symbol)) (flushes : holds Run.flush)
    (program : Program) : holds (program.exec patience) := by
  have forAll : ∀ {α : Type} {step : α → Run Unit}, (∀ item, holds (step item)) →
      ∀ items : List α, holds (items.forM step) := by
    intro α step each items
    induction items with
    | nil => exact composable.pure ()
    | cons item rest ih => exact composable.bind (each item) fun _ => ih
  have constants : ∀ constant : Constant, holds constant.exec := fun constant =>
    composable.bind (composable.note _ _ _) fun _ =>
      composable.bind (reads constant.value) fun _ => declares _ _
  have others : ∀ var : Variable, holds var.exec := by
    rintro ⟨name, type, size⟩
    refine composable.bind (composable.note _ _ _) fun _ => ?_
    cases size with
    | none => exact declares _ _
    | some size =>
        refine composable.bind (reads size) fun _ => ?_
        refine composable.bind (composable.lift _) fun _ => ?_
        exact composable.bind (composable.lift _) fun _ => declares _ _
  have declarations : holds program.declarations.exec :=
    composable.bind (composable.note _ _ _) fun _ =>
      composable.bind (forAll constants _) fun _ => forAll others _
  have body : holds (Run.compound program.body.length (execAll patience program.body)) :=
    block_composed composable fun stmt _ => stmt.exec_composed composable fun part _ => admits part
  refine composable.bind (composable.note _ _ _) fun _ => composable.bind declarations fun _ => ?_
  refine composable.bind body fun _ => composable.bind flushes fun _ => ?_
  exact composable.note _ _ _

end Statements

end Pseudocode
