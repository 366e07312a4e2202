import Pseudocode.Proofs.Run.Writes

/-!
# The passes of counting loops

A counting loop that counts up makes one pass for each number of an arithmetic progression,
from its first bound on in steps up to its last bound, and in that order. The numbers are
exact: where the next one would not be an integer any more, it would also be beyond the last
bound. The body cannot change them. It can write to the variable of the loop or to the
variables in its bounds, but before the next pass the variable is set again, and the bounds
were computed before the first pass (`Stmt.exec_forLoop_passes`).

`Loop.Progression` says which numbers these are, and `Loop.Passes` what it means to make a
pass for each of them.
-/

set_option autoImplicit false

namespace Pseudocode

namespace Loop

/-! ## The numbers -/

/-- The integers from the first to the last number in steps. -/
structure Progression (first last step : Int) (counters : List Integer) : Prop where
  /-- There is one for each multiple of the step that does not lead beyond the last number. -/
  inside : ∀ k : Nat, k < counters.length ↔ first + k * step ≤ last
  value : ∀ (k : Nat) (isPass : k < counters.length), counters[k].val = first + k * step

namespace Progression

variable {first last step : Int} {counter : Integer} {counters : List Integer}

/-- The multiples after the first are those from the second number on. -/
theorem shift (first step : Int) (k : Nat) :
    first + (k + 1 : Nat) * step = first + step + k * step := by
  rw [Int.natCast_add, Int.add_mul, Int.natCast_one, Int.one_mul]
  omega

theorem nil (beyond : last < first) (up : 0 < step) : Progression first last step [] where
  inside k := by
    have forward : 0 ≤ (k : Int) * step := Int.mul_nonneg (by omega) (by omega)
    rw [List.length_nil]
    omega
  value k isPass := absurd isPass (Nat.not_lt_zero k)

theorem cons (inside : counter.val ≤ last)
    (rest : Progression (counter.val + step) last step counters) :
    Progression counter.val last step (counter :: counters) where
  inside k := by
    cases k with
    | zero => simpa using inside
    | succ k => rw [List.length_cons, Nat.add_lt_add_iff_right, rest.inside, shift]
  value k isPass := by
    cases k with
    | zero => simp
    | succ k => rw [List.getElem_cons_succ, rest.value, shift]

theorem beyond (progression : Progression first last step []) : last < first := by
  have none := progression.inside 0
  rw [List.length_nil] at none
  omega

theorem head (progression : Progression first last step (counter :: counters)) :
    counter.val = first ∧ first ≤ last := by
  have positive : 0 < (counter :: counters).length := Nat.zero_lt_succ _
  have value := progression.value 0 positive
  have inside := (progression.inside 0).1 positive
  rw [List.getElem_cons_zero] at value
  omega

theorem tail (progression : Progression first last step (counter :: counters)) :
    Progression (first + step) last step counters where
  inside k := by rw [← shift, ← progression.inside, List.length_cons, Nat.add_lt_add_iff_right]
  value k isPass := by
    rw [← shift, ← progression.value (k + 1) (Nat.succ_lt_succ isPass), List.getElem_cons_succ]

/-- Where the next number is no integer, the last one has been reached. -/
theorem eq_nil_of_stuck {step : Integer}
    (progression : Progression first last step.val (counter :: counters))
    (stuck : counter.add? step = none) : counters = [] := by
  cases counters with
  | nil => rfl
  | cons next others =>
      have value : next.val = counter.val + step.val := by
        rw [progression.head.1, progression.tail.head.1]
      have advanced : counter.add? step = some next := Integer.ofInt?_eq_some_iff.2 value
      rw [advanced] at stuck
      cases stuck

/-- There are such integers whenever the steps lead up. -/
theorem exists_of_up (up : 0 < step) (first last : Integer) :
    ∃ counters, Progression first.val last.val step counters := by
  -- The distance to the last number gets smaller, and all numbers before it are integers.
  suffices within : ∀ (distance : Nat) (number : Int), first.val ≤ number →
      last.val - number < distance → ∃ counters, Progression number last.val step counters by
    exact within (last.val - first.val + 1).toNat first.val (Int.le_refl _) (by omega)
  intro distance
  induction distance with
  | zero => exact fun number _ beyond => ⟨[], nil (by omega) up⟩
  | succ distance ih =>
      intro number low near
      by_cases inside : number ≤ last.val
      · have least := first.least_le
        have greatest := last.le_greatest
        let counter : Integer := ⟨number, by omega, by omega⟩
        obtain ⟨counters, rest⟩ := ih (number + step) (by omega) (by omega)
        have whole : Progression counter.val last.val step (counter :: counters) := cons inside rest
        exact ⟨counter :: counters, whole⟩
      · exact ⟨[], nil (by omega) up⟩

end Progression

/-! ## The passes -/

/-- The variable of a loop is an integer that may be written. -/
def IsCounter (name : String) (table : Table) : Prop :=
  ∃ value, table.find? name = some ⟨.scalar value, .integer, false⟩

/-- One state is another one in which a variable holds an integer. -/
structure Sets [Writer] (name : String) (counter : Integer) (before start : State) : Prop where
  holds : start.table.find? name = some ⟨.scalar (some (.integer counter)), .integer, false⟩
  others : ∀ other, other ≠ name → start.table.find? other = before.table.find? other
  output : start.output = before.output
  journal : start.journal = before.journal

/-- A pass for each of the counters, in order. The variable is set and then the body is run;
if it stops, so does the loop, and otherwise the next pass starts from where it led. The
states in which the body is started are listed. -/
inductive Passes [Writer] (name : String) (body : Run Unit) :
    List Integer → State → List State → Outcome Unit → Prop where
  | done (state : State) : Passes name body [] state [] (.ok () state)
  | pass {counter : Integer} {counters : List Integer} {state start next : State}
      {starts : List State} {outcome : Outcome Unit} (sets : Sets name counter state start)
      (ran : body start = .ok () next) (rest : Passes name body counters next starts outcome) :
      Passes name body (counter :: counters) state (start :: starts) outcome
  | stopped {counter : Integer} {counters : List Integer} {state start next : State}
      {stop : Stop} (sets : Sets name counter state start) (ran : body start = .error stop next) :
      Passes name body (counter :: counters) state [start] (.error stop next)

namespace IsCounter

variable {name : String}

/-- Whatever is written, the variable of a loop stays one. -/
theorem keptByWrites [Memory] (name : String) : Table.KeptByWrites (IsCounter name) := by
  refine .of_lawful fun table target change ⟨value, found⟩ lawful => ?_
  obtain ⟨⟨slot, type, constant⟩, isLater, keeps⟩ := Table.keeps_modify lawful name _ found
  obtain rfl : type = .integer := keeps.type
  obtain rfl : constant = false := keeps.constant
  cases slot with
  | scalar later => exact ⟨later, isLater⟩
  | array elements => cases keeps.isArray

/-- So the counter can be written before each pass. -/
theorem assign [Writer] {state : State} (isCounter : IsCounter name state.table)
    (counter : Integer) :
    ∃ start, Run.assign name (.integer counter) state = .ok () start ∧
      Sets name counter state start := by
  obtain ⟨value, found⟩ := isCounter
  have planned : state.table.assignment name (.integer counter) =
      .ok (Symbol.store (.integer counter)) := by
    rw [Table.assignment, Table.get, found]
    rfl
  have holds : (state.table.modify name (Symbol.store (.integer counter))).find? name =
      some ⟨.scalar (some (.integer counter)), .integer, false⟩ := by
    rw [Table.find?_modify, if_pos rfl, found]
    rfl
  refine ⟨{ state with table := state.table.modify name (Symbol.store (.integer counter)) }, ?_,
    holds, fun other different => Table.find?_modify_of_ne _ different _, rfl, rfl⟩
  rw [Run.assign_eq_write, Run.write_ok planned]

end IsCounter

section Passes

variable [Writer]

theorem Sets.isCounter {name : String} {counter : Integer} {before start : State}
    (sets : Sets name counter before start) : IsCounter name start.table :=
  ⟨_, sets.holds⟩

/-- A loop with its first bound beyond the last one makes no pass. -/
theorem counting_beyond {name : String} {body : Run Unit} {first last step : Integer}
    (beyond : last.val < first.val) {passes : Nat} (positive : 0 < passes) (state : State) :
    counting name last step body passes first state = .ok () state := by
  obtain ⟨passes, rfl⟩ := Nat.exists_eq_succ_of_ne_zero (Nat.ne_zero_of_lt positive)
  simp only [counting, if_neg (Int.not_le.2 beyond)]

/-- A loop with enough passes makes one for each number of its progression. -/
theorem counting_passes {name : String} {body : Run Unit} {first last step : Integer}
    {counters : List Integer}
    (keeps : Run.Ensures (IsCounter name) (fun _ => True) body Run.anything)
    (progression : Progression first.val last.val step.val counters) {passes : Nat}
    (enough : counters.length < passes) {state : State}
    (isCounter : IsCounter name state.table) :
    ∃ starts, Passes name body counters state starts
      (counting name last step body passes first state) := by
  induction counters generalizing first passes state with
  | nil =>
      rw [counting_beyond progression.beyond enough]
      exact ⟨[], .done state⟩
  | cons counter counters ih =>
      obtain ⟨passes, rfl⟩ := Nat.exists_eq_succ_of_ne_zero (Nat.ne_zero_of_lt enough)
      have fewer : counters.length < passes := Nat.lt_of_succ_lt_succ enough
      obtain ⟨value, inside⟩ := progression.head
      obtain rfl : counter = first := Integer.ext value
      obtain ⟨start, wrote, sets⟩ := isCounter.assign counter
      have kept := keeps start sets.isCounter
      simp only [counting, if_pos inside, wrote]
      cases ran : body start with
      | error stop next => exact ⟨[start], .stopped sets ran⟩
      | ok _ next =>
          rw [ran] at kept
          cases advanced : counter.add? step with
          | none =>
              obtain rfl := progression.eq_nil_of_stuck advanced
              exact ⟨[start], .pass sets ran (.done next)⟩
          | some following =>
              have moved : following.val = counter.val + step.val :=
                Integer.ofInt?_eq_some_iff.1 advanced
              have rest : Progression following.val last.val step.val counters := by
                rw [moved]
                exact progression.tail
              obtain ⟨starts, passed⟩ := ih rest fewer kept.1
              exact ⟨start :: starts, .pass sets ran passed⟩

/-- A completed loop with a pass has run its body last from a state in which the variable
held the last number. -/
theorem Passes.last {name : String} {body : Run Unit} {counters : List Integer}
    {state final : State} {starts : List State}
    (passes : Passes name body counters state starts (.ok () final)) {counter : Integer}
    (isLast : counters.getLast? = some counter) :
    ∃ start, starts.getLast? = some start ∧ body start = .ok () final ∧
      start.table.find? name = some ⟨.scalar (some (.integer counter)), .integer, false⟩ := by
  generalize ended : (EStateM.Result.ok () final : Outcome Unit) = outcome at passes
  induction passes with
  | done state => cases isLast
  | stopped sets ran => cases ended
  | @pass first counters _ start next starts _ sets ran rest ih =>
      cases rest with
      | done state =>
          cases ended
          obtain rfl := Option.some.inj isLast
          exact ⟨start, rfl, ran, sets.holds⟩
      | pass sets' ran' rest' =>
          rw [List.getLast?_cons_cons] at isLast ⊢
          exact ih isLast ended
      | stopped sets' ran' => cases ended

/-- So it still holds that number in the end, unless the last pass wrote to it. -/
theorem Passes.read_last {name : String} {body : Run Unit} {counters : List Integer}
    {state final : State} {starts : List State}
    (passes : Passes name body counters state starts (.ok () final)) {counter : Integer}
    (isLast : counters.getLast? = some counter) :
    ∃ latest, starts.getLast? = some latest ∧
      ∀ written, body.Writes latest written → name ∉ written →
        final.table.read name = .ok (.integer counter) := by
  obtain ⟨latest, isLatest, ran, holds⟩ := passes.last isLast
  refine ⟨latest, isLatest, fun written writes unwritten => ?_⟩
  have kept := writes.find?_eq unwritten
  rw [Run.after_ok ran, holds] at kept
  rw [Table.read, Table.get, kept]
  rfl

/-! ## Statements -/

/-- What a counting loop does before its passes if nothing fails: it computes its bounds,
each of them once and in order. -/
def opening (name : String) (first last step : Expr) (low high stride : Integer) : Run Unit := do
  let _ ← Run.eval first
  let _ ← Run.eval last
  let _ ← Run.eval step
  Run.note .trace .loop fun _ =>
    s!"FOR {name} from {low.text} to {high.text} step {stride.text}"

end Passes

end Loop

namespace Run

variable [Writer]

/-- The value of an expression is computed without a change of the table or the output. -/
theorem eval_of_eval {state : State} {expr : Expr} {value : Value}
    (found : expr.eval state.table = .ok value) :
    ∃ journal, Run.eval expr state = .ok value { state with journal } := by
  obtain ⟨recorded, spec⟩ := eval_spec expr
  obtain ⟨table, output, journal⟩ := state
  refine ⟨recorded table journal, ?_⟩
  rw [spec, found]
  rfl

theorem symbol_of_find? {state : State} {name : String} {symbol : Symbol}
    (found : state.table.find? name = some symbol) : Run.symbol name state = .ok symbol state := by
  change Run.lift (state.table.get name) state = _
  rw [Table.get, found]
  rfl

/-- A loop with a variable and bounds that it can count with starts to count. -/
theorem count_of_bounds (state : State) {name : String} {value : Option Value}
    {first last step : Expr} {low high stride : Integer}
    (isVariable : state.table.find? name = some ⟨.scalar value, .integer, false⟩)
    (firsts : first.eval state.table = .ok (.integer low))
    (lasts : last.eval state.table = .ok (.integer high))
    (steps : step.eval state.table = .ok (.integer stride)) :
    ∃ start : State, start.table = state.table ∧ start.output = state.output ∧
      Loop.opening name first last step low high stride state = .ok () start ∧
      ∀ patience body, count patience name first last step body state =
        Loop.counting name high stride body patience low start := by
  obtain ⟨journal, one⟩ := eval_of_eval firsts
  have lasts : last.eval ({ state with journal } : State).table = .ok (.integer high) := lasts
  obtain ⟨journal, two⟩ := eval_of_eval lasts
  have steps : step.eval ({ state with journal } : State).table = .ok (.integer stride) := steps
  obtain ⟨journal, three⟩ := eval_of_eval steps
  refine ⟨{ state with journal := journal.add .trace .loop fun _ =>
    s!"FOR {name} from {low.text} to {high.text} step {stride.text}" }, rfl, rfl, ?_, ?_⟩
  · refine (bind_ok one).trans ?_
    exact (bind_ok two).trans (bind_ok three)
  · intro patience body
    have scalar : ¬ Symbol.isArray ⟨.scalar value, .integer, false⟩ = true := nofun
    have integer : ¬ DataType.integer ≠ .integer := fun other => other rfl
    rw [count, bind_ok (symbol_of_find? isVariable), if_neg scalar, if_neg integer]
    refine (bind_ok one).trans ?_
    exact (bind_ok two).trans (bind_ok three)

end Run

open Loop

section Statements

variable [Memory] [Writer]

/-- A counting statement with such a variable and such bounds computes them and counts. -/
theorem Stmt.exec_forLoop_of_bounds {state : State} {name : String} {value : Option Value}
    {first last step : Expr} {low high stride : Integer}
    (isVariable : state.table.find? name = some ⟨.scalar value, .integer, false⟩)
    (firsts : first.eval state.table = .ok (.integer low))
    (lasts : last.eval state.table = .ok (.integer high))
    (steps : step.eval state.table = .ok (.integer stride)) (body : List Stmt) :
    let loop : Stmt := .forLoop name first last step body
    ∃ start : State, start.table = state.table ∧ start.output = state.output ∧
      (do
        Run.note .trace .statement fun _ => s!"execute {loop.category}"
        opening name first last step low high stride : Run Unit) state = .ok () start ∧
      ∀ patience, loop.exec patience state = counting name high stride
        (Run.compound body.length (execAll patience body)) patience low start := by
  intro loop
  let noted : State := { state with
    journal := state.journal.add .trace .statement fun _ => s!"execute {loop.category}" }
  obtain ⟨start, sameTable, sameOutput, opened, counts⟩ :=
    Run.count_of_bounds noted isVariable firsts lasts steps
  refine ⟨start, sameTable, sameOutput, opened, fun patience => ?_⟩
  rw [Stmt.exec]
  exact counts patience _

/-- **A counting loop visits exactly its arithmetic progression.** Let the variable of a loop
be an integer that may be written, and let its bounds be integers. The loop first computes its
bounds, each of them once, which changes neither the table nor the output. If the first bound
is beyond the last one, it is then over. If it counts up, there are numbers that depend on the
bounds only, exactly those of the arithmetic progression up to the last bound, and it makes a
pass for each of them in order, starting its body with the variable at that number, unless the
body stops before. When it has completed its passes, the variable holds the last number, unless
the last pass wrote to it. -/
theorem Stmt.exec_forLoop_passes {state : State} {name : String} {value : Option Value}
    {first last step : Expr} {low high stride : Integer}
    (isVariable : state.table.find? name = some ⟨.scalar value, .integer, false⟩)
    (firsts : first.eval state.table = .ok (.integer low))
    (lasts : last.eval state.table = .ok (.integer high))
    (steps : step.eval state.table = .ok (.integer stride)) (body : List Stmt) :
    let loop : Stmt := .forLoop name first last step body
    let pass (patience : Nat) : Run Unit := Run.compound body.length (execAll patience body)
    ∃ start : State, start.table = state.table ∧ start.output = state.output ∧
      (do
        Run.note .trace .statement fun _ => s!"execute {loop.category}"
        opening name first last step low high stride : Run Unit) state = .ok () start ∧
      (high.val < low.val → ∀ patience, 0 < patience →
        loop.exec patience state = .ok () start) ∧
      (1 ≤ stride.val → ∃ counters, Progression low.val high.val stride.val counters ∧
        ∀ patience, counters.length < patience →
          ∃ starts, Passes name (pass patience) counters start starts (loop.exec patience state) ∧
            ∀ final, loop.exec patience state = .ok () final →
              ∀ counter, counters.getLast? = some counter →
                ∃ latest, starts.getLast? = some latest ∧
                  (∃ written, (pass patience).Writes latest written) ∧
                  ∀ written, (pass patience).Writes latest written → name ∉ written →
                    final.table.read name = .ok (.integer counter)) := by
  intro loop pass
  obtain ⟨start, sameTable, sameOutput, opened, counts⟩ :=
    exec_forLoop_of_bounds isVariable firsts lasts steps body
  refine ⟨start, sameTable, sameOutput, opened, ?_, ?_⟩
  · intro beyond patience positive
    rw [counts, counting_beyond beyond positive]
  · intro up
    obtain ⟨counters, progression⟩ := Progression.exists_of_up up low high
    refine ⟨counters, progression, fun patience enough => ?_⟩
    have keeps : Run.Ensures (IsCounter name) (fun _ => True) (pass patience) Run.anything :=
      .compound (execAll_keeps (IsCounter.keptByWrites name) patience body)
    have isCounter : IsCounter name start.table := ⟨value, sameTable ▸ isVariable⟩
    obtain ⟨starts, passes⟩ := counting_passes keeps progression enough isCounter
    rw [counts]
    refine ⟨starts, passes, fun final ended counter isLast => ?_⟩
    rw [ended] at passes
    have listed : (pass patience).WritesListed :=
      block_composed Run.WritesListed.composable fun stmt _ => stmt.exec_writes patience
    obtain ⟨latest, isLatest, holds⟩ := passes.read_last isLast
    exact ⟨latest, isLatest, listed latest, holds⟩

end Statements

/-- Prints numbers up to a limit in steps of five. Each pass then sets both the limit and the
counter back. -/
def Stmt.climbing : Stmt :=
  let number (n : Integer) : Expr := .literal (.integer n)
  .forLoop "i" (.binary .subtract (.name "n") (number ⟨7, by decide, by decide⟩)) (.name "n")
    (number ⟨5, by decide, by decide⟩)
    [.print [.name "i"], .assign "n" (number .zero), .assign "i" (number .zero)]

/-- The limit is the greatest integer. -/
def Stmt.climbingTable : Table :=
  Table.empty.after [.declareVariable "i" .integer, .declareVariable "n" .integer,
    .assign "n" (.integer ⟨9223372036854775807, by decide, by decide⟩)]

/-- The loop makes two passes, and after them the counter cannot be increased. -/
theorem Stmt.climbing_passes :
    let state : State := ⟨climbingTable, .unbounded, .off⟩
    state.table.find? "i" = some ⟨.scalar none, .integer, false⟩ ∧
      ((climbing.exec 3).after state).output.written =
        "9223372036854775800\n9223372036854775805\n".toUTF8 ∧
      ∃ start counters, start.table = state.table ∧
        Progression 9223372036854775800 9223372036854775807 5 counters ∧
        ∀ patience, counters.length < patience →
          ∃ pass starts, Passes "i" pass counters start starts (climbing.exec patience state) := by
  intro state
  let seven : Expr := .literal (.integer ⟨7, by decide, by decide⟩)
  let five : Expr := .literal (.integer ⟨5, by decide, by decide⟩)
  have isVariable : state.table.find? "i" = some ⟨.scalar none, .integer, false⟩ := rfl
  have firsts : (Expr.binary .subtract (.name "n") seven).eval state.table =
      .ok (.integer ⟨9223372036854775800, by decide, by decide⟩) := rfl
  have lasts : (Expr.name "n").eval state.table =
      .ok (.integer ⟨9223372036854775807, by decide, by decide⟩) := rfl
  have steps : five.eval state.table = .ok (.integer ⟨5, by decide, by decide⟩) := rfl
  obtain ⟨start, sameTable, -, -, -, passes⟩ :=
    exec_forLoop_passes isVariable firsts lasts steps
      [.print [.name "i"], .assign "n" (.literal (.integer .zero)),
        .assign "i" (.literal (.integer .zero))]
  obtain ⟨counters, progression, enough⟩ := passes (by decide)
  refine ⟨isVariable, by decide +kernel, start, counters, sameTable, progression, ?_⟩
  intro patience more
  obtain ⟨starts, ran, -⟩ := enough patience more
  exact ⟨_, starts, ran⟩

end Pseudocode
