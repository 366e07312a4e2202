import Pseudocode.Proofs.Run.Footprint
import Pseudocode.Proofs.Run.Patience

/-!
# Programs that always end

A counting loop takes its counter from its bounds alone. If it counts up, the distance from
the counter to the last value shrinks with each pass, whatever the body does to the variable
of the loop or to those that its bounds were computed from; and where the counter cannot be
increased any more the loop is over. All integers lie within `2 ^ 64` of each other, so no
such loop makes more passes than that.

So every program ends in which all loops count up by a fixed number
(`Program.exec_ends_of_countsUp`).
-/

set_option autoImplicit false

namespace Pseudocode

open Run (Ensures anything)

/-! ## Loops that count up -/

/-- No loop makes more passes if it counts up. -/
def Loop.mostPasses : Nat := Nat.pow 2 64

/-- A counting loop that counts up is over when it has made as many passes as there are
numbers from its counter to the last value. -/
theorem Run.Ensures.countingUp [Writer] {inv : Table → Prop} {stops : Stop → Prop} {name : String}
    {body : Run Unit} {last step : Integer} (up : 0 < step.val)
    (writes : ∀ counter, Ensures inv stops (Run.assign name (.integer counter)) anything)
    (runs : Ensures inv stops body anything) {passes : Nat} {counter : Integer}
    (some : 0 < passes) (enough : last.val - counter.val + 1 < passes) :
    Ensures inv stops (Loop.counting name last step body passes counter) anything := by
  induction passes generalizing counter with
  | zero => omega
  | succ passes ih =>
      rw [Loop.counting_succ]
      refine ite (fun inside => ?_) fun _ => pure trivial
      refine bind (writes counter) fun _ _ => bind runs fun _ _ => ?_
      cases advanced : counter.add? step with
      | none => exact pure trivial
      | some next =>
          have nearer : next.val = counter.val + step.val :=
            Integer.ofInt?_eq_some_iff.1 advanced
          exact ih (by omega) (by omega)

/-- A statement by itself is no loop with a condition, and if it is a counting loop its step
is a positive number. -/
def Stmt.countsUp : Stmt → Bool
  | .whileLoop _ _ => false
  | .repeatLoop _ _ => false
  | .forLoop _ _ _ (.literal (.integer step)) _ => 0 < step.val
  | .forLoop _ _ _ _ _ => false
  | _ => true

/-- All loops of a program count up, by numbers that stand in the program. -/
def Program.countsUp (program : Program) : Bool := (partsOfAll program.body).all Stmt.countsUp

theorem Stmt.step_of_countsUp {name : String} {first last step : Expr} {body : List Stmt}
    (up : (Stmt.forLoop name first last step body).countsUp = true) :
    ∃ n : Integer, step = .literal (.integer n) ∧ 0 < n.val := by
  unfold countsUp at up
  split at up
  · cases up
  · cases up
  · rename_i same
    cases same
    exact ⟨_, rfl, of_decide_eq_true up⟩
  · cases up
  · rename_i other
    exact absurd rfl (other _ _ _ _ _)

/-! ## Runs that are never given up -/

/-- A run that ends, with a result or an error. -/
def Run.Ends [Writer] {α : Type} (run : Run α) : Prop :=
  Ensures (fun _ => True) (· ≠ .unfinished) run anything

namespace Run.Ends

/-- To fail is not to be given up. -/
theorem failed_ne (error : RuntimeError) : Stop.failed error ≠ .unfinished := by
  intro same
  cases same

variable [Writer] {α β : Type}

theorem ne_unfinished {run : Run α} (ends : run.Ends) (state next : State) :
    run state ≠ .error .unfinished next := by
  intro gaveUp
  have outcome := ends state trivial
  rw [gaveUp] at outcome
  exact outcome.2 rfl

theorem lift (computed : Except RuntimeError α) : (Run.lift computed).Ends :=
  Ensures.lift (fun _ _ => trivial) fun _ _ => failed_ne _

theorem eval (expr : Expr) : (Run.eval expr).Ends :=
  Ensures.eval (fun _ _ _ _ => trivial) fun _ _ _ _ => failed_ne _

theorem symbol (name : String) : (Run.symbol name).Ends :=
  Ensures.symbol (fun _ _ _ _ => trivial) fun _ _ _ => failed_ne _

theorem assign (name : String) (value : Value) : (Run.assign name value).Ends :=
  Ensures.assign (fun _ _ _ _ => trivial) fun _ _ _ _ => failed_ne _

theorem assignAt (name : String) (index : Integer) (value : Value) :
    (Run.assignAt name index value).Ends :=
  Ensures.assignAt (fun _ _ _ _ => trivial) fun _ _ _ _ => failed_ne _

theorem declare (name : String) (symbol : Symbol) : (Run.declare name symbol).Ends :=
  Ensures.declare (fun _ _ _ _ => trivial) fun _ _ _ _ => failed_ne _

theorem bind {first : Run α} {second : α → Run β} (earlier : first.Ends)
    (later : ∀ a, (second a).Ends) : (first >>= second).Ends :=
  Ensures.bind earlier fun a _ => later a

theorem note (level : Level) (origin : Origin) (message : Unit → String) :
    (Run.note level origin message).Ends :=
  Ensures.note level origin message

theorem test (condition : Expr) : (Run.test condition).Ends :=
  bind (eval condition) fun _ => lift _

theorem acceptable (name : String) (value : Expr) : (Run.acceptable name value).Ends :=
  bind (symbol name) fun _ => bind (eval value) fun _ => lift _

end Run.Ends

/-! ## Statements and programs -/

open Run.Ends (failed_ne eval symbol test)

section Statements

variable [Memory] [Writer]

/-- The measure of a counting loop is the distance of its counter to the last value. It is
kept by the loop itself and no statement of the body can reach it. -/
theorem Stmt.exec_ends {patience : Nat} (enough : Loop.mostPasses < patience) {stmt : Stmt}
    (up : ∀ part ∈ stmt.parts, part.countsUp = true) : (stmt.exec patience).Ends := by
  have below : ∀ {block : List Stmt}, (∀ part ∈ partsOfAll block, part.countsUp = true) →
      ∀ stmt ∈ block, ∀ part ∈ stmt.parts, part.countsUp = true :=
    fun inside stmt member part isPart => inside part (parts_subset_of_mem member isPart)
  induction stmt using Stmt.induction with
  | assign name value =>
      rw [Stmt.exec]
      exact .bind (.note _ _ _) fun _ => .bind (.acceptable name value) fun _ => .assign name _
  | assignAt name position value =>
      rw [Stmt.exec]
      refine .bind (.note _ _ _) fun _ => .bind (.acceptable name value) fun _ => ?_
      exact .bind (.bind (.eval position) fun _ => .lift _) fun _ => .assignAt name _ _
  | print values => exact Ensures.printing (fun expr _ => eval expr) fun _ => failed_ne _
  | branch condition yes no runs others =>
      obtain ⟨_, inside⟩ := List.forall_mem_cons.1 up
      cases no with
      | none =>
          refine Ensures.branch (test condition)
            (fun stmt member => runs stmt member (below inside stmt member)) ?_
          intro block isBlock
          cases isBlock
      | some no =>
          rw [inner, List.forall_mem_append] at inside
          refine Ensures.branch (test condition)
            (fun stmt member => runs stmt member (below inside.1 stmt member)) ?_
          intro block same stmt member
          obtain rfl := Option.some.inj same
          exact others no rfl stmt member (below inside.2 stmt member)
  | whileLoop condition body runs => exact absurd (up _ List.mem_cons_self) Bool.false_ne_true
  | repeatLoop condition body runs => exact absurd (up _ List.mem_cons_self) Bool.false_ne_true
  | forLoop name first last step body runs =>
      obtain ⟨own, inside⟩ := List.forall_mem_cons.1 up
      obtain ⟨n, rfl, positive⟩ := step_of_countsUp own
      have steps : Ensures (fun _ => True) (· ≠ .unfinished)
          (Run.eval (.literal (.integer n))) fun value => value = .integer n :=
        .eval (fun _ _ _ found => (Except.ok.inj found).symm) fun _ _ _ _ => failed_ne _
      refine Ensures.forLoopWith (symbol name) (fun _ _ _ => failed_ne _) (fun _ _ _ => failed_ne _)
        (eval first) (eval last) steps (fun _ _ _ _ => failed_ne _) ?_
      intro _ _ _ _ first last step same
      obtain rfl : step = n := Value.integer.inj same
      have low := first.least_le
      have high := last.le_greatest
      have size : Loop.mostPasses = 18446744073709551616 := rfl
      refine .countingUp positive (fun _ => Run.Ends.assign name _) ?_ (by omega) (by omega)
      exact .block fun stmt member => runs stmt member (below inside stmt member)
  | switch scrutinee cases otherwise runs others =>
      obtain ⟨_, inside⟩ := List.forall_mem_cons.1 up
      have arms : (∀ part ∈ partsOfCases cases, part.countsUp = true) →
          ∀ arm ∈ cases, ∀ stmt ∈ arm.2, (stmt.exec patience).Ends :=
        fun inside arm isArm stmt member => runs arm isArm stmt member fun part isPart =>
          inside part (parts_subset_of_mem_cases isArm member isPart)
      cases otherwise with
      | none =>
          refine Ensures.switch (eval scrutinee) (fun arm _ => eval arm.1) (arms inside) ?_
          intro block isBlock
          cases isBlock
      | some otherwise =>
          rw [inner, List.forall_mem_append] at inside
          refine Ensures.switch (eval scrutinee) (fun arm _ => eval arm.1) (arms inside.1) ?_
          intro block same stmt member
          obtain rfl := Option.some.inj same
          exact others otherwise rfl stmt member (below inside.2 stmt member)
  | resize name size =>
      rw [Stmt.exec]
      refine .bind (.note _ _ _) fun _ => .bind (.symbol name) fun _ => ?_
      refine .bind (.eval size) fun _ => Ensures.resize (fun _ _ _ _ => failed_ne _) ?_ ?_
      · exact fun _ _ _ _ => trivial
      · exact fun _ _ _ _ => failed_ne _

theorem execAll_ends {patience : Nat} (enough : Loop.mostPasses < patience) {block : List Stmt}
    (up : ∀ part ∈ partsOfAll block, part.countsUp = true) : (execAll patience block).Ends :=
  Ensures.execAll fun _ member => Stmt.exec_ends enough fun part isPart =>
    up part (Stmt.parts_subset_of_mem member isPart)

theorem Declarations.exec_ends (declarations : Declarations) : declarations.exec.Ends := by
  have constants : ∀ constant : Constant, constant.exec.Ends := fun constant =>
    .bind (.note _ _ _) fun _ => .bind (.eval constant.value) fun _ => .declare constant.name _
  have others : ∀ var : Variable, var.exec.Ends := by
    rintro ⟨name, type, size⟩
    refine .bind (.note _ _ _) fun _ => ?_
    cases size with
    | none => exact .declare name _
    | some size =>
        refine .bind (.eval size) fun _ => .bind (.lift _) fun _ => .bind (.lift _) fun _ => ?_
        exact .declare name _
  refine .bind (.note _ _ _) fun _ => .bind (Ensures.forM fun constant _ => constants constant) ?_
  exact fun _ => Ensures.forM fun var _ => others var

end Statements

/-- Runs that end with enough patience come to one outcome. -/
theorem Run.exists_outcome [Writer] {α : Type} {run : Nat → Run α} {bound : Nat}
    (ends : ∀ patience, bound < patience → (run patience).Ends)
    (prolongs : ∀ {patience patience'}, patience ≤ patience' →
      (run patience').Prolongs (run patience)) (state : State) :
    ∃ outcome : Outcome α, (∀ next, outcome ≠ .error .unfinished next) ∧
      ∀ patience, bound < patience → run patience state = outcome := by
  have final := (ends (bound + 1) (Nat.lt_succ_self bound)).ne_unfinished state
  exact ⟨run (bound + 1) state, final, fun patience more => (prolongs more).eq_of_ends final⟩

namespace Program

section Programs

variable [Memory] [Writer]

theorem exec_ends {patience : Nat} (enough : Loop.mostPasses < patience) {program : Program}
    (up : program.countsUp = true) : (program.exec patience).Ends := by
  have body : (execAll patience program.body).Ends := execAll_ends enough (List.all_eq_true.1 up)
  refine .bind (.note _ _ _) fun _ => .bind program.declarations.exec_ends fun _ => ?_
  refine .bind (Ensures.compound body) fun _ => ?_
  exact .bind (Ensures.flush fun _ => failed_ne _) fun _ => .note _ _ _

/-- **A program in which all loops count up ends.** So does its body, from whatever state it
is run. Both come to an outcome that is a result or an error and needs no more than
`Loop.mostPasses` passes of any loop, and more patience makes no difference to it. -/
theorem exec_ends_of_countsUp {program : Program} (up : program.countsUp = true)
    (state : State) :
    (∃ outcome : Outcome Unit, (∀ next, outcome ≠ .error .unfinished next) ∧
        ∀ patience, Loop.mostPasses < patience → program.exec patience state = outcome) ∧
      ∃ outcome : Outcome Unit, (∀ next, outcome ≠ .error .unfinished next) ∧
        ∀ patience, Loop.mostPasses < patience →
          execAll patience program.body state = outcome := by
  refine ⟨Run.exists_outcome (fun patience enough => exec_ends enough up)
    (fun more => program.exec_prolongs more) state, ?_⟩
  exact Run.exists_outcome (fun patience enough => execAll_ends enough (List.all_eq_true.1 up))
    (fun more => execAll_prolongs more program.body) state

end Programs

/-- Counts up to the greatest even integer, with a loop inside that has the same variable. Both
bodies write to the variable and to the one that the bounds were computed from. -/
def tangled : Program :=
  let number (n : Integer) : Expr := .literal (.integer n)
  let two : Integer := ⟨2, by decide, by decide⟩
  let highest : Integer := ⟨9223372036854775806, by decide, by decide⟩
  ⟨"Tangled", ⟨[], [⟨"i", .integer, none⟩, ⟨"n", .integer, none⟩]⟩,
    [.assign "n" (number highest),
      .forLoop "i" (.binary .subtract (.name "n") (number two)) (.name "n") (number two)
        [.print [.name "i"],
          .forLoop "i" (number .one) (number two) (number .one)
            [.assign "n" (.name "i"), .assign "i" (number .zero)],
          .print [.name "i", .name "n"]]]⟩

/-- The outer loop is over when its counter cannot be increased. -/
theorem tangled_ends :
    let start : State := ⟨.empty, .unbounded, .off⟩
    tangled.countsUp = true ∧
      ((tangled.exec 3).after start).output.written =
        "9223372036854775804\n0 2\n9223372036854775806\n0 2\n".toUTF8 ∧
      ∃ outcome : Outcome Unit, (∀ next, outcome ≠ .error .unfinished next) ∧
        ∀ patience, Loop.mostPasses < patience → tangled.exec patience start = outcome := by
  intro start
  have up : tangled.countsUp = true := by decide
  exact ⟨up, by decide +kernel, (exec_ends_of_countsUp up start).1⟩

end Program

end Pseudocode
