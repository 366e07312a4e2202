import Pseudocode.Proofs.Run.Composition

/-!
# Patience

How many passes a loop is given is not part of a program. It decides only when a run that
goes on is given up. A run that came to an end, with a result or an error, comes to the same
end if its loops are given more passes (`Stmt.exec_prolongs`, `Program.exec_prolongs`). So
"with enough passes" has one meaning for every run that ends.

There is more than one way to compare a run with a longer one. What they have in common is
`Run.Comparable`: steps in a row are compared one by one, and a run that was given up is
below any other. Whatever is compared in such a way, a statement with more patience is above
the same statement with less (`Stmt.exec_compared`).
-/

set_option autoImplicit false

namespace Pseudocode

variable [Writer]

namespace Run

variable [Memory]

/-- A way to compare runs with longer ones. Not every run need be comparable with itself, but
those are that all statements are made of. -/
structure Comparable (tame : ∀ {α : Type}, Run α → Prop)
    (above : ∀ {α : Type}, Run α → Run α → Prop) : Prop where
  composable : Composable tame
  admits : ∀ stmt : Stmt, stmt.Admits tame
  refl : ∀ {α : Type} {run : Run α}, tame run → above run run
  bind : ∀ {α β : Type} {first first' : Run α} {second second' : α → Run β},
    above first' first → (∀ a, above (second' a) (second a)) →
      above (first' >>= second') (first >>= second)
  tame_above : ∀ {α : Type} {longer shorter : Run α}, above longer shorter → tame longer
  unfinished : ∀ {α : Type} {longer : Run α}, tame longer → above longer (throw .unfinished)

namespace Comparable

variable {tame : ∀ {α : Type}, Run α → Prop} {above : ∀ {α : Type}, Run α → Run α → Prop}
  {α : Type}

omit [Memory] in
theorem ite {condition : Prop} [Decidable condition] {yes yes' no no' : Run α}
    (first : above yes' yes) (second : above no' no) :
    above (if condition then yes' else no') (if condition then yes else no) := by
  by_cases met : condition
  · rwa [if_pos met, if_pos met]
  · rwa [if_neg met, if_neg met]

variable (comparable : Comparable tame above)

include comparable

theorem pure (a : α) : above (Pure.pure a : Run α) (Pure.pure a) :=
  comparable.refl (comparable.composable.pure a)

theorem lift (computed : Except RuntimeError α) : above (Run.lift computed) (Run.lift computed) :=
  comparable.refl (comparable.composable.lift computed)

theorem note (level : Level) (origin : Origin) (message : Unit → String) :
    above (Run.note level origin message) (Run.note level origin message) :=
  comparable.refl (comparable.composable.note level origin message)

theorem tame_eval (expr : Expr) : tame (Run.eval expr) :=
  (comparable.admits (.print [expr])).reads expr List.mem_cons_self

theorem eval (expr : Expr) : above (Run.eval expr) (Run.eval expr) :=
  comparable.refl (comparable.tame_eval expr)

theorem test (condition : Expr) : above (Run.test condition) (Run.test condition) :=
  comparable.refl (comparable.composable.test (comparable.tame_eval condition))

/-- What comes after a condition is met does not matter if that is an error. -/
theorem unlessFails {condition : Prop} [Decidable condition] {error : RuntimeError}
    {next next' : Unit → Run α} (goes : above (next' ()) (next ())) :
    above (if condition then Run.fail error >>= next' else next' ())
      (if condition then Run.fail error >>= next else next ()) := by
  have fails := comparable.refl (comparable.composable.stop (α := Unit) (.failed error))
  exact ite (comparable.bind fails fun _ => goes) goes

/-! ### Loops

The passes of both runs are counted down together. The shorter run is given up when it has
none left. -/

section Loops

variable {body body' : Run Unit} {passes passes' : Nat}

theorem whileHolds (condition : Expr) (runs : above body' body) (enough : passes ≤ passes') :
    above (Loop.whileHolds (Run.test condition) body' passes' : Run Unit)
      (Loop.whileHolds (Run.test condition) body passes) := by
  induction passes generalizing passes' with
  | zero =>
      apply comparable.unfinished
      exact comparable.composable.whileHolds
        (comparable.tame_above (comparable.test condition)) (comparable.tame_above runs) passes'
  | succ passes ih =>
      obtain ⟨passes', rfl⟩ := Nat.exists_eq_add_of_lt enough
      rw [Loop.whileHolds_succ, Loop.whileHolds_succ]
      refine comparable.bind (comparable.test condition) fun holds => ite ?_ (comparable.pure ())
      exact comparable.bind runs fun _ => ih (by omega)

theorem untilHolds (condition : Expr) (runs : above body' body) (enough : passes ≤ passes') :
    above (Loop.untilHolds (Run.test condition) body' passes' : Run Unit)
      (Loop.untilHolds (Run.test condition) body passes) := by
  induction passes generalizing passes' with
  | zero =>
      apply comparable.unfinished
      exact comparable.composable.untilHolds
        (comparable.tame_above (comparable.test condition)) (comparable.tame_above runs) passes'
  | succ passes ih =>
      obtain ⟨passes', rfl⟩ := Nat.exists_eq_add_of_lt enough
      rw [Loop.untilHolds_succ, Loop.untilHolds_succ]
      refine comparable.bind runs fun _ => ?_
      refine comparable.bind (comparable.test condition) fun holds => ?_
      exact ite (comparable.pure ()) (ih (by omega))

theorem counting {name : String} {last step : Integer}
    (writes : ∀ counter, tame (Run.assign name (.integer counter))) (runs : above body' body)
    (enough : passes ≤ passes') (counter : Integer) :
    above (Loop.counting name last step body' passes' counter : Run Unit)
      (Loop.counting name last step body passes counter) := by
  induction passes generalizing passes' counter with
  | zero =>
      apply comparable.unfinished
      exact comparable.composable.counting last step writes (comparable.tame_above runs) passes'
        counter
  | succ passes ih =>
      obtain ⟨passes', rfl⟩ := Nat.exists_eq_add_of_lt enough
      rw [Loop.counting_succ, Loop.counting_succ]
      refine ite (comparable.bind (comparable.refl (writes counter)) fun _ => ?_)
        (comparable.pure ())
      refine comparable.bind runs fun _ => ?_
      cases counter.add? step with
      | none => exact comparable.pure ()
      | some next => exact ih (by omega) next

theorem count {patience patience' : Nat} {name : String} {first last step : Expr}
    (runs : above body' body) (enough : patience ≤ patience') :
    above (Run.count patience' name first last step body')
      (Run.count patience name first last step body) := by
  obtain ⟨-, looks, writes⟩ := comparable.admits (.forLoop name first last step [])
  refine comparable.bind (comparable.refl looks) fun symbol => ?_
  refine comparable.unlessFails (comparable.unlessFails ?_)
  refine comparable.bind (comparable.eval first) fun first => ?_
  refine comparable.bind (comparable.eval last) fun last => ?_
  refine comparable.bind (comparable.eval step) fun step => ?_
  refine comparable.bind (comparable.lift first.loopBound) fun first => ?_
  refine comparable.bind (comparable.lift last.loopBound) fun last => ?_
  refine comparable.bind (comparable.lift step.loopBound) fun step => ?_
  exact comparable.bind (comparable.note _ _ _) fun _ =>
    comparable.counting writes runs enough first

end Loops

/-! ### Blocks -/

section Blocks

variable {patience patience' : Nat}

theorem execAll {block : List Stmt}
    (runs : ∀ stmt ∈ block, above (stmt.exec patience') (stmt.exec patience)) :
    above (execAll patience' block) (execAll patience block) := by
  induction block with
  | nil =>
      rw [Pseudocode.execAll, Pseudocode.execAll]
      exact comparable.pure ()
  | cons stmt rest ih =>
      obtain ⟨first, others⟩ := List.forall_mem_cons.1 runs
      rw [Pseudocode.execAll, Pseudocode.execAll]
      exact comparable.bind first fun _ => ih others

theorem block {block : List Stmt}
    (runs : ∀ stmt ∈ block, above (stmt.exec patience') (stmt.exec patience)) :
    above (compound block.length (Pseudocode.execAll patience' block))
      (compound block.length (Pseudocode.execAll patience block)) :=
  comparable.bind (comparable.note _ _ _) fun _ => comparable.execAll runs

theorem execCases {scrutinee : Value} {otherwise otherwise' : Run Unit}
    {cases : List (Expr × List Stmt)}
    (runs : ∀ arm ∈ cases, ∀ stmt ∈ arm.2, above (stmt.exec patience') (stmt.exec patience))
    (falls : above otherwise' otherwise) :
    above (execCases patience' scrutinee otherwise' cases)
      (execCases patience scrutinee otherwise cases) := by
  induction cases with
  | nil =>
      rw [Pseudocode.execCases, Pseudocode.execCases]
      exact falls
  | cons arm rest ih =>
      obtain ⟨body, bodies⟩ := List.forall_mem_cons.1 runs
      rw [Pseudocode.execCases, Pseudocode.execCases]
      refine comparable.bind (comparable.eval arm.1) fun found => ite ?_ (ih bodies)
      exact comparable.bind (comparable.note _ _ _) fun _ => comparable.block body

end Blocks

end Comparable

end Run

/-- **A statement with more patience is above the same statement with less.** -/
theorem Stmt.exec_compared [Memory] {tame : ∀ {α : Type}, Run α → Prop}
    {above : ∀ {α : Type}, Run α → Run α → Prop} (comparable : Run.Comparable tame above)
    {patience patience' : Nat} (enough : patience ≤ patience') (stmt : Stmt) :
    above (stmt.exec patience') (stmt.exec patience) := by
  have ite {condition : Prop} [Decidable condition] {yes yes' no no' : Run Unit} :=
    @Run.Comparable.ite _ @above Unit condition _ yes yes' no no'
  have noted (stmt : Stmt) := comparable.note .trace .statement fun _ => s!"execute {stmt.category}"
  have independent (stmt : Stmt) (same : stmt.exec patience' = stmt.exec patience) :
      above (stmt.exec patience') (stmt.exec patience) := by
    rw [same]
    exact comparable.refl (exec_composed comparable.composable fun part _ => comparable.admits part)
  induction stmt using Stmt.induction with
  | assign | assignAt | print | resize =>
      exact independent _ (by rw [Stmt.exec, Stmt.exec])
  | branch condition yes no runs others =>
      cases no with
      | none =>
          rw [Stmt.exec, Stmt.exec]
          refine comparable.bind (noted _) fun _ => ?_
          refine comparable.bind (comparable.test condition) fun holds => ?_
          exact ite (comparable.block runs) (comparable.pure ())
      | some no =>
          rw [Stmt.exec, Stmt.exec]
          refine comparable.bind (noted _) fun _ => ?_
          refine comparable.bind (comparable.test condition) fun holds => ?_
          exact ite (comparable.block runs) (comparable.block (others no rfl))
  | whileLoop condition body runs =>
      rw [Stmt.exec, Stmt.exec]
      exact comparable.bind (noted _) fun _ =>
        comparable.whileHolds condition (comparable.block runs) enough
  | repeatLoop condition body runs =>
      rw [Stmt.exec, Stmt.exec]
      exact comparable.bind (noted _) fun _ =>
        comparable.untilHolds condition (comparable.block runs) enough
  | forLoop name first last step body runs =>
      rw [Stmt.exec, Stmt.exec]
      exact comparable.bind (noted _) fun _ => comparable.count (comparable.block runs) enough
  | switch scrutinee cases otherwise runs others =>
      cases otherwise with
      | none =>
          rw [Stmt.exec, Stmt.exec]
          refine comparable.bind (noted _) fun _ => ?_
          refine comparable.bind (comparable.eval scrutinee) fun value => ?_
          exact comparable.execCases runs (comparable.pure ())
      | some otherwise =>
          rw [Stmt.exec, Stmt.exec]
          refine comparable.bind (noted _) fun _ => ?_
          refine comparable.bind (comparable.eval scrutinee) fun value => ?_
          exact comparable.execCases runs (comparable.block (others otherwise rfl))

/-! ## Runs that end -/

namespace Run

variable {α β : Type}

/-- Unless a run is given up, a longer one does the same. -/
def Prolongs (longer shorter : Run α) : Prop :=
  ∀ state, (∃ next, shorter state = .error .unfinished next) ∨ longer state = shorter state

namespace Prolongs

theorem refl (run : Run α) : run.Prolongs run := fun _ => .inr rfl

/-- A run that was not given up has the outcome of the longer one. -/
theorem eq_of_ends {longer shorter : Run α} (prolongs : longer.Prolongs shorter) {state : State}
    (ends : ∀ next, shorter state ≠ .error .unfinished next) : longer state = shorter state := by
  rcases prolongs state with ⟨next, gaveUp⟩ | same
  · exact absurd gaveUp (ends next)
  · exact same

theorem bind {first first' : Run α} {second second' : α → Run β}
    (earlier : first'.Prolongs first) (later : ∀ a, (second' a).Prolongs (second a)) :
    (first' >>= second').Prolongs (first >>= second) := by
  intro state
  rcases earlier state with ⟨next, gaveUp⟩ | same
  · exact .inl ⟨next, bind_error gaveUp⟩
  · cases ran : first state with
    | error stop next =>
        right
        rw [bind_error (same.trans ran), bind_error ran]
    | ok a next =>
        rw [bind_ok (same.trans ran), bind_ok ran]
        exact later a next

theorem comparable [Memory] : Comparable (fun _ => True) Prolongs where
  composable := ⟨fun _ => trivial, fun _ => trivial, fun _ _ => trivial, fun _ _ _ => trivial⟩
  admits stmt := ⟨fun _ _ => trivial, by cases stmt <;> simp⟩
  refl _ := refl _
  bind := bind
  tame_above _ := trivial
  unfinished _ state := .inl ⟨state, rfl⟩

end Prolongs

end Run

open Run (Prolongs)

/-- **A statement that ends does not need its patience.** -/
theorem Stmt.exec_prolongs [Memory] {patience patience' : Nat} (enough : patience ≤ patience')
    (stmt : Stmt) : (stmt.exec patience').Prolongs (stmt.exec patience) :=
  exec_compared Prolongs.comparable enough stmt

theorem execAll_prolongs [Memory] {patience patience' : Nat} (enough : patience ≤ patience')
    (block : List Stmt) : (execAll patience' block).Prolongs (execAll patience block) :=
  Prolongs.comparable.execAll fun stmt _ => stmt.exec_prolongs enough

/-- Neither does a program. -/
theorem Program.exec_prolongs [Memory] {patience patience' : Nat} (enough : patience ≤ patience')
    (program : Program) : (program.exec patience').Prolongs (program.exec patience) := by
  have body : (Run.compound program.body.length (execAll patience' program.body)).Prolongs
      (Run.compound program.body.length (execAll patience program.body)) :=
    Prolongs.comparable.block fun stmt _ => stmt.exec_prolongs enough
  refine .bind (.refl _) fun _ => .bind (.refl _) fun _ => ?_
  exact .bind body fun _ => .refl _

end Pseudocode
