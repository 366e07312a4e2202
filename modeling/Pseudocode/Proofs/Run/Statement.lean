import Pseudocode.Proofs.Run.Triple

/-!
# Invariants of statements

A statement contains blocks of statements, some of them inside options and
pairs. `Stmt.induction` hides that nesting: a property of all statements holds
if each form has it whenever every statement in its blocks does.

For each form of statement there is one rule here that takes an invariant from
its expressions and blocks to the whole statement. Statements change a table in
three ways only, so an invariant that the three writes keep is kept by every
statement (`Stmt.exec_keeps`).
-/

set_option autoImplicit false

namespace Pseudocode

/-- Induction on statements, with the hypothesis for every statement of every
block inside. -/
@[elab_as_elim]
theorem Stmt.induction {holds : Stmt → Prop}
    (assign : ∀ name value, holds (.assign name value))
    (assignAt : ∀ name index value, holds (.assignAt name index value))
    (print : ∀ values, holds (.print values))
    (branch : ∀ condition yes no, (∀ stmt ∈ yes, holds stmt) →
      (∀ block ∈ no, ∀ stmt ∈ block, holds stmt) → holds (.branch condition yes no))
    (whileLoop : ∀ condition body, (∀ stmt ∈ body, holds stmt) → holds (.whileLoop condition body))
    (forLoop : ∀ name first last step body, (∀ stmt ∈ body, holds stmt) →
      holds (.forLoop name first last step body))
    (repeatLoop : ∀ condition body, (∀ stmt ∈ body, holds stmt) →
      holds (.repeatLoop condition body))
    (switch : ∀ scrutinee cases otherwise, (∀ arm ∈ cases, ∀ stmt ∈ arm.2, holds stmt) →
      (∀ block ∈ otherwise, ∀ stmt ∈ block, holds stmt) →
      holds (.switch scrutinee cases otherwise))
    (resize : ∀ name size, holds (.resize name size)) (stmt : Stmt) : holds stmt := by
  refine @Stmt.rec holds (fun block => ∀ stmt ∈ block, holds stmt)
    (fun option => ∀ block ∈ option, ∀ stmt ∈ block, holds stmt)
    (fun cases => ∀ arm ∈ cases, ∀ stmt ∈ arm.2, holds stmt)
    (fun arm => ∀ stmt ∈ arm.2, holds stmt)
    assign assignAt print branch whileLoop forLoop repeatLoop switch resize
    ?_ ?_ ?_ ?_ ?_ ?_ ?_ stmt
  · simp
  · intro head tail first others
    exact List.forall_mem_cons.2 ⟨first, others⟩
  · simp
  · intro block inside found same
    rw [Option.mem_some_iff] at same
    exact same ▸ inside
  · simp
  · intro head tail first others
    exact List.forall_mem_cons.2 ⟨first, others⟩
  · exact fun _ _ inside => inside

variable [Writer]

namespace Run.Ensures

variable {inv : Table → Prop} {stops : Stop → Prop} {patience : Nat}

/-! ## Steps with any reason to stop -/

theorem evalAnyhow (expr : Expr) : Ensures inv (fun _ => True) (Run.eval expr) anything :=
  eval (fun _ _ _ _ => trivial) fun _ _ _ _ => trivial

theorem liftAnyhow {α : Type} (computed : Except RuntimeError α) :
    Ensures inv (fun _ => True) (Run.lift computed) anything :=
  lift (fun _ _ => trivial) fun _ _ => trivial

theorem testAnyhow (expr : Expr) : Ensures inv (fun _ => True) (Run.test expr) anything :=
  bind (evalAnyhow expr) fun _ _ => liftAnyhow _

theorem indexAnyhow (expr : Expr) : Ensures inv (fun _ => True) (Run.index expr) anything :=
  bind (evalAnyhow expr) fun _ _ => liftAnyhow _

theorem symbolAnyhow (name : String) :
    Ensures inv (fun _ => True) (Run.symbol name) anything :=
  symbol (fun _ _ _ _ => trivial) fun _ _ _ => trivial

theorem acceptableAnyhow (name : String) (value : Expr) :
    Ensures inv (fun _ => True) (Run.acceptable name value) anything :=
  bind (symbolAnyhow name) fun _ _ => bind (evalAnyhow value) fun _ _ => liftAnyhow _

/-! ## Rows of steps -/

theorem compound {count : Nat} {statements : Run Unit}
    (runs : Ensures inv stops statements anything) :
    Ensures inv stops (Run.compound count statements) anything :=
  bind (note _ _ _) fun _ _ => runs

theorem evalAll {values : List Expr}
    (each : ∀ expr ∈ values, Ensures inv stops (Run.eval expr) anything) :
    Ensures inv stops (Run.evalAll values) anything := by
  induction values with
  | nil => exact pure trivial
  | cons expr rest ih =>
      obtain ⟨first, others⟩ := List.forall_mem_cons.1 each
      exact bind first fun _ _ => bind (ih others) fun _ _ => pure trivial

variable [Memory]

/-! ## Blocks -/

theorem execAll {block : List Stmt}
    (runs : ∀ stmt ∈ block, Ensures inv stops (stmt.exec patience) anything) :
    Ensures inv stops (Pseudocode.execAll patience block) anything := by
  induction block with
  | nil =>
      rw [Pseudocode.execAll]
      exact pure trivial
  | cons stmt rest ih =>
      obtain ⟨first, others⟩ := List.forall_mem_cons.1 runs
      rw [Pseudocode.execAll]
      exact bind first fun _ _ => ih others

/-- The block that a form of statement runs. -/
theorem block {block : List Stmt}
    (runs : ∀ stmt ∈ block, Ensures inv stops (stmt.exec patience) anything) :
    Ensures inv stops (Run.compound block.length (Pseudocode.execAll patience block)) anything :=
  compound (execAll runs)

/-- The block that a form of statement may lack. -/
theorem blockIfAny {option : Option (List Stmt)}
    (runs : ∀ block ∈ option, ∀ stmt ∈ block, Ensures inv stops (stmt.exec patience) anything) :
    Ensures inv stops
      (match option with
        | some block => Run.compound block.length (Pseudocode.execAll patience block)
        | none => Pure.pure ()) anything := by
  cases option with
  | none => exact pure trivial
  | some found => exact block (runs found rfl)

/-- The arms of a choice by value. -/
theorem execCases {scrutinee : Value} {otherwise : Run Unit} {cases : List (Expr × List Stmt)}
    (values : ∀ arm ∈ cases, Ensures inv stops (Run.eval arm.1) anything)
    (runs : ∀ arm ∈ cases, ∀ stmt ∈ arm.2, Ensures inv stops (stmt.exec patience) anything)
    (falls : Ensures inv stops otherwise anything) :
    Ensures inv stops (Pseudocode.execCases patience scrutinee otherwise cases) anything := by
  induction cases with
  | nil =>
      rw [Pseudocode.execCases]
      exact falls
  | cons arm rest ih =>
      obtain ⟨value, others⟩ := List.forall_mem_cons.1 values
      obtain ⟨body, bodies⟩ := List.forall_mem_cons.1 runs
      rw [Pseudocode.execCases]
      refine bind value fun found _ => ite (fun _ => ?_) fun _ => ih others bodies
      exact bind (note _ _ _) fun _ _ => block body

/-! ## Forms of statements -/

theorem printing {values : List Expr}
    (each : ∀ expr ∈ values, Ensures inv stops (Run.eval expr) anything)
    (allowed : ∀ details, stops (.failed (.output details))) :
    Ensures inv stops (Stmt.exec patience (.print values)) anything := by
  rw [Stmt.exec]
  exact bind (note _ _ _) fun _ _ => bind (evalAll each) fun _ _ => print _ allowed

theorem branch {condition : Expr} {yes : List Stmt} {no : Option (List Stmt)}
    (tests : Ensures inv stops (Run.test condition) anything)
    (runs : ∀ stmt ∈ yes, Ensures inv stops (stmt.exec patience) anything)
    (others : ∀ block ∈ no, ∀ stmt ∈ block, Ensures inv stops (stmt.exec patience) anything) :
    Ensures inv stops (Stmt.exec patience (.branch condition yes no)) anything := by
  cases no with
  | none =>
      rw [Stmt.exec]
      refine bind (note _ _ _) fun _ _ => bind tests fun holds _ => ?_
      exact ite (fun _ => block runs) fun _ => pure trivial
  | some no =>
      rw [Stmt.exec]
      refine bind (note _ _ _) fun _ _ => bind tests fun holds _ => ?_
      exact ite (fun _ => block runs) fun _ => block (others no rfl)

theorem whileLoop {condition : Expr} {body : List Stmt} (unfinished : stops .unfinished)
    (tests : Ensures inv stops (Run.test condition) anything)
    (runs : ∀ stmt ∈ body, Ensures inv stops (stmt.exec patience) anything) :
    Ensures inv stops (Stmt.exec patience (.whileLoop condition body)) anything := by
  rw [Stmt.exec]
  exact bind (note _ _ _) fun _ _ => whileHolds unfinished tests (block runs) patience

theorem repeatLoop {condition : Expr} {body : List Stmt} (unfinished : stops .unfinished)
    (tests : Ensures inv stops (Run.test condition) anything)
    (runs : ∀ stmt ∈ body, Ensures inv stops (stmt.exec patience) anything) :
    Ensures inv stops (Stmt.exec patience (.repeatLoop condition body)) anything := by
  rw [Stmt.exec]
  exact bind (note _ _ _) fun _ _ => untilHolds unfinished tests (block runs) patience

/-- The variable of a counting loop is looked at once, and its bounds are computed once.
What is learned then has to cover all the passes. -/
theorem forLoopWith {name : String} {first last step : Expr} {body : List Stmt}
    {found : Symbol → Prop} {bound isStep : Value → Prop}
    (looks : Ensures inv stops (Run.symbol name) found)
    (isArray : ∀ symbol, found symbol → symbol.isArray = true → stops (.failed (.isAnArray name)))
    (wrongType : ∀ symbol, found symbol → symbol.type ≠ .integer →
      stops (.failed (.invalidLoopType symbol.type)))
    (firsts : Ensures inv stops (Run.eval first) bound)
    (lasts : Ensures inv stops (Run.eval last) bound)
    (steps : Ensures inv stops (Run.eval step) isStep)
    (bounds : ∀ value error, bound value ∨ isStep value → value.loopBound = .error error →
      stops (.failed error))
    (counts : ∀ symbol, found symbol → symbol.type = .integer → symbol.isArray = false →
      ∀ first last step : Integer, isStep (.integer step) →
        Ensures inv stops (Loop.counting name last step
          (Run.compound body.length (Pseudocode.execAll patience body)) patience first) anything) :
    Ensures inv stops (Stmt.exec patience (.forLoop name first last step body)) anything := by
  have bounded : ∀ value, bound value ∨ isStep value →
      Ensures inv stops (Run.lift value.loopBound) fun n => value = .integer n := by
    refine fun value known => lift (fun n found => ?_) fun error => bounds value error known
    cases value with
    | integer m => rw [Except.ok.inj found]
    | _ => cases found
  rw [Stmt.exec]
  refine bind (note _ _ _) fun _ _ => bind looks fun symbol known => ?_
  refine unlessFails (isArray symbol known) fun scalar => ?_
  refine unlessFails (wrongType symbol known) fun integer => ?_
  refine bind firsts fun first isFirst => bind lasts fun last isLast => ?_
  refine bind steps fun step stepped => bind (bounded first (.inl isFirst)) fun first _ => ?_
  refine bind (bounded last (.inl isLast)) fun last _ => ?_
  refine bind (bounded step (.inr stepped)) fun step same => ?_
  refine bind (note _ _ _) fun _ _ => ?_
  exact counts symbol known (Decidable.not_not.1 integer) (Bool.eq_false_iff.2 scalar) first last
    step (same ▸ stepped)

/-- A counting loop of which the passes may be used up. -/
theorem forLoop {name : String} {first last step : Expr} {body : List Stmt}
    {found : Symbol → Prop} {bound : Value → Prop} (unfinished : stops .unfinished)
    (looks : Ensures inv stops (Run.symbol name) found)
    (isArray : ∀ symbol, found symbol → symbol.isArray = true → stops (.failed (.isAnArray name)))
    (wrongType : ∀ symbol, found symbol → symbol.type ≠ .integer →
      stops (.failed (.invalidLoopType symbol.type)))
    (firsts : Ensures inv stops (Run.eval first) bound)
    (lasts : Ensures inv stops (Run.eval last) bound)
    (steps : Ensures inv stops (Run.eval step) bound)
    (bounds : ∀ value error, bound value → value.loopBound = .error error →
      stops (.failed error))
    (writes : ∀ symbol, found symbol → symbol.type = .integer → symbol.isArray = false →
      ∀ counter, Ensures inv stops (Run.assign name (.integer counter)) anything)
    (runs : ∀ stmt ∈ body, Ensures inv stops (stmt.exec patience) anything) :
    Ensures inv stops (Stmt.exec patience (.forLoop name first last step body)) anything :=
  forLoopWith looks isArray wrongType firsts lasts steps
    (fun value error known => bounds value error (known.elim id id))
    fun symbol known integer scalar first last step _ =>
      counting last step unfinished (writes symbol known integer scalar) (block runs) patience first

theorem switch {scrutinee : Expr} {cases : List (Expr × List Stmt)}
    {otherwise : Option (List Stmt)} (value : Ensures inv stops (Run.eval scrutinee) anything)
    (values : ∀ arm ∈ cases, Ensures inv stops (Run.eval arm.1) anything)
    (runs : ∀ arm ∈ cases, ∀ stmt ∈ arm.2, Ensures inv stops (stmt.exec patience) anything)
    (others : ∀ block ∈ otherwise, ∀ stmt ∈ block,
      Ensures inv stops (stmt.exec patience) anything) :
    Ensures inv stops (Stmt.exec patience (.switch scrutinee cases otherwise)) anything := by
  cases otherwise with
  | none =>
      rw [Stmt.exec]
      refine bind (note _ _ _) fun _ _ => bind value fun found _ => ?_
      exact execCases values runs (blockIfAny others)
  | some otherwise =>
      rw [Stmt.exec]
      refine bind (note _ _ _) fun _ _ => bind value fun found _ => ?_
      exact execCases values runs (blockIfAny others)

end Run.Ensures

/-! ## Invariants that every write keeps -/

variable [Memory]

/-- An invariant of tables that no write can break, whatever is written. -/
structure Table.KeptByWrites (inv : Table → Prop) : Prop where
  assignment : ∀ {table name value change}, inv table →
    table.assignment name value = .ok change → inv (table.modify name change)
  elementAssignment : ∀ {table name index value change}, inv table →
    table.elementAssignment name index value = .ok change → inv (table.modify name change)
  resizing : ∀ {table name size change}, inv table →
    table.resizing name size = .ok change → inv (table.modify name change)

open Run (Ensures anything)

/-- **What the writes keep, every statement keeps,** also where it stops. -/
theorem Stmt.exec_keeps {inv : Table → Prop} (kept : Table.KeptByWrites inv) (patience : Nat)
    (stmt : Stmt) : Ensures inv (fun _ => True) (stmt.exec patience) anything := by
  have assigns : ∀ name value,
      Ensures inv (fun _ => True) (Run.assign name value) anything := fun name value =>
    .assign (fun _ _ holds planned => kept.assignment holds planned) fun _ _ _ _ => trivial
  induction stmt using Stmt.induction with
  | assign name value =>
      rw [Stmt.exec]
      refine .bind (.note _ _ _) fun _ _ => .bind (.acceptableAnyhow name value) fun found _ => ?_
      exact assigns name found
  | assignAt name index value =>
      rw [Stmt.exec]
      refine .bind (.note _ _ _) fun _ _ => .bind (.acceptableAnyhow name value) fun found _ => ?_
      refine .bind (.indexAnyhow index) fun position _ => ?_
      exact .assignAt (fun _ _ holds planned => kept.elementAssignment holds planned)
        fun _ _ _ _ => trivial
  | print values => exact .printing (fun expr _ => .evalAnyhow expr) fun _ => trivial
  | branch condition yes no runs others => exact .branch (.testAnyhow condition) runs others
  | whileLoop condition body runs => exact .whileLoop trivial (.testAnyhow condition) runs
  | repeatLoop condition body runs => exact .repeatLoop trivial (.testAnyhow condition) runs
  | forLoop name first last step body runs =>
      exact .forLoop trivial (.symbolAnyhow name) (fun _ _ _ => trivial) (fun _ _ _ => trivial)
        (.evalAnyhow first) (.evalAnyhow last) (.evalAnyhow step) (fun _ _ _ _ => trivial)
        (fun _ _ _ _ counter => assigns name (.integer counter)) runs
  | switch scrutinee cases otherwise runs others =>
      exact .switch (.evalAnyhow scrutinee) (fun arm _ => .evalAnyhow arm.1) runs others
  | resize name size =>
      rw [Stmt.exec]
      refine .bind (.note _ _ _) fun _ _ => .bind (.symbolAnyhow name) fun _ _ => ?_
      refine .bind (.evalAnyhow size) fun length _ => ?_
      exact .resize (fun _ _ _ _ => trivial)
        (fun _ _ holds planned => kept.resizing holds planned) fun _ _ _ _ => trivial

/-- So does every body. -/
theorem execAll_keeps {inv : Table → Prop} (kept : Table.KeptByWrites inv) (patience : Nat)
    (body : List Stmt) : Ensures inv (fun _ => True) (execAll patience body) anything :=
  .execAll fun stmt _ => stmt.exec_keeps kept patience

end Pseudocode
