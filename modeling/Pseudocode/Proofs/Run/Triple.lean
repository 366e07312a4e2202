import Pseudocode.Execution
import Pseudocode.Proofs.Table.Planning

/-!
# What runs keep

A triple says what a step of a run does to the table: from a table with the
first property it ends with a result and a table with the second property, or it
stops for some reason with a table that has the third one. Output and journal
are left open, so a triple holds whatever was printed or recorded before.

Most properties of tables are kept all along. `Ensures` is the triple of such an
invariant, together with a property of the result and a bound on the reasons to
stop. The rules of this module take an invariant from the parts of a step to the
whole step, through sequences and through the three loops (by induction on the
passes).
-/

set_option autoImplicit false

namespace Pseudocode

namespace Run

variable [Writer] {α β : Type}

/-! ## Triples -/

/-- From a table with the first property, a step ends with the second or stops
with the third. -/
def Triple (before : Table → Prop) (run : Run α) (after : α → Table → Prop)
    (stopped : Stop → Table → Prop) : Prop :=
  ∀ state : State, before state.table →
    match run state with
    | .ok a next => after a next.table
    | .error stop next => stopped stop next.table

namespace Triple

variable {before : Table → Prop} {stopped : Stop → Table → Prop}

/-- A triple with weaker conclusions. -/
theorem weaken {run : Run α} {after after' : α → Table → Prop}
    {stopped' : Stop → Table → Prop} (triple : Triple before run after stopped)
    (ends : ∀ a table, after a table → after' a table)
    (stops : ∀ stop table, stopped stop table → stopped' stop table) :
    Triple before run after' stopped' := by
  intro state holds
  have outcome := triple state holds
  cases ran : run state with
  | ok a next =>
      rw [ran] at outcome
      exact ends a next.table outcome
  | error stop next =>
      rw [ran] at outcome
      exact stops stop next.table outcome

/-- A step after a step. -/
theorem bind {first : Run α} {second : α → Run β} {middle : α → Table → Prop}
    {after : β → Table → Prop} (earlier : Triple before first middle stopped)
    (later : ∀ a, Triple (middle a) (second a) after stopped) :
    Triple before (first >>= second) after stopped := by
  intro state holds
  have outcome := earlier state holds
  change match EStateM.bind first second state with
    | .ok a next => after a next.table
    | .error stop next => stopped stop next.table
  cases ran : first state with
  | ok a next =>
      rw [ran] at outcome
      simp only [EStateM.bind, ran]
      exact later a next outcome
  | error stop next =>
      rw [ran] at outcome
      simp only [EStateM.bind, ran]
      exact outcome

/-- Steps for the entries of a list, of which the first leads to where the
others start. -/
theorem forM_cons {step : α → Run Unit} {a : α} {rest : List α} {middle : Table → Prop}
    {after : Unit → Table → Prop} (earlier : Triple before (step a) (fun _ => middle) stopped)
    (later : Triple middle (rest.forM step) after stopped) :
    Triple before ((a :: rest).forM step) after stopped :=
  bind earlier fun _ => later

/-- Steps for the entries of a list keep what each of them keeps. -/
theorem forM_keeps {inv : Table → Prop} {step : α → Run Unit} {items : List α}
    (keeps : ∀ item ∈ items, Triple inv (step item) (fun _ => inv) stopped) :
    Triple inv (items.forM step) (fun _ => inv) stopped := by
  induction items with
  | nil => exact fun _ holds => holds
  | cons item rest ih =>
      obtain ⟨first, others⟩ := List.forall_mem_cons.1 keeps
      exact .forM_cons first (ih others)

/-- A declaration leads to another table, or fails and leaves the table as it was. -/
theorem declare {name : String} {symbol : Symbol} {after : Table → Prop}
    (declares : ∀ table later, before table → table.declare name symbol = .ok later → after later)
    (fails : ∀ table error, before table → table.declare name symbol = .error error →
      stopped (.failed error) table) :
    Triple before (Run.declare name symbol) (fun _ => after) stopped := by
  have updated : Triple before (Run.update (.declare name symbol)) (fun _ => after) stopped := by
    intro state holds
    rw [update_eq (Update.declare_checksFirst name symbol), ← Table.declare]
    cases declared : state.table.declare name symbol with
    | ok later => exact declares state.table later holds declared
    | error error => exact fails state.table error holds declared
  exact bind updated fun _ _ holds => holds

end Triple

/-! ## Invariants -/

/-- A step keeps an invariant of the table. Its result has a property, and it
stops for certain reasons only. -/
def Ensures (inv : Table → Prop) (stops : Stop → Prop) (run : Run α) (result : α → Prop) : Prop :=
  Triple inv run (fun a table => inv table ∧ result a) (fun stop table => inv table ∧ stops stop)

/-- Nothing is asked of a result. -/
abbrev anything : α → Prop := fun _ => True

namespace Ensures

variable {inv : Table → Prop} {stops : Stop → Prop}

theorem weaken {run : Run α} {result result' : α → Prop}
    (ensures : Ensures inv stops run result) (weaker : ∀ a, result a → result' a) :
    Ensures inv stops run result' :=
  Triple.weaken ensures (fun a _ holds => ⟨holds.1, weaker a holds.2⟩) fun _ _ holds => holds

/-- The invariant alone, with the reasons to stop. -/
theorem toTriple {run : Run α} {result : α → Prop} (ensures : Ensures inv stops run result) :
    Triple inv run (fun _ table => inv table) (fun stop _ => stops stop) :=
  Triple.weaken ensures (fun _ _ holds => holds.1) fun _ _ holds => holds.2

theorem pure {a : α} {result : α → Prop} (holds : result a) :
    Ensures inv stops (Pure.pure a : Run α) result :=
  fun _ kept => ⟨kept, holds⟩

theorem fail {error : RuntimeError} {result : α → Prop} (allowed : stops (.failed error)) :
    Ensures inv stops (Run.fail error : Run α) result :=
  fun _ kept => ⟨kept, allowed⟩

/-- A step that keeps the invariant, before one that need not keep it. -/
theorem bindTriple {first : Run α} {second : α → Run β} {middle : α → Prop}
    {after : β → Table → Prop} (earlier : Ensures inv stops first middle)
    (later : ∀ a, middle a →
      Triple inv (second a) after fun stop table => inv table ∧ stops stop) :
    Triple inv (first >>= second) after fun stop table => inv table ∧ stops stop :=
  Triple.bind earlier fun a state holds => later a holds.2 state holds.1

theorem bind {first : Run α} {second : α → Run β} {middle : α → Prop} {result : β → Prop}
    (earlier : Ensures inv stops first middle)
    (later : ∀ a, middle a → Ensures inv stops (second a) result) :
    Ensures inv stops (first >>= second) result :=
  bindTriple earlier later

theorem forM {step : α → Run Unit} {items : List α}
    (each : ∀ item ∈ items, Ensures inv stops (step item) anything) :
    Ensures inv stops (items.forM step) anything := by
  have kept : Triple inv (items.forM step) (fun _ => inv)
      (fun stop table => inv table ∧ stops stop) :=
    .forM_keeps fun item member =>
      Triple.weaken (each item member) (fun _ _ holds => holds.1) fun _ _ holds => holds
  exact kept.weaken (fun _ _ holds => ⟨holds, trivial⟩) fun _ _ holds => holds

/-- A step that computes from the table alone. -/
theorem ofTable (compute : Table → Except RuntimeError α) {result : α → Prop}
    (ends : ∀ table a, inv table → compute table = .ok a → result a)
    (fails : ∀ table error, inv table → compute table = .error error → stops (.failed error)) :
    Ensures inv stops (do lift (compute (← get).table) : Run α) result := by
  intro state kept
  change match lift (compute state.table) state with
    | .ok a next => inv next.table ∧ result a
    | .error stop next => inv next.table ∧ stops stop
  cases computed : compute state.table with
  | ok a => exact ⟨kept, ends state.table a kept computed⟩
  | error error => exact ⟨kept, fails state.table error kept computed⟩

theorem lift {computed : Except RuntimeError α} {result : α → Prop}
    (ends : ∀ a, computed = .ok a → result a)
    (fails : ∀ error, computed = .error error → stops (.failed error)) :
    Ensures inv stops (Run.lift computed) result := by
  intro state kept
  cases computed with
  | ok a => exact ⟨kept, ends a rfl⟩
  | error error => exact ⟨kept, fails error rfl⟩

/-- A choice between two steps. -/
theorem ite {condition : Prop} [Decidable condition] {first second : Run α}
    {result : α → Prop} (yes : condition → Ensures inv stops first result)
    (no : ¬ condition → Ensures inv stops second result) :
    Ensures inv stops (if condition then first else second) result := by
  by_cases holds : condition
  · rw [if_pos holds]
    exact yes holds
  · rw [if_neg holds]
    exact no holds

/-- Going on unless a condition is met, which is an error. -/
theorem unlessFails {condition : Prop} [Decidable condition] {error : RuntimeError}
    {next : Unit → Run α} {result : α → Prop} (fails : condition → stops (.failed error))
    (goes : ¬ condition → Ensures inv stops (next ()) result) :
    Ensures inv stops (if condition then Run.fail error >>= next else next ()) result := by
  refine ite (fun holds => ?_) goes
  have stopped : Ensures inv stops (Run.fail error : Run Unit) (fun _ => False) :=
    fail (fails holds)
  exact bind stopped fun _ none => none.elim

/-! ## Records and output -/

theorem note (level : Level) (origin : Origin) (message : Unit → String) :
    Ensures inv stops (Run.note level origin message) anything :=
  fun _ kept => ⟨kept, trivial⟩

theorem noteVisits (expr : Expr) : Ensures inv stops (Run.noteVisits expr) anything := by
  intro state kept
  by_cases keeps : state.journal.keeps .trace = true
  · simp only [Run.noteVisits, if_pos keeps]
    exact ⟨kept, trivial⟩
  · simp only [Run.noteVisits, if_neg keeps]
    exact ⟨kept, trivial⟩

/-- Asking the writer can fail only because of the output. -/
theorem ask (request : Writer.Stream → Except String Unit × Writer.Stream)
    (allowed : ∀ details, stops (.failed (.output details))) :
    Ensures inv stops (Run.ask request) anything := by
  intro state kept
  rcases asked : request state.output with ⟨answer, output⟩
  cases answer with
  | ok =>
      simp only [Run.ask, asked]
      exact ⟨kept, trivial⟩
  | error reason =>
      simp only [Run.ask, asked]
      exact ⟨kept, allowed reason⟩

theorem print (line : String) (allowed : ∀ details, stops (.failed (.output details))) :
    Ensures inv stops (Run.print line) anything :=
  bind (ask _ allowed) fun _ _ => ask _ allowed

theorem flush (allowed : ∀ details, stops (.failed (.output details))) :
    Ensures inv stops Run.flush anything :=
  ask _ allowed

/-! ## Reading and writing -/

theorem eval {expr : Expr} {result : Value → Prop}
    (ends : ∀ table value, inv table → expr.eval table = .ok value → result value)
    (fails : ∀ table error, inv table → expr.eval table = .error error →
      stops (.failed error)) :
    Ensures inv stops (Run.eval expr) result :=
  bind (noteVisits expr) fun _ _ => ofTable (fun table => expr.eval table) ends fails

theorem symbol {name : String} {result : Symbol → Prop}
    (ends : ∀ table symbol, inv table → table.find? name = some symbol → result symbol)
    (fails : ∀ table, inv table → table.find? name = none → stops (.failed (.notDeclared name))) :
    Ensures inv stops (Run.symbol name) result := by
  unfold Run.symbol
  refine ofTable (fun table => table.get name) (fun table symbol kept got => ?_)
    fun table error kept missing => ?_
  · cases found : table.find? name with
    | none => simp [Table.get, found] at got
    | some known =>
        simp only [Table.get, found, demand_some, Except.ok.injEq] at got
        exact got ▸ ends table known kept found
  · cases found : table.find? name with
    | none =>
        simp only [Table.get, found, demand_none, Except.error.injEq] at missing
        exact missing ▸ fails table kept found
    | some known => simp [Table.get, found] at missing

/-- A planned change of a symbol. -/
theorem write {name : String} {plan : Table → Except RuntimeError (Symbol → Symbol)}
    (changes : ∀ table change, inv table → plan table = .ok change →
      inv (table.modify name change))
    (fails : ∀ table error, inv table → plan table = .error error → stops (.failed error)) :
    Ensures inv stops (Run.write name plan) anything := by
  intro state kept
  cases planned : plan state.table with
  | ok change =>
      rw [write_ok planned]
      exact ⟨changes state.table change kept planned, trivial⟩
  | error error =>
      rw [write_error planned]
      exact ⟨kept, fails state.table error kept planned⟩

theorem assign {name : String} {value : Value}
    (changes : ∀ table change, inv table → table.assignment name value = .ok change →
      inv (table.modify name change))
    (fails : ∀ table error, inv table → table.assignment name value = .error error →
      stops (.failed error)) :
    Ensures inv stops (Run.assign name value) anything := by
  rw [assign_eq_write]
  exact write changes fails

theorem assignAt {name : String} {index : Integer} {value : Value}
    (changes : ∀ table change, inv table → table.elementAssignment name index value = .ok change →
      inv (table.modify name change))
    (fails : ∀ table error, inv table → table.elementAssignment name index value = .error error →
      stops (.failed error)) :
    Ensures inv stops (Run.assignAt name index value) anything := by
  rw [assignAt_eq_write]
  exact write changes fails

theorem resize [Memory] {name : String} {size : Value}
    (asks : ∀ table error, inv table → table.newLength name size = .error error →
      stops (.failed error))
    (changes : ∀ table change, inv table → table.resizing name size = .ok change →
      inv (table.modify name change))
    (fails : ∀ table error, inv table → table.resizing name size = .error error →
      stops (.failed error)) :
    Ensures inv stops (Run.resize name size) anything := by
  have asked : Ensures inv stops
      (do Run.lift ((← get).table.newLength name size) : Run (Nat × Nat)) anything :=
    ofTable (fun table => table.newLength name size) (fun _ _ _ _ => trivial) asks
  rw [Run.resize_eq]
  exact bind asked fun _ _ => bind (note _ _ _) fun _ _ => write changes fails

theorem declare {name : String} {symbol : Symbol}
    (declares : ∀ table after, inv table → table.declare name symbol = .ok after → inv after)
    (fails : ∀ table error, inv table → table.declare name symbol = .error error →
      stops (.failed error)) :
    Ensures inv stops (Run.declare name symbol) anything := by
  have declared : Triple inv (Run.declare name symbol) (fun _ => inv)
      (fun stop table => inv table ∧ stops stop) :=
    .declare declares fun table error kept failed => ⟨kept, fails table error kept failed⟩
  exact declared.weaken (fun _ _ kept => ⟨kept, trivial⟩) fun _ _ holds => holds

/-! ## Loops

Each loop keeps what one pass keeps, by induction on the passes it is given. -/

section Loops

variable {test : Run Bool} {body : Run Unit}

theorem whileHolds (unfinished : stops .unfinished) (tests : Ensures inv stops test anything)
    (runs : Ensures inv stops body anything) (passes : Nat) :
    Ensures inv stops (Loop.whileHolds test body passes) anything := by
  induction passes with
  | zero => exact fun state kept => ⟨kept, unfinished⟩
  | succ passes ih =>
      intro state kept
      have tested := tests state kept
      cases ran : test state with
      | error stop next =>
          rw [ran] at tested
          simp only [Loop.whileHolds, ran]
          exact tested
      | ok holds next =>
          rw [ran] at tested
          cases holds with
          | false =>
              simp only [Loop.whileHolds, ran]
              exact tested
          | true =>
              have passed := runs next tested.1
              cases done : body next with
              | error stop last =>
                  rw [done] at passed
                  simp only [Loop.whileHolds, ran, done]
                  exact passed
              | ok _ last =>
                  rw [done] at passed
                  simp only [Loop.whileHolds, ran, done]
                  exact ih last passed.1

theorem untilHolds (unfinished : stops .unfinished) (tests : Ensures inv stops test anything)
    (runs : Ensures inv stops body anything) (passes : Nat) :
    Ensures inv stops (Loop.untilHolds test body passes) anything := by
  induction passes with
  | zero => exact fun state kept => ⟨kept, unfinished⟩
  | succ passes ih =>
      intro state kept
      have passed := runs state kept
      cases done : body state with
      | error stop next =>
          rw [done] at passed
          simp only [Loop.untilHolds, done]
          exact passed
      | ok _ next =>
          rw [done] at passed
          have tested := tests next passed.1
          cases ran : test next with
          | error stop last =>
              rw [ran] at tested
              simp only [Loop.untilHolds, done, ran]
              exact tested
          | ok holds last =>
              rw [ran] at tested
              cases holds with
              | true =>
                  simp only [Loop.untilHolds, done, ran]
                  exact ⟨tested.1, trivial⟩
              | false =>
                  simp only [Loop.untilHolds, done, ran]
                  exact ih last tested.1

/-- The counter is written without a test of its type, so the write has to keep
the invariant by itself. -/
theorem counting {name : String} (last step : Integer) (unfinished : stops .unfinished)
    (writes : ∀ counter, Ensures inv stops (Run.assign name (.integer counter)) anything)
    (runs : Ensures inv stops body anything) (passes : Nat) (counter : Integer) :
    Ensures inv stops (Loop.counting name last step body passes counter) anything := by
  induction passes generalizing counter with
  | zero => exact fun state kept => ⟨kept, unfinished⟩
  | succ passes ih =>
      intro state kept
      by_cases inside : counter.val ≤ last.val
      · have written := writes counter state kept
        cases wrote : Run.assign name (.integer counter) state with
        | error stop next =>
            rw [wrote] at written
            simp only [Loop.counting, if_pos inside, wrote]
            exact written
        | ok _ next =>
            rw [wrote] at written
            have passed := runs next written.1
            cases done : body next with
            | error stop after =>
                rw [done] at passed
                simp only [Loop.counting, if_pos inside, wrote, done]
                exact passed
            | ok _ after =>
                rw [done] at passed
                cases advanced : counter.add? step with
                | none =>
                    simp only [Loop.counting, if_pos inside, wrote, done, advanced]
                    exact ⟨passed.1, trivial⟩
                | some next =>
                    simp only [Loop.counting, if_pos inside, wrote, done, advanced]
                    exact ih next after passed.1
      · simp only [Loop.counting, if_neg inside]
        exact ⟨kept, trivial⟩

end Loops

end Ensures

end Run

end Pseudocode
