import Mathlib
import Pseudocode.Proofs.Run.Equivalence

/-!
# Choices by value

A choice by value compares the value of its scrutinee with those of its cases, without any
conversion (`Value.same`). A chain of branches compares them by the operator, which brings
numbers to floats and characters to texts first (`Operands.equal`). The two comparisons agree on
values of one type that is not that of arrays (`Value.same_eq_equal`).

Both statements find out which block they run before they run it. What they find is a matter of
the table alone (`Table.select`), and neither leaves a trace of the search. So a choice by value
shows what the chain shows, and nothing after the first case that fits is looked at.
-/

set_option autoImplicit false

namespace Pseudocode

/-! ## Two comparisons -/

/-- **Values of one type are compared alike.** Only arrays are not: the operator finds no two of
them equal. -/
theorem Value.same_eq_equal {left right : Value} (types : left.type = right.type)
    (scalar : left.type ≠ .array) : right.same left = (Operands.of left right).equal := by
  cases left with
  | integer m =>
      cases right with
      | integer n => exact BEq.comm
      | _ => cases types
  | float x =>
      cases right with
      | float y => exact BEq.comm
      | _ => cases types
  | character c =>
      cases right with
      | character d =>
          show (d == c) = (String.singleton c == String.singleton d)
          rw [BEq.comm, Bool.eq_iff_iff, beq_iff_eq, beq_iff_eq, String.singleton_inj]
      | _ => cases types
  | string s =>
      cases right with
      | string t => exact BEq.comm
      | _ => cases types
  | boolean a =>
      cases right with
      | boolean b => exact BEq.comm
      | _ => cases types
  | array slots => exact absurd rfl scalar

theorem Expr.eval_equal {table : Table} {left right : Expr} {holds : Bool}
    (computed : (Expr.binary .equal left right).eval table = .ok (.boolean holds)) :
    ∃ a b, left.eval table = .ok a ∧ right.eval table = .ok b ∧
      (Operands.of a b).equal = holds := by
  rw [Expr.eval] at computed
  obtain ⟨a, first, computed⟩ := bind_eq_ok.1 computed
  obtain ⟨b, second, computed⟩ := bind_eq_ok.1 computed
  exact ⟨a, b, first, second, Value.boolean.inj (Except.ok.inj computed)⟩

/-! ## Chains of branches -/

/-- What a chain does if no earlier case was the right one: a branch for each case, and the
default at the end. -/
def Stmt.elseIfs (scrutinee : Expr) (otherwise : Option (List Stmt)) :
    List (Expr × List Stmt) → Option (List Stmt)
  | [] => otherwise
  | (value, body) :: rest =>
    some [.branch (.binary .equal scrutinee value) body (elseIfs scrutinee otherwise rest)]

/-- A chain of branches, one inside the other. -/
def Stmt.chain (scrutinee : Expr) (first : Expr × List Stmt) (rest : List (Expr × List Stmt))
    (otherwise : Option (List Stmt)) : Stmt :=
  .branch (.binary .equal scrutinee first.1) first.2 (elseIfs scrutinee otherwise rest)

/-- The block of the first case with a value that fits, or the default. -/
def Table.select (table : Table) (fits : Value → Bool) (otherwise : Option (List Stmt)) :
    List (Expr × List Stmt) → Except RuntimeError (Option (List Stmt))
  | [] => .ok otherwise
  | (value, body) :: rest => do
    if fits (← value.eval table) then .ok (some body) else table.select fits otherwise rest

/-- Only the values of the cases matter to what fits. -/
theorem Table.select_congr {table : Table} {fits fits' : Value → Bool}
    {otherwise : Option (List Stmt)} {cases : List (Expr × List Stmt)}
    (agree : ∀ arm ∈ cases, ∀ value, arm.1.eval table = .ok value → fits value = fits' value) :
    table.select fits otherwise cases = table.select fits' otherwise cases := by
  induction cases with
  | nil => rfl
  | cons arm rest ih =>
      obtain ⟨first, others⟩ := List.forall_mem_cons.1 agree
      rw [select, select, ih others]
      cases computed : arm.1.eval table with
      | error error => rfl
      | ok value =>
          show (if fits value = true then _ else _) = if fits' value = true then _ else _
          rw [first value computed]

/-- The first case that fits is the one that is selected. -/
theorem Table.select_first {table : Table} {fits : Value → Bool} {earlier : List (Expr × List Stmt)}
    {value : Expr} {found : Value}
    (misses : ∀ arm ∈ earlier, ∃ other, arm.1.eval table = .ok other ∧ fits other = false)
    (computed : value.eval table = .ok found) (hit : fits found = true)
    (otherwise : Option (List Stmt)) (body : List Stmt) (later : List (Expr × List Stmt)) :
    table.select fits otherwise (earlier ++ (value, body) :: later) = .ok (some body) := by
  induction earlier with
  | nil =>
      rw [List.nil_append, select, computed]
      exact if_pos hit
  | cons arm rest ih =>
      obtain ⟨⟨other, computedOther, miss⟩, others⟩ := List.forall_mem_cons.1 misses
      rw [List.cons_append, select, computedOther, ← ih others]
      exact if_neg (Bool.eq_false_iff.1 miss)

section Runs

variable [Memory] [Writer]

namespace Run

/-- Runs a block, if there is one. -/
def blockIfGiven (patience : Nat) : Option (List Stmt) → Run Unit
  | some block => compound block.length (execAll patience block)
  | none => pure ()

theorem blockIfGiven_equivalent (patience : Nat) (block : Option (List Stmt)) :
    (blockIfGiven patience block).Equivalent (blockIfGiven patience block) := by
  cases block with
  | none => exact Equivalent.composable.pure ()
  | some block =>
      exact Equivalent.composable.bind (Equivalent.composable.note _ _ _) fun _ =>
        execAll_equivalent patience block

theorem execCases_equivalent (patience : Nat) (scrutinee : Value) (otherwise : Option (List Stmt))
    (cases : List (Expr × List Stmt)) :
    (execCases patience scrutinee (blockIfGiven patience otherwise) cases).Equivalent
      (execCases patience scrutinee (blockIfGiven patience otherwise) cases) :=
  execCases_composed Equivalent.composable (fun arm _ => .eval arm.1)
    (fun _ _ stmt _ => stmt.exec_equivalent patience) (blockIfGiven_equivalent patience otherwise)

/-- A choice finds its block by comparing without conversion. -/
theorem shows_execCases (patience : Nat) (scrutinee : Value) (otherwise : Option (List Stmt))
    (cases : List (Expr × List Stmt)) (state : State) :
    (execCases patience scrutinee (blockIfGiven patience otherwise) cases).shows state =
      showsNext (blockIfGiven patience) state
        (state.table.select (·.same scrutinee) otherwise cases) := by
  induction cases with
  | nil =>
      rw [execCases]
      rfl
  | cons arm rest ih =>
      obtain ⟨value, body⟩ := arm
      let next (found : Value) : Run Unit :=
        if found.same scrutinee then blockIfGiven patience (some body)
        else execCases patience scrutinee (blockIfGiven patience otherwise) rest
      have shown : (execCases patience scrutinee (blockIfGiven patience otherwise)
          ((value, body) :: rest)).shows state = showsNext next state (value.eval state.table) := by
        rw [execCases]
        apply shows_bind_computed (shows_eval value state)
        intro found
        by_cases fits : found.same scrutinee = true
        · simp only [next, if_pos fits]
          exact (blockIfGiven_equivalent patience (some body)).noted _ _ _
        · simp only [next, if_neg fits]
          exact execCases_equivalent patience scrutinee otherwise rest
      rw [shown, Table.select]
      cases value.eval state.table with
      | error error => rfl
      | ok found =>
          show (next found).shows state =
            showsNext _ state (if found.same scrutinee = true then _ else _)
          by_cases fits : found.same scrutinee = true
          · simp only [next, if_pos fits]
            rfl
          · simp only [next, if_neg fits]
            exact ih

/-- What stands after a case that fits is not looked at. -/
theorem execCases_upTo {patience : Nat} {scrutinee : Value} {otherwise otherwise' : Run Unit}
    {earlier later later' : List (Expr × List Stmt)} {value : Expr} {body : List Stmt}
    {found : Value} {state : State} (computed : value.eval state.table = .ok found)
    (hit : found.same scrutinee = true) :
    execCases patience scrutinee otherwise (earlier ++ (value, body) :: later) state =
      execCases patience scrutinee otherwise' (earlier ++ (value, body) :: later') state := by
  induction earlier generalizing state with
  | nil =>
      have shown := shows_eval value state
      rw [computed] at shown
      obtain ⟨journal, ran⟩ := Outcome.of_shown_ok shown
      rw [List.nil_append, List.nil_append, execCases, execCases, bind_ok ran, bind_ok ran,
        if_pos hit, if_pos hit]
  | cons arm rest ih =>
      have shown := shows_eval arm.1 state
      rw [List.cons_append, List.cons_append, execCases, execCases]
      cases looked : arm.1.eval state.table with
      | error error =>
          rw [looked] at shown
          obtain ⟨journal, ran⟩ := Outcome.of_shown_error shown
          rw [bind_error ran, bind_error ran]
      | ok other =>
          rw [looked] at shown
          obtain ⟨journal, ran⟩ := Outcome.of_shown_ok shown
          rw [bind_ok ran, bind_ok ran]
          by_cases fits : other.same scrutinee = true
          · rw [if_pos fits, if_pos fits]
          · rw [if_neg fits, if_neg fits]
            exact ih computed

end Run

open Run

/-- A branch finds its block by testing its condition. -/
theorem Stmt.shows_branch (patience : Nat) (condition : Expr) (yes : List Stmt)
    (no : Option (List Stmt)) (state : State) :
    ((Stmt.branch condition yes no).exec patience).shows state =
      showsNext (blockIfGiven patience) state (do
        let holds ← condition.eval state.table >>= Value.condition
        return if holds then some yes else no) := by
  let next (holds : Bool) : Run Unit := blockIfGiven patience (if holds then some yes else no)
  have runs : (Stmt.branch condition yes no).exec patience = (do
      note .trace .statement fun _ => s!"execute {(Stmt.branch condition yes no).category}"
      test condition >>= next) := by
    cases no with
    | none =>
        rw [Stmt.exec]
        apply bind_congr
        intro _
        apply bind_congr
        intro holds
        cases holds <;> rfl
    | some no =>
        rw [Stmt.exec]
        apply bind_congr
        intro _
        apply bind_congr
        intro holds
        cases holds <;> rfl
  have same (holds : Bool) : (next holds).Equivalent (next holds) :=
    blockIfGiven_equivalent patience (if holds then some yes else no)
  have tests : (test condition >>= next).Equivalent (test condition >>= next) :=
    .bind (Equivalent.composable.test (.eval condition)) same
  rw [runs, (tests.noted _ _ _) state state.journal,
    shows_bind_computed (shows_test condition state) same]
  cases condition.eval state.table >>= Value.condition with
  | error error => rfl
  | ok holds => rfl

theorem Stmt.exec_switch (patience : Nat) (scrutinee : Expr) (cases : List (Expr × List Stmt))
    (otherwise : Option (List Stmt)) :
    (Stmt.switch scrutinee cases otherwise).exec patience = (do
      note .trace .statement fun _ =>
        s!"execute {(Stmt.switch scrutinee cases otherwise).category}"
      let value ← eval scrutinee
      execCases patience value (blockIfGiven patience otherwise) cases) := by
  cases otherwise <;> rw [Stmt.exec] <;> rfl

/-- A choice finds its block by comparing its cases with its scrutinee. -/
theorem Stmt.shows_switch (patience : Nat) (scrutinee : Expr) (cases : List (Expr × List Stmt))
    (otherwise : Option (List Stmt)) (state : State) :
    ((Stmt.switch scrutinee cases otherwise).exec patience).shows state =
      showsNext (blockIfGiven patience) state (do
        let value ← scrutinee.eval state.table
        state.table.select (·.same value) otherwise cases) := by
  let next (value : Value) : Run Unit :=
    execCases patience value (blockIfGiven patience otherwise) cases
  have same (value : Value) : (next value).Equivalent (next value) :=
    execCases_equivalent patience value otherwise cases
  have compares : (eval scrutinee >>= next).Equivalent (eval scrutinee >>= next) :=
    .bind (.eval scrutinee) same
  rw [exec_switch, (compares.noted _ _ _) state state.journal,
    shows_bind_computed (shows_eval scrutinee state) same]
  cases scrutinee.eval state.table with
  | error error => rfl
  | ok value => exact shows_execCases patience value otherwise cases state

/-- A branch on the equality of two values. -/
theorem Stmt.shows_branch_equal (patience : Nat) (left right : Expr) (yes : List Stmt)
    (no : Option (List Stmt)) (state : State) :
    ((Stmt.branch (.binary .equal left right) yes no).exec patience).shows state =
      showsNext (blockIfGiven patience) state (do
        let a ← left.eval state.table
        let b ← right.eval state.table
        return if (Operands.of a b).equal then some yes else no) := by
  rw [shows_branch, Expr.eval]
  cases left.eval state.table with
  | error error => rfl
  | ok a =>
      cases right.eval state.table with
      | error error => rfl
      | ok b => rfl

/-- A block of one statement shows what the statement does. -/
theorem Stmt.shows_block (patience : Nat) (stmt : Stmt) (state : State) :
    (blockIfGiven patience (some [stmt])).shows state = (stmt.exec patience).shows state := by
  rw [blockIfGiven, compound_equivalent patience _ [stmt] state state.journal, execAll_single]

theorem Stmt.shows_elseIfs (patience : Nat) {scrutinee : Expr} {value : Value}
    (otherwise : Option (List Stmt)) (cases : List (Expr × List Stmt)) {state : State}
    (computed : scrutinee.eval state.table = .ok value) :
    (blockIfGiven patience (elseIfs scrutinee otherwise cases)).shows state =
      showsNext (blockIfGiven patience) state
        (state.table.select (fun found => (Operands.of value found).equal) otherwise cases) := by
  induction cases with
  | nil => rfl
  | cons arm rest ih =>
      rw [elseIfs, shows_block, shows_branch_equal, computed, Table.select]
      cases arm.1.eval state.table with
      | error error => rfl
      | ok found =>
          show showsNext _ state (pure (if _ then _ else _)) =
            showsNext _ state (if _ then _ else _)
          by_cases equal : (Operands.of value found).equal = true
          · rw [if_pos equal, if_pos equal]
            rfl
          · rw [if_neg equal, if_neg equal]
            exact ih

/-- So does a chain, but it compares by the operator. -/
theorem Stmt.shows_chain (patience : Nat) (scrutinee : Expr) (first : Expr × List Stmt)
    (rest : List (Expr × List Stmt)) (otherwise : Option (List Stmt)) (state : State) :
    ((chain scrutinee first rest otherwise).exec patience).shows state =
      showsNext (blockIfGiven patience) state (do
        let value ← scrutinee.eval state.table
        state.table.select (fun found => (Operands.of value found).equal) otherwise
          (first :: rest)) := by
  cases computed : scrutinee.eval state.table with
  | error error =>
      rw [chain, shows_branch_equal, computed]
      rfl
  | ok value =>
      have shown := shows_elseIfs patience otherwise (first :: rest) computed
      rw [elseIfs, shows_block] at shown
      exact shown

/-- What stands after it is not looked at by the statement either. -/
theorem Stmt.exec_switch_upTo {patience : Nat} {scrutinee value : Expr} {body : List Stmt}
    {scrutineeValue found : Value} {state : State}
    (computed : scrutinee.eval state.table = .ok scrutineeValue)
    (looked : value.eval state.table = .ok found) (hit : found.same scrutineeValue = true)
    (earlier later later' : List (Expr × List Stmt)) (otherwise otherwise' : Option (List Stmt)) :
    (Stmt.switch scrutinee (earlier ++ (value, body) :: later) otherwise).exec patience state =
      (Stmt.switch scrutinee (earlier ++ (value, body) :: later') otherwise').exec patience
        state := by
  rw [exec_switch, exec_switch]
  -- The record of the statement does not tell its cases.
  let noted := (note .trace .statement fun _ =>
    s!"execute {(Stmt.switch scrutinee later otherwise).category}").after state
  have shown := shows_eval scrutinee noted
  rw [show scrutinee.eval noted.table = _ from computed] at shown
  obtain ⟨journal, ran⟩ := Outcome.of_shown_ok shown
  show (eval scrutinee >>= _) noted = (eval scrutinee >>= _) noted
  rw [bind_ok ran, bind_ok ran]
  exact execCases_upTo looked hit

/-- **A choice by value agrees with a chain of branches**, if all values that are found have one
type and it is not that of arrays. The block of the first case that fits is run and no other, and
what stands after it has no influence, not even on what is recorded. -/
theorem Stmt.switch_agrees_with_chain (patience : Nat) {state : State} {scrutinee : Expr}
    {first : Expr × List Stmt} {rest : List (Expr × List Stmt)} (otherwise : Option (List Stmt))
    {type : DataType} (scalar : type ≠ .array)
    (typed : ∀ expr ∈ scrutinee :: (first :: rest).map Prod.fst, ∀ value,
      expr.eval state.table = .ok value → value.type = type) :
    ((Stmt.switch scrutinee (first :: rest) otherwise).exec patience).shows state =
        ((chain scrutinee first rest otherwise).exec patience).shows state ∧
      ∀ earlier value body later, first :: rest = earlier ++ (value, body) :: later →
        (∀ arm ∈ earlier,
          (Expr.binary .equal scrutinee arm.1).eval state.table = .ok (.boolean false)) →
        (Expr.binary .equal scrutinee value).eval state.table = .ok (.boolean true) →
        ((Stmt.switch scrutinee (first :: rest) otherwise).exec patience).shows state =
            (execAll patience body).shows state ∧
          ∀ later' otherwise',
            (Stmt.switch scrutinee (first :: rest) otherwise).exec patience state =
              (Stmt.switch scrutinee (earlier ++ (value, body) :: later') otherwise').exec
                patience state := by
  have alike {value : Value} (computed : scrutinee.eval state.table = .ok value) :
      ∀ arm ∈ first :: rest, ∀ found, arm.1.eval state.table = .ok found →
        found.same value = (Operands.of value found).equal := by
    intro arm member found looked
    have ofScrutinee := typed scrutinee List.mem_cons_self value computed
    have ofCase := typed arm.1 (List.mem_cons_of_mem _ (List.mem_map_of_mem member)) found looked
    exact Value.same_eq_equal (ofScrutinee.trans ofCase.symm) (ofScrutinee ▸ scalar)
  have agrees : ((Stmt.switch scrutinee (first :: rest) otherwise).exec patience).shows state =
      ((chain scrutinee first rest otherwise).exec patience).shows state := by
    rw [shows_switch, shows_chain]
    cases computed : scrutinee.eval state.table with
    | error error => rfl
    | ok value => exact congrArg (showsNext _ state) (Table.select_congr (alike computed))
  refine ⟨agrees, ?_⟩
  intro earlier value body later split misses hit
  obtain ⟨a, b, computed, looked, equal⟩ := Expr.eval_equal hit
  have fits : b.same a = true := by
    rw [alike computed (value, body) (by rw [split]; simp) b looked, equal]
  refine ⟨?_, fun later' otherwise' => ?_⟩
  · have others : ∀ arm ∈ earlier, ∃ other, arm.1.eval state.table = .ok other ∧
        (Operands.of a other).equal = false := by
      intro arm member
      obtain ⟨a', other, again, found, differ⟩ := Expr.eval_equal (misses arm member)
      obtain rfl : a = a' := Except.ok.inj (computed.symm.trans again)
      exact ⟨other, found, differ⟩
    have selected : state.table.select (fun found => (Operands.of a found).equal) otherwise
        (first :: rest) = .ok (some body) := by
      rw [split]
      exact Table.select_first others looked equal otherwise body later
    rw [agrees, shows_chain, computed]
    show showsNext _ state (Table.select _ _ _ _) = _
    rw [selected]
    exact compound_equivalent patience body.length body state state.journal
  · rw [split]
    exact exec_switch_upTo computed looked fits earlier later later' otherwise otherwise'

end Runs

/-- A variable that holds the positive zero. -/
def zeroed : Table := Table.empty.after [.declareVariable "x" .float, .assign "x" (.float 0)]

/-- The case of the number one. -/
def caseOne : Expr × List Stmt := (.literal (.float 1), [.print [.literal (.string "one")]])

/-- The case of the negative zero. -/
def caseZero : Expr × List Stmt :=
  (.unary .minus (.literal (.float 0)), [.print [.literal (.string "zero")]])

/-- The case of a name that nobody declared. -/
def caseUnknown : Expr × List Stmt := (.name "y", [])

/-- The two zeros are the same to the choice and equal to the branches. The name after them is
not missed. -/
theorem Stmt.zeroed_agrees :
    let state : State := ⟨zeroed, .unbounded, .off⟩
    let switch := Stmt.switch (.name "x") [caseOne, caseZero, caseUnknown] none
    (switch.exec 1).shows state =
        ((chain (.name "x") caseOne [caseZero, caseUnknown] none).exec 1).shows state ∧
      (switch.exec 1).shows state = (execAll 1 caseZero.2).shows state ∧
      switch.exec 1 state = (Stmt.switch (.name "x") [caseOne, caseZero] none).exec 1 state := by
  intro state switch
  have typed : ∀ expr ∈ Expr.name "x" :: [caseOne, caseZero, caseUnknown].map Prod.fst, ∀ value,
      expr.eval state.table = .ok value → value.type = .float := by
    intro expr member value computed
    have cases : expr = .name "x" ∨ expr = caseOne.1 ∨ expr = caseZero.1 ∨
        expr = caseUnknown.1 := by
      simpa using member
    rcases cases with rfl | rfl | rfl | rfl
    · obtain rfl := Except.ok.inj computed
      rfl
    · obtain rfl := Except.ok.inj computed
      rfl
    · obtain rfl := Except.ok.inj computed
      rfl
    · have missing : caseUnknown.1.eval state.table = .error (.notDeclared "y") := by rfl
      rw [missing] at computed
      cases computed
  have scalar : DataType.float ≠ .array := by decide
  have misses : ∀ arm ∈ [caseOne],
      (Expr.binary .equal (.name "x") arm.1).eval state.table = .ok (.boolean false) := by
    intro arm member
    obtain rfl := List.mem_singleton.1 member
    rfl
  have hit : (Expr.binary .equal (.name "x") caseZero.1).eval state.table =
      .ok (.boolean true) := by rfl
  obtain ⟨agrees, first⟩ := switch_agrees_with_chain 1 none scalar typed
  obtain ⟨shown, same⟩ := first [caseOne] caseZero.1 caseZero.2 [caseUnknown] rfl misses hit
  exact ⟨agrees, shown, same [] none⟩

end Pseudocode
