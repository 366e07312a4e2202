import Pseudocode.Proofs.Typing.Statement

/-!
# Well-typed programs do not go wrong

The declarations of a program build up a scope. A constant has the type of its
value, in which only the constants before it may occur; the size of an array is
an integer in the scope of everything declared before the array. Then the scope
stays, and the statements of the body are typed in it.

A program is well typed when its names are distinct, its declarations have a
scope and its body is well typed there. **A well-typed program fails only on its
data** (`Program.WellTyped.fails_on_data`): none of the errors about names,
kinds of symbols or types occurs in any run.
-/

set_option autoImplicit false

namespace Pseudocode

open Run (Triple Ensures anything)

/-! ## Scopes of declarations -/

/-- What a constant is declared as. -/
def Constant.signature? (scope : Scope) (constant : Constant) : Option Signature :=
  (constant.value.type? scope).map .constant

/-- What a variable is declared as, whatever its size. -/
def Variable.signature (var : Variable) : Signature :=
  match var.size with
  | none => .scalar var.type
  | some _ => .array var.type

/-- What a variable is declared as, with an integer for its size. -/
def Variable.signature? (scope : Scope) (var : Variable) : Option Signature :=
  if ∀ size ∈ var.size, size.type? scope = some .integer then some var.signature else none

/-- The scope after declarations in a row. Each of them is looked at in the scope
of those before it. -/
def Scope.extend? {α : Type} (name : α → String) (signature? : Scope → α → Option Signature) :
    Scope → List α → Option Scope
  | scope, [] => some scope
  | scope, item :: rest =>
    (signature? scope item).bind fun signature =>
      extend? name signature? (scope.declare (name item) signature) rest

namespace Declarations

/-- The declared names in order. -/
def names (declarations : Declarations) : List String :=
  declarations.constants.map Constant.name ++ declarations.variables.map Variable.name

/-- The scope of the constants, and then of the variables. -/
def scope? (declarations : Declarations) : Option Scope :=
  (Scope.empty.extend? Constant.name Constant.signature? declarations.constants).bind
    fun scope => scope.extend? Variable.name Variable.signature? declarations.variables

end Declarations

/-- Declarations leave other names alone. -/
theorem Scope.apply_of_extend? {α : Type} {name : α → String}
    {signature? : Scope → α → Option Signature} {items : List α} {scope final : Scope}
    (extended : scope.extend? name signature? items = some final) {other : String}
    (absent : other ∉ items.map name) : final other = scope other := by
  induction items generalizing scope with
  | nil =>
      obtain rfl := Option.some.inj extended
      rfl
  | cons item rest ih =>
      obtain ⟨signature, _, extended⟩ := Option.bind_eq_some_iff.1 extended
      rw [List.map_cons, List.mem_cons, not_or] at absent
      rw [ih extended absent.2]
      exact if_neg absent.1

/-! ## Running declarations -/

section Declaring

variable [Writer] {scope : Scope} {stops : Stop → Prop}

/-- A symbol is declared unless its name is taken. -/
theorem Run.Triple.declareTyped {name : String} {symbol : Symbol} {signature : Signature}
    (fits : symbol.Fits signature)
    (taken : scope name ≠ none → stops (.failed (.alreadyDeclared name))) :
    Triple (Table.Conforms scope) (Run.declare name symbol)
      (fun _ table => table.Conforms (scope.declare name signature))
      (fun stop table => table.Conforms scope ∧ stops stop) := by
  refine .declare (fun _ _ conforms declared => conforms.declare fits declared)
    fun table error conforms failed => ?_
  obtain ⟨known, rfl⟩ := conforms.declare_error failed
  exact ⟨conforms, taken known⟩

/-- A constant is declared with the type of its value. -/
theorem Constant.exec_declares (constant : Constant)
    (fails : ∀ (table : Table) error, table.Conforms scope →
      constant.value.eval table = .error error → stops (.failed error))
    (taken : scope constant.name ≠ none → stops (.failed (.alreadyDeclared constant.name))) :
    Triple (Table.Conforms scope) constant.exec
      (fun _ table => ∃ signature, constant.signature? scope = some signature ∧
        table.Conforms (scope.declare constant.name signature))
      (fun stop table => table.Conforms scope ∧ stops stop) := by
  refine Ensures.bindTriple (.note _ _ _) fun _ _ => ?_
  refine Ensures.bindTriple (.typedEval fails) fun value typed => ?_
  refine Triple.weaken (.declareTyped (.ofConstant value) taken) (fun _ table declared => ?_)
    fun _ _ stopped => stopped
  refine ⟨.constant value.type, ?_, declared⟩
  rw [Constant.signature?, typed]
  rfl

/-- A variable is declared with its type, an array with a positive length. -/
theorem Variable.exec_declares [Memory] (var : Variable)
    (fails : ∀ size ∈ var.size, ∀ (table : Table) error, table.Conforms scope →
      size.eval table = .error error → stops (.failed error))
    (sizes : stops (.failed .invalidArraySize))
    (taken : scope var.name ≠ none → stops (.failed (.alreadyDeclared var.name))) :
    Triple (Table.Conforms scope) var.exec
      (fun _ table => table.Conforms (scope.declare var.name var.signature))
      (fun stop table => table.Conforms scope ∧ stops stop) := by
  obtain ⟨name, type, size⟩ := var
  refine Ensures.bindTriple (.note _ _ _) fun _ _ => ?_
  cases size with
  | none => exact .declareTyped (.ofVariable type) taken
  | some size =>
      have lengths : ∀ value : Value, Ensures (Table.Conforms scope) stops
          (Run.lift value.arrayLength) (fun length => 0 < length) := by
        intro value
        refine .lift (fun length found => ?_) fun error failed => ?_
        · cases value with
          | integer n => exact Integer.arrayLength_pos found
          | _ => cases found
        · cases value with
          | integer n => exact Integer.arrayLength_error failed ▸ sizes
          | _ =>
              cases failed
              exact sizes
      have makes : ∀ length, 0 < length → Ensures (Table.Conforms scope) stops
          (Run.lift (Symbol.ofArray type length)) (fun symbol => symbol.Fits (.array type)) :=
        fun length positive => .lift (fun _ made => .ofArray positive made) fun _ failed =>
          Symbol.Fits.ofArray_error failed ▸ sizes
      refine Ensures.bindTriple (.typedEval (fails size rfl)) fun value _ => ?_
      refine Ensures.bindTriple (lengths value) fun length positive => ?_
      exact Ensures.bindTriple (makes length positive) fun symbol fits => .declareTyped fits taken

end Declaring

/-! ## Well-typed programs -/

section Programs

variable [Writer]

/-- Declarations in a row lead to their scope if each of them declares what it is
looked at as. -/
theorem Run.Triple.forM_extend? {α : Type} {name : α → String} {step : α → Run Unit}
    {signature? : Scope → α → Option Signature} {stopped : Stop → Table → Prop}
    (declares : ∀ scope item signature, signature? scope item = some signature →
      scope (name item) = none →
      Triple (Table.Conforms scope) (step item)
        (fun _ table => table.Conforms (scope.declare (name item) signature)) stopped)
    {items : List α} {scope final : Scope}
    (extended : scope.extend? name signature? items = some final)
    (distinct : (items.map name).Nodup) (fresh : ∀ item ∈ items, scope (name item) = none) :
    Triple (Table.Conforms scope) (items.forM step) (fun _ table => table.Conforms final)
      stopped := by
  induction items generalizing scope with
  | nil =>
      obtain rfl := Option.some.inj extended
      exact fun _ conforms => conforms
  | cons item rest ih =>
      obtain ⟨signature, found, extended⟩ := Option.bind_eq_some_iff.1 extended
      obtain ⟨first, others⟩ := List.forall_mem_cons.1 fresh
      obtain ⟨absent, distinct⟩ := List.nodup_cons.1 distinct
      refine .forM_cons (declares scope item signature found first) (ih extended distinct ?_)
      intro other member
      have apart : name other ≠ name item := fun same =>
        absent (same ▸ List.mem_map_of_mem member)
      exact (if_neg apart).trans (others other member)

theorem Constant.exec_typed (scope : Scope) (constant : Constant) (signature : Signature)
    (typed : constant.signature? scope = some signature) (fresh : scope constant.name = none) :
    Triple (Table.Conforms scope) constant.exec
      (fun _ table => table.Conforms (scope.declare constant.name signature))
      (fun stop _ => stop.OnData) := by
  obtain ⟨type, found, rfl⟩ := Option.map_eq_some_iff.1 typed
  refine .weaken (constant.exec_declares (Expr.stops_onData found) fun taken => absurd fresh taken)
    ?_ fun _ _ stopped => stopped.2
  rintro _ table ⟨other, same, conforms⟩
  obtain rfl := Option.some.inj (typed.symm.trans same)
  exact conforms

theorem Variable.exec_typed [Memory] (scope : Scope) (var : Variable) (signature : Signature)
    (typed : var.signature? scope = some signature) (fresh : scope var.name = none) :
    Triple (Table.Conforms scope) var.exec
      (fun _ table => table.Conforms (scope.declare var.name signature))
      (fun stop _ => stop.OnData) := by
  by_cases sizes : ∀ size ∈ var.size, size.type? scope = some .integer
  · rw [Variable.signature?, if_pos sizes] at typed
    obtain rfl := Option.some.inj typed
    have tooLarge : (Stop.failed .invalidArraySize).OnData := rfl
    have declares := var.exec_declares
      (fun size member => Expr.stops_onData (sizes size member)) tooLarge
      fun taken => absurd fresh taken
    exact declares.weaken (fun _ _ conforms => conforms) fun _ _ stopped => stopped.2
  · rw [Variable.signature?, if_neg sizes] at typed
    cases typed

/-- The declarations of a scope lead to it from an empty table. -/
theorem Declarations.exec_typed [Memory] {declarations : Declarations} {scope : Scope}
    (distinct : declarations.names.Nodup) (declared : declarations.scope? = some scope) :
    Triple (Table.Conforms .empty) declarations.exec (fun _ table => table.Conforms scope)
      (fun stop _ => stop.OnData) := by
  obtain ⟨constants, first, second⟩ := Option.bind_eq_some_iff.1 declared
  obtain ⟨distinctFirst, distinctSecond, apart⟩ := List.nodup_append.1 distinct
  have freshConstants : ∀ constant ∈ declarations.constants,
      Scope.empty constant.name = none := fun _ _ => rfl
  have freshVariables : ∀ var ∈ declarations.variables, constants var.name = none := by
    intro var member
    rw [Scope.apply_of_extend? first]
    · rfl
    · exact fun taken => apart _ taken _ (List.mem_map_of_mem member) rfl
  have constantsRun := Run.Triple.forM_extend? Constant.exec_typed first distinctFirst
    freshConstants
  have variablesRun := Run.Triple.forM_extend? Variable.exec_typed second distinctSecond
    freshVariables
  exact .bind (Ensures.note _ _ _).toTriple fun _ => .bind constantsRun fun _ => variablesRun

/-- A program with distinct names whose declarations have a scope in which its
body is well typed. -/
structure Program.WellTyped (scope : Scope) (program : Program) : Prop where
  distinct : program.declarations.names.Nodup
  declared : program.declarations.scope? = some scope
  body : ∀ stmt ∈ program.body, stmt.WellTyped scope

/-- A well-typed program leads from an empty table to its scope, unless it stops
on its data. -/
theorem Program.WellTyped.exec [Memory] {scope : Scope} {program : Program}
    (wellTyped : program.WellTyped scope) (patience : Nat) :
    Triple (Table.Conforms .empty) (program.exec patience) (fun _ table => table.Conforms scope)
      (fun stop _ => stop.OnData) := by
  have runs : Ensures (Table.Conforms scope) Stop.OnData
      (Run.compound program.body.length (execAll patience program.body)) anything :=
    .block fun stmt member => (wellTyped.body stmt member).exec
  have rest := Ensures.bind runs fun _ _ => .bind (.flush fun _ => rfl) fun _ _ =>
    .note .debug .expression fun _ => s!"PROGRAM '{program.name}' finished"
  exact .bind (Ensures.note _ _ _).toTriple fun _ =>
    .bind (Declarations.exec_typed wellTyped.distinct wellTyped.declared) fun _ => rest.toTriple

/-- **Well-typed programs do not go wrong.** In every run from an empty table, a
well-typed program fails only on its data, and if it ends, every name holds what
it was declared for. -/
theorem Program.WellTyped.fails_on_data [Memory] {scope : Scope} {program : Program}
    (wellTyped : program.WellTyped scope) (patience : Nat) (output : Writer.Stream)
    (journal : Journal) :
    (∀ error state, program.exec patience ⟨.empty, output, journal⟩ = .error (.failed error) state →
      error.isDataError = true) ∧
    ∀ state, program.exec patience ⟨.empty, output, journal⟩ = .ok () state →
      state.table.Conforms scope := by
  have outcome := wellTyped.exec patience ⟨.empty, output, journal⟩ .empty
  refine ⟨fun error state failed => ?_, fun state ended => ?_⟩
  · rw [failed] at outcome
    exact outcome
  · rw [ended] at outcome
    exact outcome

end Programs

/-- A program with each kind of symbol, where values also change their type. -/
def Program.squares : Program where
  name := "squares"
  declarations.constants :=
    [⟨"limit", .literal (.integer .one)⟩,
      ⟨"next", .binary .add (.name "limit") (.literal (.integer .one))⟩]
  declarations.variables :=
    [⟨"i", .integer, none⟩, ⟨"mean", .float, none⟩, ⟨"full", .boolean, none⟩,
      ⟨"row", .integer, some (.name "next")⟩]
  body :=
    [.forLoop "i" (.literal (.integer .one)) (.name "limit") (.literal (.integer .one))
        [.assignAt "row" (.name "i") (.binary .multiply (.name "i") (.name "i"))],
      .assign "mean" (.element "row" (.name "limit")),
      .assign "full" (.name "mean"),
      .branch (.unary .not (.name "full")) [.print [.name "row", .name "mean"]]
        (some [.resize "row" (.name "limit")])]

/-- The scope of its declarations. -/
def Program.squaresScope : Scope :=
  Scope.empty |>.declare "limit" (.constant .integer) |>.declare "next" (.constant .integer)
    |>.declare "i" (.scalar .integer) |>.declare "mean" (.scalar .float)
    |>.declare "full" (.scalar .boolean) |>.declare "row" (.array .integer)

theorem Program.squares_wellTyped : Program.squares.WellTyped Program.squaresScope where
  distinct := by decide
  declared := rfl
  body := by
    simp only [Program.squares, List.forall_mem_cons]
    refine ⟨.forLoop rfl rfl rfl rfl ?_, .assign rfl rfl (by decide),
      .assign rfl rfl (by decide), .branch ⟨_, rfl, by decide⟩ ?_ ?_, by simp⟩
    · rw [List.forall_mem_singleton]
      exact .assignAt rfl rfl rfl (by decide)
    · rw [List.forall_mem_singleton]
      exact .print (List.forall_mem_cons.2 ⟨⟨_, rfl⟩, List.forall_mem_singleton.2 ⟨_, rfl⟩⟩)
    · intro block same
      obtain rfl := Option.mem_some_iff.1 same
      rw [List.forall_mem_singleton]
      exact .resize rfl rfl

theorem Program.squares_fails_on_data : Program.squares.WellTyped Program.squaresScope ∧
    (∀ error state, Program.squares.exec 5 ⟨.empty, .unbounded, .off⟩ =
      .error (.failed error) state → error.isDataError = true) ∧
    ∀ state, Program.squares.exec 5 ⟨.empty, .unbounded, .off⟩ = .ok () state →
      state.table.Conforms Program.squaresScope :=
  ⟨Program.squares_wellTyped, Program.squares_wellTyped.fails_on_data 5 .unbounded .off⟩

end Pseudocode
