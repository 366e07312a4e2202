import Pseudocode.Proofs.Run.Statement
import Pseudocode.Proofs.Typing.Expression

/-!
# Statements in a scope

No statement declares anything, so a scope stays the same while statements run.
`Stmt.exec_conforms` says that every statement, well typed or not, keeps a table
within its scope, also when it stops. Writing to a table tests no types. That no
value of another type gets in is due to the steps before: an assignment brings
its value to the declared type, and a counting loop looks at its variable once
and for all before the first pass.

A statement is well typed when its expressions have the types that it needs and
its targets are declared as it uses them. Such a statement stops only for
reasons that lie in the data (`Stmt.WellTyped.exec`).
-/

set_option autoImplicit false

namespace Pseudocode

/-! ## Types that a variable takes -/

/-- A variable of the first type can be given a value of the second. -/
def DataType.Accepts (declared found : DataType) : Prop :=
  found = declared ∨ (declared = .float ∧ found = .integer) ∨
    (declared = .boolean ∧ found ≠ .array)

instance (declared found : DataType) : Decidable (declared.Accepts found) :=
  inferInstanceAs (Decidable (_ ∨ _))

/-- Every value but an array has a truth value. -/
theorem Value.truth_type {value : Value} (scalar : value.type ≠ .array) :
    value.truth.type = .boolean := by
  cases value with
  | array slots => exact absurd rfl scalar
  | _ => rfl

/-- A value of an accepted type is brought to the declared type. -/
theorem DataType.Accepts.coerce_type {declared : DataType} {value : Value}
    (accepted : declared.Accepts value.type) : (declared.coerce value).type = declared := by
  rcases accepted with rfl | ⟨rfl, isInteger⟩ | ⟨rfl, scalar⟩
  · cases value <;> rfl
  · cases value with
    | integer n => rfl
    | _ => cases isInteger
  · exact Value.truth_type scalar

namespace Symbol

variable {symbol : Symbol} {name : String} {value : Value}

theorem accept_type {accepted : Value} (found : symbol.accept name value = .ok accepted) :
    accepted.type = symbol.type := by
  simp only [Symbol.accept] at found
  split at found
  · rename_i matching
    exact Except.ok.inj found ▸ matching
  · cases found

theorem accept_error {error : RuntimeError} (refused : symbol.accept name value = .error error) :
    ¬ symbol.type.Accepts value.type ∧ ∃ other, error = .typeMismatch name other symbol.type := by
  simp only [Symbol.accept] at refused
  split at refused
  · cases refused
  · rename_i apart
    exact ⟨fun accepted => apart accepted.coerce_type, _, (Except.error.inj refused).symm⟩

end Symbol

namespace Run.Ensures

variable [Writer] {scope : Scope} {stops : Stop → Prop} {name : String}

/-! ## Steps of statements -/

/-- A value in a scope has the static type of its expression. -/
theorem typedEval {expr : Expr}
    (fails : ∀ (table : Table) error, table.Conforms scope → expr.eval table = .error error →
      stops (.failed error)) :
    Ensures (Table.Conforms scope) stops (Run.eval expr)
      (fun value => expr.type? scope = some value.type) :=
  eval (fun _ _ conforms found => Expr.type?_of_eval conforms found) fails

theorem typedSymbol (undeclared : scope name = none → stops (.failed (.notDeclared name))) :
    Ensures (Table.Conforms scope) stops (Run.symbol name)
      (fun symbol => ∃ signature, scope name = some signature ∧ symbol.Fits signature) := by
  refine symbol (fun table symbol conforms found => conforms.fits found) ?_
  intro table conforms missing
  refine undeclared ?_
  cases declared : scope name with
  | none => rfl
  | some signature =>
      obtain ⟨symbol, found, _⟩ := conforms.find declared
      rw [missing] at found
      cases found

/-- A value that is to be written has the declared type. -/
theorem acceptable {value : Expr}
    (undeclared : scope name = none → stops (.failed (.notDeclared name)))
    (fails : ∀ (table : Table) error, table.Conforms scope → value.eval table = .error error →
      stops (.failed error))
    (mismatch : ∀ signature found, scope name = some signature →
      value.type? scope = some found → ¬ signature.type.Accepts found →
      ∀ other, stops (.failed (.typeMismatch name other signature.type))) :
    Ensures (Table.Conforms scope) stops (Run.acceptable name value)
      (fun value => ∃ signature, scope name = some signature ∧ value.type = signature.type) := by
  refine bind (typedSymbol undeclared) fun symbol known =>
    bind (typedEval fails) fun found typed => ?_
  obtain ⟨signature, declared, fits⟩ := known
  refine lift (fun accepted same => ?_) fun error refused => ?_
  · exact ⟨signature, declared, (Symbol.accept_type same).trans fits.type_eq⟩
  · obtain ⟨apart, other, rfl⟩ := Symbol.accept_error refused
    rw [fits.type_eq] at apart ⊢
    exact mismatch signature found.type declared typed apart other

theorem typedAssign {value : Value}
    (typed : ∀ type, scope name = some (.scalar type) → value.type = type)
    (fails : ∀ (table : Table) error, table.Conforms scope →
      table.assignment name value = .error error →
      stops (.failed error)) :
    Ensures (Table.Conforms scope) stops (Run.assign name value) anything :=
  assign (fun _ _ conforms planned => conforms.assignment typed planned) fails

theorem typedAssignAt {index : Integer} {value : Value}
    (typed : ∀ type, scope name = some (.array type) → value.type = type)
    (fails : ∀ (table : Table) error, table.Conforms scope →
      table.elementAssignment name index value = .error error → stops (.failed error)) :
    Ensures (Table.Conforms scope) stops (Run.assignAt name index value) anything :=
  assignAt (fun _ _ conforms planned => conforms.elementAssignment typed planned) fails

theorem typedResize [Memory] {size : Value}
    (fails : ∀ (table : Table) error, table.Conforms scope →
      table.resizing name size = .error error →
      stops (.failed error)) :
    Ensures (Table.Conforms scope) stops (Run.resize name size) anything := by
  refine resize (fun table error conforms failed => ?_)
    (fun _ _ conforms planned => conforms.resizing planned) fails
  exact fails table error conforms (bind_eq_error.2 (.inl failed))

/-! ## Forms of statements that write -/

variable [Memory] {patience : Nat}

theorem assigning {value : Expr}
    (undeclared : scope name = none → stops (.failed (.notDeclared name)))
    (fails : ∀ (table : Table) error, table.Conforms scope → value.eval table = .error error →
      stops (.failed error))
    (mismatch : ∀ signature found, scope name = some signature →
      value.type? scope = some found → ¬ signature.type.Accepts found →
      ∀ other, stops (.failed (.typeMismatch name other signature.type)))
    (unwritten : ∀ (table : Table) value error, table.Conforms scope →
      table.assignment name value = .error error → stops (.failed error)) :
    Ensures (Table.Conforms scope) stops (Stmt.exec patience (.assign name value)) anything := by
  rw [Stmt.exec]
  refine bind (note _ _ _) fun _ _ => bind (acceptable undeclared fails mismatch) ?_
  rintro accepted ⟨signature, declared, typed⟩
  refine typedAssign (fun type scalar => ?_) fun table error => unwritten table accepted error
  obtain rfl : signature = .scalar type := Option.some.inj (declared.symm.trans scalar)
  exact typed

/-- The value is computed before the position. -/
theorem assigningAt {position value : Expr}
    (undeclared : scope name = none → stops (.failed (.notDeclared name)))
    (fails : ∀ (table : Table) error, table.Conforms scope → value.eval table = .error error →
      stops (.failed error))
    (mismatch : ∀ signature found, scope name = some signature →
      value.type? scope = some found → ¬ signature.type.Accepts found →
      ∀ other, stops (.failed (.typeMismatch name other signature.type)))
    (indexes : Ensures (Table.Conforms scope) stops (Run.index position) anything)
    (unwritten : ∀ (table : Table) index value error, table.Conforms scope →
      table.elementAssignment name index value = .error error → stops (.failed error)) :
    Ensures (Table.Conforms scope) stops (Stmt.exec patience (.assignAt name position value))
      anything := by
  rw [Stmt.exec]
  refine bind (note _ _ _) fun _ _ => bind (acceptable undeclared fails mismatch) ?_
  rintro accepted ⟨signature, declared, typed⟩
  refine bind indexes fun index _ => typedAssignAt (fun type array => ?_) fun table error =>
    unwritten table index accepted error
  obtain rfl : signature = .array type := Option.some.inj (declared.symm.trans array)
  exact typed

/-- The first look at the variable covers every write of the counter. -/
theorem countingWith {first last step : Expr} {body : List Stmt} {bound : Value → Prop}
    (unfinished : stops .unfinished)
    (undeclared : scope name = none → stops (.failed (.notDeclared name)))
    (unfit : ∀ signature, scope name = some signature → signature ≠ .scalar .integer →
      ∀ error, stops (.failed error))
    (firsts : Ensures (Table.Conforms scope) stops (Run.eval first) bound)
    (lasts : Ensures (Table.Conforms scope) stops (Run.eval last) bound)
    (steps : Ensures (Table.Conforms scope) stops (Run.eval step) bound)
    (bounds : ∀ value error, bound value → value.loopBound = .error error →
      stops (.failed error))
    (runs : ∀ stmt ∈ body, Ensures (Table.Conforms scope) stops (stmt.exec patience) anything) :
    Ensures (Table.Conforms scope) stops
      (Stmt.exec patience (.forLoop name first last step body)) anything := by
  refine forLoop unfinished (typedSymbol undeclared) ?_ ?_ firsts lasts steps bounds ?_ runs
  · rintro symbol ⟨signature, declared, fits⟩ isArray
    refine unfit signature declared ?_ _
    rintro rfl
    cases fits
    cases isArray
  · rintro symbol ⟨signature, declared, fits⟩ apart
    refine unfit signature declared ?_ _
    rintro rfl
    exact apart fits.type_eq
  · rintro symbol ⟨signature, declared, fits⟩ isInteger isScalar counter
    refine typedAssign (fun type scalar => ?_) fun table error conforms failed => ?_
    · obtain rfl : signature = .scalar type := Option.some.inj (declared.symm.trans scalar)
      exact isInteger.symm.trans fits.type_eq
    · refine unfit signature declared ?_ error
      rintro rfl
      rw [conforms.assignment_eq declared] at failed
      cases failed

theorem resizing {size : Expr}
    (undeclared : scope name = none → stops (.failed (.notDeclared name)))
    (fails : ∀ (table : Table) error, table.Conforms scope → size.eval table = .error error →
      stops (.failed error))
    (unchanged : ∀ (table : Table) value error, table.Conforms scope →
      table.resizing name value = .error error → stops (.failed error)) :
    Ensures (Table.Conforms scope) stops (Stmt.exec patience (.resize name size)) anything := by
  rw [Stmt.exec]
  refine bind (note _ _ _) fun _ _ => bind (typedSymbol undeclared) fun _ _ => ?_
  exact bind (typedEval fails) fun value _ =>
    typedResize fun table error => unchanged table value error

end Run.Ensures

/-! ## Every statement keeps its scope -/

open Run (Ensures anything)

/-- **Every statement keeps a table within its scope,** also where it stops. -/
theorem Stmt.exec_conforms [Memory] [Writer] (scope : Scope) (patience : Nat) (stmt : Stmt) :
    Ensures (Table.Conforms scope) (fun _ => True) (stmt.exec patience) anything := by
  induction stmt using Stmt.induction with
  | assign name value =>
      exact .assigning (fun _ => trivial) (fun _ _ _ _ => trivial) (fun _ _ _ _ _ _ => trivial)
        fun _ _ _ _ _ => trivial
  | assignAt name index value =>
      exact .assigningAt (fun _ => trivial) (fun _ _ _ _ => trivial)
        (fun _ _ _ _ _ _ => trivial) (.indexAnyhow index) fun _ _ _ _ _ _ => trivial
  | print values => exact .printing (fun expr _ => .evalAnyhow expr) fun _ => trivial
  | branch condition yes no runs others => exact .branch (.testAnyhow condition) runs others
  | whileLoop condition body runs => exact .whileLoop trivial (.testAnyhow condition) runs
  | repeatLoop condition body runs => exact .repeatLoop trivial (.testAnyhow condition) runs
  | forLoop name first last step body runs =>
      exact .countingWith trivial (fun _ => trivial) (fun _ _ _ _ => trivial)
        (.evalAnyhow first) (.evalAnyhow last) (.evalAnyhow step) (fun _ _ _ _ => trivial) runs
  | switch scrutinee cases otherwise runs others =>
      exact .switch (.evalAnyhow scrutinee) (fun arm _ => .evalAnyhow arm.1) runs others
  | resize name size =>
      exact .resizing (fun _ => trivial) (fun _ _ _ _ => trivial) fun _ _ _ _ _ => trivial

/-! ## Well-typed statements -/

/-- An expression that has a type. -/
def Expr.Typed (scope : Scope) (expr : Expr) : Prop := ∃ type, expr.type? scope = some type

/-- An expression that can be a condition. -/
def Expr.Testable (scope : Scope) (expr : Expr) : Prop :=
  ∃ type, expr.type? scope = some type ∧ type ≠ .array

/-- A statement whose expressions have the types that it needs, with targets
that are declared as it uses them. -/
inductive Stmt.WellTyped (scope : Scope) : Stmt → Prop where
  | assign {name : String} {value : Expr} {declared found : DataType}
      (target : scope name = some (.scalar declared)) (typed : value.type? scope = some found)
      (accepted : declared.Accepts found) : WellTyped scope (.assign name value)
  | assignAt {name : String} {index value : Expr} {declared found : DataType}
      (target : scope name = some (.array declared)) (position : index.type? scope = some .integer)
      (typed : value.type? scope = some found) (accepted : declared.Accepts found) :
      WellTyped scope (.assignAt name index value)
  | print {values : List Expr} (typed : ∀ value ∈ values, value.Typed scope) :
      WellTyped scope (.print values)
  | branch {condition : Expr} {yes : List Stmt} {no : Option (List Stmt)}
      (test : condition.Testable scope) (runs : ∀ stmt ∈ yes, WellTyped scope stmt)
      (others : ∀ block ∈ no, ∀ stmt ∈ block, WellTyped scope stmt) :
      WellTyped scope (.branch condition yes no)
  | whileLoop {condition : Expr} {body : List Stmt} (test : condition.Testable scope)
      (runs : ∀ stmt ∈ body, WellTyped scope stmt) : WellTyped scope (.whileLoop condition body)
  | repeatLoop {condition : Expr} {body : List Stmt} (test : condition.Testable scope)
      (runs : ∀ stmt ∈ body, WellTyped scope stmt) : WellTyped scope (.repeatLoop condition body)
  | forLoop {name : String} {first last step : Expr} {body : List Stmt}
      (target : scope name = some (.scalar .integer)) (firsts : first.type? scope = some .integer)
      (lasts : last.type? scope = some .integer) (steps : step.type? scope = some .integer)
      (runs : ∀ stmt ∈ body, WellTyped scope stmt) :
      WellTyped scope (.forLoop name first last step body)
  | switch {scrutinee : Expr} {cases : List (Expr × List Stmt)} {otherwise : Option (List Stmt)}
      (typed : scrutinee.Typed scope) (values : ∀ arm ∈ cases, arm.1.Typed scope)
      (runs : ∀ arm ∈ cases, ∀ stmt ∈ arm.2, WellTyped scope stmt)
      (others : ∀ block ∈ otherwise, ∀ stmt ∈ block, WellTyped scope stmt) :
      WellTyped scope (.switch scrutinee cases otherwise)
  | resize {name : String} {size : Expr} {type : DataType}
      (target : scope name = some (.array type)) (typed : size.type? scope = some .integer) :
      WellTyped scope (.resize name size)

/-- The errors that a well-typed program can have. All others speak of names or
types. -/
def RuntimeError.isDataError : RuntimeError → Bool
  | invalidArraySize | output _ => true
  | error => error.isValueError

theorem RuntimeError.isDataError_of_isValueError {error : RuntimeError}
    (isValue : error.isValueError = true) : error.isDataError = true := by
  cases error <;> first | rfl | cases isValue

/-- A run that stops for no other reason than its data, or because a loop has
used up its passes. -/
def Stop.OnData : Stop → Prop
  | .failed error => error.isDataError = true
  | .unfinished => True

section WellTyped

variable {scope : Scope} {patience : Nat} {expr : Expr} {type : DataType}

/-- A typed expression fails only on its data. -/
theorem Expr.stops_onData (typed : expr.type? scope = some type) (table : Table)
    (error : RuntimeError) (conforms : table.Conforms scope)
    (failed : expr.eval table = .error error) : (Stop.failed error).OnData :=
  RuntimeError.isDataError_of_isValueError (isValueError_of_eval conforms typed failed)

namespace Run.Ensures

variable [Writer]

theorem evalTyped (typed : expr.type? scope = some type) :
    Ensures (Table.Conforms scope) Stop.OnData (Run.eval expr)
      (fun value => value.type = type) :=
  (typedEval (Expr.stops_onData typed)).weaken fun _ found =>
    Option.some.inj (found.symm.trans typed)

theorem evalOfTyped (typed : expr.Typed scope) :
    Ensures (Table.Conforms scope) Stop.OnData (Run.eval expr) anything := by
  obtain ⟨type, found⟩ := typed
  exact (evalTyped found).weaken fun _ _ => trivial

theorem testTyped (testable : expr.Testable scope) :
    Ensures (Table.Conforms scope) Stop.OnData (Run.test expr) anything := by
  obtain ⟨type, typed, scalar⟩ := testable
  refine bind (evalTyped typed) fun value same => lift (fun _ _ => trivial) fun error failed => ?_
  obtain ⟨holds, found⟩ := Value.condition_eq_ok (same ▸ scalar)
  rw [found] at failed
  cases failed

theorem indexTyped (typed : expr.type? scope = some .integer) :
    Ensures (Table.Conforms scope) Stop.OnData (Run.index expr) anything := by
  refine bind (evalTyped typed) fun value same => lift (fun _ _ => trivial) fun error failed => ?_
  cases value with
  | integer n => cases failed
  | _ => cases same

end Run.Ensures

/-- What is written to a target of a type is accepted. -/
theorem DataType.Accepts.no_mismatch {name : String} {signature : Signature}
    {declared found : DataType}
    (accepted : declared.Accepts found) (same : signature.type = declared)
    (target : scope name = some signature) (typed : expr.type? scope = some found)
    (other : Signature) (type : DataType) (known : scope name = some other)
    (isType : expr.type? scope = some type) (refused : ¬ other.type.Accepts type)
    (mismatched : DataType) : (Stop.failed (.typeMismatch name mismatched other.type)).OnData := by
  obtain rfl : signature = other := Option.some.inj (target.symm.trans known)
  obtain rfl : found = type := Option.some.inj (typed.symm.trans isType)
  exact absurd (same ▸ accepted) refused

/-- **A well-typed statement stops only on its data** and keeps the scope. -/
theorem Stmt.WellTyped.exec [Memory] [Writer] {stmt : Stmt} (wellTyped : stmt.WellTyped scope) :
    Ensures (Table.Conforms scope) Stop.OnData (stmt.exec patience) anything := by
  induction wellTyped with
  | @assign name value declared found target typed accepted =>
      refine .assigning (fun missing => ?_) (Expr.stops_onData typed)
        (accepted.no_mismatch rfl target typed) fun table value error conforms failed => ?_
      · rw [target] at missing
        cases missing
      · rw [conforms.assignment_eq target] at failed
        cases failed
  | @assignAt name index value declared found target position typed accepted =>
      refine .assigningAt (fun missing => ?_) (Expr.stops_onData typed)
        (accepted.no_mismatch rfl target typed) (.indexTyped position)
        fun table index value error conforms failed => ?_
      · rw [target] at missing
        cases missing
      · obtain ⟨place, rfl⟩ := conforms.elementAssignment_error target failed
        rfl
  | print typed =>
      exact .printing (fun value member => .evalOfTyped (typed value member)) fun _ => rfl
  | branch test _ _ runs others => exact .branch (.testTyped test) runs others
  | whileLoop test _ runs => exact .whileLoop trivial (.testTyped test) runs
  | repeatLoop test _ runs => exact .repeatLoop trivial (.testTyped test) runs
  | @forLoop name first last step body target firsts lasts steps _ runs =>
      refine .countingWith trivial (fun missing => ?_) (fun signature known apart => ?_)
        (.evalTyped firsts) (.evalTyped lasts) (.evalTyped steps)
        (fun value error same failed => ?_)
        runs
      · rw [target] at missing
        cases missing
      · exact absurd (Option.some.inj (known.symm.trans target)) apart
      · cases value with
        | integer n => cases failed
        | _ => cases same
  | switch typed values _ _ runs others =>
      exact .switch (.evalOfTyped typed) (fun arm member => .evalOfTyped (values arm member)) runs
        others
  | resize target typed =>
      refine .resizing (fun missing => ?_) (Expr.stops_onData typed)
        fun table value error conforms failed => ?_
      · rw [target] at missing
        cases missing
      · rw [conforms.resizing_error target failed]
        rfl

end WellTyped

end Pseudocode
