import Pseudocode.Proofs.Grammar.Soundness
import Pseudocode.Proofs.Typing.Program
import Pseudocode.Session

/-!
# What symbols hold between calls

A session is asked to read and run programs and to run statements, in any order
and any number of times, and each of these calls may fail. After every call each
symbol is what its declaration says: its declared type is never that of whole
arrays, a constant has a value of its type, and a variable or an element of an
array has no value or one of its type (`Session.wellTyped_after_calls`).

Statements keep every scope, so all depends on the declarations. Constants come
first, and as long as there are only constants no expression is a whole array.
Variables have a type that can be written in a program. And a program is run at
most once: after it was read the place is at the end of the text, where no
further program is found, so nothing is ever declared in a table with names.
-/

set_option autoImplicit false

namespace Pseudocode

open Run (Triple Ensures anything)

/-! ## Scopes without whole arrays -/

namespace Scope

/-- Nothing is declared to hold whole arrays. -/
def Plain (scope : Scope) : Prop :=
  ∀ name signature, scope name = some signature → signature.type ≠ .array

/-- Only constants are declared, and none of them is a whole array. -/
def Constants (scope : Scope) : Prop :=
  ∀ name signature, scope name = some signature →
    ∃ type, signature = .constant type ∧ type ≠ .array

variable {scope : Scope} {name : String} {signature : Signature}

theorem Constants.plain (constants : scope.Constants) : scope.Plain := by
  intro name signature declared
  obtain ⟨type, rfl, scalar⟩ := constants name signature declared
  exact scalar

theorem Constants.empty : Scope.empty.Constants := by
  intro name signature declared
  cases declared

theorem Constants.declare {type : DataType} (constants : scope.Constants) (scalar : type ≠ .array) :
    (scope.declare name (.constant type)).Constants := by
  intro other signature declared
  by_cases same : other = name
  · rw [Scope.declare, if_pos same] at declared
    exact ⟨type, (Option.some.inj declared).symm, scalar⟩
  · rw [Scope.declare, if_neg same] at declared
    exact constants other signature declared

theorem Plain.declare (plain : scope.Plain) (scalar : signature.type ≠ .array) :
    (scope.declare name signature).Plain := by
  intro other signature' declared
  by_cases same : other = name
  · rw [Scope.declare, if_pos same] at declared
    exact Option.some.inj declared ▸ scalar
  · rw [Scope.declare, if_neg same] at declared
    exact plain other signature' declared

end Scope

/-- No operator makes a whole array. -/
theorem BinaryOp.type?_ne_array {op : BinaryOp} {left right type : DataType}
    (typed : op.type? left right = some type) : type ≠ .array := by
  rintro rfl
  cases op <;> simp [BinaryOp.type?, DataType.arithmetic] at typed <;> grind

theorem UnaryOp.type?_ne_array {op : UnaryOp} {operand type : DataType}
    (scalar : operand ≠ .array) (typed : op.type? operand = some type) : type ≠ .array := by
  rintro rfl
  cases op with
  | not => simp [UnaryOp.type?] at typed
  | plus => exact scalar (Option.some.inj typed)
  | minus =>
      by_cases numeric : operand.isNumeric
      · rw [UnaryOp.type?, if_pos numeric] at typed
        exact scalar (Option.some.inj typed)
      · rw [UnaryOp.type?, if_neg numeric] at typed
        cases typed

/-- Among constants no expression is a whole array. -/
theorem Expr.type?_ne_array {scope : Scope} (constants : scope.Constants) {expr : Expr}
    {type : DataType} (typed : expr.type? scope = some type) : type ≠ .array := by
  induction expr generalizing type with
  | literal l =>
      obtain rfl := Option.some.inj typed
      cases l <;> nofun
  | name n =>
      obtain ⟨signature, declared, rfl⟩ := Option.map_eq_some_iff.1 typed
      obtain ⟨type, rfl, scalar⟩ := constants n signature declared
      exact scalar
  | element n index ih =>
      obtain ⟨type', same, _⟩ := constants n _ (Expr.element_typed typed).1
      cases same
  | unary op operand ih =>
      obtain ⟨inner, isTyped, applies⟩ := Option.bind_eq_some_iff.1 typed
      exact UnaryOp.type?_ne_array (ih isTyped) applies
  | binary op left right ihLeft ihRight =>
      obtain ⟨first, _, rest⟩ := Option.bind_eq_some_iff.1 typed
      obtain ⟨second, _, applies⟩ := Option.bind_eq_some_iff.1 rest
      exact BinaryOp.type?_ne_array applies

/-! ## Declaring from nothing -/

/-- A table that conforms to a scope with a property. -/
def Table.ConformsTo (property : Scope → Prop) (table : Table) : Prop :=
  ∃ scope : Scope, property scope ∧ table.Conforms scope

section Declaring

variable [Writer]

/-- A triple from some scope is one from each of them. -/
theorem Run.Triple.ofScopes {α : Type} {property : Scope → Prop} {run : Run α}
    {after : α → Table → Prop} {stopped : Stop → Table → Prop}
    (each : ∀ scope, property scope → Triple (Table.Conforms scope) run after stopped) :
    Triple (Table.ConformsTo property) run after stopped := by
  rintro state ⟨scope, holds, conforms⟩
  exact each scope holds state conforms

theorem Constant.exec_keeps (constant : Constant) :
    Triple (Table.ConformsTo Scope.Constants) constant.exec
      (fun _ => Table.ConformsTo Scope.Constants) (fun _ => Table.ConformsTo Scope.Constants) := by
  refine .ofScopes fun scope constants => ?_
  have declares : Triple (Table.Conforms scope) constant.exec _
      (fun _ table => table.Conforms scope ∧ True) :=
    constant.exec_declares (fun _ _ _ _ => trivial) fun _ => trivial
  refine declares.weaken ?_ fun _ table stopped => ⟨scope, constants, stopped.1⟩
  rintro _ table ⟨signature, typed, conforms⟩
  obtain ⟨type, found, rfl⟩ := Option.map_eq_some_iff.1 typed
  exact ⟨_, constants.declare (Expr.type?_ne_array constants found), conforms⟩

theorem Variable.exec_keeps [Memory] {var : Variable} (scalar : var.type ≠ .array) :
    Triple (Table.ConformsTo Scope.Plain) var.exec (fun _ => Table.ConformsTo Scope.Plain)
      (fun _ => Table.ConformsTo Scope.Plain) := by
  refine .ofScopes fun scope plain => ?_
  have declares : Triple (Table.Conforms scope) var.exec _
      (fun _ table => table.Conforms scope ∧ True) :=
    var.exec_declares (fun _ _ _ _ _ _ => trivial) trivial fun _ => trivial
  refine declares.weaken (fun _ table conforms => ⟨_, plain.declare ?_, conforms⟩)
    fun _ table stopped => ⟨scope, plain, stopped.1⟩
  obtain ⟨name, type, size⟩ := var
  cases size with
  | none => exact scalar
  | some size => exact scalar

/-- A step that keeps every scope keeps their properties. -/
theorem Run.Triple.ofEnsures {α : Type} {property : Scope → Prop} {run : Run α}
    (keeps : ∀ scope, Ensures (Table.Conforms scope) (fun _ => True) run anything) :
    Triple (Table.ConformsTo property) run (fun _ => Table.ConformsTo property)
      (fun _ => Table.ConformsTo property) :=
  .ofScopes fun scope holds => Triple.weaken (keeps scope)
    (fun _ _ kept => ⟨scope, holds, kept.1⟩) fun _ _ kept => ⟨scope, holds, kept.1⟩

theorem execAll_conforms [Memory] (scope : Scope) (patience : Nat) (statements : List Stmt) :
    Ensures (Table.Conforms scope) (fun _ => True) (execAll patience statements) anything :=
  .execAll fun stmt _ => stmt.exec_conforms scope patience

/-- Whatever becomes of a program that was read, it leads from an empty table to
one that holds no whole arrays. -/
theorem Program.exec_conforms [Memory] {program : Program} (patience : Nat)
    (scalars : ∀ var ∈ program.declarations.variables, var.type ≠ .array) :
    Triple (Table.ConformsTo Scope.Constants) (program.exec patience)
      (fun _ => Table.ConformsTo Scope.Plain) (fun _ => Table.ConformsTo Scope.Plain) := by
  have plain : ∀ table, Table.ConformsTo Scope.Constants table →
      Table.ConformsTo Scope.Plain table :=
    fun table ⟨scope, constants, conforms⟩ => ⟨scope, constants.plain, conforms⟩
  have notes : ∀ level origin message, Triple (Table.ConformsTo Scope.Constants)
      (Run.note level origin message) (fun _ => Table.ConformsTo Scope.Constants)
      (fun _ => Table.ConformsTo Scope.Plain) := fun level origin message =>
    (Run.Triple.ofEnsures fun _ => .note level origin message).weaken (fun _ _ kept => kept)
      fun _ => plain
  have constants : Triple (Table.ConformsTo Scope.Constants)
      (program.declarations.constants.forM Constant.exec)
      (fun _ => Table.ConformsTo Scope.Plain) (fun _ => Table.ConformsTo Scope.Plain) :=
    (Run.Triple.forM_keeps fun constant _ => constant.exec_keeps).weaken (fun _ => plain)
      fun _ => plain
  have others : Triple (Table.ConformsTo Scope.Plain)
      (program.declarations.variables.forM Variable.exec)
      (fun _ => Table.ConformsTo Scope.Plain) (fun _ => Table.ConformsTo Scope.Plain) :=
    .forM_keeps fun var member => Variable.exec_keeps (scalars var member)
  have declares : Triple (Table.ConformsTo Scope.Constants) program.declarations.exec
      (fun _ => Table.ConformsTo Scope.Plain) (fun _ => Table.ConformsTo Scope.Plain) :=
    .bind (notes _ _ _) fun _ => .bind constants fun _ => others
  refine .bind (notes _ _ _) fun _ => .bind declares fun _ => .ofEnsures fun scope => ?_
  refine .bind (.compound (execAll_conforms scope patience program.body)) fun _ _ => ?_
  exact .bind (.flush fun _ => trivial) fun _ _ => .note _ _ _

end Declaring

/-! ## Sessions -/

/-- A symbol that is what its declaration says. -/
def Symbol.WellTyped (symbol : Symbol) : Prop :=
  symbol.type ≠ .array ∧
    match symbol.slot with
    | .scalar none => symbol.constant = false
    | .scalar (some value) => value.type = symbol.type
    | .array elements => symbol.constant = false ∧ 0 < elements.size ∧
        ∀ value, some value ∈ elements → value.type = symbol.type

/-- A table in which every name stands for such a symbol. -/
def Table.WellTyped (table : Table) : Prop :=
  ∀ name symbol, table.find? name = some symbol → symbol.WellTyped

theorem Symbol.Fits.wellTyped {signature : Signature} {symbol : Symbol}
    (fits : symbol.Fits signature) (scalar : signature.type ≠ .array) : symbol.WellTyped := by
  cases fits with
  | constant value => exact ⟨scalar, rfl⟩
  | scalar type value typed =>
      cases value with
      | none => exact ⟨scalar, rfl⟩
      | some value => exact ⟨scalar, typed value rfl⟩
  | array type elements positive typed => exact ⟨scalar, rfl, positive, typed⟩

/-- At the end of the text no program is found, and the place stays. -/
theorem Grammar.program_atEnd {cursor : Cursor} (ended : cursor.current.kind = .eof) :
    Grammar.program cursor =
      .error (.unexpected [.keyword .PROGRAM] .eof cursor.current.line) cursor := by
  have blank : Parse.blankLines cursor = .ok () cursor := by
    simp only [Parse.blankLines, Parse.loop, Cursor.allowance, Parse.rounds, Parse.kind, bind,
      EStateM.bind, ended]
    rfl
  have missing : Parse.word .PROGRAM cursor =
      .error (.unexpected [.keyword .PROGRAM] .eof cursor.current.line) cursor := by
    rw [← ended]
    simp [Parse.word, Parse.expect, Parse.expectAny, Parse.kind, Parse.unexpected, ended,
      Functor.discard, Functor.mapConst, EStateM.map, bind, EStateM.bind]
  have text : programText cursor =
      .error (.unexpected [.keyword .PROGRAM] .eof cursor.current.line) cursor := by
    simp only [programText, bind, EStateM.bind, blank, missing]
  rw [program_apply, text]

namespace Session

/-- What a session can be asked to do to its state. A loop that is not done after
the given passes is left. -/
inductive Call where
  | interpret (patience : Nat)
  | execute (patience : Nat) (statements : List Stmt)

section Calls

variable [Writer]

/-- The session after a call, whether or not it failed. -/
def call [Memory] (session : Session) : Call → Session
  | .interpret patience => (session.interpret patience).2
  | .execute patience statements => (session.execute patience statements).2

/-- The symbols of a session are well typed, and there are none before the end of
the text was reached. -/
def Consistent (session : Session) : Prop :=
  ∃ scope : Scope, scope.Plain ∧ session.state.table.Conforms scope ∧
    (scope = .empty ∨ session.cursor.current.kind = .eof)

/-- A step in the state of a session leads to the state it ends or stops in. -/
theorem step_cases (session : Session) (run : Run Unit) :
    ∃ state, (session.step run).2 = ⟨session.cursor, state⟩ ∧
      ((∃ a, run session.state = .ok a state) ∨ ∃ stop, run session.state = .error stop state) := by
  cases ran : run session.state with
  | ok a state => exact ⟨state, by rw [step, ran], .inl ⟨a, rfl⟩⟩
  | error stop state =>
      refine ⟨state, ?_, .inr ⟨stop, rfl⟩⟩
      cases stop <;> rw [step, ran]

/-- A property that a step ensures both where it ends and where it stops. -/
theorem step_table {session : Session} {run : Run Unit} {before after : Table → Prop}
    (triple : Triple before run (fun _ => after) (fun _ => after))
    (holds : before session.state.table) :
    after (session.step run).2.state.table ∧ (session.step run).2.cursor = session.cursor := by
  have outcome := triple session.state holds
  obtain ⟨state, same, ⟨a, ran⟩ | ⟨stop, ran⟩⟩ := session.step_cases run
  · rw [ran] at outcome
    rw [same]
    exact ⟨outcome, rfl⟩
  · rw [ran] at outcome
    rw [same]
    exact ⟨outcome, rfl⟩

namespace Consistent

variable [Memory] {session : Session}

theorem execute (consistent : session.Consistent) (patience : Nat) (statements : List Stmt) :
    (session.execute patience statements).2.Consistent := by
  obtain ⟨scope, plain, conforms, place⟩ := consistent
  have keeps : Triple (Table.Conforms scope) (execAll patience statements)
      (fun _ => Table.Conforms scope) (fun _ => Table.Conforms scope) :=
    Triple.weaken (execAll_conforms scope patience statements) (fun _ _ kept => kept.1)
      fun _ _ kept => kept.1
  obtain ⟨kept, stays⟩ := step_table keeps conforms
  exact ⟨scope, plain, kept, by rwa [Session.execute, stays]⟩

/-- Either the text is at its end and nothing is read, or the table is empty and
a program that is read leads to the end. -/
theorem interpret (consistent : session.Consistent) (patience : Nat) :
    (session.interpret patience).2.Consistent := by
  obtain ⟨scope, plain, conforms, place⟩ := consistent
  cases read : Grammar.program session.cursor with
  | error error cursor =>
      rw [Session.interpret, read]
      refine ⟨scope, plain, conforms, ?_⟩
      rcases place with empty | ended
      · exact .inl empty
      · rw [Grammar.program_atEnd ended] at read
        cases read
        exact .inr ended
  | ok program cursor =>
      rcases place with rfl | ended
      · have here : Cursor.ofLexed ⟨session.cursor.current :: session.cursor.rest,
          session.cursor.stop⟩ = .ok session.cursor := rfl
        obtain ⟨ended, used, rest, _, _, derived⟩ := Grammar.program_sound here read
        have runs := Program.exec_conforms patience derived.variable_type
        have noted := Triple.bind
          (.weaken (Run.Triple.ofEnsures fun _ => .note .debug .grammar fun _ =>
              s!"parsed program '{program.name}' with {program.body.length} top-level statements")
            (fun _ _ kept => kept) fun _ table ⟨scope, constants, conforms⟩ =>
              ⟨scope, constants.plain, conforms⟩)
          fun _ => runs
        have start : Table.ConformsTo Scope.Constants (session.moveTo cursor).state.table :=
          ⟨.empty, .empty, conforms⟩
        obtain ⟨⟨scope, plain, kept⟩, stays⟩ := step_table noted start
        rw [Session.interpret, read]
        exact ⟨scope, plain, kept, .inr (stays ▸ ended)⟩
      · rw [Grammar.program_atEnd ended] at read
        cases read

theorem call (consistent : session.Consistent) (call : Call) :
    (session.call call).Consistent := by
  cases call with
  | interpret patience => exact consistent.interpret patience
  | execute patience statements => exact consistent.execute patience statements

theorem calls (consistent : session.Consistent) (calls : List Call) :
    (calls.foldl Session.call session).Consistent := by
  induction calls generalizing session with
  | nil => exact consistent
  | cons first rest ih => exact ih (consistent.call first)

end Consistent

/-- A new session has no symbols. -/
theorem consistent_of_ofSource {source : String} {output : Writer.Stream} {journal : Journal}
    {session : Session} (opened : Session.ofSource source output journal = .ok session) :
    session.Consistent := by
  unfold Session.ofSource at opened
  cases read : Cursor.ofLexed (.ofSource source) with
  | error error =>
      rw [read] at opened
      cases opened
  | ok cursor =>
      rw [read] at opened
      cases opened
      exact ⟨.empty, Scope.Constants.empty.plain, .empty, .inl rfl⟩

/-- **After any calls every symbol is what its declaration says.** -/
theorem wellTyped_after_calls [Memory] {source : String} {output : Writer.Stream}
    {journal : Journal} {session : Session}
    (opened : Session.ofSource source output journal = .ok session)
    (calls : List Call) : (calls.foldl Session.call session).state.table.WellTyped := by
  obtain ⟨scope, plain, conforms, _⟩ := (consistent_of_ofSource opened).calls calls
  intro name symbol found
  obtain ⟨signature, declared, fits⟩ := conforms.fits found
  exact fits.wellTyped (plain name signature declared)

end Calls

/-- A program with a constant, a variable and an array, and with a fault in front of its name. -/
def counting : String :=
  "PROGRAM @ p\nCONSTANTS\nn = 2\nVARIABLES\ni : INTEGER\nr : FLOAT[n]\nBEGIN\nLET r[n] = n\n" ++
    "FOR i FROM 1 TO n\nENDFOR\nEND"

/-- What it is asked: to run, which fails at the fault, to run from there on, to change the length
of the array, and to run again. -/
def countingCalls : List Call :=
  [.interpret 3, .interpret 3, .execute 3 [.resize "r" (.name "i")], .interpret 3]

theorem counting_wellTyped_after_calls :
    ∃ session, Session.ofSource counting .unbounded .off = .ok session ∧
      (session.interpret 3).1 = .failure (.lexical ⟨.unknownToken '@', 1⟩) ∧
      (countingCalls.foldl Session.call session).state.table.contains "r" = true ∧
      (countingCalls.foldl Session.call session).state.table.WellTyped := by
  have known : ((Session.ofSource counting .unbounded .off).toOption.map fun session =>
      ((session.interpret 3).1,
        (countingCalls.foldl Session.call session).state.table.contains "r")) =
      some (.failure (.lexical ⟨.unknownToken '@', 1⟩), true) := by
    decide +kernel
  cases opened : Session.ofSource counting .unbounded .off with
  | error error =>
      rw [opened] at known
      cases known
  | ok session =>
      rw [opened] at known
      simp only [Except.toOption, Option.map_some, Option.some.injEq, Prod.mk.injEq] at known
      exact ⟨session, rfl, known.1, known.2, wellTyped_after_calls opened countingCalls⟩

end Session

end Pseudocode
