import Pseudocode.Proofs.Run.Capacity
import Pseudocode.Proofs.Run.Footprint

/-!
# What can influence a statement

The value of an expression depends on the symbols of the names that stand in it, and on
nothing else in the table (`Expr.eval_congr`). A statement, too, sees no more than the
symbols of the names in it and what the writer takes. Two states that are the same in this
respect cannot be told apart by it: it ends, fails or goes on in both alike and prints the
same (`Stmt.exec_noninterference`).

The journal is not looked at by any step, so nothing is asked of it here.
-/

set_option autoImplicit false

namespace Pseudocode

/-! ## Names -/

namespace Expr

/-- The names in an expression. -/
def names : Expr → List String
  | literal _ => []
  | name n => [n]
  | element n index => n :: index.names
  | unary _ operand => operand.names
  | binary _ left right => left.names ++ right.names

end Expr

namespace Stmt

/-- The names in a statement itself, without those in the statements inside. -/
def ownNames (stmt : Stmt) : List String := stmt.target?.toList ++ stmt.exprs.flatMap Expr.names

/-- The names in a statement. -/
def names (stmt : Stmt) : List String := stmt.parts.flatMap ownNames

theorem names_subset_of_mem_exprs {stmt : Stmt} {expr : Expr} (member : expr ∈ stmt.exprs) :
    expr.names ⊆ stmt.ownNames := by
  intro name isName
  exact List.mem_append_right _ (List.mem_flatMap.2 ⟨expr, member, isName⟩)

theorem mem_ownNames_of_target {stmt : Stmt} {name : String}
    (target : stmt.target? = some name) : name ∈ stmt.ownNames :=
  List.mem_append_left _ (Option.mem_toList.2 target)

end Stmt

/-! ## Tables that agree -/

namespace Table

variable {names : List String} {left right : Table} {name : String}

/-- Two tables have the same symbols, or none, for some names. -/
def Agree (names : List String) (left right : Table) : Prop :=
  ∀ name ∈ names, left.find? name = right.find? name

namespace Agree

theorem mono {fewer : List String} (agree : Agree names left right) (subset : fewer ⊆ names) :
    Agree fewer left right :=
  fun name member => agree name (subset member)

theorem get (agree : Agree names left right) (member : name ∈ names) :
    left.get name = right.get name := by
  rw [Table.get, Table.get, agree name member]

theorem modify (agree : Agree names left right) (name : String) (change : Symbol → Symbol) :
    Agree names (left.modify name change) (right.modify name change) := by
  intro other member
  rw [find?_modify, find?_modify]
  by_cases same : other = name
  · rw [if_pos same, if_pos same, ← same, agree other member]
  · rw [if_neg same, if_neg same, agree other member]

theorem assignment (agree : Agree names left right) (member : name ∈ names) (value : Value) :
    left.assignment name value = right.assignment name value := by
  rw [Table.assignment, Table.assignment, agree.get member]

theorem elementAssignment (agree : Agree names left right) (member : name ∈ names)
    (index : Integer) (value : Value) :
    left.elementAssignment name index value = right.elementAssignment name index value := by
  rw [Table.elementAssignment, Table.elementAssignment, agree.get member]

theorem resizing [Memory] (agree : Agree names left right) (member : name ∈ names) (size : Value) :
    left.resizing name size = right.resizing name size := by
  simp only [Table.resizing, Table.newLength, agree.get member]

end Agree

end Table

/-- The value of an expression depends on the names in it only. -/
theorem Expr.eval_congr {left right : Table} (expr : Expr)
    (agree : Table.Agree expr.names left right) : expr.eval left = expr.eval right := by
  induction expr with
  | literal l => rfl
  | name n =>
      have known : left.get n = right.get n := agree.get List.mem_cons_self
      simp only [eval, Table.read, known]
  | element n index ih =>
      have known : left.get n = right.get n := agree.get List.mem_cons_self
      have position := ih (agree.mono (List.subset_cons_self _ _))
      simp only [eval, Table.readAt, position, known]
  | unary op operand ih => simp only [eval, ih agree]
  | binary op first second ihFirst ihSecond =>
      have one := ihFirst (agree.mono (List.subset_append_left _ _))
      have two := ihSecond (agree.mono (List.subset_append_right _ _))
      simp only [eval, one, two]

/-! ## Streams that behave alike -/

/-- No text tells two streams apart, and none that is printed later does: both take it, or both
refuse it for the same reason, and the same bytes are added to what they have taken. -/
def Writer.Stream.Alike [Writer] (left right : Writer.Stream) : Prop :=
  ∃ related : Writer.Stream → Writer.Stream → Prop, related left right ∧
    ∀ left right, related left right → ∀ text, ∃ result bytes next next',
      Writer.write left text = (result, next) ∧ Writer.write right text = (result, next') ∧
      Writer.written next = Writer.written left ++ bytes ∧
      Writer.written next' = Writer.written right ++ bytes ∧ related next next'

theorem Writer.Stream.Alike.write [Writer] {left right : Writer.Stream} (alike : left.Alike right)
    (text : String) :
    ∃ result bytes next next',
      Writer.write left text = (result, next) ∧ Writer.write right text = (result, next') ∧
      Writer.written next = Writer.written left ++ bytes ∧
      Writer.written next' = Writer.written right ++ bytes ∧ next.Alike next' := by
  obtain ⟨related, here, step⟩ := alike
  obtain ⟨result, bytes, next, next', wrote, wrote', added, added', again⟩ :=
    step left right here text
  exact ⟨result, bytes, next, next', wrote, wrote', added, added', related, again, step⟩

namespace Output

/-- What fits into one output fits into the other. -/
def SameRoom (left right : Output) : Prop := ∀ count, left.hasRoom count = right.hasRoom count

namespace SameRoom

variable {left right : Output}

theorem append (same : SameRoom left right) (bytes : ByteArray) :
    SameRoom { left with written := left.written ++ bytes }
      { right with written := right.written ++ bytes } := by
  intro count
  rw [hasRoom_append, hasRoom_append, same]

/-- Where the same texts fit, the same part of a text that is too long fits. -/
theorem room (same : SameRoom left right) : left.room = right.room := by
  obtain ⟨written, capacity, stuck⟩ := left
  obtain ⟨written', capacity', stuck'⟩ := right
  cases capacity with
  | none =>
      cases capacity' with
      | none => simp [Output.room]
      | some limit =>
          have fits := same (limit + 1)
          simp only [hasRoom, true_eq_decide_iff] at fits
          omega
  | some limit =>
      cases capacity' with
      | none =>
          have fits := same (limit + 1)
          simp only [hasRoom, decide_eq_true_eq] at fits
          omega
      | some limit' =>
          -- The room that is left in either output is a count to compare them by.
          have least := same 0
          have leftRoom := same (limit - written.size)
          have rightRoom := same (limit' - written'.size)
          simp only [hasRoom, decide_eq_decide] at least leftRoom rightRoom
          simp only [Output.room, Option.getD_some]
          omega

/-- A text is stored alike, with the same bytes. -/
theorem write (same : SameRoom left right) (text : String) :
    ∃ result bytes, left.write text = (result, { left with written := left.written ++ bytes }) ∧
      right.write text = (result, { right with written := right.written ++ bytes }) := by
  by_cases fits : left.hasRoom text.toUTF8.size = true
  · have fits' := (same text.toUTF8.size).symm.trans fits
    exact ⟨.ok (), text.toUTF8, write_of_room fits, write_of_room fits'⟩
  · have full : ¬ right.hasRoom text.toUTF8.size = true := by rwa [← same]
    refine ⟨.error "sink full", text.toUTF8.extract 0 left.room, write_of_full fits, ?_⟩
    rw [same.room, write_of_full full]

/-- Outputs with room for the same behave alike. -/
theorem alike (same : SameRoom left right) : Writer.Stream.Alike (left : Writer.Stream) right := by
  refine ⟨SameRoom, same, fun left right same text => ?_⟩
  obtain ⟨result, bytes, wrote, wrote'⟩ := same.write text
  exact ⟨result, bytes, _, _, wrote, wrote', rfl, rfl, same.append bytes⟩

end SameRoom

end Output

/-! ## States that look alike -/

section

variable [Writer]

/-- Two states that look alike to a run that knows some names only. -/
structure State.Alike (names : List String) (left right : State) : Prop where
  tables : Table.Agree names left.table right.table
  outputs : left.output.Alike right.output

/-- What two states have come to, if they were treated alike: they look alike still, and the
same was printed in both. -/
structure State.Treated (names : List String) (left right next next' : State) : Prop where
  alike : next.Alike names next'
  printed : ∃ bytes, Writer.written next.output = Writer.written left.output ++ bytes ∧
    Writer.written next'.output = Writer.written right.output ++ bytes

/-- Two outcomes with the same result or the same stop, of states that were treated alike. -/
inductive Outcome.Alike (names : List String) (left right : State) {α : Type} :
    Outcome α → Outcome α → Prop where
  | ok (a : α) {next next' : State} (treated : State.Treated names left right next next') :
      Alike names left right (.ok a next) (.ok a next')
  | error (stop : Stop) {next next' : State}
      (treated : State.Treated names left right next next') :
      Alike names left right (.error stop next) (.error stop next')

namespace State

variable {names : List String} {left right next next' : State}

theorem Alike.recorded (alike : left.Alike names right) (journal journal' : Journal) :
    State.Alike names { left with journal } { right with journal := journal' } :=
  ⟨alike.tables, alike.outputs⟩

/-- Nothing is printed by a change of the tables or the journals. -/
theorem Alike.treated (alike : next.Alike names next') (output : next.output = left.output)
    (output' : next'.output = right.output) : Treated names left right next next' :=
  ⟨alike, .empty, by rw [output, ByteArray.append_empty], by rw [output', ByteArray.append_empty]⟩

theorem Treated.trans {last last' : State} (first : Treated names left right next next')
    (second : Treated names next next' last last') : Treated names left right last last' := by
  obtain ⟨bytes, printed, printed'⟩ := first.printed
  obtain ⟨more, after, after'⟩ := second.printed
  refine ⟨second.alike, bytes ++ more, ?_, ?_⟩
  · rw [after, printed, ByteArray.append_assoc]
  · rw [after', printed', ByteArray.append_assoc]

end State

theorem Outcome.Alike.after {names : List String} {left right next next' : State} {α : Type}
    {outcome outcome' : Outcome α} (first : State.Treated names left right next next')
    (second : Outcome.Alike names next next' outcome outcome') :
    Outcome.Alike names left right outcome outcome' := by
  cases second with
  | ok a treated => exact .ok a (first.trans treated)
  | error stop treated => exact .error stop (first.trans treated)

/-! ## Runs that see some names only -/

namespace Run

variable {names : List String} {α β : Type}

/-- A run that does not tell apart states that look alike. -/
def Blind (names : List String) (run : Run α) : Prop :=
  ∀ left right, State.Alike names left right →
    Outcome.Alike names left right (run left) (run right)

namespace Blind

theorem bind {first : Run α} {second : α → Run β} (earlier : Blind names first)
    (later : ∀ a, Blind names (second a)) : Blind names (first >>= second) := by
  intro left right alike
  have ran := earlier left right alike
  change Outcome.Alike names left right (EStateM.bind first second left)
    (EStateM.bind first second right)
  simp only [EStateM.bind]
  generalize first left = outcome, first right = outcome' at ran
  cases ran with
  | error stop treated => exact .error stop treated
  | ok a treated => exact .after treated (later a _ _ treated.alike)

/-- What is computed from the table is the same in both states if the tables give the same. -/
theorem lift {left right : State} (alike : left.Alike names right)
    {computed computed' : Except RuntimeError α} (same : computed = computed')
    (journal journal' : Journal) :
    Outcome.Alike names left right (Run.lift computed { left with journal })
      (Run.lift computed' { right with journal := journal' }) := by
  subst same
  have next := alike.recorded journal journal'
  cases computed with
  | ok a => exact .ok a (next.treated rfl rfl)
  | error error => exact .error (.failed error) (next.treated rfl rfl)

theorem composable : Composable fun {_} run => Blind names run where
  pure a _ _ alike := .ok a (alike.treated rfl rfl)
  stop stop _ _ alike := .error stop (alike.treated rfl rfl)
  bind := bind
  note _ _ _ _ _ alike := .ok () ((alike.recorded _ _).treated rfl rfl)

theorem eval {expr : Expr} (known : expr.names ⊆ names) : Blind names (Run.eval expr) := by
  obtain ⟨recorded, spec⟩ := Run.eval_spec expr
  intro left right alike
  rw [spec, spec]
  exact lift alike (expr.eval_congr (alike.tables.mono known)) _ _

theorem symbol {name : String} (known : name ∈ names) : Blind names (Run.symbol name) :=
  fun left right alike => lift alike (alike.tables.get known) left.journal right.journal

/-- A write is the same in both states if it is planned alike. -/
theorem write_recorded {name : String} {plan : Table → Except RuntimeError (Symbol → Symbol)}
    {left right : State} (alike : left.Alike names right)
    (same : plan left.table = plan right.table) (journal journal' : Journal) :
    Outcome.Alike names left right (Run.write name plan { left with journal })
      (Run.write name plan { right with journal := journal' }) := by
  simp only [Run.write, Run.update, Update.planned, same]
  cases plan right.table with
  | error error =>
      exact .error (.failed error) ((alike.recorded journal journal').treated rfl rfl)
  | ok change =>
      have next : State.Alike names ⟨left.table.modify name change, left.output, journal⟩
          ⟨right.table.modify name change, right.output, journal'⟩ :=
        ⟨alike.tables.modify name change, alike.outputs⟩
      exact .ok () (next.treated rfl rfl)

theorem assign {name : String} (known : name ∈ names) (value : Value) :
    Blind names (Run.assign name value) := by
  intro left right alike
  rw [Run.assign_eq_write]
  exact write_recorded alike (alike.tables.assignment known value) left.journal right.journal

theorem assignAt {name : String} (known : name ∈ names) (index : Integer) (value : Value) :
    Blind names (Run.assignAt name index value) := by
  intro left right alike
  rw [Run.assignAt_eq_write]
  exact write_recorded alike (alike.tables.elementAssignment known index value) left.journal
    right.journal

theorem resize [Memory] {name : String} (known : name ∈ names) (size : Value) :
    Blind names (Run.resize name size) := by
  obtain ⟨recorded, spec⟩ := Run.resize_spec name size
  intro left right alike
  rw [spec, spec]
  exact write_recorded alike (alike.tables.resizing known size) _ _

theorem put (text : String) : Blind names (Run.put text) := by
  intro left right alike
  obtain ⟨result, bytes, next, next', wrote, wrote', added, added', outputs⟩ :=
    alike.outputs.write text
  have treated : State.Treated names left right { left with output := next }
      { right with output := next' } := ⟨⟨alike.tables, outputs⟩, bytes, added, added'⟩
  cases result with
  | ok _ =>
      rw [Run.put, Run.ask_ok wrote, Run.ask_ok wrote']
      exact .ok () treated
  | error reason =>
      rw [Run.put, Run.ask_error wrote, Run.ask_error wrote']
      exact .error (.failed (.output reason)) treated

theorem print (line : String) : Blind names (Run.print line) :=
  bind (put line) fun _ => put "\n"

end Blind

end Run

/-! ## Statements -/

namespace Stmt

variable [Memory]

theorem admits_blind {stmt : Stmt} {names : List String} (known : stmt.ownNames ⊆ names) :
    stmt.Admits fun {_} run => Run.Blind names run := by
  refine ⟨fun expr member => .eval (List.Subset.trans (names_subset_of_mem_exprs member) known), ?_⟩
  have target : ∀ {name : String}, stmt.target? = some name → name ∈ names :=
    fun isTarget => known (mem_ownNames_of_target isTarget)
  cases stmt with
  | assign name expr => exact ⟨.symbol (target rfl), .assign (target rfl)⟩
  | assignAt name position expr => exact ⟨.symbol (target rfl), .assignAt (target rfl)⟩
  | forLoop name first last step body =>
      exact ⟨.symbol (target rfl), fun counter => .assign (target rfl) (.integer counter)⟩
  | resize name size => exact ⟨.symbol (target rfl), .resize (target rfl)⟩
  | print values => exact .print
  | branch | whileLoop | repeatLoop | switch => trivial

theorem exec_blind (patience : Nat) (stmt : Stmt) : Run.Blind stmt.names (stmt.exec patience) := by
  refine exec_composed Run.Blind.composable fun part isPart => admits_blind fun name own => ?_
  exact List.mem_flatMap.2 ⟨part, isPart, own⟩

/-- **What is not named has no influence.** In two tables that agree on the names of an
expression it has the same value or the same error. In two states of which the tables agree
on the names of a statement and the writers take the same, the statement ends, fails with
the same error or is given up in both. It then has printed the same bytes, and the tables
agree on its names again. -/
theorem exec_noninterference (patience : Nat) :
    (∀ (expr : Expr) (left right : Table),
      Table.Agree expr.names left right → expr.eval left = expr.eval right) ∧
    (∀ (stmt : Stmt) (left right : State), left.Alike stmt.names right →
      Outcome.Alike stmt.names left right (stmt.exec patience left) (stmt.exec patience right)) :=
  ⟨fun expr _ _ agree => expr.eval_congr agree, exec_blind patience⟩

end Stmt

end

namespace Stmt

/-- Doubles a number and prints it, again and again. -/
def doubling : Stmt :=
  .whileLoop (.name "go")
    [.assign "n" (.binary .add (.name "n") (.name "n")), .print [.name "n"]]

/-- A table with the names of that statement, after others that it does not name. -/
def doublingTable (others : List Table.Operation) : Table :=
  Table.empty.after (others ++ [.declareConstant "go" (.boolean true),
    .declareVariable "n" .integer, .assign "n" (.integer .one)])

/-- One table has an array that the other does not have. The third line does not fit into
either output, and asking for an element of a number fails in both tables alike. -/
theorem doubling_noninterference :
    let left : State := ⟨doublingTable [], ⟨.empty, some 5, false⟩, .off⟩
    let right : State :=
      ⟨doublingTable [.declareArray "secret" .float 2 .usual], ⟨"ab".toUTF8, some 7, true⟩, .off⟩
    left.table.contains "secret" = false ∧ right.table.contains "secret" = true ∧
      ((doubling.exec 9).after left).output.written = "2\n4\n8".toUTF8 ∧
      ((doubling.exec 9).after right).output.written = "ab2\n4\n8".toUTF8 ∧
      (Expr.element "n" (.name "n")).eval left.table =
        (Expr.element "n" (.name "n")).eval right.table ∧
      Outcome.Alike doubling.names left right (doubling.exec 9 left) (doubling.exec 9 right) := by
  intro left right
  have names : doubling.names = ["go", "n", "n", "n", "n"] := by decide
  have agree : Table.Agree doubling.names left.table right.table := by
    rw [names]
    simp only [Table.Agree, List.forall_mem_cons]
    exact ⟨rfl, rfl, rfl, rfl, rfl, List.forall_mem_nil _⟩
  have outputs : Output.SameRoom left.output right.output := by
    intro count
    have size : "ab".toUTF8.size = 2 := by decide
    simp only [left, right, Output.hasRoom, ByteArray.size_empty, size, decide_eq_decide]
    omega
  obtain ⟨values, runs⟩ := exec_noninterference 9
  refine ⟨by decide, by decide, by decide +kernel, by decide +kernel, ?_, ?_⟩
  · have subset : (Expr.element "n" (.name "n")).names ⊆ doubling.names := by decide
    exact values _ left.table right.table (agree.mono subset)
  · exact runs doubling left right ⟨agree, outputs.alike⟩

end Stmt

end Pseudocode
