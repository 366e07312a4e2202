import Pseudocode.Proofs.Grammar.Acceptance
import Pseudocode.Proofs.Run.Atomicity
import Pseudocode.Proofs.Table.Listing
import Pseudocode.Proofs.Typing.Program

/-!
# What declarations leave behind

Constants and variables are declared one after the other. Each entry finds its symbol in the
table of the entries before it (`Declaration.symbol`) and is then added under its name, unless the
name is taken. So a table is built up entry by entry (`Table.addAll`), and where one of them fails
the table of the earlier ones remains (`Declarations.exec_shows`).

A value that could be computed in a table is the same in every table with more names
(`Expr.eval_of_extends`), because all names in it were known. Therefore it makes no difference
that the size of several arrays on one line is computed once for each of them, in tables in which
more and more of them are known.
-/

set_option autoImplicit false

namespace Pseudocode

/-! ## More names -/

namespace Table

/-- A table with all the symbols of another one, and perhaps more. -/
def Extends (later table : Table) : Prop :=
  ∀ name symbol, table.find? name = some symbol → later.find? name = some symbol

variable {table later last : Table} {name : String}

theorem Extends.refl (table : Table) : table.Extends table := fun _ _ found => found

theorem Extends.trans (second : last.Extends later) (first : later.Extends table) :
    last.Extends table :=
  fun name symbol found => second name symbol (first name symbol found)

theorem Extends.get (more : later.Extends table) {symbol : Symbol}
    (got : table.get name = .ok symbol) : later.get name = .ok symbol :=
  demand_eq_ok.2 (more name symbol (demand_eq_ok.1 got))

theorem extends_of_declare {symbol : Symbol} (declared : table.declare name symbol = .ok later) :
    later.Extends table := by
  intro other known found
  rw [find?_of_declare declared]
  by_cases same : other = name
  · have taken : table.contains name = true := Option.isSome_iff_exists.2 ⟨known, same ▸ found⟩
    rw [declare_of_contains taken] at declared
    cases declared
  · rw [if_neg same, found]

end Table

/-- **A value stays the same where more is declared.** -/
theorem Expr.eval_of_extends {table later : Table} (more : later.Extends table) {expr : Expr}
    {value : Value} (found : expr.eval table = .ok value) : expr.eval later = .ok value := by
  induction expr generalizing value with
  | literal l => exact found
  | name n =>
      obtain ⟨symbol, got, read⟩ := bind_eq_ok.1 found
      exact bind_eq_ok.2 ⟨symbol, more.get got, read⟩
  | element n index ih =>
      obtain ⟨place, computed, found⟩ := bind_eq_ok.1 found
      obtain ⟨position, isIndex, found⟩ := bind_eq_ok.1 found
      obtain ⟨symbol, got, read⟩ := bind_eq_ok.1 found
      refine bind_eq_ok.2 ⟨place, ih computed, bind_eq_ok.2 ⟨position, isIndex, ?_⟩⟩
      exact bind_eq_ok.2 ⟨symbol, more.get got, read⟩
  | unary op operand ih =>
      obtain ⟨inner, computed, applied⟩ := bind_eq_ok.1 found
      exact bind_eq_ok.2 ⟨inner, ih computed, applied⟩
  | binary op first second ihFirst ihSecond =>
      obtain ⟨a, one, found⟩ := bind_eq_ok.1 found
      obtain ⟨b, two, applied⟩ := bind_eq_ok.1 found
      exact bind_eq_ok.2 ⟨a, ihFirst one, bind_eq_ok.2 ⟨b, ihSecond two, applied⟩⟩

/-! ## Entries -/

/-- One entry of the declarations. -/
inductive Declaration where
  | constant (constant : Constant)
  | var (var : Variable)

namespace Declaration

/-- The declared name. -/
def name : Declaration → String
  | constant c => c.name
  | var v => v.name

variable [Memory]

/-- Declares the entry. -/
def exec [Writer] : Declaration → Run Unit
  | constant c => c.exec
  | var v => v.exec

/-- What the name of the entry is to stand for, found in a table. -/
def symbol (entry : Declaration) (table : Table) : Except RuntimeError Symbol :=
  match entry with
  | constant c => do return .ofConstant (← c.value.eval table)
  | var v =>
    match v.size with
    | none => .ok (.ofVariable v.type)
    | some size => do Symbol.ofArray v.type (← (← size.eval table).arrayLength)

/-- The table with the entry. The symbol is found before the name is looked at. -/
def add (entry : Declaration) (table : Table) : Except RuntimeError Table := do
  table.declare entry.name (← entry.symbol table)

/-- The same as an operation on the table. -/
def update (entry : Declaration) : Update Unit := do
  Update.declare entry.name (← Update.look entry.symbol)

theorem result_update (entry : Declaration) (table : Table) :
    entry.update.result table = entry.add table :=
  Update.result_look_bind entry.symbol (Update.declare entry.name) table

theorem update_checksFirst (entry : Declaration) : entry.update.ChecksFirst :=
  Update.look_bind_checksFirst entry.symbol (Update.declare_checksFirst entry.name)

/-- A symbol stays the same where more is declared. -/
theorem symbol_of_extends {table later : Table} (more : later.Extends table) {entry : Declaration}
    {symbol : Symbol} (found : entry.symbol table = .ok symbol) :
    entry.symbol later = .ok symbol := by
  cases entry with
  | constant c =>
      obtain ⟨value, computed, made⟩ := bind_eq_ok.1 found
      exact bind_eq_ok.2 ⟨value, Expr.eval_of_extends more computed, made⟩
  | var v =>
      obtain ⟨name, type, size⟩ := v
      cases size with
      | none => exact found
      | some size =>
          obtain ⟨value, computed, made⟩ := bind_eq_ok.1 found
          exact bind_eq_ok.2 ⟨value, Expr.eval_of_extends more computed, made⟩

/-- An array has as many slots as its size says, all of them empty. -/
theorem symbol_array {table : Table} {var : Variable} {size : Expr} (sized : var.size = some size)
    {symbol : Symbol} (found : (Declaration.var var).symbol table = .ok symbol) :
    ∃ n : Integer, size.eval table = .ok (.integer n) ∧ 0 < n.val ∧
      symbol = ⟨.array (Array.replicate n.val.toNat none), var.type, false⟩ := by
  simp only [Declaration.symbol, sized] at found
  obtain ⟨value, computed, found⟩ := bind_eq_ok.1 found
  obtain ⟨length, measured, made⟩ := bind_eq_ok.1 found
  cases value with
  | integer n =>
      obtain ⟨positive, rfl⟩ : 0 < n.val ∧ n.val.toNat = length := by
        simpa [Integer.toLength?] using demand_eq_ok.1 measured
      refine ⟨n, computed, positive, ?_⟩
      rw [Symbol.ofArray] at made
      split at made
      · exact (Except.ok.inj made).symm
      · cases made
  | _ => cases measured

/-- An entry is refused because it has no symbol, or because its name is taken. -/
theorem add_eq_error {table : Table} {entry : Declaration} {error : RuntimeError}
    (failed : entry.add table = .error error) :
    entry.symbol table = .error error ∨
      (∃ symbol, entry.symbol table = .ok symbol) ∧ table.contains entry.name = true ∧
        error = .alreadyDeclared entry.name := by
  rcases bind_eq_error.1 failed with unknown | ⟨symbol, found, taken⟩
  · exact .inl unknown
  · refine .inr ⟨⟨symbol, found⟩, ?_⟩
    exact (table.declare_eq_error entry.name).1 taken

end Declaration

/-! ## Entries in a row -/

namespace Entries

/-- Nothing but the new entry is added. -/
theorem insert_perm (name : String) (symbol : Symbol) (entries : List (String × Symbol)) :
    (insert name symbol entries).Perm ((name, symbol) :: entries) := by
  induction entries with
  | nil => exact .refl _
  | cons entry rest ih =>
      rw [insert]
      split
      · exact .refl _
      · exact (ih.cons entry).trans (.swap ..)

end Entries

namespace Table

theorem names_of_declare {table later : Table} {name : String} {symbol : Symbol}
    (declared : table.declare name symbol = .ok later) :
    later.names.Perm (name :: table.names) := by
  rw [declare, Update.result, Update.declare] at declared
  by_cases fresh : table.entries.lookup name = none
  · rw [dif_pos fresh] at declared
    cases declared
    exact (Entries.insert_perm name symbol table.entries).map Prod.fst
  · rw [dif_neg fresh] at declared
    cases declared

variable [Memory]

/-- The table with entries in a row, each of them added to the table of those before it. -/
def addAll (table : Table) (entries : List Declaration) : Except RuntimeError Table :=
  entries.foldlM (fun table entry => entry.add table) table

variable {table last : Table} {entry : Declaration} {entries : List Declaration}

theorem addAll_cons : table.addAll (entry :: entries) = entry.add table >>= (·.addAll entries) :=
  List.foldlM_cons

theorem addAll_append {others : List Declaration} :
    table.addAll (entries ++ others) = table.addAll entries >>= (·.addAll others) :=
  List.foldlM_append

/-- The first entry gets its symbol, and the others are added afterwards. -/
theorem addAll_cons_eq_ok :
    table.addAll (entry :: entries) = .ok last ↔
      ∃ symbol next, entry.symbol table = .ok symbol ∧
        table.declare entry.name symbol = .ok next ∧ next.addAll entries = .ok last := by
  rw [addAll_cons, bind_eq_ok]
  constructor
  · rintro ⟨next, first, others⟩
    obtain ⟨symbol, found, declared⟩ := bind_eq_ok.1 first
    exact ⟨symbol, next, found, declared, others⟩
  · rintro ⟨symbol, next, found, declared, others⟩
    exact ⟨next, bind_eq_ok.2 ⟨symbol, found, declared⟩, others⟩

/-- Entries that could be added are the only new names. -/
theorem names_of_addAll (added : table.addAll entries = .ok last) :
    last.names.Perm (entries.map Declaration.name ++ table.names) := by
  induction entries generalizing table with
  | nil =>
      cases added
      exact .refl _
  | cons entry rest ih =>
      obtain ⟨symbol, next, -, declared, others⟩ := addAll_cons_eq_ok.1 added
      exact (ih others).trans <|
        ((names_of_declare declared).append_left _).trans List.perm_middle

theorem extends_of_addAll (added : table.addAll entries = .ok last) : last.Extends table := by
  induction entries generalizing table with
  | nil =>
      cases added
      exact .refl _
  | cons entry rest ih =>
      obtain ⟨symbol, next, -, declared, others⟩ := addAll_cons_eq_ok.1 added
      exact (ih others).trans (extends_of_declare declared)

/-- What an entry stands for in the end was found in the table of those before it. -/
theorem find?_of_addAll {earlier later : List Declaration}
    (added : table.addAll (earlier ++ entry :: later) = .ok last) :
    ∃ before symbol, table.addAll earlier = .ok before ∧ last.Extends before ∧
      entry.symbol before = .ok symbol ∧ last.find? entry.name = some symbol := by
  rw [addAll_append] at added
  obtain ⟨before, start, added⟩ := bind_eq_ok.1 added
  obtain ⟨symbol, next, found, declared, others⟩ := addAll_cons_eq_ok.1 added
  have more := extends_of_addAll others
  refine ⟨before, symbol, start, more.trans (extends_of_declare declared), found, ?_⟩
  exact more _ _ (by rw [find?_of_declare declared, if_pos rfl])

/-- What an entry stands for in the end can be found in the last table as well. -/
theorem symbol_of_addAll (added : table.addAll entries = .ok last) (member : entry ∈ entries) :
    ∃ symbol, entry.symbol last = .ok symbol ∧ last.find? entry.name = some symbol := by
  obtain ⟨earlier, later, rfl⟩ := List.append_of_mem member
  obtain ⟨before, symbol, -, more, found, stands⟩ := find?_of_addAll added
  exact ⟨symbol, Declaration.symbol_of_extends more found, stands⟩

/-- Either all entries can be added, or there is a first one that is refused. -/
theorem addAll_cases (table : Table) (entries : List Declaration) :
    (∃ last, table.addAll entries = .ok last) ∨
      ∃ earlier entry later middle error, entries = earlier ++ entry :: later ∧
        table.addAll earlier = .ok middle ∧ entry.add middle = .error error := by
  induction entries generalizing table with
  | nil => exact .inl ⟨table, rfl⟩
  | cons entry rest ih =>
      cases first : entry.add table with
      | error error => exact .inr ⟨[], entry, rest, table, error, rfl, rfl, first⟩
      | ok next =>
          rcases ih next with
            ⟨last, others⟩ | ⟨earlier, refused, later, middle, error, rfl, start, why⟩
          · exact .inl ⟨last, by rw [addAll_cons, first]; exact others⟩
          · refine .inr ⟨entry :: earlier, refused, later, middle, error, rfl, ?_, why⟩
            rw [addAll_cons, first]
            exact start

end Table

/-! ## Runs of entries -/

section Runs

variable [Writer]

namespace Run

variable {α : Type} {first : Run α} {second : α → Run Unit}

/-- A run finds something out from the table and changes nothing that is seen. -/
def Computes (run : Run α) (computed : Table → Except RuntimeError α) : Prop :=
  ∀ state : State, run.shows state = ((computed state.table).mapError .failed, state.contents)

theorem computes_note (level : Level) (origin : Origin) (message : Unit → String) :
    (note level origin message).Computes fun _ => .ok () := fun _ => rfl

theorem computes_eval (expr : Expr) : (eval expr).Computes expr.eval := shows_eval expr

theorem computes_lift (computed : Except RuntimeError α) :
    (lift computed).Computes fun _ => computed := shows_lift computed

/-- What is found out may decide on what is done. -/
theorem Computes.bind {computed : Table → Except RuntimeError α} {operation : α → Update Unit}
    (finds : first.Computes computed) (performs : ∀ a, (second a).Performs (operation a)) :
    (first >>= second).Performs (Update.look computed >>= operation) := by
  intro state
  have found := finds state
  rw [Update.look_bind]
  cases result : computed state.table with
  | error error =>
      rw [result] at found
      exact shows_bind_error found
  | ok a =>
      rw [result] at found
      obtain ⟨journal, shown⟩ := shows_bind_ok found
      exact shown.trans (performs a { state with journal })

end Run

namespace Declaration

open Run

variable [Memory]

/-- Declaring an entry adds it to the table or fails as adding it does. -/
theorem exec_performs (entry : Declaration) : entry.exec.Performs entry.update := by
  cases entry with
  | constant c =>
      have declares := (computes_eval c.value).bind fun value =>
        performs_declare c.name (.ofConstant value)
      have performs := (computes_note .trace .statement fun _ => s!"CONSTANT {c.name}").bind
        fun _ => declares
      have same : (constant c).update = (Update.look fun _ => .ok ()) >>= fun _ =>
          Update.look c.value.eval >>= fun value => Update.declare c.name (.ofConstant value) := by
        funext table
        simp only [update, Update.look_bind, symbol, name]
        cases c.value.eval table <;> rfl
      rw [same]
      exact performs
  | var v =>
      obtain ⟨name, type, size⟩ := v
      have noted := computes_note .trace .statement fun _ => s!"VARIABLE {name}"
      cases size with
      | none => exact noted.bind fun _ => performs_declare name (.ofVariable type)
      | some size =>
          have declares := (computes_eval size).bind fun value =>
            (computes_lift value.arrayLength).bind fun length =>
              (computes_lift (Symbol.ofArray type length)).bind fun symbol =>
                performs_declare name symbol
          have same : (var ⟨name, type, some size⟩).update = (Update.look fun _ => .ok ()) >>=
              fun _ => Update.look size.eval >>= fun value =>
                (Update.look fun _ => value.arrayLength) >>= fun length =>
                  (Update.look fun _ => Symbol.ofArray type length) >>= fun symbol =>
                    Update.declare name symbol := by
            simp only [Update.look_look]
            rfl
          rw [same]
          exact noted.bind fun _ => declares

theorem exec_of_add {entry : Declaration} {state : State} {next : Table}
    (added : entry.add state.table = .ok next) :
    entry.exec.shows state = (.ok (), State.contents { state with table := next }) :=
  entry.exec_performs.shows_ok ((entry.result_update state.table).trans added)

theorem exec_of_refused {entry : Declaration} {state : State} {error : RuntimeError}
    (refused : entry.add state.table = .error error) :
    entry.exec.shows state = (.error (.failed error), state.contents) :=
  entry.exec_performs.shows_error entry.update_checksFirst
    ((entry.result_update state.table).trans refused)

end Declaration

namespace Run

variable [Memory]

/-- Entries that can all be added are declared in a row. -/
theorem shows_entries {entries : List Declaration} {state : State} {last : Table}
    (added : state.table.addAll entries = .ok last) :
    (entries.forM Declaration.exec).shows state =
      (.ok (), State.contents { state with table := last }) := by
  induction entries generalizing state with
  | nil =>
      cases added
      rfl
  | cons entry rest ih =>
      obtain ⟨next, first, others⟩ := bind_eq_ok.1 (Table.addAll_cons.symm.trans added)
      obtain ⟨journal, shown⟩ := shows_bind_ok (Declaration.exec_of_add first)
      exact shown.trans (ih others)

/-- The first entry that is refused ends the run, and the table of those before it stays. -/
theorem shows_refused {earlier later : List Declaration} {entry : Declaration} {state : State}
    {middle : Table} {error : RuntimeError} (added : state.table.addAll earlier = .ok middle)
    (refused : entry.add middle = .error error) :
    ((earlier ++ entry :: later).forM Declaration.exec).shows state =
      (.error (.failed error), State.contents { state with table := middle }) := by
  obtain ⟨journal, shown⟩ := shows_bind_ok (shows_entries added)
  rw [List.forM_eq_forM, List.forM_append]
  refine shown.trans (shows_bind_error ?_)
  exact Declaration.exec_of_refused refused

end Run

end Runs

/-! ## Declarations -/

namespace Declarations

/-- The entries in the order in which they are declared. -/
def entries (declarations : Declarations) : List Declaration :=
  declarations.constants.map .constant ++ declarations.variables.map .var

/-- The first entries, constants before variables. -/
def take (count : Nat) (declarations : Declarations) : Declarations :=
  ⟨declarations.constants.take count,
    declarations.variables.take (count - declarations.constants.length)⟩

variable {declarations : Declarations}

theorem map_name_entries : declarations.entries.map Declaration.name = declarations.names := by
  simp only [entries, names, List.map_append, List.map_map]
  rfl

theorem entries_take (count : Nat) :
    (declarations.take count).entries = declarations.entries.take count := by
  simp only [entries, take, List.take_append, List.map_take, List.length_map]

variable [Memory]

theorem exec_eq_entries [Writer] :
    declarations.exec = (Run.note .trace .statement fun _ => "DECLARE section") >>= fun _ =>
      declarations.entries.forM Declaration.exec := by
  simp only [exec, entries, List.forM_eq_forM, List.forM_append, List.forM_map]
  rfl

theorem shows_exec [Writer] (state : State) :
    ∃ journal, declarations.exec.shows state =
      (declarations.entries.forM Declaration.exec).shows { state with journal } := by
  rw [exec_eq_entries]
  exact Run.shows_bind_ok (Run.computes_note _ _ _ state)

/-- Run from the empty table, the declarations end with the given one. They print nothing, whatever
the writer is. -/
def Leaves (declarations : Declarations) (table : Table) : Prop :=
  ∀ [Writer] output journal, declarations.exec.shows ⟨.empty, output, journal⟩ =
    (.ok (), table, output)

/-- Run from the empty table, the declarations fail at the given one. They print nothing, whatever
the writer is. -/
def FailsAt (declarations : Declarations) (error : RuntimeError) (table : Table) : Prop :=
  ∀ [Writer] output journal, declarations.exec.shows ⟨.empty, output, journal⟩ =
    (.error (.failed error), table, output)

theorem leaves_of_addAll {table : Table}
    (added : Table.empty.addAll declarations.entries = .ok table) : declarations.Leaves table := by
  intro _ output journal
  obtain ⟨journal, shown⟩ := declarations.shows_exec ⟨.empty, output, journal⟩
  exact shown.trans (Run.shows_entries added)

theorem failsAt_of_refused {earlier later : List Declaration} {entry : Declaration}
    {table : Table} {error : RuntimeError}
    (split : declarations.entries = earlier ++ entry :: later)
    (added : Table.empty.addAll earlier = .ok table) (refused : entry.add table = .error error) :
    declarations.FailsAt error table := by
  intro _ output journal
  obtain ⟨journal, shown⟩ := declarations.shows_exec ⟨.empty, output, journal⟩
  rw [split] at shown
  exact shown.trans (Run.shows_refused added refused)

/-- Declarations that end with a table have added all their entries. -/
theorem addAll_of_leaves {table : Table} (leaves : declarations.Leaves table) :
    Table.empty.addAll declarations.entries = .ok table := by
  have ended := leaves .unbounded .off
  rcases Table.addAll_cases .empty declarations.entries with
    ⟨last, added⟩ | ⟨earlier, entry, later, middle, error, split, added, refused⟩
  · have same := (leaves_of_addAll added .unbounded .off).symm.trans ended
    simp only [Prod.mk.injEq, true_and, and_true] at same
    rw [added, same]
  · have stopped := (failsAt_of_refused split added refused .unbounded .off).symm.trans ended
    simp at stopped

end Declarations

/-! ## What is left behind -/

/-- A table holds what declarations declare, and nothing else. -/
structure Table.HoldsExactly [Memory] (table : Table) (declarations : Declarations) : Prop where
  /-- There is one entry for each declared name. -/
  names : table.names.Perm declarations.names
  distinct : declarations.names.Nodup
  /-- A constant has its value from the table of the constants before it. -/
  constants : ∀ earlier constant later, declarations.constants = earlier ++ constant :: later →
    ∃ before value, (⟨earlier, []⟩ : Declarations).Leaves before ∧
      constant.value.eval before = .ok value ∧
      table.find? constant.name = some ⟨.scalar (some value), value.type, true⟩
  /-- A variable has no value yet. -/
  scalars : ∀ var ∈ declarations.variables, var.size = none →
    table.find? var.name = some ⟨.scalar none, var.type, false⟩
  /-- An array has as many slots as its size says, in the table of all entries before it and also
  in the last one, and they are empty. -/
  arrays : ∀ earlier var later size, declarations.variables = earlier ++ var :: later →
    var.size = some size →
      ∃ (before : Table) (n : Integer),
        (⟨declarations.constants, earlier⟩ : Declarations).Leaves before ∧
        size.eval before = .ok (.integer n) ∧ size.eval table = .ok (.integer n) ∧ 0 < n.val ∧
        table.find? var.name = some ⟨.array (Array.replicate n.val.toNat none), var.type, false⟩
  /-- Variables that are declared alike are alike. -/
  alike : ∀ var ∈ declarations.variables, ∀ other ∈ declarations.variables,
    var.type = other.type → var.size = other.size →
      table.find? var.name = table.find? other.name

namespace Declarations

variable [Memory] {declarations : Declarations} {table : Table}

/-- Variables of one type and size have the same symbol, since both symbols can be found in the
last table. -/
theorem find?_alike (added : Table.empty.addAll declarations.entries = .ok table)
    {var other : Variable} (first : var ∈ declarations.variables)
    (second : other ∈ declarations.variables) (types : var.type = other.type)
    (sizes : var.size = other.size) : table.find? var.name = table.find? other.name := by
  have inside : ∀ {v}, v ∈ declarations.variables → Declaration.var v ∈ declarations.entries :=
    fun member => List.mem_append_right _ (List.mem_map_of_mem member)
  obtain ⟨symbol, found, stands⟩ := Table.symbol_of_addAll added (inside first)
  obtain ⟨symbol', found', stands'⟩ := Table.symbol_of_addAll added (inside second)
  have same : (Declaration.var var).symbol table = (Declaration.var other).symbol table := by
    simp only [Declaration.symbol, types, sizes]
  obtain rfl : symbol = symbol' := Except.ok.inj (found.symm.trans (same.trans found'))
  exact stands.trans stands'.symm

theorem holdsExactly_of_addAll (added : Table.empty.addAll declarations.entries = .ok table) :
    table.HoldsExactly declarations := by
  have names : table.names.Perm declarations.names := by
    simpa [map_name_entries, Table.names, Table.empty] using Table.names_of_addAll added
  refine ⟨names, names.nodup_iff.1 table.nodup_names, ?_, ?_, ?_, ?_⟩
  · intro earlier constant later split
    have entries : declarations.entries = (⟨earlier, []⟩ : Declarations).entries ++
        .constant constant :: (⟨later, declarations.variables⟩ : Declarations).entries := by
      simp [Declarations.entries, split]
    obtain ⟨before, symbol, start, -, found, stands⟩ := Table.find?_of_addAll (entries ▸ added)
    obtain ⟨value, computed, made⟩ := bind_eq_ok.1 found
    cases made
    exact ⟨before, value, leaves_of_addAll start, computed, stands⟩
  · intro var member scalar
    obtain ⟨symbol, found, stands⟩ := Table.symbol_of_addAll added
      (List.mem_append_right _ (List.mem_map_of_mem member))
    simp only [Declaration.symbol, scalar] at found
    cases found
    exact stands
  · intro earlier var later size split sized
    have entries : declarations.entries =
        (⟨declarations.constants, earlier⟩ : Declarations).entries ++
          .var var :: later.map .var := by
      simp [Declarations.entries, split]
    obtain ⟨before, symbol, start, more, found, stands⟩ := Table.find?_of_addAll (entries ▸ added)
    obtain ⟨n, computed, positive, rfl⟩ := Declaration.symbol_array sized found
    exact ⟨before, n, leaves_of_addAll start, computed, Expr.eval_of_extends more computed,
      positive, stands⟩
  · intro var first other second types sizes
    exact find?_alike added first second types sizes

end Declarations

/-! ## Lines of the text -/

namespace Grammar

/-- The variables of one line have one type and size. -/
theorem DerivesVariables.alike {expr : List Token → Expr → Prop} {tokens : List Token}
    {group : List Variable} (derived : DerivesVariables expr tokens group) :
    ∀ var ∈ group, ∀ other ∈ group, var.type = other.type ∧ var.size = other.size := by
  cases derived with
  | group listed isColon isType spelled indexed =>
      intro var first other second
      obtain ⟨name, _, rfl⟩ := List.mem_map.1 first
      obtain ⟨name', _, rfl⟩ := List.mem_map.1 second
      exact ⟨rfl, rfl⟩

/-- The variables of a program stand in lines, which are a part of its tokens. -/
theorem DerivesProgram.lines {expr : List Token → Expr → Prop} {tokens : List Token}
    {program : Program} (derived : DerivesProgram expr tokens program) :
    ∃ part groups, part <:+: tokens ∧
      Section (DerivesVariables expr) .VARIABLES part groups ∧
      program.declarations.variables = groups.flatten := by
  cases derived with
  | @program before ends first second starts tokens after heading name opening closing _ groups _
      blank isProgram isName ended constant declared =>
      refine ⟨second, groups, ?_, declared, rfl⟩
      exact ⟨before ++ heading :: name :: (ends ++ first),
        opening :: (starts ++ (tokens ++ closing :: after)), by simp⟩

end Grammar

namespace Declarations

open Grammar

/-- The names of one line stand for the same. -/
theorem find?_line [Memory] {declarations : Declarations} {table : Table}
    (holds : table.HoldsExactly declarations) {expr : List Token → Expr → Prop}
    {tokens : List Token} {group : List Variable} (derived : DerivesVariables expr tokens group)
    (inside : group ⊆ declarations.variables) :
    ∃ symbol, ∀ var ∈ group, table.find? var.name = some symbol := by
  cases group with
  | nil => exact ⟨default, nofun⟩
  | cons head rest =>
      have member : head ∈ head :: rest := List.mem_cons_self
      have declared : head.name ∈ declarations.names :=
        List.mem_append_right _ (List.mem_map_of_mem (inside member))
      have known := Table.mem_names_iff.1 (holds.names.mem_iff.2 declared)
      obtain ⟨symbol, found⟩ := Option.isSome_iff_exists.1 known
      refine ⟨symbol, fun var other => ?_⟩
      obtain ⟨types, sizes⟩ := derived.alike var other head member
      rw [holds.alike var (inside other) head (inside member) types sizes, found]

/-- **What declarations leave behind.** Run from the empty table, they either end with a table that
holds exactly what they declare, or an entry is refused and the table holds exactly what the entries
before it declare. The refused entry had no value or no length in this table, or its name was taken.

In the declarations of a text, the names on one line all come to stand for the same. -/
theorem exec_leaves_entries [Memory] (declarations : Declarations) :
    ((∃ table, declarations.Leaves table ∧ table.HoldsExactly declarations) ∨
      ∃ k entry error table, declarations.entries[k]? = some entry ∧
        declarations.FailsAt error table ∧ (declarations.take k).Leaves table ∧
        table.HoldsExactly (declarations.take k) ∧
        (entry.symbol table = .error error ∨
          (∃ symbol, entry.symbol table = .ok symbol) ∧
            entry.name ∈ (declarations.take k).names ∧ error = .alreadyDeclared entry.name)) ∧
    ∀ source program, Program.parse source = .ok program → program.declarations = declarations →
      ∃ part groups, part <:+: (Lexed.ofSource source).tokens ∧
        Section (DerivesVariables (Derives .expression)) .VARIABLES part groups ∧
        declarations.variables = groups.flatten ∧
        ∀ table, declarations.Leaves table → ∀ group ∈ groups, ∃ symbol, ∀ var ∈ group,
          table.find? var.name = some symbol := by
  constructor
  · rcases Table.addAll_cases .empty declarations.entries with
      ⟨last, added⟩ | ⟨earlier, entry, later, middle, error, split, added, refused⟩
    · exact .inl ⟨last, leaves_of_addAll added, holdsExactly_of_addAll added⟩
    · have start : Table.empty.addAll (declarations.take earlier.length).entries = .ok middle := by
        rw [entries_take, split, List.take_left]
        exact added
      have holds := holdsExactly_of_addAll start
      refine .inr ⟨earlier.length, entry, error, middle, by simp [split],
        failsAt_of_refused split added refused, leaves_of_addAll start, holds, ?_⟩
      rcases Declaration.add_eq_error refused with unknown | ⟨known, taken, same⟩
      · exact .inl unknown
      · exact .inr ⟨known, holds.names.mem_iff.1 (Table.mem_names_iff.2 taken), same⟩
  · rintro source program read rfl
    obtain ⟨part, groups, within, declared, flat⟩ := (Program.derives_of_parse read).lines
    refine ⟨part, groups, within, declared, flat, ?_⟩
    intro table leaves group member
    obtain ⟨used, _, derived⟩ := declared.items group member
    refine find?_line (holdsExactly_of_addAll (addAll_of_leaves leaves)) derived ?_
    rw [flat]
    exact fun var inGroup => List.mem_flatten.2 ⟨group, member, inGroup⟩

/-- A text with two arrays on one line. The size of the second is computed when the first is
known. -/
def rows : String :=
  "PROGRAM rows\nCONSTANTS\nn = 2\nVARIABLES\na, b: INTEGER[n * n]\nBEGIN\nPRINT n\nEND\n"

theorem rows_leaves_entries :
    ∃ program table groups, Program.parse rows = .ok program ∧
      program.declarations.names = ["n", "a", "b"] ∧ program.declarations.Leaves table ∧
      table.HoldsExactly program.declarations ∧
      program.declarations.variables = List.flatten groups ∧
      ∀ group ∈ groups, ∃ symbol, ∀ var ∈ group, table.find? var.name = some symbol := by
  have names : (Program.parse rows).toOption.map (·.declarations.names) = some ["n", "a", "b"] := by
    decide +kernel
  have ends : (Program.parse rows).toOption.map
      (fun program => (Table.empty.addAll program.declarations.entries).isOk) = some true := by
    decide +kernel
  cases read : Program.parse rows with
  | error error =>
      rw [read] at names
      cases names
  | ok program =>
      rw [read] at names ends
      obtain ⟨outcome, lines⟩ := exec_leaves_entries program.declarations
      obtain ⟨part, groups, _, _, flat, same⟩ := lines rows program read rfl
      rcases outcome with ⟨table, leaves, holds⟩ | ⟨k, entry, error, table, _, fails, _⟩
      · exact ⟨program, table, groups, rfl, Option.some.inj names, leaves, holds, flat,
          same table leaves⟩
      · cases added : Table.empty.addAll program.declarations.entries with
        | error refused => simp [Except.toOption, added, Except.isOk, Except.toBool] at ends
        | ok last =>
            have both := (leaves_of_addAll added .unbounded .off).symm.trans (fails .unbounded .off)
            simp at both

end Declarations

end Pseudocode
