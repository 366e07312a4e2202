import Mathlib.Data.List.Forall2
import Mathlib.Data.List.Nodup
import Pseudocode.Proofs.Run.Influence
import Pseudocode.Proofs.Table.History

/-!
# Listings

The listing of a table has one line for each declared name, in the order of the names. What a line
shows is said by `LineOf`: the declared type, and the value or the written slots of an array.

An operation looks at its own name only, and what it leaves there depends on what it found there
(`Table.find?_next_congr`). So the symbol of a name after many operations is the one after those
operations that are about it (`Table.find?_after_filter`), and operations on different names may
change places without any trace in the table or in its listing.
-/

set_option autoImplicit false

namespace Pseudocode

namespace Table

/-! ## Entries -/

/-- The declared names, in their order. -/
def names (table : Table) : List String := table.entries.map Prod.fst

theorem nodup_names (table : Table) : table.names.Nodup := by
  refine List.Pairwise.imp (fun {first second} before => ?_) table.ordered
  rintro rfl
  exact Before.irrefl first before

theorem mem_names_iff {table : Table} {name : String} :
    name ∈ table.names ↔ table.contains name = true := by
  rw [contains, find?, Option.isSome_iff_ne_none, Ne, List.lookup_eq_none_iff]
  simp [names]

theorem mem_entries_iff {table : Table} {name : String} {symbol : Symbol} :
    (name, symbol) ∈ table.entries ↔ table.find? name = some symbol := by
  rw [find?, List.lookup_eq_some_iff]
  constructor
  · intro member
    obtain ⟨earlier, later, split⟩ := List.append_of_mem member
    refine ⟨earlier, later, split, fun entry inside => ?_⟩
    have ordered := table.ordered
    rw [split, Entries.Ordered, List.map_append, List.pairwise_append] at ordered
    have before : Before entry.1 name :=
      ordered.2.2 entry.1 (List.mem_map_of_mem inside) name List.mem_cons_self
    rw [bne_iff_ne]
    rintro rfl
    exact Before.irrefl _ before
  · rintro ⟨earlier, later, split, -⟩
    rw [split]
    exact List.mem_append_right _ List.mem_cons_self

/-- Entries are those of a table, each once and in whatever order. -/
structure Enumerates (entries : List (String × Symbol)) (table : Table) : Prop where
  once : (entries.map Prod.fst).Nodup
  all : ∀ name symbol, (name, symbol) ∈ entries ↔ table.find? name = some symbol

theorem enumerates_entries (table : Table) : Enumerates table.entries table :=
  ⟨table.nodup_names, fun _ _ => mem_entries_iff⟩

theorem Enumerates.perm {entries others : List (String × Symbol)} {table : Table}
    (first : Enumerates entries table) (second : Enumerates others table) :
    entries.Perm others := by
  refine (List.perm_ext_iff_of_nodup first.once.of_map second.once.of_map).2 ?_
  rintro ⟨name, symbol⟩
  rw [first.all, second.all]

/-- Whether an entry may stand before another in a sorted list. -/
def inOrder (first second : String × Symbol) : Bool := !decide (Before second.1 first.1)

theorem inOrder_iff {first second : String × Symbol} :
    inOrder first second = true ↔ first.1 = second.1 ∨ Before first.1 second.1 := by
  rw [inOrder, Bool.not_eq_true', decide_eq_false_iff_not]
  constructor
  · intro notBefore
    by_cases same : first.1 = second.1
    · exact .inl same
    · exact .inr (Before.of_not notBefore (Ne.symm same))
  · rintro (same | before) after
    · exact Before.irrefl _ (same ▸ after)
    · exact Before.irrefl _ (before.trans after)

theorem inOrder_trans (first second third : String × Symbol) (one : inOrder first second = true)
    (two : inOrder second third = true) : inOrder first third = true := by
  rw [inOrder_iff] at one two ⊢
  rcases one with same | before
  · rwa [same]
  · rcases two with same | after
    · exact .inr (same ▸ before)
    · exact .inr (before.trans after)

theorem inOrder_total (first second : String × Symbol) :
    (inOrder first second || inOrder second first) = true := by
  rw [Bool.or_eq_true, inOrder_iff, inOrder_iff]
  by_cases same : first.1 = second.1
  · exact .inl (.inl same)
  · by_cases before : Before first.1 second.1
    · exact .inl (.inr before)
    · exact .inr (.inr (Before.of_not before same))

/-- In whatever order the entries of a table come, they are sorted to the same list. -/
theorem Enumerates.mergeSort_eq {entries : List (String × Symbol)} {table : Table}
    (enumerates : Enumerates entries table) : entries.mergeSort inOrder = table.entries := by
  have permuted : (entries.mergeSort inOrder).Perm table.entries :=
    (entries.mergeSort_perm inOrder).trans (enumerates.perm table.enumerates_entries)
  have sorted := List.pairwise_mergeSort inOrder_trans inOrder_total entries
  have ordered : table.entries.Pairwise fun first second => inOrder first second = true := by
    refine (List.pairwise_map.1 table.ordered).imp fun before => ?_
    exact inOrder_iff.2 (.inr before)
  refine permuted.eq_of_pairwise (fun first second here there one two => ?_) sorted ordered
  have same : first.1 = second.1 := by
    rcases inOrder_iff.1 one with same | before
    · exact same
    · rcases inOrder_iff.1 two with same | after
      · exact same.symm
      · exact absurd (before.trans after) (Before.irrefl _)
  exact List.inj_on_of_nodup_map table.nodup_names (permuted.mem_iff.1 here) there same

/-! ## Lines -/

/-- The written slots of a row, by their places in order. -/
structure Filled (slots : List (Option Value)) (places : List Nat) (values : List Value) :
    Prop where
  ascending : places.Pairwise (· < ·)
  complete : ∀ place, place ∈ places ↔ ∃ value, slots[place]? = some (some value)
  held : List.Forall₂ (fun place value => slots[place]? = some (some value)) places values

/-- How the type and the value of a symbol are shown. -/
inductive Shown : Symbol → String → String → Prop where
  | written {value : Value} {type : DataType} {constant : Bool} :
      Shown ⟨.scalar (some value), type, constant⟩ type.name value.render
  | unassigned {type : DataType} {constant : Bool} :
      Shown ⟨.scalar none, type, constant⟩ type.name "NONE"
  | array {elements : Array (Option Value)} {type : DataType} {constant : Bool}
      {places : List Nat} {values : List Value} (filled : Filled elements.toList places values) :
      Shown ⟨.array elements, type, constant⟩ (type.name ++ "[]")
        ("[" ++ String.intercalate ", " (values.map Value.render) ++ "]")

/-- The line of a name in a listing. -/
def LineOf (entry : String × Symbol) (line : String) : Prop :=
  ∃ type value, Shown entry.2 type value ∧
    line = "- " ++ entry.1 ++ ": " ++ type ++ " -> " ++ value ++ "\n"

theorem Filled.empty {slots : List (Option Value)} {places : List Nat} {values : List Value}
    (filled : Filled slots places values) : Filled (none :: slots) (places.map (· + 1)) values where
  ascending := filled.ascending.map _ (by omega)
  complete place := by
    cases place with
    | zero => simp
    | succ place => simp [filled.complete]
  held := by
    rw [List.forall₂_map_left_iff]
    exact filled.held

theorem Filled.written {slots : List (Option Value)} {places : List Nat} {values : List Value}
    (filled : Filled slots places values) (value : Value) :
    Filled (some value :: slots) (0 :: places.map (· + 1)) (value :: values) where
  ascending := by
    refine List.pairwise_cons.2 ⟨by simp, filled.ascending.map _ (by omega)⟩
  complete place := by
    cases place with
    | zero => simp
    | succ place => simp [filled.complete]
  held := by
    refine .cons rfl ?_
    rw [List.forall₂_map_left_iff]
    exact filled.held

/-- The values of the written slots are those that are not missing. -/
theorem exists_filled (slots : List (Option Value)) :
    ∃ places, Filled slots places (slots.filterMap id) := by
  induction slots with
  | nil => exact ⟨[], .nil, by simp, .nil⟩
  | cons slot slots ih =>
      obtain ⟨places, filled⟩ := ih
      cases slot with
      | none => exact ⟨_, filled.empty⟩
      | some value => exact ⟨_, filled.written value⟩

theorem shown_texts (symbol : Symbol) : Shown symbol symbol.typeText symbol.valueText := by
  obtain ⟨slot, type, constant⟩ := symbol
  cases slot with
  | scalar value =>
      have plain : Symbol.typeText ⟨.scalar value, type, constant⟩ = type.name :=
        String.append_empty
      rw [plain]
      cases value with
      | none => exact .unassigned
      | some value => exact .written
  | array elements =>
      obtain ⟨places, filled⟩ := exists_filled elements.toList
      have listed : Symbol.valueText ⟨.array elements, type, constant⟩ =
          "[" ++ String.intercalate ", " ((elements.toList.filterMap id).map Value.render) ++
            "]" := by
        simp only [Symbol.valueText, Value.render, Value.renderSlots_toList]
        rfl
      rw [listed]
      exact .array filled

theorem line_lineOf (entry : String × Symbol) : LineOf entry (line entry) :=
  ⟨entry.2.typeText, entry.2.valueText, shown_texts entry.2, rfl⟩

/-! ## Operations on one name -/

section Operations

variable {left right table : Table} {name : String} {operation : Operation}

/-- A name that is declared, perhaps in vain, has its old symbol or else the new one. -/
theorem find?_next_declare {symbol : Symbol}
    (performs : table.perform operation = table.declare name symbol) :
    (table.next operation).find? name = some ((table.find? name).getD symbol) := by
  cases found : table.find? name with
  | none =>
      cases declared : table.declare name symbol with
      | error error =>
          have known := ((table.declare_eq_error name).1 declared).1
          rw [contains, found] at known
          cases known
      | ok after =>
          rw [next_of_ok (performs.trans declared), find?_of_declare declared, if_pos rfl]
          rfl
  | some known =>
      have taken : table.contains name = true := Option.isSome_iff_exists.2 ⟨known, found⟩
      rw [next_of_error (performs.trans (declare_of_contains taken symbol)), found]
      rfl

theorem find?_next_eq_of_declare {symbol : Symbol}
    (performs : ∀ table : Table, table.perform operation = table.declare name symbol)
    (same : left.find? name = right.find? name) :
    (left.next operation).find? name = (right.next operation).find? name := by
  rw [find?_next_declare (performs left), find?_next_declare (performs right), same]

theorem find?_next_eq_of_write {plan : Table → Except RuntimeError (Symbol → Symbol)}
    (performs : ∀ table : Table, table.perform operation =
      plan table >>= fun change => .ok (table.modify name change))
    (planned : plan left = plan right) (same : left.find? name = right.find? name) :
    (left.next operation).find? name = (right.next operation).find? name := by
  have first := performs left
  have second := performs right
  rw [planned] at first
  cases decided : plan right with
  | error error =>
      rw [decided] at first second
      rw [next_of_error first, next_of_error second, same]
  | ok change =>
      rw [decided] at first second
      rw [next_of_ok first, next_of_ok second, find?_modify, find?_modify, if_pos rfl, if_pos rfl,
        same]

/-- What an operation leaves at its name depends on what it found there. -/
theorem find?_next_own (same : left.find? operation.name = right.find? operation.name) :
    (left.next operation).find? operation.name = (right.next operation).find? operation.name := by
  have agree : Agree [operation.name] left right := List.forall_mem_singleton.2 same
  have member : operation.name ∈ [operation.name] := List.mem_cons_self
  cases operation with
  | declareConstant name value =>
      have performs (table : Table) : table.perform (.declareConstant name value) =
          table.declare name (.ofConstant value) := rfl
      exact find?_next_eq_of_declare performs same
  | declareVariable name type =>
      have performs (table : Table) : table.perform (.declareVariable name type) =
          table.declare name (.ofVariable type) := rfl
      exact find?_next_eq_of_declare performs same
  | declareArray name type length memory =>
      have performs (table : Table) := @perform_declareArray table name type length memory
      cases made : @Symbol.ofArray memory type length with
      | error error =>
          simp only [made] at performs
          rw [next_of_error (performs left), next_of_error (performs right), same]
      | ok symbol =>
          simp only [made] at performs
          exact find?_next_eq_of_declare performs same
  | assign name value =>
      have performs (table : Table) := table.assign_eq name value
      exact find?_next_eq_of_write performs (agree.assignment member value) same
  | assignAt name index value =>
      have performs (table : Table) := table.assignAt_eq name index value
      exact find?_next_eq_of_write performs (agree.elementAssignment member index value) same
  | resize name size memory =>
      have performs (table : Table) := table.resize_eq name size
      exact find?_next_eq_of_write performs (agree.resizing member size) same
  | read name => rw [next_of_look perform_read, next_of_look perform_read, same]
  | readAt name index =>
      rw [next_of_look (perform_readAt index), next_of_look (perform_readAt index), same]

/-- What an operation leaves at a name depends on what it found there. -/
theorem find?_next_congr (same : left.find? name = right.find? name) :
    (left.next operation).find? name = (right.next operation).find? name := by
  by_cases own : operation.name = name
  · subst own
    exact find?_next_own same
  · rw [find?_next_of_ne own, find?_next_of_ne own, same]

end Operations

/-! ## Operations in a row -/

section After

variable {left right : Table} {name : String}

theorem find?_after_congr (same : left.find? name = right.find? name)
    (operations : List Operation) :
    (left.after operations).find? name = (right.after operations).find? name := by
  induction operations generalizing left right with
  | nil => exact same
  | cons operation rest ih => exact ih (find?_next_congr same)

/-- Only the operations on a name decide what it stands for in the end. -/
theorem find?_after_filter (table : Table) (name : String) (operations : List Operation) :
    (table.after operations).find? name =
      (table.after (operations.filter (·.name = name))).find? name := by
  induction operations generalizing table with
  | nil => rfl
  | cons operation rest ih =>
      by_cases own : operation.name = name
      · rw [List.filter_cons_of_pos (by simpa using own)]
        exact ih (table.next operation)
      · rw [List.filter_cons_of_neg (by simpa using own)]
        exact (find?_after_congr (find?_next_of_ne own) rest).trans (ih table)

/-- Operations on different names may change places. -/
theorem after_eq_of_filter (table : Table) {first second : List Operation}
    (same : ∀ name, first.filter (·.name = name) = second.filter (·.name = name)) :
    table.after first = table.after second := by
  refine ext_find? fun name => ?_
  rw [find?_after_filter, same, ← find?_after_filter]

/-- Of operations on different names there is at most one on each. -/
theorem filter_eq_of_perm {first second : List Operation} (permuted : first.Perm second)
    (distinct : (first.map Operation.name).Nodup) (name : String) :
    first.filter (·.name = name) = second.filter (·.name = name) := by
  have moved := permuted.filter (·.name = name)
  have apart := distinct.sublist ((List.filter_sublist (p := (·.name = name))).map Operation.name)
  have own : ∀ operation ∈ first.filter (·.name = name), operation.name = name := by simp
  cases kept : first.filter (·.name = name) with
  | nil =>
      rw [kept] at moved
      exact moved.nil_eq
  | cons operation others =>
      rw [kept] at moved apart own
      cases others with
      | nil => exact List.singleton_perm.1 moved
      | cons another rest =>
          have same : operation.name = another.name :=
            (own operation (by simp)).trans (own another (by simp)).symm
          simp [same] at apart

end After

/-- **The listing of a table is canonical.** It is made of one line for each entry, in the order of
the names. However else the entries are listed, they are these ones in another order, and sorting
them by name gives this order. Two tables in which the names stand for the same have one listing.
So neither the order of operations on different names nor that of declarations leaves a trace in
it. -/
theorem render_canonical (start other : Table) (first second : List Operation) :
    (∃ entries lines, Enumerates entries (start.after first) ∧
      (entries.map Prod.fst).Pairwise Before ∧ List.Forall₂ LineOf entries lines ∧
      (start.after first).render = String.join lines ∧
      ∀ listed, Enumerates listed (start.after first) →
        listed.Perm entries ∧ listed.mergeSort inOrder = entries) ∧
    ((∀ name, (start.after first).find? name = (other.after second).find? name) →
      (start.after first).render = (other.after second).render) ∧
    ((∀ name, first.filter (·.name = name) = second.filter (·.name = name)) →
      (start.after first).render = (start.after second).render) ∧
    (first.Perm second → (first.map Operation.name).Nodup →
      (start.after first).render = (start.after second).render) := by
  refine ⟨?_, ?_, ?_, ?_⟩
  · let table := start.after first
    have shown : List.Forall₂ LineOf table.entries (table.entries.map line) := by
      rw [List.forall₂_map_right_iff, List.forall₂_same]
      exact fun entry _ => line_lineOf entry
    exact ⟨table.entries, table.entries.map line, table.enumerates_entries, table.ordered, shown,
      rfl, fun listed enumerates =>
        ⟨enumerates.perm table.enumerates_entries, enumerates.mergeSort_eq⟩⟩
  · intro same
    rw [ext_find? same]
  · intro same
    rw [after_eq_of_filter start same]
  · intro permuted distinct
    rw [after_eq_of_filter start (filter_eq_of_perm permuted distinct)]

/-- An array and a variable, of which the array is declared and written first. -/
def arrayFirst : List Operation :=
  [.declareArray "é" .string 2 .usual, .assignAt "é" .one (.string "x"),
    .declareVariable "z" .boolean, .assign "z" (.boolean true)]

/-- The same operations in turn. -/
def inTurn : List Operation :=
  [.declareVariable "z" .boolean, .declareArray "é" .string 2 .usual, .assign "z" (.boolean true),
    .assignAt "é" .one (.string "x")]

/-- The variable is listed first, since the bytes of its name are smaller. -/
theorem inTurn_canonical :
    (empty.after arrayFirst).render = (empty.after inTurn).render ∧
      (empty.after inTurn).render = "- z: BOOL_TYPE -> true\n- é: STR_TYPE[] -> [x]\n" := by
  obtain ⟨-, -, interleaved, -⟩ := render_canonical empty empty arrayFirst inTurn
  refine ⟨interleaved fun name => ?_, by decide +kernel⟩
  by_cases array : "é" = name
  · subst array
    rfl
  · by_cases flag : "z" = name
    · subst flag
      rfl
    · simp [arrayFirst, inTurn, Operation.name, array, flag]

end Table

end Pseudocode
