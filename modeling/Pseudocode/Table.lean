import Pseudocode.Symbol

/-!
# Tables of symbols

A table gives each declared name its symbol. Its entries are kept in the order
of the names, so a table is determined by what its names stand for
(`Table.ext_find?`) and is listed in that order.

An operation changes the table in place or fails with an error (`Update`). The
names of a table never go away, and an entry changes only at the name that was
written.
-/

set_option autoImplicit false

namespace Pseudocode

/-! ## The order of names -/

/-- One name comes before another when the bytes of its UTF-8 form do. -/
def Before (first second : String) : Prop :=
  first.toByteArray.data.toList < second.toByteArray.data.toList

instance (first second : String) : Decidable (Before first second) :=
  inferInstanceAs (Decidable (_ < _))

namespace Before

theorem irrefl (name : String) : ¬ Before name name := List.lt_irrefl _

theorem trans {first second third : String} (one : Before first second)
    (two : Before second third) : Before first third :=
  List.lt_trans one two

/-- Of two different names one comes before the other. -/
theorem of_not {first second : String} (notBefore : ¬ Before first second)
    (different : first ≠ second) : Before second first := by
  rcases List.le_iff_lt_or_eq.1 (List.not_lt.1 notBefore) with less | same
  · exact less
  · refine absurd ?_ different
    have bytes : first.toByteArray = second.toByteArray :=
      ByteArray.ext (Array.toList_inj.1 same.symm)
    exact String.toByteArray_inj.1 bytes

end Before

/-! ## Entries -/

namespace Entries

/-- Adds an entry at its place in the order. -/
def insert (name : String) (symbol : Symbol) : List (String × Symbol) → List (String × Symbol)
  | [] => [(name, symbol)]
  | entry :: rest =>
    if Before name entry.1 then (name, symbol) :: entry :: rest
    else entry :: insert name symbol rest

/-- Changes the entry of a name. -/
def modify (name : String) (change : Symbol → Symbol) :
    List (String × Symbol) → List (String × Symbol)
  | [] => []
  | (key, symbol) :: rest =>
    if key == name then (key, change symbol) :: rest
    else (key, symbol) :: modify name change rest

/-- The names are in order, so none stands twice. -/
def Ordered (entries : List (String × Symbol)) : Prop :=
  (entries.map Prod.fst).Pairwise Before

/-- An entry has a name of the table or the new one. -/
theorem mem_insert {name : String} {symbol : Symbol} {entries : List (String × Symbol)}
    {key : String} (member : key ∈ (insert name symbol entries).map Prod.fst) :
    key = name ∨ key ∈ entries.map Prod.fst := by
  induction entries with
  | nil => simpa [insert] using member
  | cons entry rest ih =>
    by_cases before : Before name entry.1
    · simpa [insert, before] using member
    · simp only [insert, before, if_false, List.map_cons, List.mem_cons] at member ⊢
      rcases member with same | later
      · exact .inr (.inl same)
      · rcases ih later with same | known
        · exact .inl same
        · exact .inr (.inr known)

/-- Adding a new name keeps the order. -/
theorem ordered_insert {name : String} {symbol : Symbol} {entries : List (String × Symbol)}
    (ordered : Ordered entries) (fresh : entries.lookup name = none) :
    Ordered (insert name symbol entries) := by
  induction entries with
  | nil => simp [insert, Ordered]
  | cons entry rest ih =>
    obtain ⟨key, known⟩ := entry
    have different : name ≠ key := by
      intro same
      simp [same] at fresh
    have freshRest : rest.lookup name = none := by
      simpa [List.lookup_cons, beq_false_of_ne different] using fresh
    obtain ⟨first, others⟩ := List.pairwise_cons.1 ordered
    by_cases before : Before name key
    · have later : ∀ other ∈ List.map Prod.fst ((key, known) :: rest), Before name other := by
        intro other member
        rcases List.mem_cons.1 member with same | member
        · exact same ▸ before
        · exact before.trans (first other member)
      simpa [insert, before, Ordered] using List.pairwise_cons.2 ⟨later, ordered⟩
    · have later : ∀ other ∈ (insert name symbol rest).map Prod.fst, Before key other := by
        intro other member
        rcases mem_insert member with same | member
        · exact same ▸ Before.of_not before different
        · exact first other member
      simpa [insert, before, Ordered] using List.pairwise_cons.2 ⟨later, ih others freshRest⟩

/-- Changing an entry keeps the names. -/
@[simp]
theorem map_fst_modify (name : String) (change : Symbol → Symbol)
    (entries : List (String × Symbol)) :
    (modify name change entries).map Prod.fst = entries.map Prod.fst := by
  induction entries with
  | nil => rfl
  | cons entry rest ih =>
    obtain ⟨key, symbol⟩ := entry
    by_cases same : (key == name) = true <;> simp [modify, same, ih]

/-- Changing an entry keeps the order. -/
theorem ordered_modify {name : String} {change : Symbol → Symbol}
    {entries : List (String × Symbol)} (ordered : Ordered entries) :
    Ordered (modify name change entries) := by
  unfold Ordered at ordered ⊢
  rwa [map_fst_modify]

end Entries

/-! ## Tables -/

/-- A symbol for each declared name. -/
structure Table where
  entries : List (String × Symbol)
  ordered : Entries.Ordered entries

namespace Table

/-- The table in which no name is declared. -/
def empty : Table := ⟨[], .nil⟩

/-- The symbol of a name. -/
def find? (table : Table) (name : String) : Option Symbol := table.entries.lookup name

/-- Whether a name is declared. -/
def contains (table : Table) (name : String) : Bool := (table.find? name).isSome

/-- The symbol of a name that has to be declared. -/
def get (table : Table) (name : String) : Except RuntimeError Symbol :=
  demand (table.find? name) (.notDeclared name)

/-- The table with another symbol for a name. -/
def modify (table : Table) (name : String) (change : Symbol → Symbol) : Table :=
  ⟨Entries.modify name change table.entries, Entries.ordered_modify table.ordered⟩

/-- The value of a name. -/
def read (table : Table) (name : String) : Except RuntimeError Value := do
  (← table.get name).read name

/-- The value of an element of an array. -/
def readAt (table : Table) (name : String) (index : Integer) : Except RuntimeError Value := do
  (← table.get name).readAt name index

/-! ## Listing -/

/-- One line of the listing. -/
def line (entry : String × Symbol) : String :=
  s!"- {entry.1}: {entry.2.typeText} -> {entry.2.valueText}\n"

/-- The listing of all names in order, one a line. -/
def render (table : Table) : String := String.join (table.entries.map line)

end Table

/-! ## Operations -/

/-- An operation on a table. It gives a result or fails, and the table after it is
known in either case. -/
abbrev Update := EStateM RuntimeError Table

namespace Update

/-- A result that may be an error. -/
def lift {α : Type} : Except RuntimeError α → Update α
  | .ok a => pure a
  | .error error => throw error

/-- The symbol of a name. -/
def symbol (name : String) : Update Symbol := do
  lift ((← get).get name)

/-- The length of an array. -/
def length (name : String) : Update Nat := do
  return (← lift ((← symbol name).elements name)).size

/-- Changes the symbol of a name, without any test. -/
def change (name : String) (change : Symbol → Symbol) : Update Unit :=
  modify fun table => table.modify name change

/-- Declares a name. -/
def declare (name : String) (symbol : Symbol) : Update Unit := fun table =>
  if fresh : table.entries.lookup name = none then
    .ok () ⟨Entries.insert name symbol table.entries, Entries.ordered_insert table.ordered fresh⟩
  else .error (.alreadyDeclared name) table

/-- Writes a variable. The type of the value is not looked at. -/
def assign (name : String) (value : Value) : Update Unit := do
  let symbol ← symbol name
  if symbol.isArray then throw (.isAnArray name)
  else if symbol.constant then throw (.constantMutation name)
  else change name (Symbol.store value)

/-- Writes an element of an array. The type of the value is not looked at. -/
def assignAt (name : String) (index : Integer) (value : Value) : Update Unit := do
  let length ← length name
  let offset ← lift (index.offset length)
  change name (Symbol.storeAt offset value)

/-- The present and the wanted length of an array, if its size may be set to the
given value. -/
def newLength (name : String) (size : Value) : Update (Nat × Nat) := do
  let old ← length name
  match size with
  | .integer n => return (old, ← lift n.arrayLength)
  | _ => throw .invalidArraySize

/-- Makes an array longer, if there is room. -/
def grow [Memory] (name : String) (length : Nat) : Update Unit :=
  if Memory.hasRoom length then change name (Symbol.setLength length)
  else throw .invalidArraySize

/-- Changes the length of an array, given its present length. -/
def setLength [Memory] (name : String) (old new : Nat) : Update Unit :=
  if old < new then grow name new else change name (Symbol.setLength new)

/-- Changes the length of an array to the given value. -/
def resize [Memory] (name : String) (size : Value) : Update Unit := do
  let (old, new) ← newLength name size
  setLength name old new

/-- The table that an operation leads to, if it does not fail. -/
def result (update : Update Unit) (table : Table) : Except RuntimeError Table :=
  match update table with
  | .ok _ after => .ok after
  | .error error _ => .error error

end Update

namespace Table

/-- The table with one more name. -/
def declare (table : Table) (name : String) (symbol : Symbol) : Except RuntimeError Table :=
  (Update.declare name symbol).result table

/-- The table after a variable was written. -/
def assign (table : Table) (name : String) (value : Value) : Except RuntimeError Table :=
  (Update.assign name value).result table

/-- The table after an element of an array was written. -/
def assignAt (table : Table) (name : String) (index : Integer) (value : Value) :
    Except RuntimeError Table :=
  (Update.assignAt name index value).result table

/-- The table after the length of an array was changed. -/
def resize [Memory] (table : Table) (name : String) (size : Value) :
    Except RuntimeError Table :=
  (Update.resize name size).result table

/-! ## What a table holds -/

/-- Adding an entry changes what is found at its name only. -/
theorem lookup_insert (name : String) (symbol : Symbol) (entries : List (String × Symbol))
    (fresh : entries.lookup name = none) (other : String) :
    (Entries.insert name symbol entries).lookup other =
      if other = name then some symbol else entries.lookup other := by
  induction entries with
  | nil =>
    by_cases same : other = name
    · simp [Entries.insert, same]
    · simp [Entries.insert, List.lookup_cons, same, beq_false_of_ne same]
  | cons entry rest ih =>
    obtain ⟨key, known⟩ := entry
    have different : name ≠ key := by
      intro same
      simp [same] at fresh
    have freshRest : rest.lookup name = none := by
      simpa [List.lookup_cons, beq_false_of_ne different] using fresh
    by_cases before : Before name key
    · by_cases same : other = name
      · simp [Entries.insert, before, same]
      · have apart : (other == name) = false := beq_false_of_ne same
        simp [Entries.insert, before, List.lookup_cons, apart, same]
    · by_cases here : other = key
      · subst here
        simp [Entries.insert, before, Ne.symm different]
      · have apart : (other == key) = false := beq_false_of_ne here
        simp [Entries.insert, before, List.lookup_cons, apart, ih freshRest]

/-- A new name gets its symbol and the others keep theirs. -/
theorem find?_of_declare {table after : Table} {name : String} {symbol : Symbol}
    (declared : table.declare name symbol = .ok after) (other : String) :
    after.find? other = if other = name then some symbol else table.find? other := by
  by_cases fresh : table.entries.lookup name = none
  · simp only [declare, Update.result, Update.declare, dif_pos fresh] at declared
    cases declared
    exact lookup_insert name symbol table.entries fresh other
  · simp only [declare, Update.result, Update.declare, dif_neg fresh] at declared
    cases declared

/-- A change at one name leaves the others alone. -/
theorem find?_modify (table : Table) (name : String) (change : Symbol → Symbol) (other : String) :
    (table.modify name change).find? other =
      if other = name then (table.find? name).map change else table.find? other := by
  obtain ⟨entries, ordered⟩ := table
  simp only [find?, modify]
  clear ordered
  induction entries with
  | nil => simp [Entries.modify]
  | cons entry rest ih =>
    obtain ⟨key, symbol⟩ := entry
    by_cases here : key = name
    · subst here
      by_cases same : other = key
      · simp [Entries.modify, same]
      · have apart : (other == key) = false := beq_false_of_ne same
        simp [Entries.modify, List.lookup_cons, same, apart]
    · by_cases same : other = key
      · subst same
        simp [Entries.modify, here]
      · have apart : (other == key) = false := beq_false_of_ne same
        have apart' : (name == key) = false := beq_false_of_ne (Ne.symm here)
        simp [Entries.modify, here, List.lookup_cons, apart, apart', ih]

/-- Nothing is found at a name that comes before all others. -/
theorem lookup_eq_none_of_before {name : String} {entries : List (String × Symbol)}
    (before : ∀ key ∈ entries.map Prod.fst, Before name key) : entries.lookup name = none := by
  induction entries with
  | nil => rfl
  | cons entry rest ih =>
    obtain ⟨key, symbol⟩ := entry
    have different : name ≠ key := by
      intro same
      subst same
      exact Before.irrefl name (before name (by simp))
    have none := ih fun key member => before key (by simp_all)
    simp [List.lookup_cons, beq_false_of_ne different, none]

/-- Entries in order are determined by what is found at each name. -/
theorem entries_eq_of_lookup {left right : List (String × Symbol)}
    (orderedLeft : Entries.Ordered left) (orderedRight : Entries.Ordered right)
    (same : ∀ name, left.lookup name = right.lookup name) : left = right := by
  induction left generalizing right with
  | nil =>
    cases right with
    | nil => rfl
    | cons entry rest =>
      obtain ⟨key, symbol⟩ := entry
      simpa using same key
  | cons entry rest ih =>
    cases right with
    | nil =>
      obtain ⟨key, symbol⟩ := entry
      simpa using same key
    | cons entry' rest' =>
      obtain ⟨key, symbol⟩ := entry
      obtain ⟨key', symbol'⟩ := entry'
      obtain ⟨first, others⟩ := List.pairwise_cons.1 orderedLeft
      obtain ⟨first', others'⟩ := List.pairwise_cons.1 orderedRight
      have keys : key = key' := by
        refine Classical.byContradiction fun different => ?_
        by_cases before : Before key key'
        · have absent : List.lookup key ((key', symbol') :: rest') = none :=
            lookup_eq_none_of_before (by
              intro other member
              rcases List.mem_cons.1 member with here | later
              · exact here ▸ before
              · exact before.trans (first' other later))
          have found := same key
          rw [absent] at found
          simp at found
        · have before' := Before.of_not before different
          have absent : List.lookup key' ((key, symbol) :: rest) = none :=
            lookup_eq_none_of_before (by
              intro other member
              rcases List.mem_cons.1 member with here | later
              · exact here ▸ before'
              · exact before'.trans (first other later))
          have found := same key'
          rw [absent] at found
          simp at found
      subst keys
      have symbols : symbol = symbol' := by simpa using same key
      subst symbols
      have rests : rest = rest' := ih others others' fun name => by
        by_cases here : name = key
        · subst here
          rw [lookup_eq_none_of_before first, lookup_eq_none_of_before first']
        · simpa [List.lookup_cons, beq_false_of_ne here] using same name
      rw [rests]

/-- A table is determined by what its names stand for. -/
theorem ext_find? {left right : Table} (same : ∀ name, left.find? name = right.find? name) :
    left = right := by
  obtain ⟨entries, ordered⟩ := left
  obtain ⟨entries', ordered'⟩ := right
  have entriesSame : entries = entries' := entries_eq_of_lookup ordered ordered' same
  subst entriesSame
  rfl

end Table

end Pseudocode
