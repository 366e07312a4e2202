import Pseudocode.Proofs.Table.Planning

/-!
# Scopes

What is declared about a name is a `Signature`: that it is a constant, a scalar
variable or an array, and of which type. A scope gives the declared names their
signatures. It says nothing of values, and unlike a table it does not change
while statements run.

A table conforms to a scope when exactly the names of the scope stand for
symbols, and each symbol fits its signature: a constant holds a value of the
declared type, a variable holds nothing or such a value, and an array has at
least one element and in each of its slots nothing or such a value. Every
operation on tables either fails or leads from a table that conforms to another
one, as long as the written value has the declared type.
-/

set_option autoImplicit false

namespace Pseudocode

/-! ## Results in a row -/

section Results

variable {α β : Type} {first : Except RuntimeError α} {next : α → Except RuntimeError β}

/-- Two computations in a row succeed when both do. -/
theorem bind_eq_ok {b : β} :
    (first >>= next) = .ok b ↔ ∃ a, first = .ok a ∧ next a = .ok b := by
  cases first with
  | ok a =>
      refine ⟨fun found => ⟨a, rfl, found⟩, ?_⟩
      rintro ⟨_, same, found⟩
      exact Except.ok.inj same ▸ found
  | error error =>
      refine ⟨fun found => ?_, ?_⟩
      · cases found
      · rintro ⟨_, same, _⟩
        cases same

/-- They fail when the first does, or the second after the first. -/
theorem bind_eq_error {error : RuntimeError} :
    (first >>= next) = .error error ↔
      first = .error error ∨ ∃ a, first = .ok a ∧ next a = .error error := by
  cases first with
  | ok a =>
      refine ⟨fun failed => .inr ⟨a, rfl, failed⟩, ?_⟩
      rintro (failed | ⟨_, same, failed⟩)
      · cases failed
      · exact Except.ok.inj same ▸ failed
  | error cause =>
      refine ⟨fun failed => .inl ?_, ?_⟩
      · cases failed
        rfl
      · rintro (failed | ⟨_, same, _⟩)
        · cases failed
          rfl
        · cases same

/-- A result is changed when there is one. -/
theorem map_eq_ok {change : α → β} {b : β} :
    change <$> first = .ok b ↔ ∃ a, first = .ok a ∧ change a = b := by
  cases first with
  | ok a =>
      refine ⟨fun found => ⟨a, rfl, Except.ok.inj found⟩, ?_⟩
      rintro ⟨_, same, rfl⟩
      exact Except.ok.inj same ▸ rfl
  | error error =>
      refine ⟨fun found => ?_, ?_⟩
      · cases found
      · rintro ⟨_, same, _⟩
        cases same

/-- An error stays. -/
theorem map_eq_error {change : α → β} {error : RuntimeError} :
    change <$> first = .error error ↔ first = .error error := by
  cases first with
  | ok a =>
      refine ⟨fun failed => ?_, fun failed => ?_⟩
      · cases failed
      · cases failed
  | error cause =>
      refine ⟨fun failed => ?_, fun failed => ?_⟩
      · cases failed
        rfl
      · cases failed
        rfl

/-- A result that must be there is there. -/
theorem demand_eq_ok {result : Option α} {error : RuntimeError} {a : α} :
    demand result error = .ok a ↔ result = some a := by
  cases result <;> simp

/-- Its absence is the error that was named. -/
theorem demand_eq_error {result : Option α} {error cause : RuntimeError} :
    demand result error = .error cause ↔ result = none ∧ cause = error := by
  cases result <;> simp [eq_comm]

end Results

/-! ## Signatures -/

/-- What is declared about a name. The type of an array is that of its
elements. -/
inductive Signature where
  | constant (type : DataType)
  | scalar (type : DataType)
  | array (type : DataType)
deriving DecidableEq

namespace Signature

/-- The declared type. -/
def type : Signature → DataType
  | constant type | scalar type | array type => type

/-- The type of the name when it is read without an index. -/
def whole : Signature → DataType
  | constant type | scalar type => type
  | array _ => .array

end Signature

/-- The signatures of the declared names. -/
abbrev Scope := String → Option Signature

namespace Scope

/-- The scope without names. -/
def empty : Scope := fun _ => none

/-- The scope with one more name. -/
def declare (scope : Scope) (name : String) (signature : Signature) : Scope :=
  fun other => if other = name then some signature else scope other

end Scope

/-! ## Lengths -/

/-- Lengths of arrays are positive. -/
theorem Integer.arrayLength_pos {size : Integer} {length : Nat}
    (found : size.arrayLength = .ok length) : 0 < length := by
  by_cases positive : 0 < size.val
  · simp only [Integer.arrayLength, Integer.toLength?, if_pos positive, demand_some,
      Except.ok.injEq] at found
    omega
  · simp [Integer.arrayLength, Integer.toLength?, positive] at found

theorem Integer.arrayLength_error {size : Integer} {error : RuntimeError}
    (failed : size.arrayLength = .error error) : error = .invalidArraySize :=
  (demand_eq_error.1 failed).2

/-! ## Symbols that fit -/

/-- A symbol is what its signature says, and holds values of the declared type
only. -/
inductive Symbol.Fits : Signature → Symbol → Prop where
  | constant (value : Value) : Fits (.constant value.type) ⟨.scalar (some value), value.type, true⟩
  | scalar (type : DataType) (value : Option Value) (typed : ∀ v ∈ value, v.type = type) :
      Fits (.scalar type) ⟨.scalar value, type, false⟩
  | array (type : DataType) (elements : Array (Option Value)) (positive : 0 < elements.size)
      (typed : ∀ v, some v ∈ elements → v.type = type) :
      Fits (.array type) ⟨.array elements, type, false⟩

namespace Symbol.Fits

variable {signature : Signature} {symbol : Symbol}

theorem type_eq (fits : Fits signature symbol) : symbol.type = signature.type := by
  cases fits <;> rfl

theorem ofConstant (value : Value) : Fits (.constant value.type) (.ofConstant value) :=
  .constant value

theorem ofVariable (type : DataType) : Fits (.scalar type) (.ofVariable type) :=
  .scalar type none (by simp)

theorem ofArray [Memory] {type : DataType} {length : Nat} (positive : 0 < length)
    (made : Symbol.ofArray type length = .ok symbol) : Fits (.array type) symbol := by
  by_cases room : Memory.hasRoom length = true
  · simp only [Symbol.ofArray, if_pos room, Except.ok.injEq] at made
    subst made
    exact .array type _ (by simpa using positive) (by simp)
  · simp [Symbol.ofArray, room] at made

/-- An array that cannot be made is too long. -/
theorem ofArray_error [Memory] {type : DataType} {length : Nat} {error : RuntimeError}
    (failed : Symbol.ofArray type length = .error error) : error = .invalidArraySize := by
  by_cases room : Memory.hasRoom length = true
  · simp [Symbol.ofArray, room] at failed
  · simpa [Symbol.ofArray, room] using failed.symm

/-! ### Writing -/

theorem store {type : DataType} {value : Value} (fits : Fits (.scalar type) symbol)
    (typed : value.type = type) : Fits (.scalar type) (symbol.store value) := by
  cases fits with
  | scalar _ old _ =>
      refine .scalar type (some value) fun v same => ?_
      rw [Option.mem_some_iff] at same
      exact same ▸ typed

theorem storeAt {type : DataType} {value : Value} (fits : Fits (.array type) symbol)
    (typed : value.type = type) (offset : Nat) :
    Fits (.array type) (symbol.storeAt offset value) := by
  cases fits with
  | array _ elements positive old =>
      refine .array type _ (by simpa using positive) fun v member => ?_
      rcases Array.mem_or_eq_of_mem_setIfInBounds member with known | same
      · exact old v known
      · exact Option.some.inj same ▸ typed

theorem setLength {type : DataType} (fits : Fits (.array type) symbol) {length : Nat}
    (positive : 0 < length) : Fits (.array type) (symbol.setLength length) := by
  cases fits with
  | array _ elements _ old =>
      refine .array type _ ?_ fun v member => ?_
      · simp only [Array.take_eq_extract, Array.size_append, Array.size_extract,
          Array.size_replicate]
        omega
      · rcases Array.mem_append.1 member with kept | added
        · obtain ⟨_, _, same⟩ := Array.mem_extract_iff_getElem.1 kept
          exact old v (Array.mem_of_getElem same)
        · simp at added

/-! ### Reading -/

theorem read_type {name : String} {value : Value} (fits : Fits signature symbol)
    (found : symbol.read name = .ok value) : value.type = signature.whole := by
  cases fits with
  | constant known =>
      simp only [Symbol.read, demand_some, Except.ok.injEq] at found
      exact found ▸ rfl
  | scalar type known typed =>
      cases known with
      | none => simp [Symbol.read] at found
      | some known =>
          simp only [Symbol.read, demand_some, Except.ok.injEq] at found
          exact found ▸ typed known rfl
  | array type elements _ _ =>
      simp only [Symbol.read, Except.ok.injEq] at found
      exact found ▸ rfl

/-- A symbol that cannot be read was never written. -/
theorem read_error {name : String} {error : RuntimeError} (fits : Fits signature symbol)
    (failed : symbol.read name = .error error) : error = .unassigned name := by
  cases fits with
  | constant known => simp [Symbol.read] at failed
  | scalar type known typed =>
      cases known with
      | none => simpa [Symbol.read] using failed.symm
      | some known => simp [Symbol.read] at failed
  | array type elements _ _ => simp [Symbol.read] at failed

/-- Only arrays have elements. -/
theorem readAt_type {name : String} {index : Integer} {value : Value}
    (fits : Fits signature symbol) (found : symbol.readAt name index = .ok value) :
    signature = .array value.type := by
  obtain ⟨row, isArray, rest⟩ := bind_eq_ok.1 found
  cases fits with
  | constant => cases isArray
  | scalar => cases isArray
  | array type elements _ typed =>
      cases isArray
      obtain ⟨offset, _, read⟩ := bind_eq_ok.1 rest
      rw [demand_eq_ok, Array.getD_eq_getD_getElem?] at read
      cases slot : row[offset]? with
      | none => simp [slot] at read
      | some content =>
          rw [slot, Option.getD_some] at read
          rw [typed value (Array.mem_of_getElem? (read ▸ slot))]

/-- An element of an array that cannot be read is out of bounds or was never
written. -/
theorem readAt_error {type : DataType} {name : String} {index : Integer} {error : RuntimeError}
    (fits : Fits (.array type) symbol) (failed : symbol.readAt name index = .error error) :
    (∃ place, error = .indexOutOfBounds place) ∨ ∃ element, error = .unassigned element := by
  cases fits with
  | array _ elements =>
      rcases bind_eq_error.1 failed with none | ⟨row, isArray, rest⟩
      · cases none
      · cases isArray
        rcases bind_eq_error.1 rest with outside | ⟨offset, _, empty⟩
        · exact .inl ⟨index, (demand_eq_error.1 outside).2⟩
        · exact .inr ⟨_, (demand_eq_error.1 empty).2⟩

end Symbol.Fits

/-! ## Tables that conform -/

/-- A table has the names of a scope, and each symbol fits its signature. -/
def Table.Conforms (scope : Scope) (table : Table) : Prop :=
  ∀ name, Option.Rel Symbol.Fits (scope name) (table.find? name)

namespace Table.Conforms

variable {scope : Scope} {table : Table}

theorem empty : Table.empty.Conforms Scope.empty := fun _ => .none

/-- What stands for a name fits its signature. -/
theorem fits (conforms : table.Conforms scope) {name : String} {symbol : Symbol}
    (found : table.find? name = some symbol) :
    ∃ signature, scope name = some signature ∧ symbol.Fits signature := by
  have related := conforms name
  rw [found] at related
  cases declared : scope name with
  | none =>
      rw [declared] at related
      cases related
  | some signature =>
      rw [declared] at related
      cases related with
      | some fits => exact ⟨signature, rfl, fits⟩

/-- A declared name stands for something that fits. -/
theorem find (conforms : table.Conforms scope) {name : String} {signature : Signature}
    (declared : scope name = some signature) :
    ∃ symbol, table.find? name = some symbol ∧ symbol.Fits signature := by
  have related := conforms name
  rw [declared] at related
  cases found : table.find? name with
  | none =>
      rw [found] at related
      cases related
  | some symbol =>
      rw [found] at related
      cases related with
      | some fits => exact ⟨symbol, rfl, fits⟩

/-- No other name stands for anything. -/
theorem find_none (conforms : table.Conforms scope) {name : String}
    (undeclared : scope name = none) :
    table.find? name = none := by
  have related := conforms name
  rw [undeclared] at related
  cases found : table.find? name with
  | none => rfl
  | some symbol =>
      rw [found] at related
      cases related

/-! ### Reading -/

theorem get_eq (conforms : table.Conforms scope) {name : String} {signature : Signature}
    (declared : scope name = some signature) :
    ∃ symbol, table.get name = .ok symbol ∧ symbol.Fits signature := by
  obtain ⟨symbol, found, fits⟩ := conforms.find declared
  exact ⟨symbol, demand_eq_ok.2 found, fits⟩

/-- A symbol that was got is declared. -/
theorem fits_of_get (conforms : table.Conforms scope) {name : String} {symbol : Symbol}
    (got : table.get name = .ok symbol) :
    ∃ signature, scope name = some signature ∧ symbol.Fits signature :=
  conforms.fits (demand_eq_ok.1 got)

theorem read_type (conforms : table.Conforms scope) {name : String} {value : Value}
    (found : table.read name = .ok value) :
    ∃ signature, scope name = some signature ∧ value.type = signature.whole := by
  obtain ⟨symbol, got, found⟩ := bind_eq_ok.1 found
  obtain ⟨signature, declared, fits⟩ := conforms.fits_of_get got
  exact ⟨signature, declared, fits.read_type found⟩

theorem read_error (conforms : table.Conforms scope) {name : String} {signature : Signature}
    (declared : scope name = some signature) {error : RuntimeError}
    (failed : table.read name = .error error) : error = .unassigned name := by
  obtain ⟨symbol, got, fits⟩ := conforms.get_eq declared
  rw [Table.read, got] at failed
  exact fits.read_error failed

theorem readAt_type (conforms : table.Conforms scope) {name : String} {index : Integer}
    {value : Value} (found : table.readAt name index = .ok value) :
    scope name = some (.array value.type) := by
  obtain ⟨symbol, got, found⟩ := bind_eq_ok.1 found
  obtain ⟨signature, declared, fits⟩ := conforms.fits_of_get got
  rw [declared, fits.readAt_type found]

theorem readAt_error (conforms : table.Conforms scope) {name : String} {type : DataType}
    (declared : scope name = some (.array type)) {index : Integer} {error : RuntimeError}
    (failed : table.readAt name index = .error error) :
    (∃ place, error = .indexOutOfBounds place) ∨ ∃ element, error = .unassigned element := by
  obtain ⟨symbol, got, fits⟩ := conforms.get_eq declared
  rw [Table.readAt, got] at failed
  exact fits.readAt_error failed

/-! ### Writing -/

/-- A change that keeps the signature of a name keeps the whole scope. -/
theorem modify (conforms : table.Conforms scope) {name : String} {change : Symbol → Symbol}
    (keeps : ∀ symbol signature, scope name = some signature → symbol.Fits signature →
      (change symbol).Fits signature) : (table.modify name change).Conforms scope := by
  intro other
  rw [Table.find?_modify]
  by_cases same : other = name
  · subst same
    rw [if_pos rfl]
    cases declared : scope other with
    | none =>
        rw [conforms.find_none declared]
        exact .none
    | some signature =>
        obtain ⟨symbol, found, fits⟩ := conforms.find declared
        rw [found]
        exact .some (keeps symbol signature declared fits)
  · rw [if_neg same]
    exact conforms other

/-- A scalar is written with a value of its type. -/
theorem assignment (conforms : table.Conforms scope) {name : String} {value : Value}
    {change : Symbol → Symbol}
    (typed : ∀ type, scope name = some (.scalar type) → value.type = type)
    (planned : table.assignment name value = .ok change) :
    (table.modify name change).Conforms scope := by
  obtain ⟨symbol, got, planned⟩ := bind_eq_ok.1 planned
  obtain ⟨signature, declared, fits⟩ := conforms.fits_of_get got
  cases fits with
  | constant => cases planned
  | array => cases planned
  | scalar type =>
      cases planned
      refine conforms.modify fun old signature known fits => ?_
      obtain rfl : Signature.scalar type = signature := Option.some.inj (declared.symm.trans known)
      exact fits.store (typed type declared)

/-- An element is written with a value of its type. -/
theorem elementAssignment (conforms : table.Conforms scope) {name : String} {index : Integer}
    {value : Value} {change : Symbol → Symbol}
    (typed : ∀ type, scope name = some (.array type) → value.type = type)
    (planned : table.elementAssignment name index value = .ok change) :
    (table.modify name change).Conforms scope := by
  obtain ⟨symbol, got, rest⟩ := bind_eq_ok.1 planned
  obtain ⟨row, isArray, rest⟩ := bind_eq_ok.1 rest
  obtain ⟨offset, _, same⟩ := bind_eq_ok.1 rest
  obtain ⟨signature, declared, fits⟩ := conforms.fits_of_get got
  cases fits with
  | constant => cases isArray
  | scalar => cases isArray
  | array type =>
      obtain rfl := Except.ok.inj same
      refine conforms.modify fun old signature known fits => ?_
      obtain rfl : Signature.array type = signature := Option.some.inj (declared.symm.trans known)
      exact fits.storeAt (typed type declared) offset

/-- A scalar variable can always be written. -/
theorem assignment_eq (conforms : table.Conforms scope) {name : String} {type : DataType}
    (declared : scope name = some (.scalar type)) (value : Value) :
    table.assignment name value = .ok (Symbol.store value) := by
  obtain ⟨symbol, got, fits⟩ := conforms.get_eq declared
  rw [Table.assignment, got]
  cases fits with
  | scalar => rfl

/-- An element of an array cannot be written only if there is none. -/
theorem elementAssignment_error (conforms : table.Conforms scope) {name : String}
    {type : DataType} (declared : scope name = some (.array type)) {index : Integer}
    {value : Value} {error : RuntimeError}
    (failed : table.elementAssignment name index value = .error error) :
    ∃ place, error = .indexOutOfBounds place := by
  obtain ⟨symbol, got, fits⟩ := conforms.get_eq declared
  rw [Table.elementAssignment, got] at failed
  cases fits with
  | array _ elements =>
      change (index.offset elements.size >>= fun offset => .ok (Symbol.storeAt offset value)) =
        Except.error error at failed
      rcases bind_eq_error.1 failed with outside | ⟨offset, _, written⟩
      · exact ⟨index, (demand_eq_error.1 outside).2⟩
      · cases written

/-! ### Lengths -/

/-- Only the length of an array can be asked for. The new length is positive. -/
theorem newLength_pos (conforms : table.Conforms scope) {name : String} {size : Value}
    {lengths : Nat × Nat} (found : table.newLength name size = .ok lengths) :
    0 < lengths.2 ∧ ∃ type, scope name = some (.array type) := by
  obtain ⟨symbol, got, looked⟩ := bind_eq_ok.1 found
  obtain ⟨row, isArray, rest⟩ := bind_eq_ok.1 looked
  obtain ⟨signature, declared, fits⟩ := conforms.fits_of_get got
  cases fits with
  | constant => cases isArray
  | scalar => cases isArray
  | array type =>
      refine ⟨?_, type, declared⟩
      cases size with
      | integer n =>
          change (n.arrayLength >>= fun new => .ok (row.size, new)) = Except.ok lengths at rest
          obtain ⟨new, length, same⟩ := bind_eq_ok.1 rest
          obtain rfl := Except.ok.inj same
          exact Integer.arrayLength_pos length
      | _ => cases rest

theorem newLength_error (conforms : table.Conforms scope) {name : String} {type : DataType}
    (declared : scope name = some (.array type)) {size : Value} {error : RuntimeError}
    (failed : table.newLength name size = .error error) : error = .invalidArraySize := by
  obtain ⟨symbol, got, fits⟩ := conforms.get_eq declared
  rw [Table.newLength, got] at failed
  cases fits with
  | array _ elements =>
      cases size with
      | integer n =>
          change (n.arrayLength >>= fun new => .ok (elements.size, new)) =
            Except.error error at failed
          rcases bind_eq_error.1 failed with short | ⟨new, _, found⟩
          · exact Integer.arrayLength_error short
          · cases found
      | _ =>
          cases failed
          rfl

theorem resizing [Memory] (conforms : table.Conforms scope) {name : String} {size : Value}
    {change : Symbol → Symbol} (planned : table.resizing name size = .ok change) :
    (table.modify name change).Conforms scope := by
  obtain ⟨⟨old, new⟩, asked, planned⟩ := bind_eq_ok.1 planned
  obtain ⟨positive, type, declared⟩ := conforms.newLength_pos asked
  by_cases room : new ≤ old ∨ Memory.hasRoom new = true
  · simp only [if_pos room, Except.ok.injEq] at planned
    subst planned
    refine conforms.modify fun old signature known fits => ?_
    obtain rfl : Signature.array type = signature := Option.some.inj (declared.symm.trans known)
    exact fits.setLength positive
  · simp [if_neg room] at planned

theorem resizing_error [Memory] (conforms : table.Conforms scope) {name : String} {type : DataType}
    (declared : scope name = some (.array type)) {size : Value} {error : RuntimeError}
    (failed : table.resizing name size = .error error) : error = .invalidArraySize := by
  rcases bind_eq_error.1 failed with refused | ⟨⟨old, new⟩, _, full⟩
  · exact conforms.newLength_error declared refused
  · by_cases room : new ≤ old ∨ Memory.hasRoom new = true
    · simp [if_pos room] at full
    · simp only [if_neg room, Except.error.injEq] at full
      exact full.symm

/-! ### Declaring -/

theorem declare (conforms : table.Conforms scope) {name : String} {symbol : Symbol}
    {signature : Signature} (fits : symbol.Fits signature) {after : Table}
    (declared : table.declare name symbol = .ok after) :
    after.Conforms (scope.declare name signature) := by
  intro other
  rw [Table.find?_of_declare declared, Scope.declare]
  by_cases same : other = name
  · rw [if_pos same, if_pos same]
    exact .some fits
  · rw [if_neg same, if_neg same]
    exact conforms other

/-- Only a name of the scope cannot be declared. -/
theorem declare_error (conforms : table.Conforms scope) {name : String} {symbol : Symbol}
    {error : RuntimeError} (failed : table.declare name symbol = .error error) :
    scope name ≠ none ∧ error = .alreadyDeclared name := by
  obtain ⟨known, same⟩ := (table.declare_eq_error name).1 failed
  refine ⟨fun fresh => ?_, same⟩
  rw [Table.contains, conforms.find_none fresh] at known
  cases known

end Table.Conforms

end Pseudocode
