import Pseudocode.Proofs.Run.Footprint

/-!
# Arrays and their history

An array starts as a row of empty slots. From then on two things can happen to it: a value is
written to an element, or its length is changed. Operations that fail leave no trace, and neither
do those on other names, so the history of an array is the list of what succeeded
(`Table.history`).

The history alone says what the array holds (`Table.HasRow.after`). Its length is the last one
that was set. An element holds the last value that was written to it, unless the array
was too short for it at some time since then (`Table.Holds`): an element that was dropped is
empty if the array grows again.
-/

set_option autoImplicit false

namespace Pseudocode

namespace Table

/-! ## Histories -/

/-- What can happen to an array. -/
inductive Event where
  | wrote (index : Integer) (value : Value)
  | resized (size : Integer)

/-- The length that an event sets. -/
def Event.size? : Event → Option Integer
  | resized size => some size
  | wrote _ _ => none

/-- What an operation does to the array of a name: nothing if it fails or is about another
name. -/
def event? (table : Table) (name : String) (operation : Operation) : Option Event :=
  match table.perform operation, operation with
  | .ok _, .assignAt target index value => if target = name then some (.wrote index value) else none
  | .ok _, .resize target (.integer size) _ => if target = name then some (.resized size) else none
  | _, _ => none

/-- What operations in a row do to the array of a name. -/
def history (name : String) : Table → List Operation → List Event
  | _, [] => []
  | table, operation :: rest =>
    (table.event? name operation).toList ++ history name (table.next operation) rest

/-- The length of an array: the last that was set, or the one that it was declared with. -/
def lengthAfter (declared : Nat) (events : List Event) : Nat :=
  match (events.filterMap Event.size?).getLast? with
  | some size => size.val.toNat
  | none => declared

/-- An element holds a value that was written to it. Since then no other was written to it, and
the array was long enough for it all the time. -/
def Holds (events : List Event) (index : Integer) (value : Value) : Prop :=
  ∃ earlier later, events = earlier ++ .wrote index value :: later ∧
    (∀ other, .wrote index other ∉ later) ∧
    ∀ size : Integer, .resized size ∈ later → index.val ≤ size.val

theorem lengthAfter_wrote (declared : Nat) (events : List Event) (index : Integer)
    (value : Value) :
    lengthAfter declared (events ++ [.wrote index value]) = lengthAfter declared events := by
  simp [lengthAfter, Event.size?]

theorem lengthAfter_resized (declared : Nat) (events : List Event) (size : Integer) :
    lengthAfter declared (events ++ [.resized size]) = size.val.toNat := by
  simp [lengthAfter, Event.size?]

theorem not_holds_nil (index : Integer) (value : Value) : ¬ Holds [] index value := by
  rintro ⟨earlier, later, same, -⟩
  simp at same

/-- What an element holds after one more event. -/
theorem holds_snoc {events : List Event} {event : Event} {index : Integer} {value : Value} :
    Holds (events ++ [event]) index value ↔
      event = .wrote index value ∨
        Holds events index value ∧ (∀ other, event ≠ .wrote index other) ∧
          ∀ size : Integer, event = .resized size → index.val ≤ size.val := by
  constructor
  · rintro ⟨earlier, later, same, unwritten, long⟩
    -- The value was written by the last event, or before it.
    rcases List.eq_nil_or_concat later with rfl | ⟨rest, last, rfl⟩
    · left
      exact (List.cons.inj (List.append_inj' same rfl).2).1
    · right
      rw [List.concat_eq_append, ← List.cons_append, ← List.append_assoc] at same
      obtain ⟨before, ends⟩ := List.append_inj' same rfl
      obtain rfl := (List.cons.inj ends).1
      simp only [List.concat_eq_append, List.mem_append, List.mem_singleton, not_or]
        at unwritten long
      refine ⟨⟨earlier, rest, before, fun other => (unwritten other).1, ?_⟩, ?_, ?_⟩
      · intro size member
        exact long size (.inl member)
      · intro other same
        exact (unwritten other).2 same.symm
      · intro size same
        exact long size (.inr same.symm)
  · rintro (rfl | ⟨⟨earlier, later, rfl, unwritten, long⟩, other, enough⟩)
    · exact ⟨events, [], rfl, by simp, by simp⟩
    · refine ⟨earlier, later ++ [event], by simp, ?_, ?_⟩
      · intro value member
        rcases List.mem_append.1 member with before | last
        · exact unwritten value before
        · exact other value (List.mem_singleton.1 last).symm
      · intro size member
        rcases List.mem_append.1 member with before | last
        · exact long size before
        · exact enough size (List.mem_singleton.1 last).symm

/-! ## Rows of slots -/

/-- Of a row whose length is changed, the slots that remain keep what they hold. Those that are
added are empty. -/
theorem getElem?_resized (slots : Array (Option Value)) (length offset : Nat) (value : Value) :
    (slots.take length ++ Array.replicate (length - slots.size) none)[offset]? =
        some (some value) ↔
      offset < length ∧ slots[offset]? = some (some value) := by
  have size : (slots.take length).size = min length slots.size := by simp
  by_cases old : offset < min length slots.size
  · have kept : offset < length := by omega
    rw [Array.getElem?_append_left (by omega), Array.take_eq_extract, Array.getElem?_extract]
    simp [old, kept]
  · have fresh : offset < length → slots[offset]? = none := by
      intro kept
      apply Array.getElem?_eq_none
      omega
    rw [Array.getElem?_append_right (by omega), Array.getElem?_replicate]
    simp +contextual [fresh]

/-- A row of slots is as its history says. -/
structure Follows (declared : Nat) (events : List Event) (slots : Array (Option Value)) : Prop where
  size : slots.size = lengthAfter declared events
  holds : ∀ index value, Holds events index value ↔
    1 ≤ index.val ∧ slots[index.val.toNat - 1]? = some (some value)
  /-- There is no value where no index leads. -/
  reached : ∀ (offset : Nat) (value : Value), slots[offset]? = some (some value) →
    ∃ index : Integer, index.val = offset + 1

namespace Follows

variable {declared : Nat} {events : List Event} {slots : Array (Option Value)}

theorem fresh (declared : Nat) : Follows declared [] (Array.replicate declared none) where
  size := by simp [lengthAfter]
  holds index value := by
    simp [not_holds_nil, Array.getElem?_replicate]
  reached offset value := by simp [Array.getElem?_replicate]

theorem wrote (follows : Follows declared events slots) {index : Integer} (value : Value)
    (low : 1 ≤ index.val) (high : index.val ≤ slots.size) :
    Follows declared (events ++ [.wrote index value])
      (slots.setIfInBounds (index.val.toNat - 1) (some value)) where
  size := by rw [Array.size_setIfInBounds, follows.size, lengthAfter_wrote]
  holds other wanted := by
    rw [holds_snoc, follows.holds, Array.getElem?_setIfInBounds]
    by_cases same : index = other
    · subst same
      have inside : index.val.toNat - 1 < slots.size := by omega
      simp [inside, low, eq_comm]
    · have apart : index.val ≠ other.val := fun equal => same (Integer.ext equal)
      by_cases positive : 1 ≤ other.val
      · have different : index.val.toNat - 1 ≠ other.val.toNat - 1 := by omega
        simp [different, positive, same]
      · simp [positive, same]
  reached offset wanted found := by
    rw [Array.getElem?_setIfInBounds] at found
    by_cases here : index.val.toNat - 1 = offset
    · exact ⟨index, by omega⟩
    · rw [if_neg here] at found
      exact follows.reached offset wanted found

theorem resized (follows : Follows declared events slots) {size : Integer}
    (positive : 0 < size.val) :
    Follows declared (events ++ [.resized size])
      (slots.take size.val.toNat ++ Array.replicate (size.val.toNat - slots.size) none) where
  size := by
    rw [lengthAfter_resized, Array.size_append, Array.size_replicate,
      Array.take_eq_extract, Array.size_extract]
    omega
  holds index value := by
    rw [holds_snoc, follows.holds, getElem?_resized]
    by_cases low : 1 ≤ index.val
    · have inside : index.val.toNat - 1 < size.val.toNat ↔ index.val ≤ size.val := by omega
      simp [low, inside, and_comm]
    · simp [low]
  reached offset value found :=
    follows.reached offset value ((getElem?_resized slots _ offset value).1 found).2

/-- The content of a slot, found by the index of the element. -/
theorem getD_eq (follows : Follows declared events slots) {index : Integer}
    (low : 1 ≤ index.val) (value : Value) :
    slots.getD (index.val.toNat - 1) none = some value ↔ Holds events index value := by
  rw [follows.holds, Array.getD_eq_getD_getElem?]
  cases slots[index.val.toNat - 1]? with
  | none => simp
  | some content => simp [low]

/-- The same for the slots in their order. -/
theorem getElem_toList (follows : Follows declared events slots) {offset : Nat}
    (inside : offset < slots.toList.length) (value : Value) :
    slots.toList[offset] = some value ↔
      ∃ index : Integer, index.val = offset + 1 ∧ Holds events index value := by
  rw [Array.length_toList] at inside
  have slot : slots[offset]? = some slots.toList[offset] := by
    rw [Array.getElem?_eq_getElem inside, Array.getElem_toList]
  have place {index : Integer} (leads : index.val = offset + 1) :
      Holds events index value ↔ slots.toList[offset] = some value := by
    have low : 1 ≤ index.val := by omega
    have found : index.val.toNat - 1 = offset := by omega
    rw [follows.holds, found, slot]
    simp [low]
  constructor
  · intro content
    obtain ⟨index, leads⟩ := follows.reached offset value (by rw [slot, content])
    exact ⟨index, leads, (place leads).2 content⟩
  · rintro ⟨index, leads, holds⟩
    exact (place leads).1 holds

end Follows

/-- What one event does to a row of slots. -/
inductive RowStep (slots : Array (Option Value)) : Option Event → Array (Option Value) → Prop where
  | stays : RowStep slots none slots
  | wrote {index : Integer} (value : Value) (low : 1 ≤ index.val) (high : index.val ≤ slots.size) :
      RowStep slots (some (.wrote index value))
        (slots.setIfInBounds (index.val.toNat - 1) (some value))
  | resized {size : Integer} (positive : 0 < size.val) :
      RowStep slots (some (.resized size))
        (slots.take size.val.toNat ++ Array.replicate (size.val.toNat - slots.size) none)

theorem Follows.step {declared : Nat} {events : List Event} {slots later : Array (Option Value)}
    {event : Option Event} (follows : Follows declared events slots)
    (step : RowStep slots event later) : Follows declared (events ++ event.toList) later := by
  cases step with
  | stays => simpa using follows
  | wrote value low high => exact follows.wrote value low high
  | resized positive => exact follows.resized positive

/-! ## Arrays of a table -/

/-- A name stands for an array with the given slots. -/
def HasRow (table : Table) (name : String) (slots : Array (Option Value)) : Prop :=
  ∃ type constant, table.find? name = some ⟨.array slots, type, constant⟩

section Arrays

variable {table : Table} {name : String} {slots : Array (Option Value)}

/-- An element is looked for where its index says. -/
theorem offset_of_inside {index : Integer} {length : Nat} (low : 1 ≤ index.val)
    (high : index.val ≤ length) : index.offset length = .ok (index.val.toNat - 1) := by
  rw [Integer.offset, Integer.toOffset?, if_pos ⟨low, high⟩]
  rfl

theorem offset_of_outside {index : Integer} {length : Nat}
    (outside : ¬ (1 ≤ index.val ∧ index.val ≤ length)) :
    index.offset length = .error (.indexOutOfBounds index) := by
  rw [Integer.offset, Integer.toOffset?, if_neg outside]
  rfl

/-- What is found at an index lies within the row. -/
theorem offset_inside {index : Integer} {length offset : Nat}
    (found : index.offset length = .ok offset) : offset < length ∧ index.val = offset + 1 := by
  by_cases inside : 1 ≤ index.val ∧ index.val ≤ length
  · rw [offset_of_inside inside.1 inside.2] at found
    have place := Except.ok.inj found
    omega
  · rw [offset_of_outside inside] at found
    cases found

variable (row : table.HasRow name slots)

include row

theorem HasRow.get : ∃ type constant, table.get name = .ok ⟨.array slots, type, constant⟩ := by
  obtain ⟨type, constant, found⟩ := row
  exact ⟨type, constant, demand_eq_ok.2 found⟩

theorem HasRow.contains : table.contains name = true := by
  obtain ⟨type, constant, found⟩ := row
  exact Option.isSome_iff_exists.2 ⟨_, found⟩

theorem read_array : table.read name = .ok (.array slots.toList) := by
  obtain ⟨type, constant, got⟩ := row.get
  rw [read, got]
  rfl

theorem readAt_array (index : Integer) :
    table.readAt name index = (do
      let offset ← index.offset slots.size
      demand (slots.getD offset none) (.unassigned s!"{name}[{index.text}]")) := by
  obtain ⟨type, constant, got⟩ := row.get
  rw [readAt, got]
  rfl

theorem readAt_outside {index : Integer} (outside : ¬ (1 ≤ index.val ∧ index.val ≤ slots.size)) :
    table.readAt name index = .error (.indexOutOfBounds index) := by
  rw [readAt_array row, offset_of_outside outside]
  rfl

theorem readAt_inside {index : Integer} (low : 1 ≤ index.val) (high : index.val ≤ slots.size) :
    table.readAt name index =
      demand (slots.getD (index.val.toNat - 1) none) (.unassigned s!"{name}[{index.text}]") := by
  rw [readAt_array row, offset_of_inside low high]
  rfl

/-- An element is read as its history says. -/
theorem readAt_of_holds {declared : Nat} {events : List Event}
    (follows : Follows declared events slots) {index : Integer} {value : Value}
    (low : 1 ≤ index.val) (high : index.val ≤ slots.size) (holds : Holds events index value) :
    table.readAt name index = .ok value := by
  rw [readAt_inside row low high, (follows.getD_eq low value).2 holds]
  rfl

theorem readAt_of_empty {declared : Nat} {events : List Event}
    (follows : Follows declared events slots) {index : Integer} (low : 1 ≤ index.val)
    (high : index.val ≤ slots.size) (empty : ∀ value, ¬ Holds events index value) :
    table.readAt name index = .error (.unassigned s!"{name}[{index.text}]") := by
  rw [readAt_inside row low high]
  cases content : slots.getD (index.val.toNat - 1) none with
  | none => rfl
  | some value => exact absurd ((follows.getD_eq low value).1 content) (empty value)

theorem elementAssignment_array (index : Integer) (value : Value) :
    table.elementAssignment name index value = (do
      let offset ← index.offset slots.size
      .ok (Symbol.storeAt offset value)) := by
  obtain ⟨type, constant, got⟩ := row.get
  rw [elementAssignment, got]
  rfl

theorem assignAt_array (index : Integer) (value : Value) :
    table.assignAt name index value =
      if 1 ≤ index.val ∧ index.val ≤ slots.size then
        .ok (table.modify name (Symbol.storeAt (index.val.toNat - 1) value))
      else .error (.indexOutOfBounds index) := by
  by_cases inside : 1 ≤ index.val ∧ index.val ≤ slots.size
  · rw [if_pos inside, assignAt_eq, elementAssignment_array row,
      offset_of_inside inside.1 inside.2]
    rfl
  · rw [if_neg inside, assignAt_eq, elementAssignment_array row, offset_of_outside inside]
    rfl

theorem newLength_array (size : Integer) :
    table.newLength name (.integer size) = (do return (slots.size, ← size.arrayLength)) := by
  obtain ⟨type, constant, got⟩ := row.get
  rw [newLength, got]
  rfl

theorem resize_array [Memory] (size : Integer) :
    table.resize name (.integer size) =
      if 0 < size.val ∧ (size.val ≤ slots.size ∨ Memory.hasRoom size.val.toNat) then
        .ok (table.modify name (Symbol.setLength size.val.toNat))
      else .error .invalidArraySize := by
  by_cases positive : 0 < size.val
  · have length : size.arrayLength = .ok size.val.toNat := by
      rw [Integer.arrayLength, Integer.toLength?, if_pos positive]
      rfl
    have shorter : size.val ≤ slots.size ↔ size.val.toNat ≤ slots.size := by omega
    have room : (0 < size.val ∧ (size.val ≤ slots.size ∨ Memory.hasRoom size.val.toNat)) ↔
        (size.val.toNat ≤ slots.size ∨ Memory.hasRoom size.val.toNat) := by
      rw [shorter]
      exact ⟨And.right, And.intro positive⟩
    have plan : table.resizing name (.integer size) =
        if size.val.toNat ≤ slots.size ∨ Memory.hasRoom size.val.toNat then
          .ok (Symbol.setLength size.val.toNat)
        else .error .invalidArraySize := by
      rw [resizing, newLength_array row, length]
      rfl
    rw [resize_eq, plan]
    by_cases fits : size.val.toNat ≤ slots.size ∨ Memory.hasRoom size.val.toNat
    · rw [if_pos fits, if_pos (room.2 fits)]
      rfl
    · rw [if_neg fits, if_neg (mt room.1 fits)]
      rfl
  · have length : size.arrayLength = .error .invalidArraySize := by
      rw [Integer.arrayLength, Integer.toLength?, if_neg positive]
      rfl
    rw [if_neg (fun both => positive both.1), resize_eq, resizing, newLength_array row, length]
    rfl

theorem resize_not_integer [Memory] {size : Value} (other : ∀ n, size ≠ .integer n) :
    table.resize name size = .error .invalidArraySize := by
  have length : table.newLength name size = .error .invalidArraySize := by
    obtain ⟨type, constant, got⟩ := row.get
    rw [newLength, got]
    cases size with
    | integer n => exact absurd rfl (other n)
    | _ => rfl
  rw [resize_eq, resizing, length]
  rfl

theorem resize_ok_iff [Memory] {size : Value} :
    (∃ next, table.resize name size = .ok next) ↔
      ∃ n : Integer, size = .integer n ∧ 0 < n.val ∧
        (n.val ≤ slots.size ∨ Memory.hasRoom n.val.toNat) := by
  constructor
  · rintro ⟨next, done⟩
    cases size with
    | integer n =>
        rw [resize_array row] at done
        split at done
        · rename_i fits
          exact ⟨n, rfl, fits⟩
        · cases done
    | _ =>
        rw [resize_not_integer row (by simp)] at done
        cases done
  · rintro ⟨n, rfl, fits⟩
    exact ⟨_, (resize_array row n).trans (if_pos fits)⟩

end Arrays

/-! ## What operations do to an array -/

/-- The name that an operation is about. -/
def Operation.name : Operation → String
  | declareConstant name _ | declareVariable name _ | declareArray name _ _ _ | assign name _
  | assignAt name _ _ | resize name _ _ | read name | readAt name _ => name

section Operations

variable {table : Table} {name : String} {operation : Operation}

/-- What an operation only looks at stays. -/
theorem next_of_look {α : Type} {result : Except RuntimeError α}
    (looks : table.perform operation = result >>= fun _ => .ok table) :
    table.next operation = table := by
  cases result with
  | ok value => exact next_of_ok looks
  | error error => exact next_of_error looks

theorem event?_of_error {error : RuntimeError} (failed : table.perform operation = .error error) :
    table.event? name operation = none := by
  unfold event?
  rw [failed]

theorem event?_assignAt {index : Integer} {value : Value} {after : Table}
    (performed : table.perform (.assignAt name index value) = .ok after) :
    table.event? name (.assignAt name index value) = some (.wrote index value) := by
  unfold event?
  rw [performed]
  exact if_pos rfl

theorem event?_resize {size : Integer} {memory : Memory} {after : Table}
    (performed : table.perform (.resize name (.integer size) memory) = .ok after) :
    table.event? name (.resize name (.integer size) memory) = some (.resized size) := by
  unfold event?
  rw [performed]
  exact if_pos rfl

theorem event?_of_ne (different : operation.name ≠ name) : table.event? name operation = none := by
  unfold event?
  cases performed : table.perform operation with
  | error error => rfl
  | ok after =>
      cases operation with
      | assignAt target index value => exact if_neg different
      | resize target size memory =>
          cases size with
          | integer n => exact if_neg different
          | _ => rfl
      | _ => rfl

/-- An operation that is about another name leaves this one alone. -/
theorem find?_next_of_ne (different : operation.name ≠ name) :
    (table.next operation).find? name = table.find? name := by
  have leaves {plan : Except RuntimeError (Symbol → Symbol)} {after : Table}
      (written : (do return table.modify operation.name (← plan)) = Except.ok after) :
      after.find? name = table.find? name := by
    obtain ⟨change, _, done⟩ := bind_eq_ok.1 written
    rw [← Except.ok.inj done]
    exact find?_modify_of_ne table different.symm change
  cases performed : table.perform operation with
  | error error => rw [next_of_error performed]
  | ok after =>
      rw [next_of_ok performed]
      cases operation with
      | declareConstant | declareVariable =>
          exact (find?_of_declare performed name).trans (if_neg different.symm)
      | declareArray target type length memory =>
          rw [perform_declareArray] at performed
          obtain ⟨symbol, _, declared⟩ := bind_eq_ok.1 performed
          exact (find?_of_declare declared name).trans (if_neg different.symm)
      | assign target value => exact leaves ((table.assign_eq target value).symm.trans performed)
      | assignAt target index value =>
          exact leaves ((table.assignAt_eq target index value).symm.trans performed)
      | resize target size memory =>
          exact leaves ((table.resize_eq target size).symm.trans performed)
      | read target => rw [← next_of_ok performed, next_of_look perform_read]
      | readAt target index => rw [← next_of_ok performed, next_of_look (perform_readAt index)]

/-- A change of the symbol is a change of the row. -/
theorem HasRow.modify {slots : Array (Option Value)} (row : table.HasRow name slots)
    {change : Symbol → Symbol} {later : Array (Option Value)}
    (changes : ∀ type constant,
      change ⟨.array slots, type, constant⟩ = ⟨.array later, type, constant⟩) :
    (table.modify name change).HasRow name later := by
  obtain ⟨type, constant, found⟩ := row
  refine ⟨type, constant, ?_⟩
  rw [find?_modify, if_pos rfl, found, Option.map_some, changes]

/-- **One operation changes an array as its event says.** -/
theorem HasRow.next {slots : Array (Option Value)} (row : table.HasRow name slots)
    (operation : Operation) :
    ∃ later, (table.next operation).HasRow name later ∧
      RowStep slots (table.event? name operation) later := by
  have stays (same : (table.next operation).find? name = table.find? name)
      (quiet : table.event? name operation = none) :
      ∃ later, (table.next operation).HasRow name later ∧
        RowStep slots (table.event? name operation) later := by
    refine ⟨slots, ?_, quiet ▸ .stays⟩
    rwa [HasRow, same]
  have fails {error : RuntimeError} (failed : table.perform operation = .error error) :=
    stays (by rw [next_of_error failed]) (event?_of_error failed)
  by_cases different : operation.name ≠ name
  · exact stays (find?_next_of_ne different) (event?_of_ne different)
  -- The operation is about the array itself. It cannot be declared or written as a whole.
  have about := Decidable.not_not.1 different
  cases operation with
  | declareConstant target | declareVariable target =>
      obtain rfl : target = name := about
      exact fails (declare_of_contains row.contains _)
  | declareArray target type length memory =>
      obtain rfl : target = name := about
      cases made : @Symbol.ofArray memory type length with
      | error error =>
          apply fails
          rw [perform_declareArray, made]
          rfl
      | ok symbol =>
          apply fails
          rw [perform_declareArray, made]
          exact declare_of_contains row.contains symbol
  | assign target value =>
      obtain rfl : target = name := about
      obtain ⟨type, constant, got⟩ := row.get
      have failed : table.assign target value = .error (.isAnArray target) := by
        rw [assign_eq, assignment, got]
        rfl
      exact fails failed
  | assignAt target index value =>
      obtain rfl : target = name := about
      by_cases inside : 1 ≤ index.val ∧ index.val ≤ slots.size
      · have performed : table.perform (.assignAt target index value) = .ok _ :=
          (assignAt_array row index value).trans (if_pos inside)
        rw [next_of_ok performed, event?_assignAt performed]
        exact ⟨_, row.modify fun _ _ => rfl, .wrote value inside.1 inside.2⟩
      · exact fails ((assignAt_array row index value).trans (if_neg inside))
  | resize target size memory =>
      obtain rfl : target = name := about
      cases size with
      | integer size =>
          by_cases fits : 0 < size.val ∧
              (size.val ≤ slots.size ∨ memory.hasRoom size.val.toNat)
          · have performed : table.perform (.resize target (.integer size) memory) = .ok _ :=
              (resize_array row size).trans (if_pos fits)
            rw [next_of_ok performed, event?_resize performed]
            exact ⟨_, row.modify fun _ _ => rfl, .resized fits.1⟩
          · exact fails ((resize_array row size).trans (if_neg fits))
      | _ => exact fails (resize_not_integer row (by simp))
  | read target =>
      have same : table.next (.read target) = table := next_of_look perform_read
      refine stays (congrArg (·.find? name) same) ?_
      unfold event?
      cases table.perform (.read target) <;> rfl
  | readAt target index =>
      have same : table.next (.readAt target index) = table := next_of_look (perform_readAt index)
      refine stays (congrArg (·.find? name) same) ?_
      unfold event?
      cases table.perform (.readAt target index) <;> rfl

/-- Operations in a row change an array as its history says. -/
theorem HasRow.after {declared : Nat} {events : List Event} {slots : Array (Option Value)}
    (row : table.HasRow name slots) (follows : Follows declared events slots)
    (operations : List Operation) :
    ∃ later, (table.after operations).HasRow name later ∧
      Follows declared (events ++ history name table operations) later := by
  induction operations generalizing table events slots with
  | nil =>
      rw [history, List.append_nil]
      exact ⟨slots, row, follows⟩
  | cons operation rest ih =>
      obtain ⟨middle, rowNext, step⟩ := row.next operation
      obtain ⟨later, rowLater, result⟩ := ih rowNext (follows.step step)
      rw [List.append_assoc] at result
      exact ⟨later, rowLater, result⟩

end Operations

/-! ## What an array holds -/

theorem row_of_declareArray {table start : Table} {name : String} {type : DataType} {length : Nat}
    {memory : Memory}
    (declared : table.perform (.declareArray name type length memory) = .ok start) :
    start.HasRow name (Array.replicate length none) := by
  rw [perform_declareArray] at declared
  obtain ⟨symbol, made, added⟩ := bind_eq_ok.1 declared
  have found := find?_of_declare added name
  rw [if_pos rfl] at found
  unfold Symbol.ofArray at made
  split at made
  · obtain rfl := Except.ok.inj made
    exact ⟨_, _, found⟩
  · cases made

/-- **An array is what its history says.** After any operations, an array has the length that was
last set, and each element has the last value that was written to it unless it was dropped since
then. There is nothing to read or write beyond the length. Nothing is assumed about the memory,
which may have room at one time and none at another: the length can be set to what is not longer
than the array, and to what there is room for at that time. -/
theorem array_follows_history {table start : Table} {name : String} {type : DataType}
    {declared : Nat} {memory : Memory}
    (made : table.perform (.declareArray name type declared memory) = .ok start)
    (operations : List Operation) :
    let events := history name start operations
    let length := lengthAfter declared events
    let last := start.after operations
    (∀ index : Integer, ¬ (1 ≤ index.val ∧ index.val ≤ length) →
      last.readAt name index = .error (.indexOutOfBounds index) ∧
      ∀ value, last.assignAt name index value = .error (.indexOutOfBounds index)) ∧
    (∀ index : Integer, 1 ≤ index.val ∧ index.val ≤ length →
      (∀ value, Holds events index value → last.readAt name index = .ok value) ∧
      ((∀ value, ¬ Holds events index value) →
        last.readAt name index = .error (.unassigned s!"{name}[{index.text}]")) ∧
      ∀ value, ∃ next, last.assignAt name index value = .ok next) ∧
    (∃ slots, last.read name = .ok (.array slots) ∧ slots.length = length ∧
      ∀ offset (inside : offset < slots.length) value, slots[offset] = some value ↔
        ∃ index : Integer, index.val = offset + 1 ∧ Holds events index value) ∧
    (∀ (index : Integer) (offset : Nat), index.offset length = .ok offset →
      offset < length ∧ index.val = offset + 1) ∧
    (∀ (memory : Memory) (size : Value), (∃ next, @resize memory last name size = .ok next) ↔
      ∃ n : Integer, size = .integer n ∧ 0 < n.val ∧
        (n.val ≤ length ∨ memory.hasRoom n.val.toNat)) := by
  intro events length last
  obtain ⟨slots, row, follows⟩ := (row_of_declareArray made).after (.fresh declared) operations
  rw [List.nil_append] at follows
  have size : slots.size = length := follows.size
  rw [← size]
  refine ⟨?_, ?_, ?_, ?_, ?_⟩
  · intro index outside
    refine ⟨readAt_outside row outside, fun value => ?_⟩
    rw [assignAt_array row, if_neg outside]
  · intro index ⟨low, high⟩
    refine ⟨fun value holds => ?_, fun empty => ?_, fun value => ?_⟩
    · exact readAt_of_holds row follows low high holds
    · exact readAt_of_empty row follows low high empty
    · exact ⟨_, (assignAt_array row index value).trans (if_pos ⟨low, high⟩)⟩
  · exact ⟨slots.toList, read_array row, Array.length_toList, fun offset inside =>
      follows.getElem_toList inside⟩
  · intro index offset found
    exact offset_inside found
  · intro memory size
    exact resize_ok_iff row

/-- An array of three elements. -/
def threeSlots : Table := empty.after [.declareArray "a" .integer 3 (.upTo 3)]

/-- Both ends are written. Then the array loses its last element. It gets it back when there is
room again. -/
def regrowing (two three : Integer) : List Operation :=
  [.assignAt "a" .one (.integer .zero), .assignAt "a" three (.integer .one),
    .resize "a" (.integer two) (.upTo 0), .resize "a" (.integer three) (.upTo 2),
    .resize "a" (.integer three) (.upTo 3)]

/-- The first element is what it was and the last one is empty. -/
theorem regrowing_forgets :
    let two : Integer := ⟨2, by decide, by decide⟩
    let three : Integer := ⟨3, by decide, by decide⟩
    let last := threeSlots.after (regrowing two three)
    empty.perform (.declareArray "a" .integer 3 (.upTo 3)) = .ok threeSlots ∧
      last.readAt "a" .one = .ok (.integer .zero) ∧
      last.readAt "a" three = .error (.unassigned "a[3]") ∧
      last.readAt "a" .zero = .error (.indexOutOfBounds .zero) := by
  intro two three last
  have made : empty.perform (.declareArray "a" .integer 3 (.upTo 3)) = .ok threeSlots := by rfl
  have events : history "a" threeSlots (regrowing two three) =
      [.wrote .one (.integer .zero), .wrote three (.integer .one)] ++
        [.resized two] ++ [.resized three] := by rfl
  have length : lengthAfter 3 (history "a" threeSlots (regrowing two three)) = 3 := by
    rw [events]
    rfl
  obtain ⟨outside, inside, -⟩ := array_follows_history made (regrowing two three)
  rw [length] at outside inside
  have kept : Holds (history "a" threeSlots (regrowing two three)) .one (.integer .zero) := by
    rw [events]
    refine ⟨[], [.wrote three (.integer .one), .resized two, .resized three], rfl, ?_, ?_⟩
    · simp [three, Integer.one]
    · simp [two, three, Integer.one]
  have dropped (value : Value) :
      ¬ Holds (history "a" threeSlots (regrowing two three)) three value := by
    rw [events, holds_snoc, holds_snoc]
    simp [two, three]
  exact ⟨made, (inside .one (by decide)).1 _ kept, (inside three (by decide)).2.1 dropped,
    (outside .zero (by decide)).1⟩

end Table

end Pseudocode
