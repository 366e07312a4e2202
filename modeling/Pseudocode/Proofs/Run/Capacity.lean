import Pseudocode.Proofs.Run.Composition

/-!
# Outputs with a capacity

A line is printed as two texts, the second of which is the end of the line. An output stores
two texts as it stores them in one piece, and it is full at the same byte
(`Output.write_append`). So a line is stored whole, or it is cut off where the output is full
(`Run.print_of_room`, `Run.print_of_full`).
-/

set_option autoImplicit false

namespace Pseudocode

section Extract

variable {first second : ByteArray} {limit : Nat}

theorem extract_append_of_le (within : limit ≤ first.size) :
    (first ++ second).extract 0 limit = first.extract 0 limit := by
  rw [ByteArray.extract_append, Nat.zero_sub, Nat.sub_eq_zero_of_le within,
    ByteArray.extract_same, ByteArray.append_empty]

theorem extract_append_of_ge (beyond : first.size ≤ limit) :
    (first ++ second).extract 0 limit = first ++ second.extract 0 (limit - first.size) := by
  have whole : first.extract 0 limit = first := by
    rw [← Nat.max_eq_left beyond, ByteArray.extract_zero_max_size]
  rw [ByteArray.extract_append, Nat.zero_sub, whole]

end Extract

namespace Output

theorem hasRoom_of_unbounded {output : Output} (unbounded : output.capacity = none)
    (count : Nat) : output.hasRoom count = true := by
  rw [hasRoom, unbounded]

theorem hasRoom_of_le {output : Output} {count more : Nat} (fits : output.hasRoom more = true)
    (less : count ≤ more) : output.hasRoom count = true := by
  obtain ⟨written, capacity, stuck⟩ := output
  cases capacity with
  | none => rfl
  | some capacity =>
      simp only [hasRoom, decide_eq_true_eq] at fits ⊢
      omega

theorem hasRoom_append (output : Output) (bytes : ByteArray) (count : Nat) :
    { output with written := output.written ++ bytes }.hasRoom count =
      output.hasRoom (bytes.size + count) := by
  obtain ⟨written, capacity, stuck⟩ := output
  cases capacity with
  | none => rfl
  | some capacity => simp [hasRoom, ByteArray.size_append, Nat.add_assoc]

theorem room_append (output : Output) (bytes : ByteArray) :
    { output with written := output.written ++ bytes }.room = output.room - bytes.size := by
  simp only [room, ByteArray.size_append, Nat.sub_add_eq]

theorem room_le_of_full {output : Output} {count : Nat} (full : ¬ output.hasRoom count = true) :
    output.room ≤ count := by
  obtain ⟨written, capacity, stuck⟩ := output
  cases capacity with
  | none => exact absurd rfl full
  | some capacity =>
      simp only [hasRoom, decide_eq_true_eq] at full
      simp only [room, Option.getD_some]
      omega

/-- What fits into an output with a limit is within the room that there is. -/
theorem le_room {output : Output} {count more : Nat} (fits : output.hasRoom count = true)
    (full : ¬ output.hasRoom more = true) : count ≤ output.room := by
  obtain ⟨written, capacity, stuck⟩ := output
  cases capacity with
  | none => exact absurd rfl full
  | some capacity =>
      simp only [hasRoom, decide_eq_true_eq] at fits
      simp only [room, Option.getD_some]
      omega

theorem write_of_room {output : Output} {text : String}
    (fits : output.hasRoom text.toUTF8.size = true) :
    output.write text = (.ok (), { output with written := output.written ++ text.toUTF8 }) := by
  simp only [write, if_pos fits]

theorem write_of_full {output : Output} {text : String}
    (full : ¬ output.hasRoom text.toUTF8.size = true) :
    output.write text = (.error "sink full",
      { output with written := output.written ++ text.toUTF8.extract 0 output.room }) := by
  simp only [write, if_neg full]

/-- Two texts are stored one after the other as they are in one piece. -/
theorem write_append (output : Output) (first second : String) :
    output.write (first ++ second) =
      match output.write first with
      | (.ok (), next) => next.write second
      | refused => refused := by
  have bytes : (first ++ second).toUTF8 = first.toUTF8 ++ second.toUTF8 :=
    String.toByteArray_append
  have further := hasRoom_append output first.toUTF8 second.toUTF8.size
  rw [← ByteArray.size_append, ← bytes] at further
  by_cases fits : output.hasRoom first.toUTF8.size = true
  · rw [write_of_room fits]
    by_cases both : output.hasRoom (first ++ second).toUTF8.size = true
    · simp only [write_of_room both, write_of_room (further.trans both), bytes,
        ByteArray.append_assoc]
    · -- The second text is cut off.
      have full := both
      rw [← further] at full
      simp only [write_of_full both, write_of_full full, room_append, bytes,
        extract_append_of_ge (le_room fits both), ByteArray.append_assoc]
  · have full : ¬ output.hasRoom (first ++ second).toUTF8.size = true := by
      intro both
      rw [bytes, ByteArray.size_append] at both
      exact fits (hasRoom_of_le both (Nat.le_add_right _ _))
    rw [write_of_full fits, write_of_full full, bytes, extract_append_of_le (room_le_of_full fits)]

end Output

namespace Run

variable {line : String} {state : State}

/-- A line is stored in one piece. -/
theorem print_eq_ask (line : String) (state : State) :
    print line state = ask (fun output : Output => output.write (line ++ "\n")) state := by
  rw [print, put]
  have whole := Output.write_append state.output line "\n"
  rcases wrote : Output.write state.output line with ⟨result, next⟩
  rw [wrote] at whole
  cases result with
  | ok _ =>
      rw [bind_ok (ask_ok wrote), put, ask, ask, whole]
      rfl
  | error reason => rw [bind_error (ask_error wrote), ask_error whole]

theorem print_of_room (fits : Output.hasRoom state.output (line ++ "\n").toUTF8.size = true) :
    print line state = .ok () { state with output :=
      { state.output with written := state.output.written ++ (line ++ "\n").toUTF8 } } := by
  rw [print_eq_ask, ask_ok (Output.write_of_room fits)]

theorem print_of_full
    (full : ¬ Output.hasRoom state.output (line ++ "\n").toUTF8.size = true) :
    print line state = .error (.failed (.output "sink full")) { state with output :=
      { state.output with
        written := state.output.written ++
          (line ++ "\n").toUTF8.extract 0 state.output.room } } := by
  rw [print_eq_ask, ask_error (Output.write_of_full full)]

end Run

end Pseudocode
