import Pseudocode.Error.Runtime

/-!
# Output

What a program prints goes to a writer, which takes a text or refuses it. At the
end of a run the writer is flushed, which it may refuse as well. Which writer it
is does not matter to a program (`Writer`).

An `Output` is a writer that stores bytes. It may have a capacity; a text that
does not fit is stored as far as it fits, and then refused.
-/

set_option autoImplicit false

namespace Pseudocode

/-- Where the texts go that a program prints. -/
class Writer where
  /-- The states of the writer. -/
  Stream : Type
  /-- The bytes that have been taken. -/
  written : Stream → ByteArray
  /-- Takes a text, or refuses it for a reason. -/
  write : Stream → String → Except String Unit × Stream
  /-- Hands over all that has been taken, or refuses to for a reason. -/
  flush : Stream → Except String Unit × Stream
  /-- A text is taken as a whole. -/
  written_of_ok : ∀ {stream text next}, write stream text = (.ok (), next) →
    written next = written stream ++ text.toUTF8
  /-- If it is refused then a part of it may have been taken before. -/
  written_of_error : ∀ {stream text reason next}, write stream text = (.error reason, next) →
    ∃ count, written next = written stream ++ text.toUTF8.extract 0 count

/-- The bytes printed so far, and what the output can take. -/
structure Output where
  written : ByteArray
  /-- The number of bytes that there is room for, if there is a limit. -/
  capacity : Option Nat
  /-- Whether flushing fails. -/
  stuck : Bool

namespace Output

/-- Whether so many bytes more fit. -/
def hasRoom (output : Output) (count : Nat) : Bool :=
  match output.capacity with
  | none => true
  | some capacity => output.written.size + count ≤ capacity

/-- The number of bytes that still fit into an output with a limit. -/
def room (output : Output) : Nat := output.capacity.getD 0 - output.written.size

/-- Stores a text, or as much of it as fits. -/
def write (output : Output) (text : String) : Except String Unit × Output :=
  let bytes := text.toUTF8
  if output.hasRoom bytes.size then
    (.ok (), { output with written := output.written ++ bytes })
  else
    let part := bytes.extract 0 output.room
    (.error "sink full", { output with written := output.written ++ part })

/-- Hands over everything that was printed. -/
def flush (output : Output) : Except String Unit × Output :=
  (if output.stuck then .error "flush failed" else .ok (), output)

end Output

/-- Texts are stored, unless it is said otherwise. -/
instance Output.instWriter : Writer where
  Stream := Output
  written := Output.written
  write := Output.write
  flush := Output.flush
  written_of_ok {output text next} wrote := by
    rw [Output.write] at wrote
    split at wrote
    · cases wrote
      rfl
    · cases wrote
  written_of_error {output text reason next} wrote := by
    rw [Output.write] at wrote
    split at wrote
    · cases wrote
    · cases wrote
      exact ⟨output.room, rfl⟩

/-- An output with nothing printed and no limit. -/
def Writer.Stream.unbounded : Writer.Stream := (⟨.empty, none, false⟩ : Output)

end Pseudocode
