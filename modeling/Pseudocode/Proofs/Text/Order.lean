import Mathlib
import Pseudocode.Table

/-!
# The order of texts

Texts are compared character by character, by the code points. The names of a table are
compared byte by byte, in their UTF-8 form. Both are the same order (`before_iff_lt`).

Two different characters are written with bytes that differ somewhere, before either of the two
forms ends, and the first place where they do tells which code point is smaller
(`encode_undercuts`). What comes after that place does not matter, so the rest of the texts
has no influence.
-/

set_option autoImplicit false

namespace Pseudocode

/-! ## Code points -/

/-- The code points of a text. -/
def codePoints (text : String) : List Nat := text.toList.map Char.toNat

theorem lt_iff_codePoints {left right : String} :
    left < right ↔ List.Lex (· < ·) (codePoints left) (codePoints right) := by
  rw [String.lt_iff_toList_lt, codePoints, codePoints]
  generalize left.toList = first, right.toList = second
  induction first generalizing second with
  | nil => cases second <;> simp
  | cons c rest ih =>
      cases second with
      | nil => simp
      | cons d others =>
          have smaller : c < d ↔ c.toNat < d.toNat := Iff.rfl
          rw [List.cons_lt_cons_iff, List.map_cons, List.map_cons, List.cons_lex_cons_iff, ih,
            smaller, Char.toNat_inj]

/-! ## Bytes -/

/-- Two rows of bytes differ somewhere, and the first row is smaller where they first do. -/
inductive Undercuts : List UInt8 → List UInt8 → Prop where
  | here {x y : UInt8} {left right : List UInt8} (less : x < y) : Undercuts (x :: left) (y :: right)
  | later {x : UInt8} {left right : List UInt8} (rest : Undercuts left right) :
      Undercuts (x :: left) (x :: right)

namespace Undercuts

/-- Whatever comes after rows that differ, the order is known. -/
theorem lt {left right : List UInt8} (undercuts : Undercuts left right) (more others : List UInt8) :
    left ++ more < right ++ others := by
  induction undercuts with
  | here less => exact .rel less
  | later rest ih => exact .cons ih

/-- A byte decides, or those after it do. -/
theorem byte {x y : Nat} {left right : List UInt8} (small : y < 256) (le : x ≤ y)
    (tie : x = y → Undercuts left right) :
    Undercuts (UInt8.ofNat x :: left) (UInt8.ofNat y :: right) := by
  rcases Nat.lt_or_eq_of_le le with less | rfl
  · refine .here (UInt8.lt_iff_toNat_lt.2 ?_)
    rwa [UInt8.toNat_ofNat_of_lt' small, UInt8.toNat_ofNat_of_lt' (Nat.lt_trans less small)]
  · exact .later (tie rfl)

end Undercuts

/-- The first byte of a code point, which tells how many come after it. -/
def leadByte (v : Nat) : Nat :=
  if v ≤ 127 then v
  else if v ≤ 2047 then v / 64 % 32 + 192
  else if v ≤ 65535 then v / 4096 % 16 + 224
  else v / 262144 % 8 + 240

/-- The bytes of a code point after the first one, from the highest part to the lowest. -/
def laterBytes (v : Nat) : List UInt8 :=
  if v ≤ 127 then []
  else if v ≤ 2047 then [.ofNat (v % 64 + 128)]
  else if v ≤ 65535 then [.ofNat (v / 64 % 64 + 128), .ofNat (v % 64 + 128)]
  else [.ofNat (v / 4096 % 64 + 128), .ofNat (v / 64 % 64 + 128), .ofNat (v % 64 + 128)]

theorem encode_eq (c : Char) :
    String.utf8EncodeChar c = UInt8.ofNat (leadByte c.toNat) :: laterBytes c.toNat := by
  rw [String.utf8EncodeChar, leadByte, laterBytes, Char.toNat]
  split_ifs <;> rfl

section CodePoints

variable {v w : Nat}

theorem leadByte_lt (bound : w < 1114112) : leadByte w < 256 := by
  rw [leadByte]
  split_ifs <;> omega

theorem leadByte_le (less : v < w) (bound : w < 1114112) : leadByte v ≤ leadByte w := by
  rw [leadByte, leadByte]
  split_ifs <;> omega

/-- Code points with the same first byte have as many bytes, and the others decide. -/
theorem laterBytes_undercut (less : v < w) (bound : w < 1114112) (tie : leadByte v = leadByte w) :
    Undercuts (laterBytes v) (laterBytes w) := by
  rw [leadByte, leadByte] at tie
  rw [laterBytes, laterBytes]
  split_ifs at tie ⊢ <;> try omega
  · exact .byte (by omega) (by omega) (by omega)
  · refine .byte (by omega) (by omega) fun high => ?_
    exact .byte (by omega) (by omega) (by omega)
  · refine .byte (by omega) (by omega) fun high => ?_
    refine .byte (by omega) (by omega) fun middle => ?_
    exact .byte (by omega) (by omega) (by omega)

end CodePoints

/-- **The bytes of a smaller character are smaller.** A form of more bytes starts with a larger
byte. Forms of the same length hold the code point in parts, from the highest to the lowest. -/
theorem encode_undercuts {c d : Char} (less : c < d) :
    Undercuts (String.utf8EncodeChar c) (String.utf8EncodeChar d) := by
  have smaller : c.toNat < d.toNat := less
  have bound : d.toNat < 1114112 := by
    have valid := d.valid
    simp only [UInt32.isValidChar, Nat.isValidChar] at valid
    change d.val.toNat < 1114112
    omega
  rw [encode_eq, encode_eq]
  exact .byte (leadByte_lt bound) (leadByte_le smaller bound) (laterBytes_undercut smaller bound)

/-! ## Both orders -/

theorem bytes_eq (text : String) :
    text.toByteArray.data.toList = text.toList.flatMap String.utf8EncodeChar := by
  conv_lhs => rw [← String.ofList_toList (s := text), String.toByteArray_ofList]
  exact List.toList_data_toByteArray

theorem before_of_lt {left right : String} (less : left < right) : Before left right := by
  rw [String.lt_iff_toList_lt] at less
  rw [Before, bytes_eq, bytes_eq]
  generalize left.toList = first, right.toList = second at less
  induction less with
  | @nil c rest =>
      rw [List.flatMap_nil, List.flatMap_cons]
      cases form : String.utf8EncodeChar c with
      | nil => exact absurd form String.utf8EncodeChar_ne_nil
      | cons => exact .nil
  | rel less =>
      rw [List.flatMap_cons, List.flatMap_cons]
      exact (encode_undercuts less).lt _ _
  | cons _ ih =>
      rw [List.flatMap_cons, List.flatMap_cons]
      exact List.append_left_lt ih

/-- **Texts come in the order of their bytes.** -/
theorem before_iff_lt {left right : String} : Before left right ↔ left < right := by
  refine ⟨fun before => ?_, before_of_lt⟩
  rcases lt_trichotomy left right with less | rfl | greater
  · exact less
  · exact absurd before (Before.irrefl _)
  · exact absurd (before.trans (before_of_lt greater)) (Before.irrefl _)

end Pseudocode
