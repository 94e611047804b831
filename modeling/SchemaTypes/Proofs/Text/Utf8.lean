import Mathlib.Data.List.Basic
import Mathlib.Data.List.Lex
import Mathlib.Data.String.Basic

/-! # The order of texts in UTF-8

A character with a greater code point has either a greater first byte or the same first byte and, in
the same number of further bytes, greater digits to the base 64. So texts stand in the same order by
their characters and by their bytes.
-/

namespace SchemaTypes.Text

def utf8 (s : String) : List UInt8 :=
  s.toUTF8.data.toList

theorem utf8_eq (s : String) : utf8 s = s.toList.flatMap String.utf8EncodeChar := by
  rw [utf8, String.toUTF8_eq_toByteArray, ← String.utf8Encode_toList, List.utf8Encode,
    List.toList_data_toByteArray]

def leadingByte (point : Nat) : Nat :=
  if point ≤ 127 then point
  else if point ≤ 2047 then point / 64 + 192
  else if point ≤ 65535 then point / 4096 + 224
  else point / 262144 + 240

def trailingCount (point : Nat) : Nat :=
  if point ≤ 127 then 0 else if point ≤ 2047 then 1 else if point ≤ 65535 then 2 else 3

/-- The last digits of a code point to the base 64, each in a byte. -/
def trailingBytes (point : Nat) : Nat → List UInt8
  | 0 => []
  | count + 1 => UInt8.ofNat (point / 64 ^ count % 64 + 128) :: trailingBytes point count

theorem codePoint_lt (c : Char) : c.toNat < 0x110000 := by
  have valid := c.valid
  rw [UInt32.isValidChar, Nat.isValidChar] at valid
  exact valid.elim (fun low => low.trans (by decide)) (·.2)

theorem utf8EncodeChar_eq (c : Char) :
    String.utf8EncodeChar c =
      UInt8.ofNat (leadingByte c.toNat) :: trailingBytes c.toNat (trailingCount c.toNat) := by
  have bound := codePoint_lt c
  rw [String.utf8EncodeChar, show c.val.toNat = c.toNat from rfl]
  generalize c.toNat = point at bound ⊢
  rw [leadingByte, trailingCount]
  split_ifs <;> simp only [trailingBytes, Nat.reducePow, Nat.div_one, List.cons.injEq, and_true] <;>
    exact congrArg UInt8.ofNat (by omega)

theorem leadingByte_lt_256 {point : Nat} (bound : point < 0x110000) : leadingByte point < 256 := by
  rw [leadingByte]
  split_ifs <;> omega

theorem leadingByte_lt {point other : Nat} (before : point < other) (bound : other < 0x110000) :
    leadingByte point < leadingByte other ∨
      leadingByte point = leadingByte other ∧ trailingCount point = trailingCount other ∧
        point % 64 ^ trailingCount point < other % 64 ^ trailingCount other := by
  rw [leadingByte, leadingByte, trailingCount, trailingCount]
  split_ifs <;> simp only [Nat.reducePow, true_and] <;> omega

/-- Greater digits bring greater bytes, whatever follows them. -/
theorem trailingBytes_lt {point other count : Nat}
    (below : point % 64 ^ count < other % 64 ^ count) (more further : List UInt8) :
    trailingBytes point count ++ more < trailingBytes other count ++ further := by
  induction count with
  | zero =>
    rw [pow_zero, Nat.mod_one, Nat.mod_one] at below
    exact absurd below (lt_irrefl 0)
  | succ count ih =>
    rw [pow_succ, Nat.mod_mul, Nat.mod_mul] at below
    rw [trailingBytes, trailingBytes, List.cons_append, List.cons_append, List.cons_lt_cons_iff,
      UInt8.lt_iff_toNat_lt, UInt8.toNat_ofNat', UInt8.toNat_ofNat']
    have small : point % 64 ^ count < 64 ^ count := Nat.mod_lt _ (Nat.pow_pos (by decide))
    rcases lt_trichotomy (point / 64 ^ count % 64) (other / 64 ^ count % 64) with
      less | same | greater
    · exact .inl (by omega)
    · rw [same] at below ⊢
      exact .inr ⟨rfl, ih (by omega)⟩
    · have carried := Nat.mul_le_mul_left (64 ^ count) greater
      rw [Nat.mul_succ] at carried
      have rest : other % 64 ^ count < 64 ^ count := Nat.mod_lt _ (Nat.pow_pos (by decide))
      omega

/-- The bytes of a greater character are greater, whatever follows them. -/
theorem utf8EncodeChar_lt {c d : Char} (before : c < d) (more further : List UInt8) :
    String.utf8EncodeChar c ++ more < String.utf8EncodeChar d ++ further := by
  have bound := codePoint_lt d
  rw [utf8EncodeChar_eq, utf8EncodeChar_eq, List.cons_append, List.cons_append,
    List.cons_lt_cons_iff, UInt8.lt_iff_toNat_lt, UInt8.toNat_ofNat', UInt8.toNat_ofNat',
    Nat.mod_eq_of_lt (leadingByte_lt_256 (codePoint_lt c)),
    Nat.mod_eq_of_lt (leadingByte_lt_256 bound)]
  rcases leadingByte_lt (show c.toNat < d.toNat from before) bound with less | ⟨lead, count, below⟩
  · exact .inl less
  · rw [lead]
    rw [count] at below ⊢
    exact .inr ⟨rfl, trailingBytes_lt below more further⟩

theorem flatMap_utf8EncodeChar_lt {cs ds : List Char} (before : cs < ds) :
    cs.flatMap String.utf8EncodeChar < ds.flatMap String.utf8EncodeChar := by
  induction cs generalizing ds with
  | nil =>
    cases ds with
    | nil => exact absurd before (lt_irrefl [])
    | cons d ds =>
      rw [List.flatMap_cons, utf8EncodeChar_eq]
      exact .nil
  | cons c cs ih =>
    cases ds with
    | nil => cases before
    | cons d ds =>
      rw [List.flatMap_cons, List.flatMap_cons]
      rcases List.cons_lt_cons_iff.mp before with less | ⟨rfl, below⟩
      · exact utf8EncodeChar_lt less _ _
      · exact List.append_left_lt (ih below)

/-- Texts in their order have their bytes in the same order. -/
theorem utf8_lt {s t : String} (before : s < t) : utf8 s < utf8 t := by
  rw [utf8_eq, utf8_eq]
  exact flatMap_utf8EncodeChar_lt (String.lt_iff_toList_lt.mp before)

end SchemaTypes.Text
