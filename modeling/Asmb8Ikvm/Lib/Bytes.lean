import Mathlib

/-!
# Byte strings and fixed-width integers

A byte string is a list of `UInt8`. This file has the two fixed-width integer
codecs (least and most significant byte first), the overwriting of a range of a
buffer, and the part of a byte string between two offsets, together with the
laws by which a record laid out at fixed offsets is written and read back.

Codecs keep the low `width` bytes of their argument, so writing a value and
reading it again is reduction modulo `256 ^ width`.
-/

/-- A byte string. -/
abbrev Bytes := List UInt8

namespace Bytes

/-- The low byte of an integer: `value & 0xFF`. -/
def lowByte (value : ℤ) : UInt8 :=
  UInt8.ofNat (value % 256).toNat

@[simp]
theorem toNat_lowByte (value : ℤ) : ((lowByte value).toNat : ℤ) = value % 256 := by
  have nonneg : 0 ≤ value % 256 := Int.emod_nonneg value (by decide)
  have below : value % 256 < 256 := Int.emod_lt_of_pos value (by decide)
  simp only [lowByte, UInt8.toNat_ofNat']
  omega

@[simp]
theorem lowByte_toNat (byte : UInt8) : lowByte byte.toNat = byte := by
  have below := byte.toNat_lt
  apply UInt8.toNat_inj.mp
  simp only [lowByte, UInt8.toNat_ofNat']
  omega

/-- `value` on `width` bytes, least significant byte first. -/
def le : ℕ → ℕ → Bytes
  | 0, _ => []
  | width + 1, value => UInt8.ofNat value :: le width (value / 256)

/-- The value of a byte string read with its least significant byte first. -/
def ofLE : Bytes → ℕ
  | [] => 0
  | byte :: rest => byte.toNat + 256 * ofLE rest

/-- `value` on `width` bytes, most significant byte first. -/
def be (width value : ℕ) : Bytes :=
  (le width value).reverse

/-- The value of a byte string read with its most significant byte first. -/
def ofBE (bytes : Bytes) : ℕ :=
  ofLE bytes.reverse

@[simp]
theorem length_le (width value : ℕ) : (le width value).length = width := by
  induction width generalizing value with
  | zero => rfl
  | succ width ih => simp [le, ih]

@[simp]
theorem length_be (width value : ℕ) : (be width value).length = width := by
  simp [be]

theorem ofLE_lt (bytes : Bytes) : ofLE bytes < 256 ^ bytes.length := by
  induction bytes with
  | nil => simp [ofLE]
  | cons byte rest ih =>
      have below := byte.toNat_lt
      simp only [ofLE, List.length_cons, Nat.pow_succ]
      omega

theorem ofBE_lt (bytes : Bytes) : ofBE bytes < 256 ^ bytes.length := by
  simpa [ofBE] using ofLE_lt bytes.reverse

/-- Writing and reading back keeps the low bytes of the value. -/
@[simp]
theorem ofLE_le (width value : ℕ) : ofLE (le width value) = value % 256 ^ width := by
  induction width generalizing value with
  | zero => simp [le, ofLE, Nat.mod_one]
  | succ width ih =>
      simp only [le, ofLE, ih, UInt8.toNat_ofNat']
      calc value % 256 + 256 * (value / 256 % 256 ^ width)
          = value % (256 * 256 ^ width) := Nat.mod_mul.symm
        _ = value % 256 ^ (width + 1) := by rw [pow_succ']

/-- A byte string is the encoding of its own value at its own length. -/
@[simp]
theorem le_ofLE (bytes : Bytes) : le bytes.length (ofLE bytes) = bytes := by
  induction bytes with
  | nil => rfl
  | cons byte rest ih =>
      have below := byte.toNat_lt
      have low : UInt8.ofNat (byte.toNat + 256 * ofLE rest) = byte := by
        apply UInt8.toNat_inj.mp
        simp only [UInt8.toNat_ofNat']
        omega
      have high : (byte.toNat + 256 * ofLE rest) / 256 = ofLE rest := by
        omega
      simp only [List.length_cons, le, ofLE, low, high, ih]

/-- The `length` bytes from `start` on, fewer at the end of the string. -/
def slice (bytes : Bytes) (start length : ℕ) : Bytes :=
  (bytes.drop start).take length

/-- Assignment of `data` to the range of a buffer that starts at `offset`. -/
def overwrite (bytes : Bytes) (offset : ℕ) (data : Bytes) : Bytes :=
  bytes.take offset ++ data ++ bytes.drop (offset + data.length)

@[simp]
theorem length_slice (bytes : Bytes) (start length : ℕ) :
    (slice bytes start length).length = min length (bytes.length - start) := by
  simp [slice]

theorem slice_append_slice (bytes : Bytes) (start first second : ℕ) :
    slice bytes start first ++ slice bytes (start + first) second =
      slice bytes start (first + second) := by
  simp only [slice, List.take_add, List.drop_drop]

theorem slice_slice {bytes : Bytes} {start length inner count : ℕ}
    (within : inner + count ≤ length) :
    slice (slice bytes start length) inner count = slice bytes (start + inner) count := by
  simp only [slice, List.drop_take, List.take_take, List.drop_drop]
  congr 1
  omega

theorem slice_of_le {bytes : Bytes} {start length : ℕ} (beyond : bytes.length ≤ start + length) :
    slice bytes start length = bytes.drop start := by
  apply List.take_of_length_le
  rw [List.length_drop]
  omega

theorem slice_congr {left right : Bytes} {start length : ℕ}
    (agree : ∀ i, start ≤ i → i < start + length → left[i]? = right[i]?) :
    slice left start length = slice right start length := by
  apply List.ext_getElem?
  intro i
  by_cases inside : i < length
  · simpa [slice, List.getElem?_take, inside, List.getElem?_drop] using
      agree (start + i) (by omega) (by omega)
  · simp [slice, inside]

theorem length_overwrite {bytes data : Bytes} {offset : ℕ}
    (fits : offset + data.length ≤ bytes.length) :
    (overwrite bytes offset data).length = bytes.length := by
  simp only [overwrite, List.length_append, List.length_take, List.length_drop]
  omega

theorem drop_overwrite {bytes data : Bytes} {offset k : ℕ}
    (fits : offset + data.length ≤ bytes.length) (beyond : offset + data.length ≤ k) :
    (overwrite bytes offset data).drop k = bytes.drop k := by
  have front : (bytes.take offset ++ data).length = offset + data.length := by
    rw [List.length_append, List.length_take]
    omega
  rw [overwrite, List.drop_append, List.drop_eq_nil_of_le (by omega), List.nil_append, front,
    List.drop_drop]
  congr 1
  omega

/-- A byte of a buffer after an assignment to a range of it. -/
theorem getElem?_overwrite {bytes data : Bytes} {offset : ℕ}
    (fits : offset + data.length ≤ bytes.length) (i : ℕ) :
    (overwrite bytes offset data)[i]? =
      if i < offset then bytes[i]?
      else if i < offset + data.length then data[i - offset]?
      else bytes[i]? := by
  have front : (bytes.take offset).length = offset := by
    rw [List.length_take]
    omega
  rw [overwrite, List.append_assoc, List.getElem?_append, front]
  by_cases before : i < offset
  · rw [if_pos before, if_pos before, List.getElem?_take, if_pos before]
  · rw [if_neg before, if_neg before, List.getElem?_append]
    by_cases inside : i < offset + data.length
    · rw [if_pos (by omega), if_pos inside]
    · rw [if_neg (by omega), if_neg inside, List.getElem?_drop]
      congr 1
      omega

theorem getElem?_slice (bytes : Bytes) (start length i : ℕ) :
    (slice bytes start length)[i]? = if i < length then bytes[start + i]? else none := by
  rw [slice, List.getElem?_take, List.getElem?_drop]

end Bytes
