import PartitionTable.Offset

/-! Fields of fixed width inside a string of bytes. `value` and `digits` are the two
directions of one notation, least significant byte first: a width is kept by `digits`, and
each undoes the other within it. -/
namespace PartitionTable

inductive Endian where
  | little
  | big
  deriving DecidableEq, Repr

namespace Bytes

def value : List UInt8 → Nat
  | [] => 0
  | byte :: rest => byte.toNat + 256 * value rest

def digits : Nat → Nat → List UInt8
  | 0, _ => []
  | width + 1, n => UInt8.ofNat n :: digits width (n / 256)

def span : Nat → Nat
  | 0 => 1
  | width + 1 => 256 * span width

def slice (bytes : List UInt8) (offset width : Nat) : List UInt8 :=
  (bytes.drop offset).take width

/-- The fields that are there for sure are read without a fault. -/
def byteAt (bytes : List UInt8) (offset : Nat) : UInt8 := UInt8.ofNat (value (slice bytes offset 1))

def wordAt (bytes : List UInt8) (offset : Nat) : UInt32 := UInt32.ofNat (value (slice bytes offset 4))

/-- A field has to end at an addressable position, and then inside the bytes. -/
def field (bytes : List UInt8) (offset width : Nat) : Except Fault (List UInt8) :=
  if Offset.addressLimit < offset + width then .error .outOfBounds
  else if bytes.length < offset + width then .error .sizeMismatch
  else .ok (slice bytes offset width)

def number (order : Endian) (bytes : List UInt8) (offset width : Nat) : Except Fault Nat :=
  (field bytes offset width).map fun bytes =>
    match order with
    | .little => value bytes
    | .big => value bytes.reverse

def contains (bytes pattern : List UInt8) : Bool :=
  (List.range (bytes.length + 1 - pattern.length)).any fun offset =>
    slice bytes offset pattern.length == pattern

@[simp] theorem length_digits (width n : Nat) : (digits width n).length = width := by
  induction width generalizing n with
  | zero => rfl
  | succ width ih => simp [digits, ih]

theorem length_slice (inside : offset + width ≤ bytes.length) :
    (slice bytes offset width).length = width := by
  simp [slice]; omega

theorem slice_append_slice (bytes : List UInt8) (offset first second : Nat) :
    slice bytes offset first ++ slice bytes (offset + first) second =
      slice bytes offset (first + second) := by
  simp [slice, List.take_add, List.drop_drop]

theorem slice_all (whole : bytes.length = width) : slice bytes 0 width = bytes := by
  simp [slice, ← whole]

theorem slice_append_right (front rest : List UInt8) (offset width : Nat) :
    slice (front ++ rest) (front.length + offset) width = slice rest offset width := by
  simp [slice, List.drop_append, List.drop_eq_nil_of_le]

theorem value_lt (bytes : List UInt8) : value bytes < span bytes.length := by
  induction bytes with
  | nil => simp [value, span]
  | cons byte rest ih =>
    have := byte.toNat_lt
    simp only [value, span, List.length_cons]
    omega

theorem value_digits (width n : Nat) : value (digits width n) = n % span width := by
  induction width generalizing n with
  | zero => simp [digits, value, span, Nat.mod_one]
  | succ width ih =>
    have split : n % (256 * span width) = n % 256 + 256 * (n / 256 % span width) := Nat.mod_mul
    simp only [digits, value, span, ih, UInt8.toNat_ofNat', split]

theorem digits_value (bytes : List UInt8) : digits bytes.length (value bytes) = bytes := by
  induction bytes with
  | nil => rfl
  | cons byte rest ih =>
    have low : UInt8.ofNat (byte.toNat + 256 * value rest) = byte := by
      apply UInt8.toNat_inj.1
      have := byte.toNat_lt
      simp only [UInt8.toNat_ofNat']
      omega
    have high : (byte.toNat + 256 * value rest) / 256 = value rest := by
      have := byte.toNat_lt
      omega
    simp [digits, value, low, high, ih]

theorem digits_value_of_length (length : bytes.length = width) :
    digits width (value bytes) = bytes := by
  subst length
  exact digits_value bytes

theorem byteAt_slice (inside : offset + 1 ≤ bytes.length) :
    [byteAt bytes offset] = slice bytes offset 1 := by
  simpa [digits, byteAt] using digits_value_of_length (length_slice inside)

theorem wordAt_slice (inside : offset + 4 ≤ bytes.length) :
    digits 4 (wordAt bytes offset).toNat = slice bytes offset 4 := by
  have length : (slice bytes offset 4).length = 4 := length_slice inside
  have small : value (slice bytes offset 4) < span 4 := by
    have := value_lt (slice bytes offset 4)
    rwa [length] at this
  rw [wordAt, UInt32.toNat_ofNat_of_lt' small]
  exact digits_value_of_length length

theorem value_word (n : UInt32) : UInt32.ofNat (value (digits 4 n.toNat)) = n := by
  have small : n.toNat < span 4 := n.toNat_lt
  rw [value_digits, Nat.mod_eq_of_lt small, UInt32.ofNat_toNat]

end Bytes
end PartitionTable
