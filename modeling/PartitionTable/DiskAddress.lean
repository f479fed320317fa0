import PartitionTable.Bytes

/-! Cylinder, head and sector, packed into 24 bits: eight for the head, six for the sector
and ten for the cylinder, from the lowest bit up. The three ranges fill the 24 bits, so
packing and unpacking are inverse. -/
namespace PartitionTable

structure DiskAddress where
  cylinder : Fin 1024
  head : Fin 256
  sector : Fin 64
  deriving DecidableEq, Repr

namespace DiskAddress

def width : Nat := 3

def packed (address : DiskAddress) : Nat :=
  address.head.val + address.sector.val * 0x100 + address.cylinder.val * 0x4000

def unpack (n : Nat) : DiskAddress where
  cylinder := Fin.ofNat 1024 (n / 0x4000)
  head := Fin.ofNat 256 n
  sector := Fin.ofNat 64 (n / 0x100)

def ofBytes (order : Endian) (bytes : List UInt8) : Except Fault DiskAddress :=
  (Bytes.number order bytes 0 width).map unpack

/-- The address in an entry, least significant byte first. -/
def inEntry (entry : List UInt8) (offset : Nat) : DiskAddress :=
  unpack (Bytes.value (Bytes.slice entry offset width))

def bytes (address : DiskAddress) : List UInt8 := Bytes.digits width address.packed

def text (address : DiskAddress) : String :=
  s!"{address.cylinder.val}/{address.head.val}/{address.sector.val}"

theorem packed_lt (address : DiskAddress) : address.packed < 0x1000000 := by
  have := address.cylinder.isLt
  have := address.head.isLt
  have := address.sector.isLt
  unfold packed
  omega

@[simp] theorem unpack_packed (address : DiskAddress) : unpack address.packed = address := by
  obtain ⟨cylinder, head, sector⟩ := address
  simp only [unpack, packed, mk.injEq]
  refine ⟨?_, ?_, ?_⟩ <;> apply Fin.ext <;> simp only [Fin.ofNat] <;> omega

theorem packed_unpack (small : n < 0x1000000) : (unpack n).packed = n := by
  simp only [unpack, packed, Fin.ofNat]
  omega

@[simp] theorem length_bytes (address : DiskAddress) : address.bytes.length = 3 := by
  simp [bytes, width]

theorem unpack_value_bytes (address : DiskAddress) : unpack (Bytes.value address.bytes) = address := by
  have small : address.packed < Bytes.span width := address.packed_lt
  rw [bytes, Bytes.value_digits, Nat.mod_eq_of_lt small, unpack_packed]

theorem bytes_inEntry (inside : offset + 3 ≤ entry.length) :
    (inEntry entry offset).bytes = Bytes.slice entry offset 3 := by
  have length : (Bytes.slice entry offset 3).length = 3 := Bytes.length_slice inside
  have small : Bytes.value (Bytes.slice entry offset 3) < Bytes.span 3 := by
    have := Bytes.value_lt (Bytes.slice entry offset 3)
    rwa [length] at this
  rw [bytes, inEntry, width, packed_unpack small]
  exact Bytes.digits_value_of_length length

end DiskAddress
end PartitionTable
