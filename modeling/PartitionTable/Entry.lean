import PartitionTable.DiskAddress
import PartitionTable.Kind

/-! One of the four entries of a partition table, sixteen bytes long:

| offset | width | field                         |
|--------|-------|-------------------------------|
| 0      | 1     | flags                         |
| 1      | 3     | first disk address            |
| 4      | 1     | kind                          |
| 5      | 3     | last disk address             |
| 8      | 4     | first sector, from the table  |
| 12     | 4     | number of sectors             |

`ofBytes` and `bytes` are inverse: no bit of an entry is ignored. -/
namespace PartitionTable

structure Entry where
  slot : Fin 4
  flags : UInt8
  first : DiskAddress
  kind : Kind
  last : DiskAddress
  firstSector : UInt32
  sectorCount : UInt32
  deriving DecidableEq, Repr

namespace Entry

def width : Nat := 16

def bootableFlag : UInt8 := 0x80

def ofBytes (slot : Fin 4) (data : List UInt8) : Entry where
  slot
  flags := Bytes.byteAt data 0
  first := .inEntry data 1
  kind := ⟨Bytes.byteAt data 4⟩
  last := .inEntry data 5
  firstSector := Bytes.wordAt data 8
  sectorCount := Bytes.wordAt data 12

def bytes (entry : Entry) : List UInt8 :=
  [entry.flags] ++ entry.first.bytes ++ [entry.kind.code] ++ entry.last.bytes ++
    Bytes.digits 4 entry.firstSector.toNat ++ Bytes.digits 4 entry.sectorCount.toNat

/-- Reads an entry that stands by itself, where neither its length nor its number is sure. -/
def decode (slot : UInt8) (data : List UInt8) : Except Fault Entry :=
  if data.length ≠ width then .error .sizeMismatch
  else if inside : slot.toNat < 4 then .ok (ofBytes ⟨slot.toNat, inside⟩ data)
  else .error .invalidArgument

def isEmpty (entry : Entry) : Bool := entry.kind.isEmpty

def isExtended (entry : Entry) : Bool := entry.kind.isExtended

def isBootable (entry : Entry) : Bool := entry.flags &&& bootableFlag != 0

@[simp] theorem length_bytes (entry : Entry) : entry.bytes.length = width := by
  simp [bytes, width]

theorem bytes_ofBytes (slot : Fin 4) (length : data.length = width) :
    (ofBytes slot data).bytes = data := by
  have long : data.length = 16 := length
  simp only [bytes, ofBytes]
  rw [Bytes.byteAt_slice (by omega), Bytes.byteAt_slice (by omega),
    DiskAddress.bytes_inEntry (by omega), DiskAddress.bytes_inEntry (by omega),
    Bytes.wordAt_slice (by omega), Bytes.wordAt_slice (by omega),
    Bytes.slice_append_slice data 0 1 3, Bytes.slice_append_slice data 0 4 1,
    Bytes.slice_append_slice data 0 5 3, Bytes.slice_append_slice data 0 8 4,
    Bytes.slice_append_slice data 0 12 4]
  exact Bytes.slice_all long

theorem ofBytes_bytes (entry : Entry) : ofBytes entry.slot entry.bytes = entry := by
  have byte (b : UInt8) : UInt8.ofNat (Bytes.value [b]) = b := by simp [Bytes.value]
  simp [ofBytes, bytes, Bytes.byteAt, Bytes.wordAt, DiskAddress.inEntry, DiskAddress.width,
    Bytes.slice, List.drop_append, List.take_append, List.drop_eq_nil_of_le,
    List.take_of_length_le, DiskAddress.unpack_value_bytes, Bytes.value_word, byte]

end Entry
end PartitionTable
