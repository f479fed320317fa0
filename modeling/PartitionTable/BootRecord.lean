import PartitionTable.Entry

/-! The 512-byte sector that holds a partition table. The disk identity stands at 440, the
four entries from 446 on, and the trailer 55 AA at the end. The 440 bytes before and the two
bytes between identity and table belong to nobody here. -/
namespace PartitionTable

structure BootRecord where
  identity : UInt32
  entries : Vector Entry 4
  deriving DecidableEq, Repr

namespace BootRecord

def size : Nat := 512

def identityOffset : Nat := 440

def tableOffset : Nat := 446

def entryCount : Nat := 4

def signatureOffset : Nat := 510

def signature : List UInt8 := [0x55, 0xaa]

def entryOffset (slot : Fin 4) : Nat := tableOffset + slot.val * Entry.width

/-- Asked of bytes of any length: the trailer has a fixed place, it is not the end. -/
def hasSignature (bytes : List UInt8) : Bool :=
  Bytes.slice bytes signatureOffset signature.length == signature

/-- The record that a sector stands for, whatever its trailer. -/
def ofSector (bytes : List UInt8) : BootRecord where
  identity := Bytes.wordAt bytes identityOffset
  entries := Vector.ofFn fun slot =>
    Entry.ofBytes slot (Bytes.slice bytes (entryOffset slot) Entry.width)

def decode (bytes : List UInt8) : Except Fault BootRecord :=
  if bytes.length ≠ size then .error .sizeMismatch
  else if hasSignature bytes then .ok (ofSector bytes)
  else .error .invalidSignature

/-- Writes the record into a sector. The bytes that belong to nobody stay. -/
def inscribe (record : BootRecord) (sector : List UInt8) : List UInt8 :=
  sector.take identityOffset ++ Bytes.digits 4 record.identity.toNat ++
    Bytes.slice sector 444 2 ++ record.entries.toList.flatMap Entry.bytes ++ signature

/-- The entries that describe something, in slot order. -/
def used (record : BootRecord) : List Entry := record.entries.toList.filter (!·.isEmpty)

end BootRecord
end PartitionTable
