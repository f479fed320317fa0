import PartitionTable.Image
import PartitionTable.Store

/-! A store over bytes that are at hand. It answers every question exactly and never fails
while it is open; its size can be asked at any time. -/
namespace PartitionTable

structure Memory where
  image : Image
  isOpen : Bool := false

namespace Memory

def read (length offset : Nat) (memory : Memory) : Reply Memory Reading :=
  if memory.isOpen then .ok (.ofBytes (memory.image.slice offset length)) memory
  else .error .notOpen memory

def store : Store Memory where
  isOpen := Memory.isOpen
  acquire memory := .ok () { memory with isOpen := true }
  release memory := .ok () { memory with isOpen := false }
  size memory := .ok memory.image.size memory
  read := read

end Memory
end PartitionTable
