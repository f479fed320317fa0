import PartitionTable.FileSystem
import PartitionTable.Store.Disk
import PartitionTable.Store.File
import PartitionTable.Store.Memory
import PartitionTable.Store.Scripted

/-! Numbered stores of several kinds beside one file system. Each number is a store over the
whole rack, so volumes and readers over different stores share one state. -/
namespace PartitionTable

inductive Shelf where
  | memory (state : Memory)
  | file (state : File)
  | block (blockSize : UInt32) (state : Block Disk)
  | scripted (state : Scripted × List (Unit × Call))

structure Rack where
  files : FileSystem
  shelves : Array Shelf

namespace Shelf

/-- Puts a call to whatever stands on the shelf. -/
def call (request : ∀ {σ : Type}, Store σ → σ → Reply σ α) (files : FileSystem) :
    Shelf → Reply (FileSystem × Shelf) α
  | memory state => (request Memory.store state).mapState fun state => (files, memory state)
  | file state => (request (File.store FileSystem.host) (state, files)).mapState fun state =>
      (state.2, file state.1)
  | block blockSize state => (request (Block.store (Disk.device blockSize)) state).mapState
      fun state => (files, block blockSize state)
  | scripted state => (request (Scripted.store.recorded ()) state).mapState fun state =>
      (files, scripted state)

def isOpen : Shelf → Bool
  | memory state => state.isOpen
  | file state => state.number.isSome
  | block _ state => state.isOpen
  | scripted state => state.1.isOpen

end Shelf

namespace Rack

def empty : Rack := ⟨.empty, #[]⟩

def add (rack : Rack) (shelf : Shelf) : Rack × Nat :=
  ({ rack with shelves := rack.shelves.push shelf }, rack.shelves.size)

def call (number : Nat) (request : ∀ {σ : Type}, Store σ → σ → Reply σ α) (rack : Rack) :
    Reply Rack α :=
  match rack.shelves[number]? with
  | none => .error .notOpen rack
  | some shelf => (shelf.call request rack.files).mapState fun (files, shelf) =>
      ⟨files, rack.shelves.setIfInBounds number shelf⟩

def store (number : Nat) : Store Rack where
  isOpen rack := rack.shelves[number]?.any Shelf.isOpen
  acquire := call number Store.acquire
  release := call number Store.release
  size := call number Store.size
  read length offset := call number fun store => store.read length offset

end Rack
end PartitionTable
