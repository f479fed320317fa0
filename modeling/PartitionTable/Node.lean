import PartitionTable.Host
import PartitionTable.Image

/-! What an opened path leads to. A directory can be opened and measured like a file; only
reading it is refused. -/
namespace PartitionTable

inductive Node where
  | file (contents : Image)
  | directory

namespace Node

def directorySize : Nat := 4096

def size : Node → Nat
  | file contents => contents.size
  | directory => directorySize

/-- The end of a read has to be a position too, whatever is read. -/
def read (node : Node) (position wanted : Nat) : Except HostError (List UInt8) :=
  if Offset.maximum < position + wanted then .error .invalidArgument
  else
    match node with
    | file contents => .ok (contents.slice position wanted)
    | directory => .error .isDirectory

theorem read_ne_interrupted (node : Node) (position wanted : Nat) :
    node.read position wanted ≠ .error .interrupted := by
  unfold read
  split
  · simp
  · split <;> simp

end Node
end PartitionTable
