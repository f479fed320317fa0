/-! The sector sizes that a disk may use. `larger` is the ladder climbed while the size is
being found out: each step doubles the one before, and the last is the largest size. -/
namespace PartitionTable

inductive SectorSize where
  | of512
  | of1024
  | of2048
  | of4096
  deriving DecidableEq, Repr

namespace SectorSize

def bytes : SectorSize → UInt32
  | of512 => 512
  | of1024 => 1024
  | of2048 => 2048
  | of4096 => 4096

def all : List SectorSize := [of512, of1024, of2048, of4096]

def smallest : SectorSize := of512

def largest : SectorSize := of4096

def ofBytes? (count : UInt32) : Option SectorSize := all.find? fun size => size.bytes == count

def larger : SectorSize → List SectorSize
  | of512 => [of1024, of2048, of4096]
  | of1024 => [of2048, of4096]
  | of2048 => [of4096]
  | of4096 => []

@[simp] theorem ofBytes?_bytes (size : SectorSize) : ofBytes? size.bytes = some size := by
  cases size <;> decide

theorem bytes_of_ofBytes? (found : ofBytes? count = some size) : size.bytes = count := by
  simpa using List.find?_some found

theorem bytes_larger (size next : SectorSize) (rest : List SectorSize)
    (ladder : size.larger = next :: rest) : next.bytes = 2 * size.bytes ∧ next.larger = rest := by
  cases size <;> simp_all [larger] <;> obtain ⟨rfl, rfl⟩ := ladder <;> decide

end SectorSize
end PartitionTable
