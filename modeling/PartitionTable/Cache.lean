import PartitionTable.World

/-! The sectors that a reader keeps. They stand in the order of their last use, most recent
first, under the offset that they were read from. A sector that is asked for moves to the
front; a new one enters at the front, and at a full cache the last one leaves. A load that
fails changes nothing. -/
namespace PartitionTable

structure Cache where
  capacity : Nat
  sectors : List (Int × List UInt8) := []
  deriving DecidableEq, Repr

namespace Cache

/-- A cache holds one sector at least. -/
def ofCapacity (requested : Nat) : Cache := { capacity := max requested 1 }

def size (cache : Cache) : Nat := cache.sectors.length

def keys (cache : Cache) : List Int := cache.sectors.map (·.1)

def find? (cache : Cache) (key : Int) : Option (List UInt8) := cache.sectors.lookup key

def contains (cache : Cache) (key : Int) : Bool := (cache.find? key).isSome

def touch (cache : Cache) (key : Int) (bytes : List UInt8) : Cache :=
  { cache with sectors := (key, bytes) :: cache.sectors.filter (·.1 != key) }

/-- The sector that has to leave before another one enters. -/
def oldest? (cache : Cache) : Option Int :=
  if cache.capacity ≤ cache.size then cache.sectors.getLast?.map (·.1) else none

def evict (cache : Cache) : Cache :=
  { cache with sectors := cache.sectors.take (cache.capacity - 1) }

def insert (cache : Cache) (key : Int) (bytes : List UInt8) : Cache :=
  { cache with sectors := (key, bytes) :: cache.sectors }

/-- The bytes under a key, loaded if they are not at hand. -/
def getOrLoad (key : Int) (load : Act (World σ) (List UInt8)) : Act (Cache × World σ) (List UInt8) :=
  ⟨fun (cache, world) =>
    match cache.find? key with
    | some bytes => (.ok bytes, cache.touch key bytes, world)
    | none =>
      match load.run (world.note (.cacheMiss key)) with
      | (.error fault, world) => (.error fault, cache, world)
      | (.ok bytes, world) =>
        match cache.oldest? with
        | none => (.ok bytes, cache.insert key bytes, world)
        | some oldest => (.ok bytes, cache.evict.insert key bytes, world.note (.cacheEviction oldest))⟩

theorem evict_eq_self {cache : Cache} (room : cache.oldest? = none) : cache.evict = cache := by
  obtain ⟨capacity, sectors⟩ := cache
  by_cases full : capacity ≤ sectors.length
  · have empty : sectors = [] := by simpa [oldest?, size, full] using room
    simp [evict, empty]
  · simp only [evict, mk.injEq, true_and]
    exact List.take_of_length_le (by omega)

end Cache
end PartitionTable
