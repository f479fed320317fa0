import PartitionTable.Cache
import PartitionTable.Proofs.Delivery

/-! A cache cannot be noticed. If what it holds is what a load would give, then asking it is
like loading, for hits and misses alike, and it goes on holding nothing else: moving a sector,
entering one and losing one never change the bytes under a key. -/
namespace PartitionTable

def World.evicted (world : World σ) : Option Int → World σ
  | none => world
  | some key => world.note (.cacheEviction key)

theorem World.Ready.evicted {steady : σ → Prop} (ready : World.Ready world token steady) (leaving : Option Int) :
    (world.evicted leaving).Ready token steady := by
  cases leaving with
  | none => exact ready
  | some key => exact ready.note

namespace Cache

section Run

variable {cache : Cache} {load : Act (World σ) (List UInt8)} {world later : World σ}

theorem run_hit (hit : cache.find? key = some bytes) (load : Act (World σ) (List UInt8)) (world : World σ) :
    (getOrLoad key load).run (cache, world) = (.ok bytes, cache.touch key bytes, world) := by
  simp only [getOrLoad, hit]

theorem run_failed (miss : cache.find? key = none)
    (failed : load.run (world.note (.cacheMiss key)) = (.error fault, later)) :
    (getOrLoad key load).run (cache, world) = (.error fault, cache, later) := by
  simp only [getOrLoad, miss, failed]

/-- A sector that was loaded is entered, whether or not another one had to leave for it. -/
theorem run_loaded (miss : cache.find? key = none)
    (loaded : load.run (world.note (.cacheMiss key)) = (.ok bytes, later)) :
    (getOrLoad key load).run (cache, world) =
      (.ok bytes, cache.evict.insert key bytes, later.evicted cache.oldest?) := by
  simp only [getOrLoad, miss, loaded]
  rcases room : cache.oldest? with _ | old
  · rw [evict_eq_self room]
    rfl
  · rfl

end Run

def Holds (cache : Cache) (fits : Int → List UInt8 → Prop) : Prop :=
  ∀ sector ∈ cache.sectors, fits sector.1 sector.2

namespace Holds

variable {cache : Cache} {fits : Int → List UInt8 → Prop}

theorem empty (capacity : Nat) (fits : Int → List UInt8 → Prop) : (Cache.ofCapacity capacity).Holds fits := by
  intro sector member
  cases member

theorem found (holds : cache.Holds fits) (hit : cache.find? key = some bytes) : fits key bytes := by
  obtain ⟨before, after, split, _⟩ := List.lookup_eq_some_iff.mp hit
  exact holds (key, bytes) (split ▸ List.mem_append_right _ List.mem_cons_self)

theorem insert (holds : cache.Holds fits) (given : fits key bytes) : (cache.insert key bytes).Holds fits := by
  intro sector member
  rcases List.mem_cons.mp member with rfl | member
  · exact given
  · exact holds sector member

theorem touch (holds : cache.Holds fits) (given : fits key bytes) : (cache.touch key bytes).Holds fits := by
  intro sector member
  rcases List.mem_cons.mp member with rfl | member
  · exact given
  · exact holds sector (List.mem_filter.mp member).1

theorem evict (holds : cache.Holds fits) : cache.evict.Holds fits :=
  fun sector member => holds sector (List.mem_of_mem_take member)

end Holds

/-- Every sector is held as its source gives it. -/
def Agrees (cache : Cache) (source : Int → Except Fault (List UInt8)) : Prop :=
  ∀ sector ∈ cache.sectors, source sector.1 = .ok sector.2

namespace Agrees

variable {cache : Cache} {source : Int → Except Fault (List UInt8)}

theorem holds (agrees : cache.Agrees source) : cache.Holds fun key bytes => source key = .ok bytes := agrees

theorem empty (capacity : Nat) (source : Int → Except Fault (List UInt8)) :
    (Cache.ofCapacity capacity).Agrees source :=
  Holds.empty capacity fun key bytes => source key = .ok bytes

end Agrees

/-- Asking a cache that agrees with a source gives what the source gives. -/
theorem getOrLoad_yields {load : Act (World σ) (List UInt8)} (source : Int → Except Fault (List UInt8))
    (loads : load.Yields (World.Ready · token steady) (source key)) :
    (getOrLoad key load).Yields (fun state => state.1.Agrees source ∧ state.2.Ready token steady)
      (source key) := by
  rintro ⟨cache, world⟩ ⟨agrees, ready⟩
  rcases hit : cache.find? key with _ | bytes
  · have noted : (world.note (.cacheMiss key)).Ready token steady := ready.note
    obtain ⟨same, after⟩ := loads _ noted
    rcases run : load.run (world.note (.cacheMiss key)) with ⟨fault | bytes, later⟩
    all_goals rw [run] at same after
    · rw [run_failed hit run]
      exact ⟨same, agrees, after⟩
    · rw [run_loaded hit run]
      exact ⟨same, agrees.holds.evict.insert same.symm, after.evicted cache.oldest?⟩
  · have given := agrees.holds.found hit
    rw [run_hit hit]
    exact ⟨given.symm, agrees.holds.touch given, ready⟩

end Cache
end PartitionTable
