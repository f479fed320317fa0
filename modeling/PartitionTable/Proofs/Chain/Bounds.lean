import PartitionTable.Proofs.Chain.Loop

/-! What a walk may cost and what it may return, for any store. The store is free to answer
the same read differently each time and to report counts that are not true. Nothing bounds
the walk but the depth: the order of the offsets comes from the links alone. -/
namespace PartitionTable

namespace Exchange

/-- The exchange read a sector with its trailer in place, and the extent is one of its entries. -/
def Lists (exchange : Exchange) (extent : Extent) : Prop :=
  ∃ reading entry, exchange.call = .read BootRecord.size extent.table.toNat ∧
    exchange.answer = .ok (.reading reading) ∧ reading.count = BootRecord.size ∧
    BootRecord.hasSignature (reading.buffer BootRecord.size) = true ∧
    entry ∈ (BootRecord.ofSector (reading.buffer BootRecord.size)).entries.toList ∧
    extent = Extent.ofEntry entry extent.table

/-- A record comes from a full read of a sector with its trailer in place. -/
theorem record_eq_ok {exchange : Exchange} (outcome : exchange.record = .ok given) :
    ∃ reading, exchange.answer = .ok (.reading reading) ∧ reading.count = BootRecord.size ∧
      BootRecord.hasSignature (reading.buffer BootRecord.size) = true ∧
      given = BootRecord.ofSector (reading.buffer BootRecord.size) := by
  unfold record at outcome
  split at outcome
  case h_1 reading answered =>
    by_cases full : reading.count = BootRecord.size
    · rw [if_pos full, BootRecord.decode, if_neg (by simp)] at outcome
      by_cases signed : BootRecord.hasSignature (reading.buffer BootRecord.size) = true
      · rw [if_pos signed] at outcome
        cases outcome
        exact ⟨reading, answered, full, signed, rfl⟩
      · rw [if_neg signed] at outcome
        cases outcome
    · rw [if_neg full] at outcome
      cases outcome
  all_goals cases outcome

theorem found?_eq_some {exchange : Exchange} (reads : ∃ place, exchange.ReadsRecord place)
    (found : exchange.found? = some (offset, given)) :
    exchange.ReadsRecord offset ∧ exchange.record = .ok given := by
  obtain ⟨place, reads⟩ := reads
  rcases outcome : exchange.record with fault | other
  · rw [found?_error outcome] at found
    cases found
  · rw [found?_ok reads outcome] at found
    cases found
    exact ⟨reads, rfl⟩

end Exchange

/-- A chain as the walk that returned it may rely on it, whatever the store answered. -/
structure Chain.Walked (chain : Chain) (start : SectorSize) (limit : Nat) (trace : List Exchange) : Prop where
  read : trace.filterMap Exchange.found? = chain.tables.map fun table => (table.offset, table.record)
  origin : chain.first.offset = 0
  ascending : (chain.tables.map (·.offset)).Pairwise (· < ·)
  aligned : ∀ table ∈ chain.tables, (512 : Int) ∣ table.offset
  depth : chain.tables.length ≤ limit + 1
  extents : chain.partitions.length ≤ 3 * limit + 4
  listed : ∀ extent ∈ chain.partitions,
    (∃ table ∈ chain.tables, table.offset = extent.table) ∧ ∃ exchange ∈ trace, exchange.Lists extent
  leads : chain.tables.IsChain (Table.LeadsTo chain.sectorSize)
  doubled : ∃ times, chain.sectorSize.bytes.toNat = start.bytes.toNat * 2 ^ times
  largest : chain.sectorSize.bytes.toNat ≤ 4096

namespace Chain.Trailed

theorem found_trace (trailed : Chain.Trailed chain start limit trace) :
    trace.filterMap Exchange.found? = chain.tables.map fun table => (table.offset, table.record) := by
  obtain ⟨exchange, rest, rfl, reads, outcome, trail⟩ := trailed.trail
  rw [List.filterMap_cons_some (Exchange.found?_ok reads outcome), trail.found_trace, Chain.tables, List.map_cons,
    trailed.origin]

theorem listed (trailed : Chain.Trailed chain start limit trace) (sparing : Sparing budget trace) :
    ∀ extent ∈ chain.partitions,
      (∃ table ∈ chain.tables, table.offset = extent.table) ∧ ∃ exchange ∈ trace, exchange.Lists extent := by
  intro extent member
  rw [trailed.partitions] at member
  obtain ⟨table, visited, own⟩ := List.mem_flatMap.mp member
  obtain ⟨entry, present, _, _, rfl⟩ := Table.mem_partitions own
  refine ⟨⟨table, visited, rfl⟩, ?_⟩
  have given := List.mem_map_of_mem (f := fun table => (table.offset, table.record)) visited
  rw [← trailed.found_trace] at given
  obtain ⟨exchange, put, found⟩ := List.mem_filterMap.mp given
  obtain ⟨reads, outcome⟩ := Exchange.found?_eq_some (sparing.reads exchange put) found
  obtain ⟨reading, answered, full, signed, same⟩ := Exchange.record_eq_ok outcome
  exact ⟨exchange, put, reading, entry, reads.call, answered, full, signed, same ▸ present, rfl⟩

theorem doubled (trailed : Chain.Trailed chain start limit trace) :
    ∃ times, chain.sectorSize.bytes.toNat = start.bytes.toNat * 2 ^ times := by
  obtain ⟨times, inside, same⟩ := List.getElem_of_mem trailed.sectorSize_mem
  exact ⟨times, by rw [← same, start.bytes_getElem_ladder times inside]⟩

theorem walked (trailed : Chain.Trailed chain start limit trace) (sparing : Sparing budget trace) :
    chain.Walked start limit trace where
  read := trailed.found_trace
  origin := trailed.origin
  ascending := trailed.ascending.1
  aligned := trailed.ascending.2
  depth := Nat.succ_le_succ trailed.length
  extents := by
    obtain ⟨_, _, _, _, _, trail⟩ := trailed.trail
    have many := trail.length_partitions_le
    have short := trailed.length
    rw [trailed.partitions, Chain.tables]
    omega
  listed := trailed.listed sparing
  leads := by
    obtain ⟨_, _, _, _, _, trail⟩ := trailed.trail
    exact trail.leads trailed.sectorSize_linked
  doubled := trailed.doubled
  largest := chain.sectorSize.bytes_le

end Chain.Trailed

/-- A walk ends after few reads, all at positions, and without an overflow. A chain that it
returns goes strictly forward. -/
theorem Walk.resolve_bounded (walk : Walk σ) (start : SectorSize) (world : World σ) :
    ∃ trace, Served walk.store world trace ((walk.resolve start).run world).2 ∧
      trace.length ≤ walk.depthLimit + 5 ∧
      (∀ exchange ∈ trace, ∃ offset, offset ≤ Offset.maximum ∧ exchange.call = .read 512 offset) ∧
      Loop.Runs walk (.start start.bytes) world (((walk.resolve start).run world).1.map .ofChain)
        ((walk.resolve start).run world).2 ∧
      (∀ state later, Loop.Reaches walk (.start start.bytes) world state later → state ≠ .overflow) ∧
      ∀ chain, ((walk.resolve start).run world).1 = .ok chain → chain.Walked start walk.depthLimit trace := by
  obtain ⟨trace, served, sparing, trailed⟩ := walk.resolve_traced start world
  have runs := Loop.resolve_runs walk start world
  refine ⟨trace, served, sparing.length, ?_, runs, ?_, ?_⟩
  · intro exchange member
    obtain ⟨offset, reads⟩ := sparing.reads exchange member
    have high := reads.inRange
    exact ⟨offset.toNat, by omega, reads.call⟩
  · exact fun state later reaches => runs.apart_from_overflow reaches
  · exact fun chain ok => (trailed chain ok).walked sparing

end PartitionTable
