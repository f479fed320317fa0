import Mathlib.Algebra.Group.Nat.Defs
import Mathlib.Data.List.Chain
import PartitionTable.Proofs.Chain.Trail

/-! A trail only ever goes forward. A link is counted from the table that holds it and has no
sign, so the offsets of a chain grow, from 0 on and in whole units of the smallest sector:
no record can be met twice, whatever the store answers. All links of a chain are followed
with one sector size. -/
namespace PartitionTable

namespace SectorSize

/-- What is tried for the record behind the first one, in this order. -/
def ladder (size : SectorSize) : List SectorSize := size :: size.larger

theorem bytes_le (size : SectorSize) : size.bytes.toNat ≤ largest.bytes.toNat := by cases size <;> decide

theorem smallest_dvd (size : SectorSize) : smallest.bytes.toNat ∣ size.bytes.toNat := by
  cases size <;> decide

/-- A rung of the ladder doubles the size below it as often as it stands above it. -/
theorem bytes_getElem_ladder (size : SectorSize) :
    ∀ rung, (inside : rung < size.ladder.length) →
      size.ladder[rung].bytes.toNat = size.bytes.toNat * 2 ^ rung := by
  cases size <;> decide

end SectorSize

/-- The distance of a sector is far below the largest position, so only the sum can fail. -/
theorem Offset.fits_distance (sector : UInt32) (size : SectorSize) :
    Fits (sector.toNat * size.bytes.toNat) := by
  have far : sector.toNat * size.bytes.toNat ≤ 4294967296 * 4096 :=
    Nat.mul_le_mul sector.toNat_lt.le size.bytes_le
  have product : (sector.toNat * size.bytes.toNat : Int) = (sector.toNat * size.bytes.toNat : Nat) :=
    (Int.natCast_mul ..).symm
  rw [product, Fits]
  simp only [maximum]
  omega

namespace Table

/-- The one link of a table, with sectors of a size, ends at the other table. -/
def LeadsTo (size : SectorSize) (table next : Table) : Prop :=
  ∃ entry, table.extended = [entry] ∧
    next.offset = table.offset + entry.firstSector.toNat * size.bytes.toNat

end Table

namespace Rungs

theorem member (rungs : Rungs table sector sizes link trace) : link.sectorSize ∈ sizes := by
  induction rungs with
  | found => exact List.mem_cons_self
  | retried _ _ _ _ _ ih => exact List.mem_cons_of_mem _ ih

theorem position (rungs : Rungs table sector sizes link trace) :
    Offset.ofSector table sector link.sectorSize.bytes = .ok link.offset := by
  induction rungs with
  | found position => exact position
  | retried _ _ _ _ _ ih => exact ih

theorem offset_eq (rungs : Rungs table sector sizes link trace) :
    link.offset = table + sector.toNat * link.sectorSize.bytes.toNat :=
  (Offset.ofSector_eq_ok.mp rungs.position).2.2

theorem inRange (rungs : Rungs table sector sizes link trace) : link.offset ≤ Offset.maximum :=
  (Offset.ofSector_eq_ok.mp rungs.position).2.1.2

/-- Of the reads for a link only the last gives a record. -/
theorem found_trace (rungs : Rungs table sector sizes link trace) :
    trace.filterMap Exchange.found? = [(link.offset, link.record)] := by
  induction rungs with
  | found _ reads outcome => simp [Exchange.found?_ok reads outcome]
  | retried _ _ outcome _ _ ih => simp [Exchange.found?_error outcome, ih]

/-- A link that does not end where it starts ends at least one sector further on. -/
theorem ascends (rungs : Rungs table sector sizes link trace) (apart : link.offset ≠ table)
    (aligned : (512 : Int) ∣ table) : table + 512 ≤ link.offset ∧ (512 : Int) ∣ link.offset := by
  have whole : (512 : Int) ∣ sector.toNat * link.sectorSize.bytes.toNat :=
    Int.dvd_mul_of_dvd_right (Int.natCast_dvd_natCast.mpr link.sectorSize.smallest_dvd)
  have nonnegative : (0 : Int) ≤ sector.toNat * link.sectorSize.bytes.toNat :=
    Int.mul_nonneg (Int.natCast_nonneg _) (Int.natCast_nonneg _)
  rw [rungs.offset_eq] at apart ⊢
  exact ⟨by omega, by omega⟩

end Rungs

namespace Trail

theorem sectorSize_eq (trail : Trail table [] linked trace) :
    ∀ next ∈ linked, next.sectorSize = table.sectorSize := by
  generalize none : ([] : List SectorSize) = larger at trail
  induction trail with
  | last => simp
  | link _ rungs _ _ _ ih =>
    subst none
    have same := List.mem_singleton.mp rungs.member
    intro next member
    rcases List.mem_cons.mp member with rfl | member
    · exact same
    · exact (ih rfl next member).trans same

/-- The reads that gave a record are the tables, in their order. -/
theorem found_trace (trail : Trail table larger linked trace) :
    trace.filterMap Exchange.found? = linked.map fun next => (next.offset, next.record) := by
  induction trail with
  | last => rfl
  | link _ rungs _ _ _ ih => rw [List.filterMap_append, rungs.found_trace, ih]; rfl

theorem ascends (trail : Trail table larger linked trace) (aligned : (512 : Int) ∣ table.offset) :
    (table :: linked).IsChain (fun here there => here.offset + 512 ≤ there.offset) ∧
      ∀ next ∈ linked, (512 : Int) ∣ next.offset := by
  induction trail with
  | last => exact ⟨.singleton _, by simp⟩
  | link _ rungs _ self _ ih =>
    obtain ⟨further, whole⟩ := rungs.ascends self aligned
    obtain ⟨rest, others⟩ := ih whole
    refine ⟨.cons_cons further rest, fun next member => ?_⟩
    rcases List.mem_cons.mp member with rfl | member
    · exact whole
    · exact others next member

theorem leads (trail : Trail table larger linked trace)
    (same : ∀ next ∈ linked, next.sectorSize = size) : (table :: linked).IsChain (Table.LeadsTo size) := by
  induction trail with
  | last => exact .singleton _
  | link single rungs _ _ _ ih =>
    refine .cons_cons ⟨_, single, ?_⟩ (ih fun next member => same next (List.mem_cons_of_mem _ member))
    rw [← same _ List.mem_cons_self]
    exact rungs.offset_eq

/-- Every table takes a sector of its own, so a chain cannot outgrow the positions. -/
theorem room (trail : Trail table larger linked trace) (aligned : (512 : Int) ∣ table.offset)
    (inRange : table.offset ≤ Offset.maximum) : table.offset + 512 * linked.length ≤ Offset.maximum := by
  induction trail with
  | last => simpa using inRange
  | link _ rungs _ self _ ih =>
    obtain ⟨further, whole⟩ := rungs.ascends self aligned
    have rest := ih whole rungs.inRange
    rw [List.length_cons]
    omega

/-- A table with a link lists three partitions at most, and only the last has none. -/
theorem length_partitions_le (trail : Trail table larger linked trace) :
    ((table :: linked).flatMap Table.partitions).length ≤ 3 * linked.length + 4 := by
  induction trail with
  | last =>
    have four := Table.length_partitions_add_extended_le ‹Table›
    simp only [List.flatMap_cons, List.flatMap_nil, List.append_nil, BootRecord.entryCount] at four ⊢
    omega
  | @link _ _ _ _ _ _ table single _ _ _ _ ih =>
    have four := table.length_partitions_add_extended_le
    rw [single, List.length_singleton, BootRecord.entryCount] at four
    rw [List.flatMap_cons, List.length_append, List.length_cons]
    omega

end Trail

namespace Chain.Trailed

/-- One size serves for all links of a chain, and it is the one that the chain reports. -/
theorem sectorSize_linked (trailed : Chain.Trailed chain start limit trace) :
    ∀ next ∈ chain.linked, next.sectorSize = chain.sectorSize := by
  obtain ⟨_, _, _, _, _, trail⟩ := trailed.trail
  rcases chain with ⟨first, linked, partitions⟩
  intro next member
  cases trail with
  | last => simp at member
  | @link _ _ second _ rest _ _ _ _ _ _ onward =>
    have same : ∀ next ∈ second :: rest, next.sectorSize = second.sectorSize := by
      simpa using onward.sectorSize_eq
    have last := List.getLast_mem (List.cons_ne_nil second rest)
    rw [same next member, Chain.sectorSize, List.getLast?_eq_some_getLast (List.cons_ne_nil second rest)]
    exact (same _ last).symm

theorem sectorSize_mem (trailed : Chain.Trailed chain start limit trace) :
    chain.sectorSize ∈ start.ladder := by
  obtain ⟨_, _, _, _, _, trail⟩ := trailed.trail
  have same := trailed.sectorSize_linked
  have first := trailed.sectorSize
  rcases chain with ⟨first, linked, partitions⟩
  cases trail with
  | last => exact first ▸ List.mem_cons_self
  | link _ rungs _ _ _ =>
    rw [← same _ List.mem_cons_self, SectorSize.ladder, ← first]
    exact first ▸ rungs.member

theorem ascending (trailed : Chain.Trailed chain start limit trace) :
    (chain.tables.map (·.offset)).Pairwise (· < ·) ∧ ∀ table ∈ chain.tables, (512 : Int) ∣ table.offset := by
  obtain ⟨_, _, _, _, _, trail⟩ := trailed.trail
  have first : (512 : Int) ∣ chain.first.offset := trailed.origin ▸ Int.dvd_zero _
  obtain ⟨further, others⟩ := trail.ascends first
  constructor
  · rw [← List.isChain_iff_pairwise, List.isChain_map]
    exact further.imp fun _ _ gap => by omega
  · intro table member
    rcases List.mem_cons.mp member with rfl | member
    · exact first
    · exact others table member

end Chain.Trailed
end PartitionTable
