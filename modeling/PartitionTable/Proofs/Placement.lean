import PartitionTable.Proofs.Opening.Depth
import PartitionTable.Proofs.Reader.Safety

/-! Where a reader stands. It is told by exact numbers, and a reader is made exactly if its range and
all on the way to it has positions; the words of 64 bits in which this is computed come to the same.
A partition of a volume has such a range unless its table stands at the very end of the positions,
for all the rest is a few sectors of 32 bits. -/
namespace PartitionTable

open Offset

namespace Offset

theorem checked_eq_error : checked n = .error fault ↔ ¬ Fits n ∧ fault = .outOfBounds := by
  by_cases fits : Fits n
  · simp [checked_ok fits, fits]
  · simp [checked_error fits, fits, eq_comm]

theorem bind_eq_error {first : Except Fault α} {next : α → Except Fault β} :
    first >>= next = .error fault ↔ first = .error fault ∨ ∃ a, first = .ok a ∧ next a = .error fault := by
  cases first <;> simp [bind, Except.bind]

end Offset

namespace Extent

def firstByte (extent : Extent) (bytesPerSector : UInt32) : Int :=
  extent.table + extent.firstSector.toNat * bytesPerSector.toNat

/-- An extent has positions for its first sector, counted from the table and from the disk, for its
length and for its end. -/
def InBounds (extent : Extent) (bytesPerSector : UInt32) : Prop :=
  Fits (extent.firstSector.toNat * bytesPerSector.toNat) ∧ Fits (extent.firstByte bytesPerSector) ∧
    Fits (extent.size bytesPerSector) ∧ Fits (extent.firstByte bytesPerSector + extent.size bytesPerSector)

instance (extent : Extent) (bytesPerSector : UInt32) : Decidable (extent.InBounds bytesPerSector) :=
  inferInstanceAs (Decidable (_ ∧ _))

/-- The first byte and the length of an extent, computed in words. Only the product of unsigned words
goes unchecked. -/
def locate? (table : Int64) (firstSector sectorCount bytesPerSector : UInt32) : Option (Int64 × Int64) := do
  let distance ← product? firstSector.toUInt64.toInt64 bytesPerSector.toUInt64.toInt64
  let start ← sum? table distance
  let size ← resigned? (sectorCount.toUInt64 * bytesPerSector.toUInt64)
  let _ ← sum? start size
  return (start, size)

theorem locate?_eq_some {kind : Kind} {table start size : Int64} {firstSector sectorCount bytesPerSector : UInt32} :
    locate? table firstSector sectorCount bytesPerSector = some (start, size) ↔
      let extent : Extent := ⟨kind, table.toInt, firstSector, sectorCount⟩
      extent.InBounds bytesPerSector ∧ start.toInt = extent.firstByte bytesPerSector ∧
        size.toInt = extent.size bytesPerSector := by
  simp only [locate?, Option.bind_eq_bind, Option.bind_eq_some_iff, product?_eq_some, sum?_eq_some, resigned?_eq_some,
    toInt_widened, toNat_widened_mul, Option.pure_def, Option.some.injEq, Prod.mk.injEq]
  constructor
  · rintro ⟨distance, ⟨near, far⟩, start, ⟨place, first⟩, size, ⟨long, length⟩, finish, ⟨last, _⟩, rfl, rfl⟩
    rw [far] at place first
    rw [first, length] at last
    exact ⟨⟨near, place, long, last⟩, first, length⟩
  · rintro ⟨⟨near, place, long, last⟩, first, length⟩
    obtain ⟨distance, far⟩ := exists_word near
    refine ⟨distance, ⟨near, far⟩, start, ⟨far ▸ place, far ▸ first⟩, size, ⟨long, length⟩, ?_⟩
    rw [← first, ← length] at last
    obtain ⟨finish, same⟩ := exists_word last
    exact ⟨finish, ⟨last, same⟩, rfl, rfl⟩

/-- A number of sectors takes less than 2 ^ 44 bytes, so only a table far behind leaves them no room. -/
theorem inBounds_of_low {extent : Extent} (size : SectorSize) (origin : 0 ≤ extent.table)
    (low : extent.table < 2 ^ 63 - 2 ^ 45) : extent.InBounds size.bytes := by
  have few (sectors : UInt32) : sectors.toNat * size.bytes.toNat ≤ 2 ^ 32 * 4096 :=
    Nat.mul_le_mul sectors.toNat_lt.le size.bytes_le
  have first := few extent.firstSector
  have count := few extent.sectorCount
  simp only [InBounds, firstByte, Extent.size, sectorBytes, ← Int.natCast_mul, Fits, maximum]
  omega

end Extent

namespace Reader

def placed (extent : Extent) (store : Store σ) (token : Token) (bytesPerSector : UInt32) (capacity : Nat) :
    Reader σ where
  store
  token
  extent
  bytesPerSector
  start := extent.firstByte bytesPerSector
  size := extent.size bytesPerSector
  cache := .ofCapacity capacity

theorem ofExtent_eq (extent : Extent) (store : Store σ) (token : Token) (bytesPerSector : UInt32) (capacity : Nat) :
    ofExtent extent store token bytesPerSector capacity =
      if bytesPerSector = 0 then .error .invalidArgument
      else if extent.InBounds bytesPerSector then .ok (placed extent store token bytesPerSector capacity)
      else .error .outOfBounds := by
  by_cases zero : bytesPerSector = 0
  · rw [if_pos zero]
    exact if_pos zero
  rw [if_neg zero]
  by_cases inside : extent.InBounds bytesPerSector
  · obtain ⟨near, start, size, finish⟩ := inside
    rw [if_pos ⟨near, start, size, finish⟩]
    exact ofExtent_eq_ok.mpr ⟨zero, near, start, size, finish, rfl⟩
  rw [if_neg inside]
  rcases made : ofExtent extent store token bytesPerSector capacity with fault | reader
  · simp only [ofExtent, if_neg zero, Extent.start, ofSector, bind_eq_error, checked_eq_error] at made
    rcases made with (⟨_, rfl⟩ | ⟨_, _, _, rfl⟩) | ⟨_, _, ⟨_, rfl⟩ | ⟨_, _, ⟨_, rfl⟩ | ⟨_, _, ⟨⟩⟩⟩⟩
    all_goals rfl
  · obtain ⟨_, near, start, size, finish, _⟩ := ofExtent_eq_ok.mp made
    exact absurd ⟨near, start, size, finish⟩ inside

theorem ofExtent_eq_ok_iff_inBounds {extent : Extent} {store : Store σ} {token : Token} {bytesPerSector : UInt32}
    {capacity : Nat} : ofExtent extent store token bytesPerSector capacity = .ok reader ↔
      (bytesPerSector ≠ 0 ∧ extent.InBounds bytesPerSector) ∧
        reader = placed extent store token bytesPerSector capacity := by
  rw [ofExtent_eq]
  split
  · simp [*]
  split
  · simp [*, eq_comm]
  · simp [*]

end Reader

namespace Volume

variable {store : Store σ} {volume : Volume σ} {world : World σ} {later : Volume σ × World σ}

/-- From a world in which its store can be read, a volume walks a chain, and that is what it mounts. -/
structure Mounts (store : Store σ) (volume : Volume σ) (start : World σ) (chain : Chain) (opened : Volume σ) :
    Prop where
  walked : ∃ last, ((volume.walk store).resolve volume.sectorSize).run (start.absorb (store.size start.stores)) =
    (.ok chain, last)
  mounted : ∃ mount, opened.mount = some mount ∧ mount.store = store ∧ mount.partitions = chain.partitions
  sectorSize : opened.sectorSize = chain.sectorSize

theorem attach_mounts {ownership : Ownership} {openedHere : Bool}
    (attached : (attach store ownership openedHere).run (volume, world) = (.ok (), later)) :
    ∃ chain, Mounts store volume world chain later.1 := by
  rcases sized : (store.size world.stores).result with fault | bytes
  · rw [attach_unsized sized] at attached
    cases attached
  rw [attach_sized sized] at attached
  rcases walked : ((volume.walk store).resolve volume.sectorSize).run (world.absorb (store.size world.stores)) with
    ⟨fault | chain, last⟩
  all_goals
    rw [walked] at attached
    cases attached
  exact ⟨chain, ⟨last, walked⟩, ⟨_, rfl, rfl, rfl⟩, rfl⟩

theorem acquireAndAttach_mounts {ownership : Ownership}
    (attached : (acquireAndAttach store ownership).run (volume, world) = (.ok (), later)) :
    (store.acquire world.stores).result = .ok () ∧
      ∃ chain, Mounts store volume (world.absorb (store.acquire world.stores)) chain later.1 := by
  obtain ⟨_, _, acquired, attached⟩ := Act.run_bind_eq_ok.mp attached
  obtain ⟨_, asked, rfl⟩ := run_beside_eq_ok acquired
  obtain ⟨ok, rfl⟩ := Prod.mk.inj asked
  exact ⟨ok, attach_mounts (attachOrRelease_ok attached)⟩

theorem opening_mounts {opening : Act (Volume σ × World σ) Unit}
    (either : opening = openStore store ∨ opening = openOwned store)
    (opened : opening.run (volume, world) = (.ok (), later)) :
    ∃ start chain, Starts store world start ∧ Mounts store volume start chain later.1 := by
  cases isOpen : volume.isOpen with
  | true =>
    rw [opening_refused either isOpen] at opened
    cases opened
  | false =>
    rcases opening_ways either world with ⟨ready, run⟩ | ⟨ownership, run⟩
    · rw [run volume isOpen] at opened
      obtain ⟨chain, mounts⟩ := attach_mounts (attachOrRelease_ok opened)
      exact ⟨world, chain, .inl ⟨ready, rfl⟩, mounts⟩
    · rw [run volume isOpen] at opened
      obtain ⟨acquired, chain, mounts⟩ := acquireAndAttach_mounts opened
      exact ⟨_, chain, .inr ⟨acquired, rfl⟩, mounts⟩

theorem Mounts.partitions {start : World σ} {chain : Chain} {opened : Volume σ}
    (mounts : Mounts store volume start chain opened) : opened.partitions = chain.partitions := by
  obtain ⟨mount, mounted, _, same⟩ := mounts.mounted
  rw [Volume.partitions, mounted]
  exact same

/-- Under a chain that does not reach the end of the positions, every partition has its reader. -/
theorem Mounts.reader {start : World σ} {chain : Chain} {opened : Volume σ}
    (mounts : Mounts store volume start chain opened)
    (low : ∀ table ∈ chain.tables, table.offset < 2 ^ 63 - 2 ^ 45) (index : Nat) :
    opened.reader index = match chain.partitions[index]? with
      | none => .error .invalidArgument
      | some extent =>
        .ok (.placed extent store opened.token chain.sectorSize.bytes opened.options.cacheCapacity) := by
  obtain ⟨⟨last, walked⟩, ⟨mount, mounted, rfl, partitions⟩, size⟩ := mounts
  obtain ⟨_, _, _, trailed⟩ := (volume.walk mount.store).resolve_traced volume.sectorSize
    (start.absorb (mount.store.size start.stores))
  have trailed := trailed chain (congrArg Prod.fst walked)
  simp only [Volume.reader, mounted, partitions]
  rcases found : chain.partitions[index]? with _ | extent
  · rfl
  · obtain ⟨table, visited, place, _⟩ := trailed.mem_partitions (List.mem_of_getElem? found)
    have placed : extent.InBounds chain.sectorSize.bytes :=
      Extent.inBounds_of_low _ (place ▸ trailed.nonnegative table visited) (place ▸ low table visited)
    have nonzero : chain.sectorSize.bytes ≠ 0 := by cases chain.sectorSize <;> decide
    simp only [size, Reader.ofExtent_eq, if_neg nonzero, if_pos placed]

/-- A reader over an extent is made exactly if its range has positions, with that range; in words this
comes to the same. -/
theorem readers_placed :
    (∀ (kind : Kind) (table : Int64) (firstSector sectorCount bytesPerSector : UInt32) (store : Store σ)
        (token : Token) (capacity : Nat),
      let extent : Extent := ⟨kind, table.toInt, firstSector, sectorCount⟩
      let made := Reader.ofExtent extent store token bytesPerSector capacity
      ((∃ reader, made = .ok reader) ↔ bytesPerSector ≠ 0 ∧ extent.InBounds bytesPerSector) ∧
      (∀ reader, made = .ok reader →
        reader.start = extent.firstByte bytesPerSector ∧ reader.size = extent.size bytesPerSector) ∧
      (bytesPerSector = 0 → made = .error .invalidArgument) ∧
      (bytesPerSector ≠ 0 → ¬ extent.InBounds bytesPerSector → made = .error .outOfBounds) ∧
      ∀ start size : Int64, Extent.locate? table firstSector sectorCount bytesPerSector = some (start, size) ↔
        extent.InBounds bytesPerSector ∧ start.toInt = extent.firstByte bytesPerSector ∧
          size.toInt = extent.size bytesPerSector) ∧
    ∀ (store : Store σ), ∀ opening ∈ [openStore store, openOwned store],
      ∀ (volume : Volume σ) (world : World σ) (later : Volume σ × World σ),
      opening.run (volume, world) = (.ok (), later) →
      ∃ start chain, Starts store world start ∧ Mounts store volume start chain later.1 ∧
        ((∀ table ∈ chain.tables, table.offset < 2 ^ 63 - 2 ^ 45) →
          ∀ operations : List (Operation σ), (∀ operation ∈ operations, operation ≠ .close) →
            let held := (after operations later).1
            held.partitions = chain.partitions ∧
            (∀ index, held.partitions.length ≤ index → held.reader index = .error .invalidArgument) ∧
            ∀ index, (inside : index < held.partitions.length) → ∃ reader, held.reader index = .ok reader ∧
              reader.start = held.partitions[index].firstByte chain.sectorSize.bytes ∧
              reader.size = held.partitions[index].size chain.sectorSize.bytes) := by
  constructor
  · intro kind table firstSector sectorCount bytesPerSector store token capacity extent made
    have outcome : made = _ := Reader.ofExtent_eq extent store token bytesPerSector capacity
    refine ⟨⟨?_, ?_⟩, ?_, ?_, ?_, fun start size => Extent.locate?_eq_some⟩
    · rintro ⟨reader, ok⟩
      exact (Reader.ofExtent_eq_ok_iff_inBounds.mp ok).1
    · exact fun inside => ⟨_, Reader.ofExtent_eq_ok_iff_inBounds.mpr ⟨inside, rfl⟩⟩
    · intro reader ok
      obtain ⟨_, rfl⟩ := Reader.ofExtent_eq_ok_iff_inBounds.mp ok
      exact ⟨rfl, rfl⟩
    · intro zero
      rw [outcome, if_pos zero]
    · intro nonzero outside
      rw [outcome, if_neg nonzero, if_neg outside]
  intro store opening either volume world later opened
  obtain ⟨start, chain, starts, mounts⟩ := opening_mounts (List.mem_pair.mp either) opened
  refine ⟨start, chain, starts, mounts, fun low operations others => ?_⟩
  have same := after_unchanged operations later (opening_ok either opened) others
  rw [same]
  have listed := mounts.partitions
  refine ⟨listed, ?_, ?_⟩
  · intro index behind
    rw [mounts.reader low, ← listed, List.getElem?_eq_none behind]
  · intro index inside
    have made := mounts.reader low index
    rw [← listed, List.getElem?_eq_getElem inside] at made
    exact ⟨_, made, rfl, rfl⟩

/-- The second partition of this disk is listed at byte 1024, a sector in front of it. It is found there
also after the volume was told to stop and the store was shut. -/
theorem readers_placed_chained :
    let run := (openStore Memory.store).run ({ token := ⟨0⟩ }, .start chained)
    let held := (after [.abort, .outside fun memory => { memory with isOpen := false }] run.2).1
    run.1 = .ok () ∧ held.partitions = [⟨⟨0x83⟩, 0, 1, 1⟩, ⟨⟨0x0c⟩, 1024, 1, 1⟩] ∧
      (∃ reader, held.reader 1 = .ok reader ∧ reader.start = 1536 ∧ reader.size = 512) ∧
      held.reader 2 = .error .invalidArgument := by
  intro run held
  have opened : run.1 = .ok () := by decide +kernel
  have whole : run = (.ok (), run.2) := by rw [← opened]
  have size : run.2.1.sectorSize = .smallest := by decide +kernel
  have listed : held.partitions = [⟨⟨0x83⟩, 0, 1, 1⟩, ⟨⟨0x0c⟩, 1024, 1, 1⟩] := by decide +kernel
  obtain ⟨start, chain, starts, mounts, located⟩ := readers_placed.2 Memory.store (openStore Memory.store) (by simp)
    { token := ⟨0⟩ } (.start chained) run.2 whole
  obtain ⟨last, walked⟩ := mounts.walked
  have low : ∀ table ∈ chain.tables, table.offset < 2 ^ 63 - 2 ^ 45 := by
    rcases starts with ⟨⟨⟩, _⟩ | ⟨_, rfl⟩
    have tables : some [0, 1024] = some (chain.tables.map (·.offset)) := by
      apply Eq.trans _ (congrArg (fun outcome => outcome.1.toOption.map (·.tables.map (·.offset))) walked)
      decide +kernel
    intro table member
    have offset := List.mem_map_of_mem (f := (·.offset)) member
    rw [← Option.some.inj tables] at offset
    rcases List.mem_pair.mp offset with same | same
    all_goals
      rw [same]
      decide
  obtain ⟨_, behind, made⟩ := located low [.abort, .outside fun memory => { memory with isOpen := false }] (by simp)
  obtain ⟨reader, made, start, length⟩ := made 1 (by rw [listed]; decide)
  have second (inside : 1 < held.partitions.length) : held.partitions[1] = ⟨⟨0x0c⟩, 1024, 1, 1⟩ := by simp [listed]
  rw [mounts.sectorSize] at size
  rw [size] at start length
  refine ⟨opened, listed, ⟨reader, made, ?_, ?_⟩, behind 2 (by rw [listed]; decide)⟩
  · exact start.trans (congrArg (Extent.firstByte · 512) (second _))
  · exact length.trans (congrArg (Extent.size · 512) (second _))

end Volume
end PartitionTable
