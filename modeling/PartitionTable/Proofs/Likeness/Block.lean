import PartitionTable.Proofs.Blocks
import PartitionTable.Proofs.Chain.Resolution
import PartitionTable.Proofs.Likeness.Session
import PartitionTable.Store.Disk
import PartitionTable.Store.Memory

/-! A block device that holds an image, beside the image in memory. A read of the device takes the
blocks that cover a range and cuts the range out of them. With exact blocks that is the range of
the image, wherever it begins and ends; so the two stores cannot be told apart. -/
namespace PartitionTable

/-- A device does what it should: while it is healthy it counts the blocks of an image, and returns
exactly the bytes of the blocks that it is asked for. -/
structure Device.Holds (device : Device δ) (image : Image) (healthy : δ → Prop) : Prop where
  positive : 0 < device.blockSize.toNat
  whole : device.blockSize.toNat ∣ image.size
  counts : ∀ d, healthy d → ∃ later, healthy later ∧
    device.blockCount d = (.ok (.ofNat (image.size / device.blockSize.toNat)), later)
  reads : ∀ d first count, healthy d → (first + count) * device.blockSize.toNat ≤ image.size →
    ∃ contents later, healthy later ∧ device.readBlocks first count d = (.ok contents, later) ∧
      contents.size = count * device.blockSize.toNat ∧
      ∀ i < contents.size, contents.byte i = image.byte (first * device.blockSize.toNat + i)

theorem Image.slice_congr {first second : Image} {start place length width : Nat}
    (long : min length (first.size - start) = min width (second.size - place))
    (same : ∀ i < min length (first.size - start), first.byte (start + i) = second.byte (place + i)) :
    first.slice start length = second.slice place width := by
  rw [slice_eq_map, slice_eq_map, ← long]
  apply List.ext_getElem
  · simp
  · intro i inside _
    simpa using same i (by simpa using inside)

namespace Block

variable {device : Device δ} {image : Image} {healthy : δ → Prop} {block : Block δ}

theorem size_holds (holds : device.Holds image healthy) (addressable : image.size ≤ Offset.addressLimit)
    (well : healthy block.device) :
    ∃ later, healthy later ∧ size device block = .ok image.size { block with device := later } := by
  obtain ⟨later, stays, counted⟩ := holds.counts block.device well
  have few : image.size / device.blockSize.toNat < 2 ^ 64 := by
    have := Nat.div_le_self image.size device.blockSize.toNat
    simp only [Offset.addressLimit] at addressable
    omega
  have count : (UInt64.ofNat (image.size / device.blockSize.toNat)).toNat = image.size / device.blockSize.toNat :=
    UInt64.toNat_ofNat_of_lt' few
  refine ⟨later, stays, ?_⟩
  simp only [size, counted, count, Nat.div_mul_cancel holds.whole, addressable, ↓reduceIte]

theorem readCovering_holds (holds : device.Holds image healthy) (well : healthy block.device) (some : 0 < length)
    (inside : offset + length ≤ image.size) : ∃ later, healthy later ∧
      readCovering device offset length block =
        .ok (.ofBytes (image.slice offset length)) { block with device := later } := by
  obtain ⟨blocks, total⟩ := holds.whole
  rw [Nat.mul_comm] at total
  obtain ⟨early, behind, _⟩ := run_fewest holds.positive offset some
  have there := Nat.mul_le_mul_right device.blockSize.toNat (run_within holds.positive some (total ▸ inside))
  rw [← total] at there
  obtain ⟨contents, later, stays, delivered, long, same⟩ := holds.reads block.device _ _ well there
  refine ⟨later, stays, ?_⟩
  rw [Nat.add_mul, ← long] at behind
  have cut : (contents.fit contents.size).slice
      (offset - offset / device.blockSize.toNat * device.blockSize.toNat) length = image.slice offset length := by
    apply Image.slice_congr
    · simp only [Image.fit]
      omega
    · intro i within
      simp only [Image.fit] at within ⊢
      rw [if_pos (by omega), same _ (by omega)]
      congr 1
      omega
  rw [readCovering_cut delivered, ← long, cut]

/-- An open block store answers a read as the image would, wherever the range lies. -/
theorem read_holds (holds : device.Holds image healthy) (addressable : image.size ≤ Offset.addressLimit)
    (well : healthy block.device) (isOpen : block.isOpen = true) (length offset : Nat) :
    ∃ later, healthy later ∧
      read device length offset block = .ok (.ofBytes (image.slice offset length)) { block with device := later } := by
  rw [read, if_neg (by simp [isOpen])]
  by_cases empty : length = 0
  · rw [if_pos empty, empty]
    exact ⟨block.device, well, by simp [Image.slice, Image.gather, Reading.nothing]⟩
  obtain ⟨later, stays, sized⟩ := size_holds holds addressable well
  rw [if_neg empty, sized]
  simp only [Reply.ok]
  by_cases past : image.size ≤ offset
  · rw [if_pos past, image.slice_past past]
    exact ⟨later, stays, rfl⟩
  · rw [if_neg past]
    have shorter : image.slice offset length = image.slice offset (min length (image.size - offset)) := by
      apply Image.slice_congr
      · omega
      · exact fun _ _ => rfl
    have some : 0 < min length (image.size - offset) := by omega
    have inside : offset + min length (image.size - offset) ≤ image.size := by omega
    have well : healthy { block with device := later }.device := stays
    obtain ⟨last, good, covering⟩ := readCovering_holds holds well some inside
    rw [covering, shorter]
    exact ⟨last, good, rfl⟩

/-- A world with the device, and the same world with the image in memory. -/
structure Mirrored (image : Image) (healthy : δ → Prop) (w : World (Block δ)) (u : World Memory) : Prop where
  healthy : healthy w.stores.device
  memory : u.stores = ⟨image, w.stores.isOpen⟩
  signals : w.signals = u.signals
  notices : w.notices = u.notices

theorem Mirrored.ok {w : World (Block δ)} {u : World Memory} (mirrored : Mirrored image healthy w u) {later : Block δ}
    (stays : healthy later.device) (answer : Answer) :
    Mirrored image healthy (w.absorb (.ok answer later)) (u.absorb (.ok answer ⟨image, later.isOpen⟩)) :=
  ⟨stays, rfl, mirrored.signals, mirrored.notices⟩

theorem reply_holds (holds : device.Holds image healthy) (addressable : image.size ≤ Offset.addressLimit)
    (well : healthy block.device) (call : Call) :
    (∃ answer later, healthy later.device ∧ (store device).reply call block = .ok answer later ∧
      Memory.store.reply call ⟨image, block.isOpen⟩ = .ok answer ⟨image, later.isOpen⟩) ∨
    (store device).reply call block = .error .notOpen block ∧
      Memory.store.reply call ⟨image, block.isOpen⟩ = .error .notOpen ⟨image, block.isOpen⟩ := by
  cases call with
  | acquire => exact .inl ⟨.done, { block with isOpen := true }, well, rfl, rfl⟩
  | release => exact .inl ⟨.done, { block with isOpen := false }, well, rfl, rfl⟩
  | size =>
    obtain ⟨later, stays, sized⟩ := size_holds holds addressable well
    refine .inl ⟨.size image.size, { block with device := later }, stays, ?_, rfl⟩
    simp only [Store.reply, store, sized]
    rfl
  | read length offset =>
    cases isOpen : block.isOpen with
    | false =>
      refine .inr ⟨?_, rfl⟩
      simp only [Store.reply, store, read, isOpen]
      rfl
    | true =>
      obtain ⟨later, stays, answered⟩ := read_holds holds addressable well isOpen length offset
      refine .inl ⟨.reading (.ofBytes (image.slice offset length)), { block with device := later }, stays, ?_, ?_⟩
      · simp only [Store.reply, store, answered]
        rfl
      · simp only [isOpen]
        rfl

theorem store_alike (holds : device.Holds image healthy) (addressable : image.size ≤ Offset.addressLimit)
    (token : Token) : (store device).Alike Memory.store token token (Mirrored image healthy) where
  isOpen w u mirrored := by
    rw [mirrored.memory]
    rfl
  raised w u mirrored := by rw [mirrored.signals]
  noted w u notice mirrored :=
    ⟨mirrored.healthy, mirrored.memory, mirrored.signals, congrArg (notice :: ·) mirrored.notices⟩
  answers w u call mirrored := by
    rw [mirrored.memory]
    rcases reply_holds holds addressable mirrored.healthy call with ⟨answer, later, _, one, two⟩ | ⟨one, two⟩
    all_goals
      rw [one, two]
      rfl
  stays w u call mirrored := by
    rw [mirrored.memory]
    rcases reply_holds holds addressable mirrored.healthy call with ⟨answer, later, stays, one, two⟩ | ⟨one, two⟩
    all_goals rw [one, two]
    · exact mirrored.ok stays answer
    · exact ⟨mirrored.healthy, rfl, mirrored.signals, mirrored.notices⟩

/-- A device that holds an image, with blocks of any size, and the image in memory. Whatever is done
with the store, with a volume over it and with the readers of the volume: it has the same outcomes,
with the same bytes. The volume and the readers that are reached differ in nothing but the store, and
everything else in the world is the same, the log as well. -/
theorem session_eq_memory (holds : device.Holds image healthy) (addressable : image.size ≤ Offset.addressLimit)
    (block : Block δ) (well : healthy block.device) (token : Token) (options : Options) (signals : Signals)
    (notices : List Notice) (moves : List Move) :
    let one := Bench.play (store device) moves ⟨{ token, options }, [], ⟨block, signals, notices⟩⟩
    let two := Bench.play Memory.store moves ⟨{ token, options }, [], ⟨⟨image, block.isOpen⟩, signals, notices⟩⟩
    one.1 = two.1 ∧
      two.2.volume = one.2.volume.moved Memory.store token ∧
      two.2.readers = one.2.readers.map (·.moved Memory.store token) ∧
      two.2.world = ⟨⟨image, one.2.world.stores.isOpen⟩, one.2.world.signals, one.2.world.notices⟩ := by
  intro one two
  have alike := store_alike holds addressable token
  have signalled (w : World (Block δ)) (u : World Memory) (signal : Signal) (mirrored : Mirrored image healthy w u) :
      Mirrored image healthy { w with signals := w.signals.apply signal }
        { u with signals := u.signals.apply signal } :=
    ⟨mirrored.healthy, mirrored.memory, congrArg (·.apply signal) mirrored.signals, mirrored.notices⟩
  have start : Bench.Twins (store device) Memory.store token (Mirrored image healthy)
      ⟨{ token, options }, [], ⟨block, signals, notices⟩⟩
      ⟨{ token, options }, [], ⟨⟨image, block.isOpen⟩, signals, notices⟩⟩ :=
    ⟨Volume.new_twins _ _ token token options, nofun, rfl, well, rfl, rfl, rfl⟩
  obtain ⟨outcomes, twins⟩ := Bench.play_twins alike start signalled moves
  obtain ⟨_, memory, flags, log⟩ := twins.worlds
  refine ⟨outcomes, twins.volume.same, twins.same, ?_⟩
  rw [flags, log, ← memory]

end Block

theorem Disk.holds {image : Image} {blockSize : UInt32} (positive : 0 < blockSize.toNat)
    (whole : blockSize.toNat ∣ image.size) :
    (Disk.device blockSize).Holds image fun disk =>
      disk.image = image ∧ disk.reportedBlocks = none ∧ disk.countFails = false ∧ disk.badBlock = none where
  positive := positive
  whole := whole
  counts disk sound := by
    obtain ⟨rfl, reported, fails, good⟩ := sound
    refine ⟨disk, ⟨rfl, reported, fails, good⟩, ?_⟩
    simp only [Disk.device, fails, Bool.false_eq_true, ↓reduceIte, reported, Option.getD_none]
  reads disk first count sound inside := by
    obtain ⟨rfl, reported, fails, good⟩ := sound
    refine ⟨disk.image.window (first * blockSize.toNat) (count * blockSize.toNat),
      { disk with reads := (first, count) :: disk.reads }, ⟨rfl, reported, fails, good⟩, ?_, rfl, fun _ _ => rfl⟩
    have within : ¬ disk.image.size < (first + count) * blockSize.toNat := Nat.not_lt.mpr inside
    simp only [Disk.device, Disk.readBlocks, good, Option.any_none, Bool.false_eq_true, ↓reduceIte, within]

namespace Block

def tour : List Move := [.call (.read 5 1022), .openStore, .call (.read 5 1022), .reader 1, .request 0 (.read 5000)]

/-- Blocks of 1024 bytes under a disk that has sectors of 4096. -/
theorem session_eq_memory_laddered :
    (Bench.play (store (Disk.device 1024)) tour
        ⟨{ token := ⟨0⟩ }, [], ⟨⟨{ image := .laddered }, false⟩, .calm, []⟩⟩).1 =
      (Bench.play Memory.store tour ⟨{ token := ⟨0⟩ }, [], ⟨⟨.laddered, false⟩, .calm, []⟩⟩).1 ∧
    (Bench.play (store (Disk.device 1024)) tour
        ⟨{ token := ⟨0⟩ }, [], ⟨⟨{ image := .laddered }, false⟩, .calm, []⟩⟩).2.volume.partitions =
      [⟨⟨0x83⟩, 0, 2, 3⟩, ⟨⟨0x07⟩, 4096, 1, 4⟩] := by
  have holds : (Disk.device 1024).Holds .laddered _ := Disk.holds (by decide) (by decide)
  obtain ⟨outcomes, same, _⟩ := session_eq_memory holds (by decide) ⟨{ image := .laddered }, false⟩
    ⟨rfl, rfl, rfl, rfl⟩ ⟨0⟩ {} .calm [] tour
  have found :
      (Bench.play Memory.store tour ⟨{ token := ⟨0⟩ }, [], ⟨⟨.laddered, false⟩, .calm, []⟩⟩).2.volume.partitions =
        [⟨⟨0x83⟩, 0, 2, 3⟩, ⟨⟨0x07⟩, 4096, 1, 4⟩] := by decide +kernel
  dsimp only at same
  rw [same, Volume.partitions_moved] at found
  exact ⟨outcomes, found⟩

end Block
end PartitionTable
