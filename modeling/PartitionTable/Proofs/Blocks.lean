import PartitionTable.Proofs.Words
import PartitionTable.Store.Disk

/-! One read of a block store, over a device that may answer anything. The blocks that it asks for are
the fewest that cover what is wanted and there, and the device has them all; what it gives is cut out of
what the device left. All the numbers on the way are numbers of 64 bits, though the device may end at
the last of them. -/
namespace PartitionTable

inductive Device.Request where
  | blockCount
  | readBlocks (first count : Nat)
  deriving DecidableEq, Repr

/-- The same device, with everything that it is asked written down, newest first. -/
def Device.recorded (device : Device δ) : Device (δ × List Device.Request) where
  blockSize := device.blockSize
  blockCount d := ((device.blockCount d.1).1, (device.blockCount d.1).2, .blockCount :: d.2)
  readBlocks first count d :=
    ((device.readBlocks first count d.1).1, (device.readBlocks first count d.1).2, .readBlocks first count :: d.2)

namespace Block

open Offset

def logged (log : List Device.Request) (block : Block δ) : Block (δ × List Device.Request) :=
  ⟨(block.device, log), block.isOpen⟩

section Range

variable {width offset length : Nat}

/-- A run of blocks covers a range, and lies in every other run that does. -/
structure Fewest (width first count offset length : Nat) : Prop where
  start : first * width ≤ offset
  finish : offset + length ≤ (first + count) * width
  least : ∀ earlier more, earlier * width ≤ offset → offset + length ≤ (earlier + more) * width →
    earlier ≤ first ∧ first + count ≤ earlier + more

/-- The number of the blocks from that of the first byte to that of the last one. -/
def runLength (width offset length : Nat) : Nat := (offset + length - 1) / width - offset / width + 1

theorem run_finish (width offset : Nat) (filled : 0 < length) :
    offset / width + runLength width offset length = (offset + length - 1) / width + 1 := by
  have ordered : offset / width ≤ (offset + length - 1) / width := Nat.div_le_div_right (by omega)
  unfold runLength
  omega

theorem run_fewest (positive : 0 < width) (offset : Nat) (filled : 0 < length) :
    Fewest width (offset / width) (runLength width offset length) offset length where
  start := Nat.div_mul_le_self offset width
  finish := by
    have behind : offset + length - 1 < width * ((offset + length - 1) / width + 1) :=
      Nat.lt_mul_div_succ _ positive
    rw [run_finish width offset filled, Nat.mul_comm]
    omega
  least earlier more early late := by
    have last : (offset + length - 1) / width < earlier + more := by
      apply (Nat.div_lt_iff_lt_mul positive).mpr
      omega
    have finish := run_finish width offset filled
    exact ⟨(Nat.le_div_iff_mul_le positive).mpr early, by omega⟩

/-- A device that has the range has the blocks that cover it. -/
theorem run_within (positive : 0 < width) (filled : 0 < length) (inside : offset + length ≤ blocks * width) :
    offset / width + runLength width offset length ≤ blocks := by
  have last : (offset + length - 1) / width < blocks := by
    apply (Nat.div_lt_iff_lt_mul positive).mpr
    omega
  have finish := run_finish width offset filled
  omega

end Range

/-- A quotient, unless it is one by zero. -/
def quotient? (n width : Nat) : Option Nat := if width = 0 then none else some (n / width)

def cut? (buffer : List UInt8) (start finish : Nat) : Option (List UInt8) :=
  if start ≤ finish ∧ finish ≤ buffer.length then some (Bytes.slice buffer start (finish - start)) else none

/-- The blocks that a read takes, and the place of its bytes in them. -/
structure Window where
  first : Nat
  count : Nat
  span : Nat
  start : Nat
  finish : Nat

def window? (width offset length : Nat) : Option Window := do
  let behind ← unsigned? (offset + length : Nat)
  let first ← quotient? offset width
  let final ← unsigned? (behind - 1)
  let last ← quotient? final width
  let further ← unsigned? (last - first)
  let count ← unsigned? (further + 1 : Nat)
  let span ← unsigned? (count * width : Nat)
  let before ← unsigned? (first * width : Nat)
  let start ← unsigned? (offset - before)
  let finish ← unsigned? (start + length : Nat)
  return { first, count, span, start, finish }

/-- A read of what is wanted and there, before the end of a device. -/
def readCovering? (device : Device δ) (room total offset : Nat) (block : Block δ) :
    Option (Reply (Block δ) Reading) := do
  let left ← unsigned? (total - offset)
  let window ← window? device.blockSize.toNat offset (min room left)
  match device.readBlocks window.first window.count block.device with
  | (.error message, later) =>
    return .error .readFailed { block with device := later } [.blocksNotRead window.first message]
  | (.ok contents, later) =>
    let bytes ← cut? (contents.fit window.span).bytes window.start window.finish
    if bytes.length ≤ room then return .ok (.ofBytes bytes) { block with device := later } else none

/-- A read into a buffer with some room, in numbers of 64 bits and with buffers that have an end. It
gives nothing at all if a number is none of 64 bits, if it divides by zero or if it leaves a buffer. -/
def read? (device : Device δ) (room offset : Nat) (block : Block δ) : Option (Reply (Block δ) Reading) :=
  if !block.isOpen then some (.error .notOpen block)
  else if room = 0 then some (.ok .nothing block)
  else
    match device.blockCount block.device with
    | (.error message, later) =>
      some (.error .readFailed { block with device := later } [.blocksNotCounted message])
    | (.ok count, later) =>
      match unsigned? (count.toNat * device.blockSize.toNat : Nat) with
      | none => some (.error .outOfBounds { block with device := later })
      | some total =>
        if total ≤ offset then some (.ok .nothing { block with device := later })
        else readCovering? device room total offset { block with device := later }

section Window

variable {width room offset blocks : Nat}

theorem run_room (positive : 0 < width) (offset : Nat) (filled : 0 < length) :
    offset - offset / width * width + length ≤ runLength width offset length * width := by
  have fewest := run_fewest positive offset filled
  have start := fewest.start
  have finish := fewest.finish
  rw [Nat.add_mul] at finish
  omega

theorem window?_eq (positive : 0 < width) (filled : 0 < length) (inside : offset + length ≤ blocks * width)
    (addressable : blocks * width ≤ addressLimit) :
    window? width offset length = some {
      first := offset / width
      count := runLength width offset length
      span := runLength width offset length * width
      start := offset - offset / width * width
      finish := offset - offset / width * width + length } := by
  have covered : (offset / width + runLength width offset length) * width ≤ blocks * width :=
    Nat.mul_le_mul_right width (run_within positive filled inside)
  rw [Nat.add_mul] at covered
  have early : offset / width * width ≤ addressLimit := by omega
  have spanned : runLength width offset length * width ≤ addressLimit := by omega
  have near : (offset + length - 1) / width ≤ offset + length - 1 := Nat.div_le_self _ _
  have ordered : offset / width ≤ (offset + length - 1) / width := Nat.div_le_div_right (by omega)
  have behind : unsigned? (offset + length : Nat) = some (offset + length) :=
    unsigned?_eq (Nat.le_trans inside addressable)
  have first : quotient? offset width = some (offset / width) := if_neg (Nat.ne_of_gt positive)
  have final : unsigned? ((offset + length : Nat) - (1 : Nat)) = some (offset + length - 1) :=
    unsigned?_sub (Nat.le_trans filled (Nat.le_add_left length offset)) (Nat.le_trans inside addressable)
  have last : quotient? (offset + length - 1) width = some ((offset + length - 1) / width) :=
    if_neg (Nat.ne_of_gt positive)
  have further : unsigned? (((offset + length - 1) / width : Nat) - (offset / width : Nat)) =
      some ((offset + length - 1) / width - offset / width) := unsigned?_sub ordered (by omega)
  have count : unsigned? (runLength width offset length) = some (runLength width offset length) :=
    unsigned?_eq (Nat.le_trans (Nat.le_mul_of_pos_right _ positive) spanned)
  have span : unsigned? (runLength width offset length * width : Nat) = some (runLength width offset length * width) :=
    unsigned?_eq spanned
  have before : unsigned? (offset / width * width : Nat) = some (offset / width * width) := unsigned?_eq early
  have skip : unsigned? (offset - (offset / width * width : Nat)) = some (offset - offset / width * width) :=
    unsigned?_sub (Nat.div_mul_le_self offset width) (by omega)
  have stop : unsigned? (offset - offset / width * width + length : Nat) =
      some (offset - offset / width * width + length) := unsigned?_eq (by omega)
  simp only [window?, Option.bind_eq_bind, Option.bind_eq_some_iff]
  exact ⟨_, behind, _, first, _, final, _, last, _, further, _, count, _, span, _, before, _, skip, _, stop, rfl⟩

theorem cut?_eq (contents : Image) (inside : start + length ≤ span) :
    cut? (contents.fit span).bytes start (start + length) = some ((contents.fit span).slice start length) := by
  have size : (contents.fit span).bytes.length = span := by simp [Image.bytes, Image.fit]
  have cut : Bytes.slice (contents.fit span).bytes start length = (contents.fit span).slice (0 + start) length :=
    Image.slice_slice _ inside
  rw [cut?, if_pos ⟨Nat.le_add_right start length, by omega⟩, Nat.add_sub_cancel_left, cut, Nat.zero_add]

end Window

variable {device : Device δ} {room offset : Nat} {block : Block δ}

theorem read_uncounted (wanted : 0 < room) (counted : device.blockCount d = (.error message, later)) :
    read device room offset ⟨d, true⟩ = .error .readFailed ⟨later, true⟩ [.blocksNotCounted message] := by
  have filled : ¬ room = 0 := Nat.ne_of_gt wanted
  simp only [read, size, counted, filled]
  rfl

theorem read_unmeasured (wanted : 0 < room) (counted : device.blockCount d = (.ok blocks, later))
    (large : addressLimit < blocks.toNat * device.blockSize.toNat) :
    read device room offset ⟨d, true⟩ = .error .outOfBounds ⟨later, true⟩ := by
  have filled : ¬ room = 0 := Nat.ne_of_gt wanted
  have size : size device ⟨d, true⟩ = .error .outOfBounds ⟨later, true⟩ := by
    simp only [size, counted, Nat.not_le.mpr large, ↓reduceIte]
  simp only [read, size, filled]
  rfl

theorem read_measured (wanted : 0 < room) (counted : device.blockCount d = (.ok blocks, later))
    (addressable : blocks.toNat * device.blockSize.toNat ≤ addressLimit) :
    read device room offset ⟨d, true⟩ =
      if blocks.toNat * device.blockSize.toNat ≤ offset then .ok .nothing ⟨later, true⟩
      else readCovering device offset (min room (blocks.toNat * device.blockSize.toNat - offset))
        ⟨later, true⟩ := by
  have filled : ¬ room = 0 := Nat.ne_of_gt wanted
  have size : size device ⟨d, true⟩ = .ok (blocks.toNat * device.blockSize.toNat) ⟨later, true⟩ := by
    simp only [size, counted, addressable, ↓reduceIte]
  simp only [read, size, filled, Bool.not_true, Bool.false_eq_true, ↓reduceIte, Reply.ok]

theorem readCovering_unread
    (failed : device.readBlocks (offset / device.blockSize.toNat) (runLength device.blockSize.toNat offset length)
      block.device = (.error message, later)) :
    readCovering device offset length block =
      .error .readFailed { block with device := later } [.blocksNotRead (offset / device.blockSize.toNat) message] := by
  rw [runLength] at failed
  simp only [readCovering, failed]

theorem readCovering_cut
    (delivered : device.readBlocks (offset / device.blockSize.toNat) (runLength device.blockSize.toNat offset length)
      block.device = (.ok contents, later)) :
    readCovering device offset length block =
      .ok (.ofBytes ((contents.fit (runLength device.blockSize.toNat offset length * device.blockSize.toNat)).slice
        (offset - offset / device.blockSize.toNat * device.blockSize.toNat) length))
        { block with device := later } := by
  rw [runLength] at delivered ⊢
  simp only [readCovering, delivered]

theorem readCovering?_eq {blocks : Nat} (positive : 0 < device.blockSize.toNat) (wanted : 0 < room)
    (inside : offset < blocks * device.blockSize.toNat)
    (addressable : blocks * device.blockSize.toNat ≤ addressLimit) :
    readCovering? device room (blocks * device.blockSize.toNat) offset ⟨d, true⟩ =
      some (readCovering device offset (min room (blocks * device.blockSize.toNat - offset)) ⟨d, true⟩) := by
  have left : unsigned? ((blocks * device.blockSize.toNat : Nat) - offset) =
      some (blocks * device.blockSize.toNat - offset) := unsigned?_sub (Nat.le_of_lt inside) addressable
  generalize least : min room (blocks * device.blockSize.toNat - offset) = length
  have filled : 0 < length := by omega
  have window := window?_eq positive filled (show offset + length ≤ _ by omega) addressable
  rw [← least] at window
  simp only [readCovering?, Option.bind_eq_bind, Option.bind_eq_some_iff]
  refine ⟨_, left, _, window, ?_⟩
  rw [least]
  rcases answered : device.readBlocks (offset / device.blockSize.toNat)
    (runLength device.blockSize.toNat offset length) d with ⟨message | contents, later⟩
  · rw [readCovering_unread answered]
    rfl
  · have cut := cut?_eq contents (run_room positive offset filled)
    rw [readCovering_cut answered]
    apply Option.bind_eq_some_iff.mpr
    exact ⟨_, cut, if_pos (by rw [Image.length_slice]; omega)⟩

/-- No read wraps a number around, divides by zero or leaves a buffer. -/
theorem read?_eq (positive : 0 < device.blockSize.toNat) (room offset : Nat) (block : Block δ) :
    read? device room offset block = some (read device room offset block) := by
  obtain ⟨d, _ | _⟩ := block
  · rfl
  rcases Nat.eq_zero_or_pos room with rfl | wanted
  · rfl
  have filled : ¬ room = 0 := Nat.ne_of_gt wanted
  rcases counted : device.blockCount d with ⟨message | blocks, later⟩
  · simp only [read?, read_uncounted wanted counted, counted, filled, Bool.not_true, Bool.false_eq_true, ↓reduceIte]
  rcases Nat.lt_or_ge addressLimit (blocks.toNat * device.blockSize.toNat) with large | addressable
  · simp only [read?, read_unmeasured wanted counted large, counted, filled, unsigned?_none large, Bool.not_true,
      Bool.false_eq_true, ↓reduceIte]
  · simp only [read?, read_measured wanted counted addressable, counted, filled, unsigned?_eq addressable,
      Bool.not_true, Bool.false_eq_true, ↓reduceIte]
    split
    · rfl
    · exact readCovering?_eq positive wanted (Nat.not_le.mp ‹_›) addressable

/-- How a read ends, and what the device is asked for it. -/
inductive Serves (device : Device δ) (room offset : Nat) (block : Block δ) :
    Reply (Block δ) Reading → List Device.Request → Prop where
  | closed : block.isOpen = false → Serves device room offset block (.error .notOpen block) []
  | empty : block.isOpen = true → room = 0 → Serves device room offset block (.ok .nothing block) []
  | uncounted : block.isOpen = true → 0 < room → device.blockCount block.device = (.error message, later) →
    Serves device room offset block (.error .readFailed { block with device := later } [.blocksNotCounted message])
      [.blockCount]
  | unmeasured : block.isOpen = true → 0 < room → device.blockCount block.device = (.ok blocks, later) →
    2 ^ 64 ≤ blocks.toNat * device.blockSize.toNat →
    Serves device room offset block (.error .outOfBounds { block with device := later }) [.blockCount]
  | past : block.isOpen = true → 0 < room → device.blockCount block.device = (.ok blocks, later) →
    blocks.toNat * device.blockSize.toNat < 2 ^ 64 → blocks.toNat * device.blockSize.toNat ≤ offset →
    Serves device room offset block (.ok .nothing { block with device := later }) [.blockCount]
  | unread : block.isOpen = true → 0 < room → device.blockCount block.device = (.ok blocks, later) →
    blocks.toNat * device.blockSize.toNat < 2 ^ 64 → offset < blocks.toNat * device.blockSize.toNat →
    Fewest device.blockSize.toNat first count offset (min room (blocks.toNat * device.blockSize.toNat - offset)) →
    first + count ≤ blocks.toNat → device.readBlocks first count later = (.error message, last) →
    Serves device room offset block (.error .readFailed { block with device := last } [.blocksNotRead first message])
      [.blockCount, .readBlocks first count]
  | cut : block.isOpen = true → 0 < room → device.blockCount block.device = (.ok blocks, later) →
    blocks.toNat * device.blockSize.toNat < 2 ^ 64 → offset < blocks.toNat * device.blockSize.toNat →
    Fewest device.blockSize.toNat first count offset (min room (blocks.toNat * device.blockSize.toNat - offset)) →
    first + count ≤ blocks.toNat → device.readBlocks first count later = (.ok contents, last) →
    bytes.length = min room (blocks.toNat * device.blockSize.toNat - offset) →
    (∀ i < bytes.length, bytes[i]? = some ((contents.fit (count * device.blockSize.toNat)).byte
      (offset - first * device.blockSize.toNat + i))) →
    Serves device room offset block (.ok (.ofBytes bytes) { block with device := last })
      [.blockCount, .readBlocks first count]

/-- What is asked goes to the record of the device, and a reply is the same with a record. -/
theorem read_serves (positive : 0 < device.blockSize.toNat) (room offset : Nat) (block : Block δ)
    (log : List Device.Request) : ∃ asked,
    Serves device room offset block (read device room offset block) asked ∧
    read device.recorded room offset (block.logged log) =
      (read device room offset block).mapState (·.logged (asked.reverse ++ log)) := by
  obtain ⟨d, _ | _⟩ := block
  · exact ⟨[], .closed rfl, rfl⟩
  rcases Nat.eq_zero_or_pos room with rfl | wanted
  · exact ⟨[], .empty rfl rfl, rfl⟩
  rcases counted : device.blockCount d with ⟨message | blocks, later⟩
  · have recounted : device.recorded.blockCount (d, log) = (.error message, later, .blockCount :: log) := by
      simp only [Device.recorded, counted]
    rw [logged, read_uncounted wanted counted, read_uncounted wanted recounted]
    exact ⟨[.blockCount], .uncounted rfl wanted counted, rfl⟩
  have recounted : device.recorded.blockCount (d, log) = (.ok blocks, later, .blockCount :: log) := by
    simp only [Device.recorded, counted]
  rcases Nat.lt_or_ge addressLimit (blocks.toNat * device.blockSize.toNat) with large | addressable
  · rw [logged, read_unmeasured wanted counted large, read_unmeasured wanted recounted large]
    exact ⟨[.blockCount], .unmeasured rfl wanted counted large, rfl⟩
  have small : blocks.toNat * device.blockSize.toNat < 2 ^ 64 := Nat.lt_succ_of_le addressable
  rw [logged, read_measured wanted counted addressable, read_measured wanted recounted addressable]
  rcases Nat.lt_or_ge offset (blocks.toNat * device.blockSize.toNat) with inside | past
  case inr =>
    rw [if_pos past]
    exact ⟨[.blockCount], .past rfl wanted counted small past, if_pos past⟩
  rw [if_neg (Nat.not_le.mpr inside), show device.recorded.blockSize = device.blockSize from rfl,
    if_neg (Nat.not_le.mpr inside)]
  generalize least : min room (blocks.toNat * device.blockSize.toNat - offset) = length
  have filled : 0 < length := by omega
  have fewest := run_fewest positive offset filled
  have there : offset / device.blockSize.toNat + runLength device.blockSize.toNat offset length ≤ blocks.toNat :=
    run_within positive filled (by omega)
  rcases answered : device.readBlocks (offset / device.blockSize.toNat) (runLength device.blockSize.toNat offset length)
    later with ⟨message | contents, last⟩
  all_goals
    have again := congrArg (Prod.map id (·, .readBlocks (offset / device.blockSize.toNat)
      (runLength device.blockSize.toNat offset length) :: .blockCount :: log)) answered
  · rw [readCovering_unread answered, readCovering_unread again]
    exact ⟨[.blockCount, .readBlocks _ _],
      .unread rfl wanted counted small inside (least ▸ fewest) there answered, rfl⟩
  · have room := run_room positive offset filled
    rw [readCovering_cut answered, readCovering_cut again]
    refine ⟨[.blockCount, .readBlocks _ _],
      .cut rfl wanted counted small inside (least ▸ fewest) there answered ?_ ?_, rfl⟩
    · simp only [Image.length_slice, Image.fit]
      omega
    · intro i within
      apply Image.getElem?_slice
      exact Image.length_slice _ _ _ ▸ within

theorem Serves.outOfBounds_iff (serves : Serves device room offset block reply asked) :
    reply.result = .error .outOfBounds ↔ block.isOpen = true ∧ 0 < room ∧
      ∃ blocks later, device.blockCount block.device = (.ok blocks, later) ∧
        2 ^ 64 ≤ blocks.toNat * device.blockSize.toNat := by
  constructor
  · intro failed
    cases serves with
    | unmeasured isOpen wanted counted large => exact ⟨isOpen, wanted, _, _, counted, large⟩
    | _ => cases failed
  · rintro ⟨isOpen, wanted, blocks, later, counted, large⟩
    cases serves with
    | unmeasured => rfl
    | closed shut => exact absurd isOpen (by simp [shut])
    | empty _ none => omega
    | uncounted _ _ failed => exact absurd (counted.symm.trans failed) (by simp)
    | past _ _ again small | unread _ _ again small | cut _ _ again small =>
      obtain ⟨⟨⟩, rfl⟩ := Prod.mk.inj (counted.symm.trans again)
      omega

/-- A read of a device that may answer anything, with blocks of any size but none. Every number on the
way is one of 64 bits, and no place lies outside its buffer. What is asked of the device, and how the
read ends, is told by `Serves`; it is out of bounds only if the device has more bytes than 64 bits count. -/
theorem read_safe_and_exact (positive : 0 < device.blockSize.toNat) (room offset : Nat) (block : Block δ)
    (log : List Device.Request) :
    let reply := read device room offset block
    read? device room offset block = some reply ∧
      (reply.result = .error .outOfBounds ↔ block.isOpen = true ∧ 0 < room ∧
        ∃ blocks later, device.blockCount block.device = (.ok blocks, later) ∧
          2 ^ 64 ≤ blocks.toNat * device.blockSize.toNat) ∧
      ∃ asked, Serves device room offset block reply asked ∧
        read device.recorded room offset (block.logged log) = reply.mapState (·.logged (asked.reverse ++ log)) := by
  intro reply
  obtain ⟨asked, serves, recorded⟩ := read_serves positive room offset block log
  exact ⟨read?_eq positive room offset block, serves.outOfBounds_iff, asked, serves, recorded⟩

/-- The last byte of this disk has the number 2 ^ 64 - 513, and it is the last one that the read gives. -/
def brimful : Block Disk := ⟨{ image := ⟨2 ^ 64 - 512, UInt8.ofNat⟩ }, true⟩

theorem read_safe_and_exact_brimful :
    0 < (Disk.device 512).blockSize.toNat ∧
    read? (Disk.device 512) 1024 (2 ^ 64 - 520) brimful = some (read (Disk.device 512) 1024 (2 ^ 64 - 520) brimful) ∧
    (read (Disk.device 512) 1024 (2 ^ 64 - 520) brimful).result =
      .ok (.ofBytes [248, 249, 250, 251, 252, 253, 254, 255]) ∧
    Serves (Disk.device 512) 1024 (2 ^ 64 - 520) brimful (read (Disk.device 512) 1024 (2 ^ 64 - 520) brimful)
      [.blockCount, .readBlocks (2 ^ 55 - 2) 1] := by
  have positive : 0 < (Disk.device 512).blockSize.toNat := by decide
  obtain ⟨inWords, _, asked, serves, recorded⟩ := read_safe_and_exact positive 1024 (2 ^ 64 - 520) brimful []
  have log : (read (Disk.device 512).recorded 1024 (2 ^ 64 - 520) (brimful.logged [])).state.device.2 =
      [.readBlocks (2 ^ 55 - 2) 1, .blockCount] := by rfl
  rw [recorded] at log
  have told : asked = [.blockCount, .readBlocks (2 ^ 55 - 2) 1] :=
    List.reverse_eq_iff.mp ((List.append_nil _).symm.trans log)
  exact ⟨positive, inWords, by rfl, told ▸ serves⟩

end Block
end PartitionTable
