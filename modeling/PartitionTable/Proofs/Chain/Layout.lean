import PartitionTable.Proofs.Chain.Trail
import PartitionTable.Proofs.Delivery

/-! The tables on an image, told by its bytes alone. A table may stand wherever 512 bytes of
the image end in the trailer. Its four slots are read field by field; nothing here knows of
records or entries until the last section compares the two. -/
namespace PartitionTable

namespace Kind

theorem isEmpty_iff (kind : Kind) : kind.isEmpty = true ↔ kind.code = 0x00 := by
  cases kind
  simp [isEmpty, empty]

theorem isExtended_iff (kind : Kind) : kind.isExtended = true ↔ kind.code ∈ [0x05, 0x0f] := by
  cases kind
  simp [isExtended, extendedChs, extendedLba]

theorem isExtended_used (kind : Kind) :
    (kind.isExtended && !kind.isEmpty) = decide (kind.code ∈ [0x05, 0x0f]) := by
  rw [Bool.eq_iff_iff, Bool.and_eq_true, isExtended_iff, decide_eq_true_iff, Bool.not_eq_true',
    ← Bool.not_eq_true, isEmpty_iff]
  refine ⟨And.left, fun link => ⟨link, fun empty => ?_⟩⟩
  rw [empty] at link
  simp at link

theorem isPartition_used (kind : Kind) :
    (!kind.isExtended && !kind.isEmpty) = decide (kind.code ∉ [0x00, 0x05, 0x0f]) := by
  rw [Bool.eq_iff_iff, Bool.and_eq_true, Bool.not_eq_true', Bool.not_eq_true', ← Bool.not_eq_true,
    ← Bool.not_eq_true, isExtended_iff, decide_eq_true_iff, isEmpty_iff, List.mem_cons (b := 0x00), not_or]
  exact and_comm

end Kind

namespace Image

/-- 512 bytes of the image that end in 55 AA. -/
def HasTable (image : Image) (offset : Nat) : Prop :=
  offset + 512 ≤ image.size ∧ image.byte (offset + 510) = 0x55 ∧ image.byte (offset + 511) = 0xaa

instance (image : Image) (offset : Nat) : Decidable (image.HasTable offset) :=
  inferInstanceAs (Decidable (_ ∧ _))

def word (image : Image) (offset : Nat) : Nat := Bytes.value (image.slice offset 4)

/-- What a slot of a table says: its type and its two numbers of sectors. -/
def slot (image : Image) (table slot : Nat) : Extent :=
  let start := table + 446 + 16 * slot
  { kind := ⟨image.byte (start + 4)⟩
    table
    firstSector := .ofNat (image.word (start + 8))
    sectorCount := .ofNat (image.word (start + 12)) }

def slots (image : Image) (table : Nat) : List Extent := List.ofFn fun slot : Fin 4 => image.slot table slot

def links (image : Image) (table : Nat) : List Extent :=
  (image.slots table).filter fun slot => slot.kind.code ∈ [0x05, 0x0f]

def partitions (image : Image) (table : Nat) : List Extent :=
  (image.slots table).filter fun slot => slot.kind.code ∉ [0x00, 0x05, 0x0f]

def tableAt (image : Image) (size : SectorSize) (offset : Nat) : Table :=
  ⟨offset, size, .ofSector (image.slice offset BootRecord.size)⟩

section Record

variable {image : Image} {offset : Nat}

theorem slice_one (inside : offset < image.size) : image.slice offset 1 = [image.byte offset] := by
  have one : min 1 (image.size - offset) = 1 := by omega
  simp [slice_eq_map, one]

theorem slice_two (inside : offset + 1 < image.size) :
    image.slice offset 2 = [image.byte offset, image.byte (offset + 1)] := by
  have two : min 2 (image.size - offset) = 2 := by omega
  simp [slice_eq_map, two, List.range'_succ]

theorem byteAt_slice (within : start < length) (inside : offset + start < image.size) :
    Bytes.byteAt (image.slice offset length) start = image.byte (offset + start) := by
  rw [Bytes.byteAt, slice_slice image (Nat.succ_le_of_lt within), slice_one inside]
  simp [Bytes.value]

theorem full_iff : (image.slice offset BootRecord.size).length = BootRecord.size ↔ offset + 512 ≤ image.size := by
  rw [length_slice, BootRecord.size]
  omega

theorem hasSignature_slice (inside : offset + 512 ≤ image.size) :
    BootRecord.hasSignature (image.slice offset BootRecord.size) = true ↔
      image.byte (offset + 510) = 0x55 ∧ image.byte (offset + 511) = 0xaa := by
  have trailer : Bytes.slice (image.slice offset BootRecord.size) BootRecord.signatureOffset
      BootRecord.signature.length = [image.byte (offset + 510), image.byte (offset + 511)] := by
    rw [slice_slice image (by decide), BootRecord.signatureOffset]
    exact slice_two (by omega)
  rw [BootRecord.hasSignature, trailer]
  simp [BootRecord.signature]

/-- A read at an offset gives a record exactly where the image has a table. -/
theorem recordAt_ok (table : image.HasTable offset) :
    image.recordAt offset = .ok (.ofSector (image.slice offset BootRecord.size)) := by
  obtain ⟨inside, trailer⟩ := table
  have full := full_iff.mpr inside
  have signed := (hasSignature_slice inside).mpr trailer
  simp [recordAt, BootRecord.decode, full, signed]

theorem recordAt_short (short : image.size < offset + 512) : image.recordAt offset = .error .readFailed := by
  exact if_neg (mt full_iff.mp (Nat.not_le.mpr short))

theorem recordAt_unsigned (inside : offset + 512 ≤ image.size)
    (unsigned : ¬ (image.byte (offset + 510) = 0x55 ∧ image.byte (offset + 511) = 0xaa)) :
    image.recordAt offset = .error .invalidSignature := by
  have full := full_iff.mpr inside
  have missing : ¬ BootRecord.hasSignature (image.slice offset BootRecord.size) = true :=
    mt (hasSignature_slice inside).mp unsigned
  simp [recordAt, BootRecord.decode, full, missing]

theorem recordAt_error (missing : ¬ image.HasTable offset) :
    ∃ fault, image.recordAt offset = .error fault ∧ fault.suggestsLargerSectors = true := by
  by_cases inside : offset + 512 ≤ image.size
  · exact ⟨.invalidSignature, recordAt_unsigned inside fun signed => missing ⟨inside, signed⟩, rfl⟩
  · exact ⟨.readFailed, recordAt_short (Nat.not_le.mp inside), rfl⟩

theorem hasTable_iff : image.HasTable offset ↔ ∃ record, image.recordAt offset = .ok record := by
  constructor
  · exact fun table => ⟨_, recordAt_ok table⟩
  · rintro ⟨record, read⟩
    refine Decidable.byContradiction fun missing => ?_
    obtain ⟨fault, failed, _⟩ := recordAt_error missing
    rw [read] at failed
    cases failed

end Record

section Table

variable {image : Image} {table : Nat}

/-- A slot is what the walk makes of the entry there. -/
theorem ofEntry_eq_slot (present : image.HasTable table) (slot : Fin 4) :
    Extent.ofEntry (.ofBytes slot (Bytes.slice (image.slice table BootRecord.size) (BootRecord.entryOffset slot)
      Entry.width)) table = image.slot table slot := by
  have inside := present.1
  have place : table + BootRecord.entryOffset slot = table + 446 + 16 * slot := by
    simp only [BootRecord.entryOffset, BootRecord.tableOffset, Entry.width]
    omega
  have start : BootRecord.entryOffset slot + Entry.width ≤ BootRecord.size := by
    simp only [BootRecord.entryOffset, BootRecord.tableOffset, Entry.width, BootRecord.size]
    omega
  have kind : Bytes.byteAt (image.slice (table + 446 + 16 * slot) Entry.width) 4 =
      image.byte (table + 446 + 16 * slot + 4) := byteAt_slice (by decide) (by omega)
  have first : Bytes.slice (image.slice (table + 446 + 16 * slot) Entry.width) 8 4 =
      image.slice (table + 446 + 16 * slot + 8) 4 := slice_slice image (by decide)
  have count : Bytes.slice (image.slice (table + 446 + 16 * slot) Entry.width) 12 4 =
      image.slice (table + 446 + 16 * slot + 12) 4 := slice_slice image (by decide)
  rw [slice_slice image start, place]
  simp only [Extent.ofEntry, Entry.ofBytes, Bytes.wordAt, kind, first, count, Image.slot, word]

theorem slots_eq (present : image.HasTable table) (size : SectorSize) :
    image.slots table = (image.tableAt size table).record.entries.toList.map (Extent.ofEntry · table) := by
  rw [slots, tableAt, BootRecord.ofSector, Vector.toList_ofFn, List.map_ofFn]
  exact congrArg List.ofFn (funext fun slot => (ofEntry_eq_slot present slot).symm)

theorem links_eq (present : image.HasTable table) (size : SectorSize) :
    image.links table = (image.tableAt size table).extended.map (Extent.ofEntry · table) := by
  rw [links, slots_eq present size, List.filter_map, Table.extended, BootRecord.used, List.filter_filter]
  exact congrArg _ (List.filter_congr fun entry _ => entry.kind.isExtended_used.symm)

theorem partitions_eq (present : image.HasTable table) (size : SectorSize) :
    image.partitions table = (image.tableAt size table).partitions := by
  rw [partitions, slots_eq present size, List.filter_map, Table.partitions, BootRecord.used, List.filter_filter]
  exact congrArg _ (List.filter_congr fun entry _ => entry.kind.isPartition_used.symm)

/-- The identity is the number at 440, since a number of four bytes fits into a word. -/
theorem identity_eq (present : image.HasTable table) (size : SectorSize) :
    (image.tableAt size table).record.identity.toNat = image.word (table + 440) := by
  have field : Bytes.slice (image.slice table BootRecord.size) BootRecord.identityOffset 4 =
      image.slice (table + 440) 4 := slice_slice image (by decide)
  have width : (image.slice (table + 440) 4).length = 4 := by
    have := present.1
    rw [length_slice]
    omega
  have small := Bytes.value_lt (image.slice (table + 440) 4)
  rw [width] at small
  simp only [tableAt, BootRecord.ofSector, Bytes.wordAt, field]
  exact UInt32.toNat_ofNat_of_lt' small

end Table
end Image
end PartitionTable
