import Mathlib.Algebra.Group.Nat.Defs
import PartitionTable.BootRecord

/-! A boot record and the sector it stands in. `Stands` tells the format field by field, and a sector is
decoded to exactly the record that stands in it: there is one if the sector is long enough and ends in
its trailer, and it is all that the sector says outside the bytes that belong to nobody. -/
namespace PartitionTable

namespace Bytes

variable {bytes front rest : List UInt8}

theorem slice_slice (inside : start + width ≤ length) :
    slice (slice bytes offset length) start width = slice bytes (offset + start) width := by
  rw [slice, slice, slice, List.drop_take, List.drop_drop, List.take_take, Nat.min_eq_left (by omega)]

theorem slice_eq_append_iff (long : front.length = width) (inside : offset + width ≤ bytes.length) :
    slice bytes offset (width + further) = front ++ rest ↔
      slice bytes offset width = front ∧ slice bytes (offset + width) further = rest := by
  rw [← slice_append_slice]
  constructor
  · intro same
    exact List.append_inj same ((length_slice inside).trans long.symm)
  · rintro ⟨rfl, rfl⟩
    rfl

theorem slice_one_iff : slice bytes offset 1 = [byte] ↔ bytes[offset]? = some byte := by
  rw [slice, List.take_one, List.head?_drop]
  cases bytes[offset]? <;> simp

end Bytes

namespace DiskAddress

theorem ofBytes_eq_ok_iff {raw : List UInt8} (long : raw.length = 3) : ofBytes .little raw = .ok address ↔
    raw = Bytes.digits 3 (address.head.val + address.sector.val * 2 ^ 8 + address.cylinder.val * 2 ^ 14) := by
  have decoded : ofBytes .little raw = .ok (inEntry raw 0) := by
    simp [ofBytes, Bytes.number, Bytes.field, width, long, Offset.addressLimit, Except.map, inEntry]
  have again : (inEntry raw 0).bytes = raw := by
    rw [bytes_inEntry (by omega)]
    exact Bytes.slice_all long
  rw [decoded, Except.ok.injEq]
  constructor
  · rintro rfl
    exact again.symm
  · intro same
    rw [inEntry, width, Bytes.slice_all long, same]
    exact unpack_value_bytes address

end DiskAddress

/-- An entry stands at a place, each of its fields at its own distance from there. -/
structure Entry.Stands (entry : Entry) (bytes : List UInt8) (place : Nat) : Prop where
  flags : bytes[place]? = some entry.flags
  first : Bytes.slice bytes (place + 1) 3 =
    Bytes.digits 3 (entry.first.head.val + entry.first.sector.val * 2 ^ 8 + entry.first.cylinder.val * 2 ^ 14)
  kind : bytes[place + 4]? = some entry.kind.code
  last : Bytes.slice bytes (place + 5) 3 =
    Bytes.digits 3 (entry.last.head.val + entry.last.sector.val * 2 ^ 8 + entry.last.cylinder.val * 2 ^ 14)
  firstSector : Bytes.slice bytes (place + 8) 4 = Bytes.digits 4 entry.firstSector.toNat
  sectorCount : Bytes.slice bytes (place + 12) 4 = Bytes.digits 4 entry.sectorCount.toNat

/-- A record stands in a sector. Every entry has the number of its slot. -/
structure BootRecord.Stands (record : BootRecord) (bytes : List UInt8) : Prop where
  length : bytes.length = 512
  trailer : [0x55, 0xaa] <:+ bytes
  identity : Bytes.slice bytes 440 4 = Bytes.digits 4 record.identity.toNat
  slots : ∀ slot : Fin 4, record.entries[slot].slot = slot
  entries : ∀ slot : Fin 4, record.entries[slot].Stands bytes (446 + 16 * slot.val)

namespace Entry

theorem stands_iff_slice {entry : Entry} {bytes : List UInt8} (inside : place + 16 ≤ bytes.length) :
    entry.Stands bytes place ↔ Bytes.slice bytes place 16 = entry.bytes := by
  have split : Bytes.slice bytes place 16 = entry.bytes ↔
      Bytes.slice bytes place (1 + (3 + (1 + (3 + (4 + 4))))) = [entry.flags] ++ (entry.first.bytes ++
        ([entry.kind.code] ++ (entry.last.bytes ++ (Bytes.digits 4 entry.firstSector.toNat ++
          Bytes.digits 4 entry.sectorCount.toNat)))) := by
    simp only [Entry.bytes, List.append_assoc]
  rw [split, Bytes.slice_eq_append_iff List.length_singleton (by omega),
    Bytes.slice_eq_append_iff (DiskAddress.length_bytes _) (by omega),
    Bytes.slice_eq_append_iff List.length_singleton (by omega),
    Bytes.slice_eq_append_iff (DiskAddress.length_bytes _) (by omega),
    Bytes.slice_eq_append_iff (Bytes.length_digits _ _) (by omega), Bytes.slice_one_iff, Bytes.slice_one_iff]
  constructor
  · rintro ⟨flags, first, kind, last, firstSector, sectorCount⟩
    exact ⟨flags, first, kind, last, firstSector, sectorCount⟩
  · rintro ⟨flags, first, kind, last, firstSector, sectorCount⟩
    exact ⟨flags, first, kind, last, firstSector, sectorCount⟩

theorem ofBytes_eq_iff {slot : Fin 4} {entry : Entry} {bytes : List UInt8} (inside : place + 16 ≤ bytes.length) :
    ofBytes slot (Bytes.slice bytes place 16) = entry ↔ entry.slot = slot ∧ entry.Stands bytes place := by
  constructor
  · rintro rfl
    exact ⟨rfl, (stands_iff_slice inside).mpr (bytes_ofBytes slot (Bytes.length_slice inside)).symm⟩
  · rintro ⟨rfl, stands⟩
    rw [(stands_iff_slice inside).mp stands, ofBytes_bytes]

end Entry

namespace BootRecord

variable {record : BootRecord} {bytes other : List UInt8}

theorem trailer_iff (long : bytes.length = 512) : Bytes.slice bytes 510 2 = signature ↔ [0x55, 0xaa] <:+ bytes := by
  have rest : Bytes.slice bytes 510 2 = bytes.drop 510 := List.take_of_length_le (by simp [long])
  rw [rest, List.suffix_iff_eq_drop, long]
  exact eq_comm

theorem hasSignature_iff (long : bytes.length = 512) : hasSignature bytes = true ↔ [0x55, 0xaa] <:+ bytes :=
  beq_iff_eq.trans (trailer_iff long)

theorem identity_iff {identity : UInt32} (long : bytes.length = 512) :
    Bytes.wordAt bytes identityOffset = identity ↔ Bytes.slice bytes 440 4 = Bytes.digits 4 identity.toNat := by
  constructor
  · rintro rfl
    exact (Bytes.wordAt_slice (by rw [long]; decide)).symm
  · intro same
    rw [Bytes.wordAt, identityOffset, same, Bytes.value_word]

theorem ofSector_eq_iff (long : bytes.length = 512) : ofSector bytes = record ↔
    Bytes.slice bytes 440 4 = Bytes.digits 4 record.identity.toNat ∧
      ∀ slot : Fin 4, record.entries[slot].slot = slot ∧ record.entries[slot].Stands bytes (446 + 16 * slot.val) := by
  have inside (slot : Fin 4) : 446 + 16 * slot.val + 16 ≤ bytes.length := by omega
  have entry (slot : Fin 4) : (ofSector bytes).entries[slot] =
      Entry.ofBytes slot (Bytes.slice bytes (446 + 16 * slot.val) 16) := by
    simp [ofSector, entryOffset, tableOffset, Entry.width, Nat.mul_comm]
  constructor
  · rintro rfl
    exact ⟨(identity_iff long).mp rfl, fun slot => (Entry.ofBytes_eq_iff (inside slot)).mp (entry slot).symm⟩
  · rintro ⟨identity, entries⟩
    have same (slot : Fin 4) : (ofSector bytes).entries[slot] = record.entries[slot] :=
      (entry slot).trans ((Entry.ofBytes_eq_iff (inside slot)).mpr (entries slot))
    obtain ⟨_, _⟩ := record
    apply (mk.injEq ..).mpr
    exact ⟨(identity_iff long).mpr identity, Vector.ext fun slot below => same ⟨slot, below⟩⟩

theorem decode_short (short : bytes.length ≠ 512) : decode bytes = .error .sizeMismatch := if_pos short

theorem decode_signed (long : bytes.length = 512) (signed : [0x55, 0xaa] <:+ bytes) :
    decode bytes = .ok (ofSector bytes) := by
  rw [decode, if_neg (fun wrong => wrong long), if_pos ((hasSignature_iff long).mpr signed)]

theorem decode_unsigned (long : bytes.length = 512) (unsigned : ¬ [0x55, 0xaa] <:+ bytes) :
    decode bytes = .error .invalidSignature := by
  rw [decode, if_neg (fun wrong => wrong long), if_neg (mt (hasSignature_iff long).mp unsigned)]

/-- A sector is decoded to the record that stands in it, and to no other. -/
theorem decode_eq_ok_iff : decode bytes = .ok record ↔ record.Stands bytes := by
  constructor
  · intro decoded
    by_cases long : bytes.length = 512
    · by_cases signed : [0x55, 0xaa] <:+ bytes
      · rw [decode_signed long signed] at decoded
        obtain ⟨identity, entries⟩ := (ofSector_eq_iff long).mp (Except.ok.inj decoded)
        exact ⟨long, signed, identity, fun slot => (entries slot).1, fun slot => (entries slot).2⟩
      · rw [decode_unsigned long signed] at decoded
        cases decoded
    · rw [decode_short long] at decoded
      cases decoded
  · intro stands
    rw [decode_signed stands.length stands.trailer]
    apply congrArg
    apply (ofSector_eq_iff stands.length).mpr
    exact ⟨stands.identity, fun slot => ⟨stands.slots slot, stands.entries slot⟩⟩

theorem toList_entries (record : BootRecord) :
    record.entries.toList = [record.entries[0], record.entries[1], record.entries[2], record.entries[3]] := by
  apply List.ext_getElem (by simp)
  intro slot below _
  rw [Vector.length_toList] at below
  match slot, below with
  | 0, _ | 1, _ | 2, _ | 3, _ => rfl

theorem table_iff (long : bytes.length = 512) :
    Bytes.slice bytes 446 64 = record.entries.toList.flatMap Entry.bytes ↔ ∀ slot : Fin 4,
      record.entries[slot].Stands bytes (446 + 16 * slot.val) := by
  have split : record.entries.toList.flatMap Entry.bytes = record.entries[0].bytes ++ (record.entries[1].bytes ++
      (record.entries[2].bytes ++ record.entries[3].bytes)) := by
    rw [toList_entries]
    simp
  have wide (entry : Entry) : entry.bytes.length = 16 := entry.length_bytes
  have place (slot : Fin 4) : record.entries[slot].Stands bytes (446 + 16 * slot.val) ↔
      Bytes.slice bytes (446 + 16 * slot.val) 16 = record.entries[slot].bytes := Entry.stands_iff_slice (by omega)
  simp only [place]
  rw [split, show 64 = 16 + (16 + (16 + 16)) from rfl, Bytes.slice_eq_append_iff (wide _) (by omega),
    Bytes.slice_eq_append_iff (wide _) (by omega), Bytes.slice_eq_append_iff (wide _) (by omega)]
  constructor
  · rintro ⟨first, second, third, fourth⟩ slot
    match slot with
    | 0 => exact first
    | 1 => exact second
    | 2 => exact third
    | 3 => exact fourth
  · intro entries
    exact ⟨entries 0, entries 1, entries 2, entries 3⟩

theorem length_table (record : BootRecord) : (record.entries.toList.flatMap Entry.bytes).length = 64 := by
  rw [toList_entries]
  simp [Entry.width]

theorem length_inscribe (long : other.length = 512) : (record.inscribe other).length = 512 := by
  have between : (Bytes.slice other 444 2).length = 2 := Bytes.length_slice (by omega)
  simp only [inscribe, identityOffset, List.length_append, List.length_take, long, Bytes.length_digits, between,
    length_table]
  rfl

theorem eq_inscribe_iff (long : bytes.length = 512) (wide : other.length = 512) : bytes = record.inscribe other ↔
    Bytes.slice bytes 0 440 = other.take 440 ∧ Bytes.slice bytes 440 4 = Bytes.digits 4 record.identity.toNat ∧
      Bytes.slice bytes 444 2 = Bytes.slice other 444 2 ∧
      Bytes.slice bytes 446 64 = record.entries.toList.flatMap Entry.bytes ∧ Bytes.slice bytes 510 2 = signature := by
  have split : bytes = record.inscribe other ↔ Bytes.slice bytes 0 (440 + (4 + (2 + (64 + 2)))) =
      other.take 440 ++ (Bytes.digits 4 record.identity.toNat ++ (Bytes.slice other 444 2 ++
        (record.entries.toList.flatMap Entry.bytes ++ signature))) := by
    rw [Bytes.slice_all long]
    simp only [inscribe, identityOffset, List.append_assoc]
  rw [split, Bytes.slice_eq_append_iff (by simp [wide]) (by omega),
    Bytes.slice_eq_append_iff (Bytes.length_digits _ _) (by omega),
    Bytes.slice_eq_append_iff (Bytes.length_slice (by omega)) (by omega),
    Bytes.slice_eq_append_iff (length_table record) (by omega)]

theorem Stands.inscribe_eq (stands : record.Stands bytes) : record.inscribe bytes = bytes := by
  have long := stands.length
  apply Eq.symm
  apply (eq_inscribe_iff long long).mpr
  exact ⟨rfl, stands.identity, rfl, (table_iff long).mpr stands.entries, (trailer_iff long).mpr stands.trailer⟩

theorem stands_inscribe (long : other.length = 512) (slots : ∀ slot : Fin 4, record.entries[slot].slot = slot) :
    record.Stands (record.inscribe other) := by
  have wide : (record.inscribe other).length = 512 := length_inscribe long
  obtain ⟨_, identity, _, table, trailer⟩ := (eq_inscribe_iff wide long).mp rfl
  exact ⟨wide, (trailer_iff wide).mp trailer, identity, slots, (table_iff wide).mp table⟩

/-- Two sectors are decoded to the same if they agree on the identity and on the table. -/
theorem decode_eq_decode_iff (long : bytes.length = 512) (signed : [0x55, 0xaa] <:+ bytes) (wide : other.length = 512)
    (sealed : [0x55, 0xaa] <:+ other) : decode bytes = decode other ↔
      Bytes.slice bytes 440 4 = Bytes.slice other 440 4 ∧ Bytes.slice bytes 446 64 = Bytes.slice other 446 64 := by
  have decoded := decode_signed long signed
  have stands := decode_eq_ok_iff.mp decoded
  have identity := stands.identity
  have table := (table_iff long).mpr stands.entries
  rw [decoded, eq_comm, decode_eq_ok_iff, identity, table]
  constructor
  · intro stands
    exact ⟨stands.identity.symm, ((table_iff wide).mpr stands.entries).symm⟩
  · rintro ⟨same, agree⟩
    exact ⟨wide, sealed, same.symm, stands.slots, (table_iff wide).mp agree.symm⟩

/-- Decoding a sector succeeds exactly if it is one, and the record stands in it field by field: written
into it again it changes nothing, and written into any sector it is found there. Three bytes of a disk
address are told by the address, and a sector by its identity and its table. -/
theorem decode_exact (bytes : List UInt8) :
    ((∃ record, decode bytes = .ok record) ↔ bytes.length = 512 ∧ [0x55, 0xaa] <:+ bytes) ∧
    (bytes.length ≠ 512 → decode bytes = .error .sizeMismatch) ∧
    (bytes.length = 512 → ¬ [0x55, 0xaa] <:+ bytes → decode bytes = .error .invalidSignature) ∧
    (∀ record, decode bytes = .ok record ↔ record.Stands bytes) ∧
    (∀ record, decode bytes = .ok record → record.inscribe bytes = bytes) ∧
    (∀ record, bytes.length = 512 → (∀ slot : Fin 4, record.entries[slot].slot = slot) →
      decode (record.inscribe bytes) = .ok record) ∧
    (∀ raw address, raw.length = 3 → (DiskAddress.ofBytes .little raw = .ok address ↔
      raw = Bytes.digits 3 (address.head.val + address.sector.val * 2 ^ 8 + address.cylinder.val * 2 ^ 14))) ∧
    ∀ other, bytes.length = 512 → [0x55, 0xaa] <:+ bytes → other.length = 512 → [0x55, 0xaa] <:+ other →
      (decode bytes = decode other ↔
        Bytes.slice bytes 440 4 = Bytes.slice other 440 4 ∧ Bytes.slice bytes 446 64 = Bytes.slice other 446 64) := by
  refine ⟨⟨?_, ?_⟩, decode_short, decode_unsigned, fun record => decode_eq_ok_iff, ?_, ?_, ?_, ?_⟩
  · rintro ⟨record, decoded⟩
    have stands := decode_eq_ok_iff.mp decoded
    exact ⟨stands.length, stands.trailer⟩
  · rintro ⟨long, signed⟩
    exact ⟨_, decode_signed long signed⟩
  · intro record decoded
    exact (decode_eq_ok_iff.mp decoded).inscribe_eq
  · intro record long slots
    exact decode_eq_ok_iff.mpr (stands_inscribe long slots)
  · exact fun raw address long => DiskAddress.ofBytes_eq_ok_iff long
  · exact fun other long signed wide sealed => decode_eq_decode_iff long signed wide sealed

/-- A record with another byte in every field, and a sector that has a byte of its own wherever the record
has none. -/
def motley : BootRecord where
  identity := 0xcafef00d
  entries := .ofFn fun slot => {
    slot
    flags := 0x80
    first := ⟨⟨1023, by decide⟩, ⟨254, by decide⟩, ⟨63, by decide⟩⟩
    kind := ⟨0x0c⟩
    last := ⟨⟨513, by decide⟩, ⟨1, by decide⟩, ⟨2, by decide⟩⟩
    firstSector := 0x01020304
    sectorCount := 0xa0b0c0d0 }

theorem decode_exact_motley :
    let sector := motley.inscribe (.replicate 512 0x7f)
    sector.length = 512 ∧ [0x55, 0xaa] <:+ sector ∧ decode sector = .ok motley ∧ motley.inscribe sector = sector ∧
      sector[443]? = some 0xca ∧ sector[446 + 2]? = some 0xff ∧ sector[444]? = some 0x7f := by
  intro sector
  have slots : ∀ slot : Fin 4, motley.entries[slot].slot = slot := by decide
  obtain ⟨_, _, _, _, _, written, _⟩ := decode_exact (.replicate 512 0x7f)
  have found : decode sector = .ok motley := written motley List.length_replicate slots
  obtain ⟨⟨succeeds, _⟩, _, _, _, again, _⟩ := decode_exact sector
  obtain ⟨long, signed⟩ := succeeds ⟨motley, found⟩
  exact ⟨long, signed, found, again motley found, by decide +kernel, by decide +kernel, by decide +kernel⟩

end BootRecord
end PartitionTable
