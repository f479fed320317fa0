import PartitionTable.Bytes

/-! The contents of a disk. A disk may be far larger than what is ever read of it, so its
bytes are asked for one at a time. -/
namespace PartitionTable

structure Image where
  size : Nat
  byte : Nat → UInt8

namespace Image

def ofArray (data : ByteArray) : Image := ⟨data.size, fun offset => data.get! offset⟩

/-- Gathers a number of bytes, the last one first, in front of those that follow them. -/
def gather (image : Image) (offset : Nat) : Nat → List UInt8 → List UInt8
  | 0, later => later
  | count + 1, later => image.gather offset count (image.byte (offset + count) :: later)

/-- The bytes from an offset on, as many as are asked for and exist. -/
def slice (image : Image) (offset length : Nat) : List UInt8 :=
  image.gather offset (min length (image.size - offset)) []

def bytes (image : Image) : List UInt8 := image.slice 0 image.size

/-- A stretch of the contents, as contents of its own. -/
def window (image : Image) (offset length : Nat) : Image := ⟨length, fun i => image.byte (offset + i)⟩

/-- The contents cut, or filled up with zeros, to a size. -/
def fit (image : Image) (size : Nat) : Image :=
  ⟨size, fun i => if i < image.size then image.byte i else 0⟩

theorem gather_eq (image : Image) (offset count : Nat) (later : List UInt8) :
    image.gather offset count later = (List.range' offset count).map image.byte ++ later := by
  induction count generalizing later with
  | zero => rfl
  | succ count ih => simp [gather, ih, List.range'_concat]

theorem slice_eq_map (image : Image) (offset length : Nat) : image.slice offset length =
    (List.range' offset (min length (image.size - offset))).map image.byte := by
  simp [slice, gather_eq]

@[simp] theorem length_slice (image : Image) (offset length : Nat) :
    (image.slice offset length).length = min length (image.size - offset) := by
  simp [slice_eq_map]

theorem getElem?_slice (image : Image) (inside : i < min length (image.size - offset)) :
    (image.slice offset length)[i]? = some (image.byte (offset + i)) := by
  simp [slice_eq_map, inside]

theorem slice_past (image : Image) (past : image.size ≤ offset) : image.slice offset length = [] := by
  simp [slice_eq_map, Nat.sub_eq_zero_of_le past]

theorem slice_slice (image : Image) (inside : start + width ≤ length) :
    Bytes.slice (image.slice offset length) start width = image.slice (offset + start) width := by
  refine List.ext_getElem? fun i => ?_
  simp only [Bytes.slice, slice_eq_map, List.getElem?_take, List.getElem?_drop, List.getElem?_map]
  by_cases there : i < min width (image.size - (offset + start))
  · rw [if_pos (by omega), List.getElem?_range' (by omega), List.getElem?_range' there]
    simp [Nat.add_assoc]
  · have past : (List.range' (offset + start) (min width (image.size - (offset + start))))[i]? = none := by
      simpa using there
    rw [past]
    by_cases early : i < width
    · rw [if_pos early, List.getElem?_eq_none (by rw [List.length_range']; omega)]
    · rw [if_neg early]
      rfl

theorem slice_append (image : Image) (inside : offset + first ≤ image.size) (second : Nat) :
    image.slice offset first ++ image.slice (offset + first) second = image.slice offset (first + second) := by
  have whole : min first (image.size - offset) = first := by omega
  have rest : min (first + second) (image.size - offset) = first + min second (image.size - (offset + first)) := by
    omega
  rw [slice_eq_map, slice_eq_map, slice_eq_map, whole, rest, ← List.map_append, List.range'_append_1]

end Image
end PartitionTable
