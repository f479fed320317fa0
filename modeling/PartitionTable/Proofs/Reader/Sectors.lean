import PartitionTable.Proofs.Cache
import PartitionTable.Reader

/-! What a reader gathers from a store that delivers an image. A sector is to be had if it lies
in the image as a whole. A range of bytes is to be had if all the sectors that it touches are,
and then it is the range of the image; the cache plays no part in it. -/
namespace PartitionTable

namespace Image

def HasSector (image : Image) (width : Nat) (position : Int) : Prop :=
  0 ≤ position ∧ position + width ≤ image.size

instance (image : Image) (width : Nat) (position : Int) : Decidable (image.HasSector width position) :=
  inferInstanceAs (Decidable (_ ∧ _))

def sectorFault (position : Int) : Fault := if position < 0 then .outOfBounds else .readFailed

def sectorAt (image : Image) (width : Nat) (position : Int) : Except Fault (List UInt8) :=
  if image.HasSector width position then .ok (image.slice position.toNat width) else .error (sectorFault position)

end Image

namespace Reader

variable {reader : Reader σ} {image : Image} {steady : σ → Prop}

/-- How a reader and the world around it stay: the cache holds sectors of the image only. -/
def Undisturbed (reader : Reader σ) (image : Image) (steady : σ → Prop) (state : Cache × World σ) : Prop :=
  state.1.Agrees (image.sectorAt reader.bytesPerSector.toNat) ∧ state.2.Ready reader.token steady

theorem load_yields (delivers : reader.store.Delivers image reader.token steady)
    (positive : 0 < reader.bytesPerSector.toNat) (near : reader.sectorStart sector ≤ Offset.maximum) :
    (reader.load sector).Yields (World.Ready · reader.token steady)
      (image.sectorAt reader.bytesPerSector.toNat (reader.sectorStart sector)) := by
  refine .bind .isCancelled ?_
  simp only [Bool.false_eq_true, ↓reduceIte]
  by_cases negative : reader.sectorStart sector < 0
  · have missing : ¬ image.HasSector reader.bytesPerSector.toNat (reader.sectorStart sector) := by
      rintro ⟨nonnegative, _⟩
      omega
    rw [if_pos negative, Image.sectorAt, if_neg missing, Image.sectorFault, if_pos negative]
    exact .fail _
  rw [if_neg negative]
  have whole : (image.slice (reader.sectorStart sector).toNat reader.bytesPerSector.toNat).length =
      reader.bytesPerSector.toNat ↔ image.HasSector reader.bytesPerSector.toNat (reader.sectorStart sector) := by
    rw [Image.length_slice, Image.HasSector]
    omega
  refine .bind (.note _) (.bindRead delivers (by omega) ?_ fun beyond => ?_)
  case refine_2 =>
    have missing : ¬ image.HasSector reader.bytesPerSector.toNat (reader.sectorStart sector) := by
      rintro ⟨_, within⟩
      omega
    rw [Image.sectorAt, if_neg missing, Image.sectorFault, if_neg negative]
  rw [Reading.count_ofBytes]
  by_cases present : image.HasSector reader.bytesPerSector.toNat (reader.sectorStart sector)
  · have full := whole.mpr present
    rw [if_pos full, Reading.buffer_ofBytes full, Image.sectorAt, if_pos present]
    exact .pure _
  · rw [if_neg (mt whole.mp present), Image.sectorAt, if_neg present, Image.sectorFault, if_neg negative]
    exact .refuse _ _

theorem fetch_yields (delivers : reader.store.Delivers image reader.token steady)
    (positive : 0 < reader.bytesPerSector.toNat) (near : reader.sectorStart sector ≤ Offset.maximum) :
    (reader.fetch sector).Yields (reader.Undisturbed image steady)
      (image.sectorAt reader.bytesPerSector.toNat (reader.sectorStart sector)) :=
  Cache.getOrLoad_yields _ (load_yields delivers positive near)

theorem sectorStart_add (reader : Reader σ) (sector further : Nat) :
    reader.sectorStart (sector + further) =
      reader.sectorStart sector + (further * reader.bytesPerSector.toNat : Nat) := by
  simp only [sectorStart]
  push_cast
  rw [Int.add_mul, Int.add_assoc]

theorem sectorStart_succ (reader : Reader σ) (sector : Nat) :
    reader.sectorStart (sector + 1) = reader.sectorStart sector + reader.bytesPerSector.toNat := by
  rw [sectorStart_add, Nat.one_mul]

theorem near_next (near : ∀ further < count + 1, reader.sectorStart (sector + further) ≤ Offset.maximum) :
    ∀ further < count, reader.sectorStart (sector + 1 + further) ≤ Offset.maximum := by
  intro further below
  rw [Nat.add_right_comm]
  exact near (further + 1) (Nat.succ_lt_succ below)

/-- Sectors that all lie in the image are gathered to one range of it. -/
theorem gather_inside (delivers : reader.store.Delivers image reader.token steady)
    (positive : 0 < reader.bytesPerSector.toNat) (count sector : Nat) (pieces : List (List UInt8))
    (near : ∀ further < count, reader.sectorStart (sector + further) ≤ Offset.maximum)
    (inside : ∀ further < count,
      image.HasSector reader.bytesPerSector.toNat (reader.sectorStart (sector + further)))
    (state : Cache × World σ) (holds : reader.Undisturbed image steady state) :
    (reader.gather sector count pieces state).1 = .ok (pieces.reverse.flatten ++
        image.slice (reader.sectorStart sector).toNat (count * reader.bytesPerSector.toNat)) ∧
      reader.Undisturbed image steady (reader.gather sector count pieces state).2 := by
  induction count generalizing sector pieces state with
  | zero => exact ⟨by simp [gather, Image.slice_eq_map], holds⟩
  | succ count ih =>
    have first : image.HasSector reader.bytesPerSector.toNat (reader.sectorStart sector) :=
      inside 0 (Nat.succ_pos _)
    have begins : reader.sectorStart sector ≤ Offset.maximum := near 0 (Nat.succ_pos _)
    obtain ⟨same, after⟩ := fetch_yields delivers positive begins state holds
    rw [Image.sectorAt, if_pos first] at same
    simp only [gather]
    rcases run : (reader.fetch sector).run state with ⟨fault | piece, later⟩
    all_goals rw [run] at same after
    · cases same
    cases same
    have rest : ∀ further < count,
        image.HasSector reader.bytesPerSector.toNat (reader.sectorStart (sector + 1 + further)) := by
      intro further below
      rw [Nat.add_right_comm]
      exact inside (further + 1) (Nat.succ_lt_succ below)
    obtain ⟨bytes, kept⟩ := ih (sector + 1) _ (near_next near) rest later after
    refine ⟨bytes.trans (congrArg Except.ok ?_), kept⟩
    obtain ⟨nonnegative, within⟩ := first
    have next : (reader.sectorStart (sector + 1)).toNat =
        (reader.sectorStart sector).toNat + reader.bytesPerSector.toNat := by
      rw [sectorStart_succ, Int.toNat_add nonnegative (Int.natCast_nonneg _), Int.toNat_natCast]
    rw [List.reverse_cons, List.flatten_append, List.append_assoc, next, Nat.add_mul, Nat.one_mul,
      Nat.add_comm (count * _), ← image.slice_append (by omega)]
    simp

/-- The first sector that is not to be had decides how the gathering fails. Only the very
first one can start before the image. -/
theorem gather_outside (delivers : reader.store.Delivers image reader.token steady)
    (positive : 0 < reader.bytesPerSector.toNat) (count sector : Nat) (pieces : List (List UInt8))
    (near : ∀ further < count, reader.sectorStart (sector + further) ≤ Offset.maximum)
    (outside : ∃ further < count,
      ¬ image.HasSector reader.bytesPerSector.toNat (reader.sectorStart (sector + further)))
    (state : Cache × World σ) (holds : reader.Undisturbed image steady state) :
    (reader.gather sector count pieces state).1 = .error (Image.sectorFault (reader.sectorStart sector)) ∧
      reader.Undisturbed image steady (reader.gather sector count pieces state).2 := by
  induction count generalizing sector pieces state with
  | zero =>
    obtain ⟨_, below, _⟩ := outside
    cases below
  | succ count ih =>
    have begins : reader.sectorStart sector ≤ Offset.maximum := near 0 (Nat.succ_pos _)
    obtain ⟨same, after⟩ := fetch_yields delivers positive begins state holds
    simp only [gather]
    rcases run : (reader.fetch sector).run state with ⟨fault | piece, later⟩
    all_goals
      rw [run] at same after
      by_cases first : image.HasSector reader.bytesPerSector.toNat (reader.sectorStart sector)
    · rw [Image.sectorAt, if_pos first] at same
      cases same
    · rw [Image.sectorAt, if_neg first] at same
      exact ⟨congrArg Except.error (Except.error.inj same), after⟩
    · obtain ⟨further, below, missing⟩ := outside
      have beyond : further ≠ 0 := by
        rintro rfl
        exact missing first
      obtain ⟨fewer, rfl⟩ := Nat.exists_eq_succ_of_ne_zero beyond
      have rest : ∃ further < count,
          ¬ image.HasSector reader.bytesPerSector.toNat (reader.sectorStart (sector + 1 + further)) := by
        refine ⟨fewer, Nat.lt_of_succ_lt_succ below, ?_⟩
        rwa [Nat.add_right_comm]
      obtain ⟨failed, kept⟩ := ih (sector + 1) (piece :: pieces) (near_next near) rest later after
      have nonnegative := first.1
      rw [Image.sectorFault, sectorStart_succ, if_neg (by omega)] at failed
      rw [Image.sectorFault, if_neg (by omega)]
      exact ⟨failed, kept⟩
    · rw [Image.sectorAt, if_neg first] at same
      cases same

end Reader
end PartitionTable
