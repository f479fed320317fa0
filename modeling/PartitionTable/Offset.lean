import PartitionTable.Fault

/-! Byte positions are signed 64-bit numbers and sizes are unsigned ones. Arithmetic is done
on unbounded integers and checked once, when the result becomes a position: `checked` keeps
exactly the values that fit, so a fault always means that the true result does not. -/
namespace PartitionTable.Offset

def maximum : Nat := 0x7fffffffffffffff

def addressLimit : Nat := 0xffffffffffffffff

def Fits (n : Int) : Prop := -0x8000000000000000 ≤ n ∧ n ≤ maximum

instance (n : Int) : Decidable (Fits n) := inferInstanceAs (Decidable (_ ∧ _))

def checked (n : Int) : Except Fault Int :=
  if Fits n then .ok n else .error .outOfBounds

/-- The position of a sector counted from a table. The distance has to fit by itself, also
where a negative table position would bring the sum back into range. -/
def ofSector (table : Int) (sector bytesPerSector : UInt32) : Except Fault Int := do
  let distance ← checked (sector.toNat * bytesPerSector.toNat)
  checked (table + distance)

def sectorBytes (count bytesPerSector : UInt32) : Nat := count.toNat * bytesPerSector.toNat

/-- The last multiple of a positive sector size at or before a position. -/
def alignDown (position : Nat) (bytesPerSector : UInt32) : Nat :=
  position - position % bytesPerSector.toNat

theorem checked_ok (fits : Fits n) : checked n = .ok n := by simp [checked, fits]

theorem checked_error (outside : ¬ Fits n) : checked n = .error .outOfBounds := by
  simp [checked, outside]

theorem checked_eq_ok : checked n = .ok m ↔ Fits n ∧ m = n := by
  by_cases fits : Fits n
  · simp [checked_ok fits, fits, eq_comm]
  · simp [checked_error fits, fits]

theorem bind_eq_ok {first : Except Fault α} {next : α → Except Fault β} :
    first >>= next = .ok b ↔ ∃ a, first = .ok a ∧ next a = .ok b := by
  cases first <;> simp [bind, Except.bind]

/-- A sector has a position only if its distance and the sum both fit. -/
theorem ofSector_eq_ok : ofSector table sector bytesPerSector = .ok offset ↔
    Fits (sector.toNat * bytesPerSector.toNat) ∧ Fits offset ∧
      offset = table + sector.toNat * bytesPerSector.toNat := by
  simp only [ofSector, bind_eq_ok, checked_eq_ok]
  constructor
  · rintro ⟨_, ⟨near, rfl⟩, fits, rfl⟩
    exact ⟨near, fits, rfl⟩
  · rintro ⟨near, fits, rfl⟩
    exact ⟨_, ⟨near, rfl⟩, fits, rfl⟩

theorem alignDown_eq : alignDown position bytesPerSector =
    bytesPerSector.toNat * (position / bytesPerSector.toNat) := by
  have := Nat.div_add_mod position bytesPerSector.toNat
  unfold alignDown
  omega

end PartitionTable.Offset
