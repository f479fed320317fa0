import Mathlib.Algebra.Group.Int.Defs
import Mathlib.Algebra.Group.Nat.Defs
import PartitionTable.Offset

/-! Numbers of 64 bits. An exact result can be checked to be such a number, or words can be added and
multiplied as a machine does it, which flags a result that no word holds. Both come to the same: a
result is given exactly if it fits, and it is the exact one. -/
namespace PartitionTable.Offset

/-- A signed number of 64 bits. -/
def signed? (n : Int) : Option Int := if Fits n then some n else none

/-- An unsigned number of 64 bits, as lengths and places in a buffer are. -/
def unsigned? (n : Int) : Option Nat := if 0 ≤ n ∧ n ≤ addressLimit then some n.toNat else none

theorem signed?_eq (fits : Fits n) : signed? n = some n := if_pos fits

theorem unsigned?_eq {n : Nat} (small : n ≤ addressLimit) : unsigned? n = some n :=
  if_pos ⟨Int.natCast_nonneg n, Int.ofNat_le.mpr small⟩

theorem unsigned?_sub {n m : Nat} (ordered : m ≤ n) (small : n ≤ addressLimit) :
    unsigned? (n - m) = some (n - m) := by
  rw [← Int.ofNat_sub ordered]
  exact unsigned?_eq (Nat.le_trans (Nat.sub_le n m) small)

theorem unsigned?_none {n : Nat} (large : addressLimit < n) : unsigned? n = none :=
  if_neg fun fits => Nat.not_le.mpr large (Int.ofNat_le.mp fits.2)

theorem fits_natCast {n : Nat} (small : n ≤ maximum) : Fits n :=
  ⟨by omega, Int.ofNat_le.mpr small⟩

theorem exists_word (fits : Fits n) : ∃ word : Int64, word.toInt = n :=
  ⟨.ofInt n, Int64.toInt_ofInt_of_le fits.1 (Int.lt_add_one_of_le fits.2)⟩

def sum? (a b : Int64) : Option Int64 := if a.toBitVec.saddOverflow b.toBitVec then none else some (a + b)

def product? (a b : Int64) : Option Int64 := if a.toBitVec.smulOverflow b.toBitVec then none else some (a * b)

/-- The bits of an unsigned word read as a signed one, unless they read as a negative number. -/
def resigned? (n : UInt64) : Option Int64 := if n.toInt64 < 0 then none else some n.toInt64

theorem flagged_eq_some {flag : Prop} [Decidable flag] {word result : Int64} (flagged : flag ↔ ¬ Fits n)
    (exact : ¬ flag → word.toInt = n) :
    (if flag then none else some word) = some result ↔ Fits n ∧ result.toInt = n := by
  by_cases fits : Fits n
  · have quiet : ¬ flag := fun flag => flagged.mp flag fits
    simp only [quiet, ↓reduceIte, Option.some.injEq, fits, true_and]
    constructor
    · rintro rfl
      exact exact quiet
    · intro same
      exact Int64.toInt_inj.mp ((exact quiet).trans same.symm)
  · simp only [flagged.mpr fits, ↓reduceIte, reduceCtorEq, fits, false_and]

theorem sum?_eq_some : sum? a b = some c ↔ Fits (a.toInt + b.toInt) ∧ c.toInt = a.toInt + b.toInt := by
  apply flagged_eq_some
  · simp only [BitVec.saddOverflow, Int64.toInt_toBitVec, Bool.or_eq_true, decide_eq_true_eq, Fits, maximum]
    omega
  · exact fun quiet => BitVec.toInt_add_of_not_saddOverflow quiet

theorem product?_eq_some : product? a b = some c ↔ Fits (a.toInt * b.toInt) ∧ c.toInt = a.toInt * b.toInt := by
  apply flagged_eq_some
  · simp only [BitVec.smulOverflow, Int64.toInt_toBitVec, Bool.or_eq_true, decide_eq_true_eq, Fits, maximum]
    omega
  · exact fun quiet => BitVec.toInt_mul_of_not_smulOverflow quiet

theorem toInt_toInt64 (n : UInt64) :
    n.toInt64.toInt = if 2 * n.toNat < 2 ^ 64 then (n.toNat : Int) else n.toNat - 2 ^ 64 :=
  BitVec.toInt_eq_toNat_cond n.toBitVec

theorem resigned?_eq_some : resigned? n = some c ↔ Fits n.toNat ∧ c.toInt = n.toNat := by
  have small := n.toNat_lt
  have negative : n.toInt64 < 0 ↔ n.toInt64.toInt < 0 := Int64.lt_iff_toInt_lt
  have flagged : n.toInt64 < 0 ↔ ¬ Fits n.toNat := by
    rw [negative, toInt_toInt64, Fits, maximum]
    split <;> omega
  apply flagged_eq_some flagged
  intro positive
  rw [negative, toInt_toInt64] at positive
  rw [toInt_toInt64]
  split at positive
  · exact if_pos ‹_›
  · omega

theorem toInt_widened (n : UInt32) : n.toUInt64.toInt64.toInt = n.toNat := by
  have small := n.toNat_lt
  rw [toInt_toInt64, UInt32.toNat_toUInt64]
  exact if_pos (by omega)

theorem toNat_widened_mul (n m : UInt32) : (n.toUInt64 * m.toUInt64).toNat = n.toNat * m.toNat := by
  have small : n.toNat * m.toNat < 2 ^ 32 * 2 ^ 32 := Nat.mul_lt_mul'' n.toNat_lt m.toNat_lt
  rw [UInt64.toNat_mul, UInt32.toNat_toUInt64, UInt32.toNat_toUInt64]
  exact Nat.mod_eq_of_lt small

end PartitionTable.Offset
