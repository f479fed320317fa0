/-! Numbers as text. `digits` writes a number in a base up to sixteen, most significant digit
first and without leading zeros; `value` reads digits back, leading zeros or not. The main
statement is `value_digits`: what is written reads as the number it was written from. -/
namespace PartitionTable.Numeral

def digitChar (n : Nat) : Char :=
  if n < 10 then Char.ofNat ('0'.toNat + n) else Char.ofNat ('a'.toNat + (n - 10))

def digitValue (c : Char) : Nat :=
  if c.toNat < 'a'.toNat then c.toNat - '0'.toNat else c.toNat - 'a'.toNat + 10

/-- Zero has one digit. -/
def digits (base n : Nat) : List Char :=
  if _small : base < 2 ∨ n < base then [digitChar n]
  else digits base (n / base) ++ [digitChar (n % base)]
  termination_by n
  decreasing_by exact Nat.div_lt_self (by omega) (by omega)

def value (base : Nat) (text : List Char) : Nat :=
  text.foldl (fun value digit => base * value + digitValue digit) 0

def decimal (n : Nat) : String := String.ofList (digits 10 n)

def integer (n : Int) : String := if n < 0 then "-" ++ decimal n.natAbs else decimal n.natAbs

/-- Hexadecimal, with zeros in front up to a width. -/
def hex (width n : Nat) : String :=
  String.ofList (List.replicate (width - (digits 16 n).length) '0' ++ digits 16 n)

/-- A signed 64-bit number is shown by its two's complement. -/
def signedHex (width : Nat) (n : Int) : String := hex width (n.emod 0x10000000000000000).toNat

def hexBytes (bytes : List UInt8) : String := String.join (bytes.map fun byte => hex 2 byte.toNat)

theorem digitValue_digitChar (small : n < 16) : digitValue (digitChar n) = n := by
  have every : ∀ digit : Fin 16, digitValue (digitChar digit) = digit := by decide
  exact every ⟨n, small⟩

theorem value_append (base : Nat) (text : List Char) (digit : Char) :
    value base (text ++ [digit]) = base * value base text + digitValue digit := by
  simp [value]

theorem value_digits (proper : 2 ≤ base) (known : base ≤ 16) (n : Nat) :
    value base (digits base n) = n := by
  fun_induction digits base n with
  | case1 n small =>
    have : n < 16 := by omega
    simp [value, digitValue_digitChar this]
  | case2 n large ih =>
    have : n % base < 16 := by
      have := Nat.mod_lt n (show 0 < base by omega)
      omega
    rw [value_append, ih, digitValue_digitChar this]
    exact Nat.div_add_mod n base

theorem value_zeros (base count : Nat) (text : List Char) :
    value base (List.replicate count '0' ++ text) = value base text := by
  have zero : (List.replicate count '0').foldl
      (fun value digit => base * value + digitValue digit) 0 = 0 := by
    induction count with
    | zero => rfl
    | succ count ih => simpa [List.replicate_succ, digitValue] using ih
  simp [value, List.foldl_append, zero]

end PartitionTable.Numeral
