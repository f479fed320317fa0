import PartitionTable.Command.Run

/-! Reading back what the command prints. A report is read from the front: the wording that has to
stand there, then numbers as far as their digits go, and a name up to the end of its line. Nothing is
lost on the way to the text: what is read of it are the numbers that it was made of. -/
namespace PartitionTable.Command

structure Block where
  number : Nat
  code : Nat
  name : String
  offset : Int
  hexOffset : Int
  size : Nat
  deriving DecidableEq, Repr

def Block.ofRow (number : Nat) (row : Row) : Block :=
  ⟨number, row.kind.code.toNat, row.kind.name, row.offset, row.offset, row.size⟩

structure Contents where
  identity : Nat
  bytesPerSector : Nat
  partitions : Nat
  blocks : List Block
  deriving DecidableEq, Repr

/-- Something that is read off the front of a text. -/
abbrev Scan := StateT (List Char) Option

namespace Scan

def skip (wording : String) : Scan Unit := fun text =>
  let length := wording.toList.length
  if text.take length = wording.toList then some ((), text.drop length) else none

def isDigit (base : Nat) (c : Char) : Bool :=
  (c.isDigit || ('a' ≤ c && c ≤ 'f')) && Numeral.digitValue c < base

def number (base : Nat) : Scan Nat := fun text =>
  let digits := text.takeWhile (isDigit base)
  if digits = [] then none else some (Numeral.value base digits, text.dropWhile (isDigit base))

def enclosed : Scan String := fun text =>
  let line := text.takeWhile (· != '\n')
  if line.getLast? = some ')' then some (String.ofList line.dropLast, text.dropWhile (· != '\n')) else none

def block : Scan Block := do
  skip "Partition: "
  let number ← number 10
  skip "\n"
  skip "\tType\t\t\t: 0x"
  let code ← Scan.number 16
  skip " ("
  let name ← enclosed
  skip "\n"
  skip "\tOffset\t\t\t: "
  let offset ← Scan.number 10
  skip " (0x"
  let hexOffset ← Scan.number 16
  skip ")"
  skip "\n"
  skip "\tSize\t\t\t: "
  let size ← Scan.number 10
  skip "\n"
  skip "\n"
  return { number, code, name, offset, hexOffset, size }

def blocks : Nat → Scan (List Block)
  | 0 => return []
  | count + 1 => do
    let first ← block
    let rest ← blocks count
    return first :: rest

def contents : Scan Contents := do
  skip banner
  skip "Master Boot Record (MBR) information:"
  skip "\n"
  skip "\tDisk identity\t\t: 0x"
  let identity ← number 16
  skip "\n"
  skip "\tBytes per sector\t: "
  let bytesPerSector ← number 10
  skip "\n"
  skip "\tNumber of partitions\t: "
  let partitions ← number 10
  skip "\n"
  skip "\n"
  let blocks ← blocks partitions
  return { identity, bytesPerSector, partitions, blocks }

end Scan

/-- The numbers of a whole text, with nothing left over. -/
def Report.read? (text : String) : Option Contents :=
  match Scan.contents.run text.toList with
  | some (contents, []) => some contents
  | _ => none

namespace Scan

variable {base : Nat}

theorem run_bind {first : Scan α} {text rest : List Char} (read : first.run text = some (a, rest)) (next : α → Scan β) :
    (first >>= next).run text = (next a).run rest := by
  rw [StateT.run_bind, read]
  rfl

theorem skip_append (wording : String) (next : Unit → Scan α) (rest : List Char) :
    (skip wording >>= next).run (wording.toList ++ rest) = (next ()).run rest := by
  refine run_bind ?_ next
  simp only [skip, StateT.run, List.take_left, List.drop_left, ↓reduceIte]

theorem cut_append {kind : Char → Bool} {front rest : List Char} (all : ∀ c ∈ front, kind c = true)
    (stops : ∀ c ∈ rest.head?, kind c = false) :
    (front ++ rest).takeWhile kind = front ∧ (front ++ rest).dropWhile kind = rest := by
  rw [List.takeWhile_append_of_pos all, List.dropWhile_append_of_pos all]
  cases rest with
  | nil => simp
  | cons c rest =>
    have other : ¬ kind c = true := by simpa using stops c
    rw [List.takeWhile_cons_of_neg other, List.dropWhile_cons_of_neg other, List.append_nil]
    exact ⟨rfl, rfl⟩

theorem isDigit_digitChar (small : n < base) (known : base ≤ 16) : isDigit base (Numeral.digitChar n) = true := by
  have every : ∀ digit : Fin 16, ((Numeral.digitChar digit).isDigit ||
      ('a' ≤ Numeral.digitChar digit && Numeral.digitChar digit ≤ 'f')) = true := by decide
  have bounded : n < 16 := by omega
  rw [isDigit, every ⟨n, bounded⟩, Numeral.digitValue_digitChar bounded]
  simpa using small

theorem isDigit_digits (proper : 2 ≤ base) (known : base ≤ 16) (n : Nat) :
    ∀ c ∈ Numeral.digits base n, isDigit base c = true := by
  fun_induction Numeral.digits base n with
  | case1 n small =>
    intro c member
    rw [List.mem_singleton.mp member]
    exact isDigit_digitChar (by omega) known
  | case2 n large ih =>
    intro c member
    rcases List.mem_append.mp member with member | member
    · exact ih c member
    · rw [List.mem_singleton.mp member]
      exact isDigit_digitChar (Nat.mod_lt n (by omega)) known

theorem digits_ne_nil (base n : Nat) : Numeral.digits base n ≠ [] := by
  unfold Numeral.digits
  split <;> simp

/-- Digits are read as the number that they stand for, up to a character that is none. -/
theorem number_append {digits rest : List Char} (some : digits ≠ [])
    (numeral : ∀ c ∈ digits, isDigit base c = true) (stops : ∀ c ∈ rest.head?, isDigit base c = false) :
    (number base).run (digits ++ rest) = .some (Numeral.value base digits, rest) := by
  obtain ⟨taken, left⟩ := cut_append numeral stops
  simp only [number, StateT.run, taken, left, some, ↓reduceIte]

theorem number_decimal (n : Nat) (next : Nat → Scan α) {rest : List Char}
    (stops : ∀ c ∈ rest.head?, isDigit 10 c = false) :
    (number 10 >>= next).run ((Numeral.decimal n).toList ++ rest) = (next n).run rest := by
  refine run_bind ?_ next
  rw [Numeral.decimal, String.toList_ofList, number_append (digits_ne_nil 10 n)
    (isDigit_digits (by decide) (by decide) n) stops, Numeral.value_digits (by decide) (by decide)]

theorem stops_append {wording : String} (some : wording.toList ≠ [])
    (plain : wording.toList.head?.any (isDigit base) = false) (rest : List Char) :
    ∀ c ∈ (wording.toList ++ rest).head?, isDigit base c = false := by
  obtain ⟨first, others, same⟩ := List.exists_cons_of_ne_nil some
  rw [same] at plain ⊢
  rintro _ ⟨⟩
  exact plain

theorem number_hex (width n : Nat) (next : Nat → Scan α) {rest : List Char}
    (stops : ∀ c ∈ rest.head?, isDigit 16 c = false) :
    (number 16 >>= next).run ((Numeral.hex width n).toList ++ rest) = (next n).run rest := by
  refine run_bind ?_ next
  have numeral : ∀ c ∈ List.replicate (width - (Numeral.digits 16 n).length) '0' ++ Numeral.digits 16 n,
      isDigit 16 c = true := by
    intro c member
    rcases List.mem_append.mp member with zero | digit
    · rw [List.eq_of_mem_replicate zero]
      decide
    · exact isDigit_digits (by decide) (by decide) n c digit
  rw [Numeral.hex, String.toList_ofList, number_append (by simp [digits_ne_nil]) numeral stops, Numeral.value_zeros,
    Numeral.value_digits (by decide) (by decide)]

theorem name_unbroken (kind : Kind) : ∀ c ∈ kind.name.toList, c ≠ '\n' := by
  have every : Kind.names.all fun entry => entry.2.toList.all (· != '\n') := by decide +kernel
  have unknown : "Unknown".toList.all (· != '\n') := by decide
  have unbroken : kind.name.toList.all (· != '\n') := by
    rw [Kind.name]
    rcases known : Kind.names.lookup kind.code with _ | name
    · exact unknown
    · obtain ⟨before, after, split, _⟩ := List.lookup_eq_some_iff.mp known
      exact List.all_eq_true.mp every (kind.code, name) (split ▸ List.mem_append_right _ List.mem_cons_self)
  exact fun c member => bne_iff_ne.mp (List.all_eq_true.mp unbroken c member)

theorem enclosed_append {name : String} (unbroken : ∀ c ∈ name.toList, c ≠ '\n') (next : String → Scan α)
    (rest : List Char) :
    (enclosed >>= next).run (name.toList ++ (")".toList ++ ("\n".toList ++ rest))) =
      (next name).run ("\n".toList ++ rest) := by
  refine run_bind ?_ next
  have line : ∀ c ∈ name.toList ++ ")".toList, (c != '\n') = true := by
    intro c member
    rcases List.mem_append.mp member with inside | bracket
    · simpa using unbroken c inside
    · rw [List.mem_singleton.mp bracket]
      decide
  have stops : ∀ c ∈ ("\n".toList ++ rest).head?, (c != '\n') = false := by simp
  obtain ⟨taken, left⟩ := cut_append line stops
  have last : (name.toList ++ ")".toList).getLast? = some ')' := List.getLast?_concat
  have front : (name.toList ++ ")".toList).dropLast = name.toList := List.dropLast_concat
  rw [← List.append_assoc]
  simp only [enclosed, StateT.run, taken, left, last, front, ↓reduceIte, String.ofList_toList]

/-- A block of a report shows the numbers of its row. -/
theorem block_row (number : Nat) (row : Row) (fits : 0 ≤ row.offset ∧ row.offset ≤ Offset.maximum) (rest : List Char) :
    block.run ((Report.lines (Report.row number row)).toList ++ rest) = some (.ofRow number row, rest) := by
  obtain ⟨kind, offset, size⟩ := row
  obtain ⟨place, rfl⟩ := Int.eq_ofNat_of_zero_le fits.1
  have newline : ['\n'] = "\n".toList := rfl
  have shown : Numeral.integer place = Numeral.decimal place := if_neg (Int.not_ofNat_neg place)
  have complement : Numeral.signedHex 8 place = Numeral.hex 8 place := by
    have small := fits.2
    simp only [Offset.maximum] at small
    have low : (place : Int).emod 0x10000000000000000 = place := Int.emod_eq_of_lt (by omega) (by omega)
    rw [Numeral.signedHex, low, Int.toNat_natCast]
  simp only [Report.lines, Report.row, String.toList_ofList, List.flatMap_cons, List.flatMap_nil, String.toList_append,
    List.append_assoc, List.append_nil, newline, toString, shown, complement]
  simp (disch := exact stops_append (by decide) (by decide) _) only [block, skip_append, number_decimal,
    number_hex, enclosed_append (name_unbroken kind)]
  rfl

theorem lines_append (first second : List String) (rest : List Char) :
    (Report.lines (first ++ second)).toList ++ rest =
      (Report.lines first).toList ++ ((Report.lines second).toList ++ rest) := by
  simp only [Report.lines, String.toList_ofList, List.flatMap_append, List.append_assoc]

theorem blocks_rows (start : Nat) (rows : List Row)
    (fits : ∀ row ∈ rows, 0 ≤ row.offset ∧ row.offset ≤ Offset.maximum) (rest : List Char) :
    (blocks rows.length).run ((Report.lines (Report.rowsFrom start rows)).toList ++ rest) =
      some (rows.mapIdx fun index row => .ofRow (start + index) row, rest) := by
  induction rows generalizing start with
  | nil => rfl
  | cons row rows ih =>
    obtain ⟨first, others⟩ := List.forall_mem_cons.mp fits
    rw [Report.rowsFrom, lines_append, List.length_cons, blocks, List.mapIdx_cons,
      run_bind (block_row start row first _), run_bind (ih (start + 1) others)]
    simp only [Nat.add_right_comm]
    rfl

end Scan

/-- What is read of a report are the numbers of its heading, and a block for each of its rows. -/
theorem Report.read?_text (header : Heading) (rows : List Row) (count : header.partitions = rows.length)
    (fits : ∀ row ∈ rows, 0 ≤ row.offset ∧ row.offset ≤ Offset.maximum) :
    read? (banner ++ text header rows) = some {
      identity := header.identity.toNat
      bytesPerSector := header.bytesPerSector.toNat
      partitions := rows.length
      blocks := rows.mapIdx fun index row => .ofRow (index + 1) row } := by
  have newline : ['\n'] = "\n".toList := rfl
  have scanned : Scan.contents.run (banner ++ text header rows).toList = some ({
      identity := header.identity.toNat
      bytesPerSector := header.bytesPerSector.toNat
      partitions := rows.length
      blocks := rows.mapIdx fun index row => .ofRow (1 + index) row }, []) := by
    have behind := Scan.blocks_rows 1 rows fits []
    rw [String.toList_append, text, ← List.append_nil (lines _).toList, Scan.lines_append]
    simp only [heading, lines, String.toList_ofList, List.flatMap_cons, List.flatMap_nil, String.toList_append,
      List.append_assoc, List.append_nil, newline, toString, count] at behind ⊢
    simp (disch := exact Scan.stops_append (by decide) (by decide) _) only [Scan.contents, Scan.skip_append,
      Scan.number_decimal, Scan.number_hex]
    have blank : "".toList ++ ("\n".toList ++ (rowsFrom 1 rows).flatMap fun line => line.toList ++ "\n".toList) =
        "\n".toList ++ (rowsFrom 1 rows).flatMap fun line => line.toList ++ "\n".toList := rfl
    rw [blank, Scan.skip_append, Scan.run_bind behind]
    rfl
  rw [read?, scanned]
  simp only [Nat.add_comm 1]

end PartitionTable.Command
