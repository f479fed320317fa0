import PartitionTable.Kind
import PartitionTable.Numeral

/-! What the command prints about a disk. A report is a value first, and `text` is its only
wording. -/
namespace PartitionTable.Command

/-- One partition as it is printed: its bytes from the start of the disk. -/
structure Row where
  kind : Kind
  offset : Int
  size : Nat
  deriving DecidableEq, Repr

structure Heading where
  identity : UInt32
  bytesPerSector : UInt32
  partitions : Nat
  deriving DecidableEq, Repr

namespace Report

/-- Every line is ended, the last one too. -/
def lines (lines : List String) : String :=
  String.ofList (lines.flatMap fun line => line.toList ++ ['\n'])

def heading (heading : Heading) : List String := [
  "Master Boot Record (MBR) information:",
  s!"\tDisk identity\t\t: 0x{Numeral.hex 8 heading.identity.toNat}",
  s!"\tBytes per sector\t: {Numeral.decimal heading.bytesPerSector.toNat}",
  s!"\tNumber of partitions\t: {Numeral.decimal heading.partitions}",
  ""]

/-- Rows are numbered from one. -/
def row (number : Nat) (row : Row) : List String := [
  s!"Partition: {Numeral.decimal number}",
  s!"\tType\t\t\t: 0x{Numeral.hex 2 row.kind.code.toNat} ({row.kind.name})",
  s!"\tOffset\t\t\t: {Numeral.integer row.offset} (0x{Numeral.signedHex 8 row.offset})",
  s!"\tSize\t\t\t: {Numeral.decimal row.size}",
  ""]

def rowsFrom : Nat → List Row → List String
  | _, [] => []
  | number, first :: rest => row number first ++ rowsFrom (number + 1) rest

def text (header : Heading) (rows : List Row) : String :=
  lines (heading header ++ rowsFrom 1 rows)

end Report
end PartitionTable.Command
