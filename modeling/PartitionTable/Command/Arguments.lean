import PartitionTable.Numeral

/-! What a command line asks for. Arguments are taken from left to right, and the first one
that settles the matter ends the reading: a request for help or for the version, or an
argument that fits nowhere. A value belongs to the flag before it, whatever it looks like. -/
namespace PartitionTable.Command

structure Settings where
  bytesPerSector : Option UInt32 := none
  verbose : Bool := false
  source : Option String := none
  deriving DecidableEq, Repr

inductive Request where
  | info (settings : Settings)
  | help
  | version
  deriving DecidableEq, Repr

inductive Refusal where
  | missingValue
  | unsupportedValue (value : String)
  | invalidFlag (flag : String)
  | secondSource (source : String)
  deriving DecidableEq, Repr

def Refusal.message : Refusal → String
  | missingValue => "missing value for -b"
  | unsupportedValue value => s!"unsupported bytes per sector: {value}"
  | invalidFlag flag => s!"invalid argument: {flag}"
  | secondSource source => s!"unexpected argument: {source}"

namespace Arguments

/-- A decimal number of 32 bits. One plus sign may stand in front of the digits, and zeros
may lead them. -/
def number? (text : String) : Option UInt32 :=
  let digits : List Char := match text.toList with
    | '+' :: digits => digits
    | digits => digits
  let value := Numeral.value 10 digits
  if digits ≠ [] ∧ digits.all (·.isDigit) ∧ value < UInt32.size then some (UInt32.ofNat value) else none

/-- How one argument reads where a flag or a source is expected. -/
inductive Word where
  | help
  | version
  | verbose
  | size
  | unknown
  | source
  deriving DecidableEq, Repr

/-- A lone dash is a source. -/
def classify (argument : String) : Word :=
  match argument.toList with
  | ['-', 'h'] => .help
  | ['-', 'V'] => .version
  | ['-', 'v'] => .verbose
  | ['-', 'b'] => .size
  | '-' :: _ :: _ => .unknown
  | _ => .source

/-- Reads the remaining arguments on top of what the earlier ones have set. -/
def readFrom (settings : Settings) : List String → Except Refusal Request
  | [] => .ok (.info settings)
  | argument :: rest =>
    match classify argument with
    | .help => .ok .help
    | .version => .ok .version
    | .verbose => readFrom { settings with verbose := true } rest
    | .size =>
      match rest with
      | [] => .error .missingValue
      | value :: rest =>
        match number? value with
        | some count => readFrom { settings with bytesPerSector := some count } rest
        | none => .error (.unsupportedValue value)
    | .unknown => .error (.invalidFlag argument)
    | .source =>
      match settings.source with
      | some _ => .error (.secondSource argument)
      | none => readFrom { settings with source := some argument } rest

def read (arguments : List String) : Except Refusal Request := readFrom {} arguments

end Arguments
end PartitionTable.Command
