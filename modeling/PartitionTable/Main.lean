import PartitionTable.Command.Run
import PartitionTable.Preloaded

/-! The command line program. It looks at the file that the arguments name, runs the command
on what it found, and prints the outcome. -/
namespace PartitionTable.Command

/-- The system's own number and words for an error, where they are known. -/
def systemError? : IO.Error → Option (UInt32 × String)
  | .noFileOrDirectory _ code details | .interrupted _ code details
  | .permissionDenied _ code details | .inappropriateType _ code details
  | .invalidArgument _ code details | .resourceExhausted _ code details
  | .noSuchThing _ code details | .otherError code details
  | .resourceBusy code details | .hardwareFault code details
  | .illegalOperation code details | .unsupportedOperation code details => some (code, details)
  | _ => none

/-- Some layers report the number of an error as its negative. -/
def errorNumber (code : UInt32) : Nat := min code.toNat (UInt32.size - code.toNat)

/-- A directory can be opened; it only turns out not to be a file when it is read. -/
def found (error : IO.Error) : Except HostError Node :=
  match systemError? error with
  | none => .error (.other (toString error))
  | some (code, details) =>
    match errorNumber code with
    | 2 => .error .noSuchFile
    | 4 => .error .interrupted
    | 20 => .error .notDirectory
    | 21 => .ok .directory
    | 22 => .error .invalidArgument
    | 36 => .error .nameTooLong
    | number => .error (.other s!"{details.capitalize} (os error {number})")

def preload (path : String) : IO Preloaded := do
  try
    let data ← IO.FS.readBinFile path
    return ⟨path, .ok (.file (Image.ofArray data))⟩
  catch error => return ⟨path, found error⟩

def preloadSource (arguments : List String) : IO Preloaded :=
  match Arguments.read arguments with
  | .ok (.info settings) => preload (settings.source.getD "")
  | _ => return ⟨"", .error .noSuchFile⟩

end PartitionTable.Command

def main (arguments : List String) : IO UInt32 := do
  let preloaded ← PartitionTable.Command.preloadSource arguments
  let outcome := PartitionTable.Command.run PartitionTable.Preloaded.host preloaded arguments
  IO.print outcome.output
  IO.eprint outcome.errors
  return outcome.exitCode.toUInt32
