import PartitionTable.Command.Arguments
import PartitionTable.Command.Report
import PartitionTable.Store.File
import PartitionTable.Volume

/-! The command: arguments in, two texts and an exit code out. The disk is a file of the
host. Whatever goes wrong, standard output holds only what was printed before, and the
reason stands on standard error. -/
namespace PartitionTable.Command

structure Outcome where
  exitCode : UInt8
  output : String
  errors : String
  deriving DecidableEq, Repr

def banner : String := Report.lines ["mbrinfo 0.1.0", ""]

def usage : String := Report.lines [
  "Use mbrinfo to determine information about a Master Boot Record",
  "(MBR) volume system.",
  "",
  "Usage: mbrinfo [ -b bytes_per_sector ] [ -hvV ] source",
  "",
  "\tsource: the source file",
  "",
  "\t-b:     specify the number of bytes per sector (default is 512)",
  "\t        supported values: 512, 1024, 2048, 4096",
  "\t-h:     shows this help",
  "\t-v:     verbose output to stderr",
  "\t-V:     print version"]

/-- The rows of the partitions with these numbers, up to the first that has no reader. -/
def rows (volume : Volume σ) : List Nat → List Row × Except Fault Unit
  | [] => ([], .ok ())
  | index :: rest =>
    match volume.reader index with
    | .error fault => ([], .error fault)
    | .ok reader =>
      let (later, result) := rows volume rest
      (⟨reader.extent.kind, reader.start, reader.size⟩ :: later, result)

/-- Opens the store, prints what is on it and closes it. The result is what was printed, and
how the printing and the closing went. -/
def describe (settings : Settings) (store : Store σ) :
    Act (Volume σ × World σ) (String × Except Fault Unit) := do
  match settings.bytesPerSector with
  | some count => Volume.setBytesPerSector count
  | none => pure ()
  Volume.openOwned store
  let volume ← Volume.current
  let count := volume.partitions.length
  let (rows, printed) := rows volume (List.range count)
  let text := Report.text ⟨volume.identity, volume.sectorSize.bytes, count⟩ rows
  match printed with
  | .error fault => return (text, .error fault)
  | .ok () => return (text, ← Volume.close.attempt)

/-- The log as it is shown: warnings and errors always, more on demand, but never traces. -/
def logText (verbose : Bool) (notices : List Notice) : String :=
  let threshold := if verbose then Level.debug else Level.warn
  Report.lines ((notices.filter fun notice => threshold.severity ≤ notice.level.severity).map
    fun notice => s!"[{notice.level.name}] {notice.text}")

def info (host : Host η) (system : η) (settings : Settings) (source : String) : Outcome :=
  let start := (({ token := ⟨0⟩ } : Volume (File × η)), World.start ({ path := source }, system))
  let (result, volume, world) := (describe settings (File.store host)).run start
  let world := volume.discard world
  let (text, result) := match result with
    | .ok (text, result) => (text, result)
    | .error fault => ("", .error fault)
  match result with
  | .ok () => ⟨0, banner ++ text, logText settings.verbose world.notices.reverse⟩
  | .error fault =>
    let world := world.note (.volumeUnreadable source fault)
    ⟨1, banner ++ text, logText settings.verbose world.notices.reverse ++
      Report.lines [s!"Unable to open: {source}: {fault.message}"]⟩

def run (host : Host η) (system : η) (arguments : List String) : Outcome :=
  match Arguments.read arguments with
  | .error refusal => ⟨1, banner, Report.lines [refusal.message] ++ usage⟩
  | .ok .help => ⟨0, banner, usage⟩
  | .ok .version => ⟨0, banner, ""⟩
  | .ok (.info settings) =>
    match settings.source with
    | none => ⟨1, banner, Report.lines ["Missing source file."] ++ usage⟩
    | some source => info host system settings source

end PartitionTable.Command
